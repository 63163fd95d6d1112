import Doupro.CrashLoop.Monitor
import Doupro.Go.Duration
import Doupro.System.Crowd

/-!
# The horizon of a self-update

Which containers a schedule is about, and `SelfUpdateBlockers`, which asks what could still
touch one before an instant.
-/

namespace Doupro.Scheduler

open Go Interaction Monitor

/-- `t.UTC().Format(time.RFC3339)`. -/
def rfc3339 (t : Time) : String := String.ofList (Time.rfc3339Nano (t / second * second))

/-- `resolveTargets`. -/
def resolveTargets (ctx : Context) (sc : Schedule) : Go (Except GoError (List ContainerRecord)) := do
  if sc.containerName ≠ "" then
    match ← getContainerByName ctx sc.containerName with
    | .error err => return .error err
    | .ok rec => return .ok [rec]
  else
    match ← store ctx .listContainers with
    | .error err => return .error err
    | .ok all => return .ok (all.filter fun rec => rec.stack = sc.stack)

/-- The scope a schedule selects candidates by. -/
def scopeOf (sc : Schedule) : String := if sc.semverPolicy = "" then "major" else sc.semverPolicy

/-- A target the executors pass over. -/
def isSkipped (rec : ContainerRecord) : Bool := !rec.updateAvailable || rec.excluded

/-- When a relative schedule takes a target, if it has a candidate. -/
def dueAt (ctx : Context) (now : Time) (sc : Schedule) (rec : ContainerRecord) :
    Go (Except GoError (Option Time)) := do
  if sc.relativePolicy ≠ .delayed then return .ok (some now)
  match Duration.parse sc.relativeAfter with
  | .error text =>
    return .error (.wrap ("parse schedule #" ++ toString sc.id ++ " delay") (.external text))
  | .ok delay => match ← store ctx (.getUpdateCandidate rec.id (scopeOf sc)) with
    | .error _ => return .ok none
    | .ok candidate => return .ok (some (candidate.detectedAt + delay))

/-- The targets of a relative schedule that are due by the horizon. -/
def targetBlockers (ctx : Context) (horizon now : Time) (sc : Schedule) :
    List ContainerRecord → Go (Except GoError (List String))
  | [] => return .ok []
  | rec :: rest => do
    if isSkipped rec then targetBlockers ctx horizon now sc rest
    else match ← dueAt ctx now sc rec with
      | .error err => return .error err
      | .ok due =>
        let found := (due.filter fun due => decide (due ≤ horizon)).toList.map fun due =>
          "relative schedule #" ++ toString sc.id ++ " for " ++ rec.name ++ " is due at " ++ rfc3339 due
        match ← targetBlockers ctx horizon now sc rest with
        | .error err => return .error err
        | .ok later => return .ok (found ++ later)

/-- What one schedule could still do by the horizon. -/
def blockersOf (ctx : Context) (horizon now : Time) (sc : Schedule) :
    Go (Except GoError (List String)) := do
  if ¬ sc.enabled then return .ok []
  if let some next := sc.nextRunAt.filter fun next => decide (next ≤ horizon) then
    return .ok ["schedule #" ++ toString sc.id ++ " is due at " ++ rfc3339 next]
  if sc.kind ≠ .relative then return .ok []
  match ← resolveTargets ctx sc with
  | .error err => return .error err
  | .ok targets => targetBlockers ctx horizon now sc targets

def scheduleBlockers (ctx : Context) (horizon now : Time) :
    List Schedule → Go (Except GoError (List String))
  | [] => return .ok []
  | sc :: rest => do
    match ← blockersOf ctx horizon now sc with
    | .error err => return .error err
    | .ok found => match ← scheduleBlockers ctx horizon now rest with
      | .error err => return .error err
      | .ok later => return .ok (found ++ later)

/-- `SelfUpdateBlockers`. -/
def selfUpdateBlockers (ctx : Context) (horizon : Time) : Go (Except GoError (List String)) := do
  match ← store ctx (.listRollbackWatches .triggered) with
  | .error err => return .error err
  | .ok triggered =>
    if triggered ≠ [] then
      return .ok (triggered.map fun watch =>
        "automatic rollback for " ++ watch.containerName ++ " is pending")
    match ← store ctx .listSchedules with
    | .error err => return .error err
    | .ok schedules => scheduleBlockers ctx horizon (← now) schedules

/-! ### The calls of the predictor -/

/-- A read of the store or of the clock. -/
def Reads : Call → Prop
  | .store _ (.listRollbackWatches _) | .store _ .listSchedules | .store _ (.containerIDByName _)
  | .store _ (.getContainer _) | .store _ .listContainers | .store _ (.getUpdateCandidate _ _)
  | .store _ (.dueSchedules _) | .store _ .getCheckIntervalMinutes | .now => True
  | _ => False

/-- A read leaves every part of the store alone. -/
theorem keeps_of_reads {β : Type} {kept : Store → β} {call : Call} (h : Reads call) :
    call.Keeps kept := by
  unfold Reads at h
  split at h
  case h_9 => trivial
  case h_10 => exact h.elim
  all_goals exact fun s now result s' hok => by rw [Store.perform_reads (by trivial) hok]

theorem step_reads {w w' : World} {call : Call} {reply : call.Reply} (hcall : Reads call)
    (h : openSystem.step w call reply w') : w' = w := by
  cases call with
  | store ctx call =>
    rcases step_store h with ⟨err, -, rfl⟩ | ⟨result, store, -, hperform, -, rfl⟩
    · rfl
    · have hkeeps : (Call.store ctx call).Keeps (id : Store → Store) := keeps_of_reads hcall
      have hsame : store = w.store := hkeeps _ _ _ _ hperform
      rw [hsame]
  | now => exact (step_now h).2
  | _ => exact hcall.elim

theorem getContainerByName_reads (ctx : Context) (name : String) :
    (getContainerByName ctx name).Uses Reads := by
  refine Program.uses_bind ((Program.uses_request _).mpr trivial) fun found => ?_
  cases found with
  | error err => trivial
  | ok id => exact ⟨trivial, fun _ => trivial⟩

theorem resolveTargets_reads (ctx : Context) (sc : Schedule) : (resolveTargets ctx sc).Uses Reads := by
  unfold resolveTargets
  split
  · refine Program.uses_bind (getContainerByName_reads _ _) fun row => ?_
    cases row <;> trivial
  · refine ⟨trivial, fun all => ?_⟩
    cases all <;> trivial

theorem dueAt_reads (ctx : Context) (now : Time) (sc : Schedule) (rec : ContainerRecord) :
    (dueAt ctx now sc rec).Uses Reads := by
  unfold dueAt
  split
  · trivial
  · split
    · trivial
    · refine ⟨trivial, fun candidate => ?_⟩
      cases candidate <;> trivial

theorem targetBlockers_reads (ctx : Context) (horizon now : Time) (sc : Schedule)
    (targets : List ContainerRecord) : (targetBlockers ctx horizon now sc targets).Uses Reads := by
  induction targets with
  | nil => trivial
  | cons rec rest ih =>
    unfold targetBlockers
    split
    · exact ih
    · refine Program.uses_bind (dueAt_reads _ _ _ _) fun due => ?_
      cases due with
      | error err => trivial
      | ok due =>
        refine Program.uses_bind ih fun later => ?_
        cases later <;> trivial

theorem blockersOf_reads (ctx : Context) (horizon now : Time) (sc : Schedule) :
    (blockersOf ctx horizon now sc).Uses Reads := by
  unfold blockersOf
  split
  · trivial
  · split
    · trivial
    · split
      · trivial
      · refine Program.uses_bind (resolveTargets_reads _ _) fun targets => ?_
        cases targets with
        | error err => trivial
        | ok targets => exact targetBlockers_reads _ _ _ _ _

theorem scheduleBlockers_reads (ctx : Context) (horizon now : Time) (schedules : List Schedule) :
    (scheduleBlockers ctx horizon now schedules).Uses Reads := by
  induction schedules with
  | nil => trivial
  | cons sc rest ih =>
    refine Program.uses_bind (blockersOf_reads _ _ _ _) fun found => ?_
    cases found with
    | error err => trivial
    | ok found =>
      refine Program.uses_bind ih fun later => ?_
      cases later <;> trivial

theorem selfUpdateBlockers_reads (ctx : Context) (horizon : Time) :
    (selfUpdateBlockers ctx horizon).Uses Reads := by
  refine Program.uses_bind ((Program.uses_request _).mpr trivial) fun triggered => ?_
  cases triggered with
  | error err => trivial
  | ok triggered =>
    dsimp only
    split
    · trivial
    · refine ⟨trivial, fun schedules => ?_⟩
      cases schedules with
      | error err => trivial
      | ok schedules => exact ⟨trivial, fun now => scheduleBlockers_reads _ _ _ _⟩

end Doupro.Scheduler
