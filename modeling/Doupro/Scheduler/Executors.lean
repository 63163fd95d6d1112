import Doupro.Scheduler.Blockers
import Doupro.Updater.Services

/-!
# The scheduler

What one tick of the scheduler executes: the one-off and cron schedules that are due, and the
relative policies. A result of `none` is a panic inside the updater, which ends the daemon.
-/

namespace Doupro

open Interaction

/-- `Scheduler`. -/
structure Scheduler where
  checkInterval : Duration
  /-- `cron.ParseStandard(expr)` and the `Next` of what it parsed. -/
  cronSchedule : String → Option (Time → Time)

namespace Scheduler

open Go Monitor

def defaultCheckInterval : Duration := 30 * minute

/-- `scheduler.New`. -/
def new (checkInterval : Duration) (cronSchedule : String → Option (Time → Time)) : Scheduler where
  checkInterval := if checkInterval ≤ 0 then defaultCheckInterval else checkInterval
  cronSchedule := cronSchedule

/-- A scheduler with the default interval, that knows no cron expression. -/
def plainScheduler : Scheduler := new 0 fun _ => none

/-- The actor ID of the updates of a schedule. -/
def actorIDOf (id : Nat) : String := "schedule:" ++ toString id

/-- The update a schedule asks for. -/
def updateRequest (ctx : Context) (sc : Schedule) (containerID targetImage : String) :
    Updater.UpdateRequest where
  ctx := ctx
  containerID := containerID
  targetImage := targetImage
  requester := ⟨.schedule, actorIDOf sc.id⟩

/-- `updater.IsMaintenanceError`, of an error that may be nil. -/
def refused (err : Option GoError) : Bool := err.any GoError.isMaintenanceError

/-- `logExecuted`. -/
def logExecuted (sc : Schedule) (err : Option GoError) : Go Unit := do
  let done := "schedule #" ++ toString sc.id
  let message := match err with
    | none => done ++ " executed"
    | some err => done ++ " execution failed: " ++ err.message
  emit {
    level := if err.isSome then .error else .info
    type := "schedule.executed"
    actor := .schedule
    actorID := toString sc.id
    container := sc.containerName
    stack := sc.stack
    message := message
    metadata := [("kind", .string sc.kind.text), ("semver_policy", .string sc.semverPolicy)] }
  -- the update of a one-off schedule sends a notification of its own
  if sc.kind ≠ .once ∧ sc.notify then
    notify ⟨"schedule.executed", sc.containerName, sc.stack, message⟩

/-- An error event of the scheduler itself. -/
def failedEvent (type message : String) (err : GoError) : LogEvent where
  level := .error
  type := type
  actor := .system
  message := message ++ ": " ++ err.message

/-- `executeOnce`. -/
def executeOnce (ctx : Context) (sc : Schedule) : Daemon (Option Unit) := do
  match ← getContainerByName ctx sc.containerName with
  | .error err =>
    logExecuted sc (some (.wrap ("look up container \"" ++ sc.containerName ++ "\"") err))
    let _ ← store ctx (.markScheduleRun sc.id none)
    return some ()
  | .ok rec =>
    let target := if sc.pinnedImage = "" then rec.currentImage else sc.pinnedImage
    match ← Daemon.update (updateRequest ctx sc rec.id target) with
    | some .nilDereference => return none
    | err =>
      if refused err then return some ()
      logExecuted sc err
      let _ ← store ctx (.markScheduleRun sc.id none)
      return some ()

/-- The candidate waits for its delay. -/
def waits (delay : Duration) (candidate : UpdateCandidate) : Go Bool := do
  if delay ≤ 0 then return false
  return (← now) < candidate.detectedAt + delay

/-- The targets of `applyToTargets`, one after another: how many updates were attempted, and
whether maintenance refused one. -/
def applyEach (ctx : Context) (sc : Schedule) (delay : Duration) :
    List ContainerRecord → (applied : Nat) → Daemon (Option (Nat × Bool))
  | [], applied => return some (applied, false)
  | rec :: rest, applied => do
    if isSkipped rec then applyEach ctx sc delay rest applied
    else match ← store ctx (.getUpdateCandidate rec.id (scopeOf sc)) with
      | .error _ => applyEach ctx sc delay rest applied
      | .ok candidate =>
        if ← waits delay candidate then applyEach ctx sc delay rest applied
        else match ← Daemon.update (updateRequest ctx sc rec.id candidate.image) with
          | some .nilDereference => return none
          | err =>
            if refused err then return some (applied, true)
            logExecuted sc err
            if err.isNone then
              let _ ← store ctx (.clearUpdateCandidates rec.id)
            applyEach ctx sc delay rest (applied + 1)

/-- `applyToTargets`. -/
def applyToTargets (ctx : Context) (sc : Schedule) (delay : Duration) :
    Daemon (Option (Nat × Bool)) := do
  match ← resolveTargets ctx sc with
  | .error err =>
    emit (failedEvent "schedule.list_failed"
      ("could not resolve targets for schedule #" ++ toString sc.id) err)
    return some (0, false)
  | .ok targets => applyEach ctx sc delay targets 0

variable (s : Scheduler)

/-- `NextCronRun`, without its error. -/
def nextCronRun (expr : String) : Go (Option Time) := do
  match s.cronSchedule expr with
  | none => return none
  | some next => return some (next (← now))

/-- `executeCron`. -/
def executeCron (ctx : Context) (sc : Schedule) : Daemon (Option Unit) := do
  match ← applyToTargets ctx sc 0 with
  | none => return none
  | some (_, true) => return some ()
  | some (_, false) =>
    let next ← s.nextCronRun sc.cronExpr
    if let .error err ← store ctx (.markScheduleRun sc.id next) then
      emit (failedEvent "schedule.update_failed"
        ("could not record next run for schedule #" ++ toString sc.id) err)
    return some ()

/-- The switch of `runDueSchedules`. -/
def executeDue (ctx : Context) (sc : Schedule) : Daemon (Option Unit) :=
  match sc.kind with
  | .once => executeOnce ctx sc
  | .cron => s.executeCron ctx sc
  | .relative => return some ()

def executeAll (ctx : Context) : List Schedule → Daemon (Option Unit)
  | [] => return some ()
  | sc :: rest => do
    match ← s.executeDue ctx sc with
    | none => return none
    | some () => executeAll ctx rest

/-- `runDueSchedules`. -/
def runDueSchedules (ctx : Context) : Daemon (Option Unit) := do
  if ← maintenanceActive then return some ()
  let now ← Go.now
  match ← store ctx (.dueSchedules now) with
  | .error err =>
    emit (failedEvent "schedule.list_failed" "could not list due schedules" err)
    return some ()
  | .ok due => s.executeAll ctx due

/-- `currentCheckInterval`. -/
def currentCheckInterval (ctx : Context) : Go Duration := do
  match ← store ctx .getCheckIntervalMinutes with
  | .ok (some minutes) => return minutes * minute
  | _ => return s.checkInterval

/-- `relativeRetryReady`. -/
def relativeRetryReady (lastRun : Option Time) (interval : Duration) (now : Time) : Bool :=
  lastRun.all fun last => decide (last + interval ≤ now)

/-- How long a relative policy waits after a candidate was found. -/
def delayOf (sc : Schedule) : Option Duration :=
  if sc.relativePolicy ≠ .delayed then some 0 else (Duration.parse sc.relativeAfter).toOption

/-- The loop of `runRelativePolicies`. -/
def runPolicies (ctx : Context) : List Schedule → Daemon (Option Unit)
  | [] => return some ()
  | sc :: rest => do
    if ¬ sc.enabled ∨ sc.kind ≠ .relative then runPolicies ctx rest
    else
      let interval ← s.currentCheckInterval ctx
      if ¬ relativeRetryReady sc.lastRunAt interval (← now) then runPolicies ctx rest
      else match delayOf sc with
        | none => runPolicies ctx rest
        | some delay => match ← applyToTargets ctx sc delay with
          | none => return none
          | some (_, true) => return some ()
          | some (applied, false) =>
            if 0 < applied then
              let _ ← store ctx (.touchScheduleLastRun sc.id)
            runPolicies ctx rest

/-- `runRelativePolicies`. -/
def runRelativePolicies (ctx : Context) : Daemon (Option Unit) := do
  if ← maintenanceActive then return some ()
  match ← store ctx .listSchedules with
  | .error err =>
    emit (failedEvent "schedule.list_failed" "could not list schedules" err)
    return some ()
  | .ok schedules => s.runPolicies ctx schedules

/-- The tick of the due ticker. -/
def dueTick (ctx : Context) : Daemon (Option Unit) := do
  match ← s.runDueSchedules ctx with
  | none => return none
  | some () => s.runRelativePolicies ctx

end Scheduler
end Doupro
