import Doupro.Updater.OperationRuns
import Doupro.Updater.WatchIdentity

/-!
# The course of an operation

What an update or a rollback has seen, done and announced so far, read off its trace. A stopped
container is not started by either of them, and what they announce depends on how far they came.
-/

namespace Doupro

open Interaction

/-- What a trace shows of an operation. -/
structure Course where
  /-- The last inspect before the first log entry. -/
  before : Option InspectResponse := none
  /-- There was a log entry. -/
  begun : Bool := false
  /-- The original was removed, or its replacement came up. -/
  replacing : Bool := false
  /-- A row could not be recorded, and Docker was not called since. -/
  unrecorded : Bool := false
  notices : List Notification := []

namespace Course

def after (k : Course) : Event Calls World → Course
  | ⟨_, .emit _, _⟩ => { k with begun := true }
  | ⟨_, .docker _ (.inspect _), .ok info⟩ =>
    { k with before := if k.begun then k.before else some info, unrecorded := false }
  | ⟨_, .docker _ (.remove _ _), .ok _⟩ => { k with replacing := true, unrecorded := false }
  | ⟨_, .docker _ _, _⟩ => { k with unrecorded := false }
  | ⟨_, .store _ (.replaceContainer _ _), .error _⟩ =>
    { k with replacing := true, unrecorded := true }
  | ⟨_, .store _ (.replaceContainer _ _), _⟩ | ⟨_, .store _ .getCrashLoopSettings, _⟩
  | ⟨_, .store _ (.replaceContainerAndCompleteRollback _ _ _), _⟩ => { k with replacing := true }
  | ⟨_, .notify notice, _⟩ => { k with notices := k.notices ++ [notice] }
  | _ => k

/-- An operation got past the removal of the original, and the row of what it left was recorded. -/
abbrev Replaced (k : Course) : Prop := k.replacing = true ∧ k.unrecorded = false

/-- The container an operation acts on was running when it was inspected. -/
def FoundRunning (k : Course) : Prop :=
  k.begun = true ∧ ∃ before, k.before = some before ∧ before.running = true

end Course

/-- The course of a trace. -/
def course (trace : Trace Calls World) : Course := trace.foldl Course.after {}

theorem Course.after_begun (k : Course) (e : Event Calls World) :
    (k.after e).begun = (k.begun || isEmit e.op) := by
  obtain ⟨w, op, reply⟩ := e
  cases op with
  | emit => exact (Bool.or_true _).symm
  | docker ctx call =>
    cases call with
    | inspect | remove => cases reply <;> exact (Bool.or_false _).symm
    | _ => exact (Bool.or_false _).symm
  | store ctx call =>
    cases call with
    | replaceContainer => cases reply <;> exact (Bool.or_false _).symm
    | _ => exact (Bool.or_false _).symm
  | _ => exact (Bool.or_false _).symm

theorem Course.after_before (k : Course) (e : Event Calls World) :
    (k.after e).before = if k.begun then k.before else (inspectedBy e).or k.before := by
  obtain ⟨w, op, reply⟩ := e
  cases op with
  | docker ctx call =>
    cases call with
    | inspect | remove => cases reply <;> simp [after, inspectedBy, Except.toOption]
    | _ => simp [after, inspectedBy]
  | store ctx call =>
    cases call with
    | replaceContainer => cases reply <;> simp [after, inspectedBy]
    | _ => simp [after, inspectedBy]
  | _ => simp [after, inspectedBy]

/-- What an operation acts on is the last inspect before the first log entry. -/
theorem foldl_before (trace : Trace Calls World) (k : Course) :
    (trace.foldl Course.after k).before =
      if k.begun then k.before else (snapshotOf trace).or k.before := by
  induction trace generalizing k with
  | nil => simp [snapshotOf, lastInspected]
  | cons e rest ih =>
    rw [List.foldl_cons, ih, k.after_begun, k.after_before]
    by_cases hbegun : k.begun = true
    · simp [hbegun]
    · by_cases hemit : isEmit e.op = true
      · have hinspected : inspectedBy e = none := by
          obtain ⟨w, op, reply⟩ := e
          cases op <;> first | rfl | exact absurd hemit Bool.false_ne_true
        simp [hbegun, hemit, hinspected, snapshotOf, lastInspected]
      · have hlast : snapshotOf (e :: rest) = (snapshotOf rest).or (inspectedBy e) := by
          unfold snapshotOf lastInspected
          rw [List.takeWhile_cons_of_pos (by simpa using hemit), List.filterMap_cons]
          cases inspectedBy e <;> simp [List.getLast?_cons]
        simp [hbegun, hemit, hlast, Option.or_assoc]

theorem course_before (trace : Trace Calls World) : (course trace).before = snapshotOf trace := by
  simp [course, foldl_before]

def Call.Starts : Call → Prop
  | .docker _ (.start _) => True
  | _ => False

namespace Updater

open Go

/-- Only a container that was found running is started. -/
def conduct : Contract Calls World Course where
  allowed k call := call.Starts → k.FoundRunning
  expects _ _ := True
  next := Course.after

variable {M : Machine Calls World} {ctx : Context} {before : InspectResponse} {k : Course}

/-- An operation acts on the inspect response it began with. -/
structure ActsOn (k : Course) (before : InspectResponse) : Prop where
  begun : k.begun = true
  found : k.before = some before

theorem ActsOn.foundRunning (h : ActsOn k before) (hrunning : before.running = true) :
    k.FoundRunning :=
  ⟨h.begun, before, h.found, hrunning⟩

/-- The state after a call of Docker. -/
def recorded (k : Course) : Course := { k with unrecorded := false }

theorem recorded_actsOn (h : ActsOn k before) : ActsOn (recorded k) before := ⟨h.begun, h.found⟩

theorem recorded_inspect (hbegun : k.begun = true) (w : World) (id : String)
    (reply : Except GoError InspectResponse) :
    conduct.next k ⟨w, .docker ctx (.inspect id), reply⟩ = recorded k := by
  cases reply with
  | error err => rfl
  | ok info =>
    change { k with before := if k.begun = true then k.before else some info, unrecorded := false } = _
    rw [if_pos hbegun]
    rfl

/-- Looking on while an operation is under way. -/
theorem observes_conducts {α : Type} {p : Go α} (hp : p.Uses Call.Observes) (hbegun : k.begun = true)
    (hrecorded : k.unrecorded = false) : M.obeys conduct p k fun k' _ => k' = k := by
  apply Machine.obeys_of_uses_at (P := Call.Observes) ?_ ?_ hp
  · intro call hcall hstarts
    unfold Call.Starts at hstarts
    split at hstarts
    · exact hcall.elim
    · exact hstarts.elim
  · rintro ⟨w, call, reply⟩ hcall
    cases call with
    | docker ctx call =>
      cases call with
      | inspect id =>
        rw [recorded_inspect hbegun]
        unfold recorded
        rw [← hrecorded]
      | _ => exact hcall.elim
    | now | sleepUntil => rfl
    | _ => exact hcall.elim

theorem startRecreated_conducts {result : RecreationResult} (h : ActsOn k before)
    (hrunning : before.running = true) (hrecorded : k.unrecorded = false) :
    M.obeys conduct (startRecreated ctx result) k fun k' r =>
      k' = k ∧ r.1.originalRemoved = result.originalRemoved ∧
        r.1.originalStopped = result.originalStopped := by
  have hk : recorded k = k := by
    unfold recorded
    rw [← hrecorded]
  refine ⟨fun _ => h.foundRunning hrunning, fun w reply w' _ _ => ?_⟩
  change M.obeys conduct _ (recorded k) _
  rw [hk]
  cases reply with
  | error err => exact ⟨rfl, rfl, rfl⟩
  | ok _ =>
    change M.obeys conduct (Client.waitHealthy ctx _ _ _ >>= _) k _
    refine Machine.obeys_bind.mpr (Machine.obeys_mono
      (observes_conducts (Client.waitHealthy_observes ctx _ _ _) h.begun hrecorded) ?_)
    rintro k' verdict rfl
    cases verdict with
    | some err => exact ⟨rfl, rfl, rfl⟩
    | none =>
      refine ⟨fun hstarts => hstarts.elim, fun w reply w' _ _ => ?_⟩
      rw [recorded_inspect h.begun, hk]
      cases reply with
      | error err => exact ⟨rfl, rfl, rfl⟩
      | ok created =>
        dsimp only [Program.bind]
        split <;> exact ⟨rfl, rfl, rfl⟩

theorem createReplacement_conducts {plan : RecreationPlan} {result : RecreationResult}
    (h : ActsOn k before) (hplan : plan.wasRunning = true → before.running = true) :
    M.obeys conduct (createReplacement ctx plan result) k fun k' r =>
      k' = recorded k ∧ r.1.originalRemoved = result.originalRemoved ∧
        r.1.originalStopped = result.originalStopped := by
  refine ⟨fun hstarts => hstarts.elim, fun w reply w' _ _ => ?_⟩
  change M.obeys conduct _ (recorded k) _
  cases reply with
  | error err => exact ⟨rfl, rfl, rfl⟩
  | ok newID =>
    refine ⟨fun hstarts => hstarts.elim, fun w reply w' _ _ => ?_⟩
    rw [recorded_inspect (recorded_actsOn h).begun]
    cases reply with
    | error err => exact ⟨rfl, rfl, rfl⟩
    | ok created =>
      dsimp only [Program.bind]
      split
      · exact ⟨rfl, rfl, rfl⟩
      · exact ⟨rfl, rfl, rfl⟩
      · split
        · next hwas =>
          exact startRecreated_conducts (recorded_actsOn (recorded_actsOn h)) (hplan hwas) rfl
        · exact ⟨rfl, rfl, rfl⟩

/-- What a recreation that got to Docker leaves of the course. -/
def recreated (k : Course) (result : RecreationResult) : Course :=
  { k with replacing := k.replacing || result.originalRemoved, unrecorded := false }

theorem removeOriginal_conducts {oldID : String} {plan : RecreationPlan} (h : ActsOn k before)
    (hplan : plan.wasRunning = true → before.running = true) :
    M.obeys conduct (removeOriginal ctx oldID plan) k fun k' r =>
      k' = recreated k r.1 ∧ (r.1.originalStopped = true → before.running = true) := by
  refine ⟨fun hstarts => hstarts.elim, fun w reply w' _ _ => ?_⟩
  cases reply with
  | error err =>
    refine ⟨?_, hplan⟩
    unfold recreated
    rw [Bool.or_false]
    rfl
  | ok _ =>
    refine Machine.obeys_mono (createReplacement_conducts ⟨h.begun, h.found⟩ hplan) ?_
    rintro k' r ⟨rfl, hremoved, hstopped⟩
    refine ⟨?_, fun hr => hplan (hstopped.symm.trans hr)⟩
    unfold recreated
    rw [hremoved, Bool.or_true]
    rfl

theorem replaceOriginal_conducts {oldID : String} {plan : RecreationPlan} (h : ActsOn k before)
    (hplan : plan.wasRunning = true → before.running = true) :
    M.obeys conduct (replaceOriginal ctx oldID plan) k fun k' r =>
      k' = recreated k r.1 ∧ (r.1.originalStopped = true → before.running = true) := by
  unfold replaceOriginal
  split
  · refine Machine.obeys_mono (createReplacement_conducts h hplan) ?_
    rintro k' r ⟨rfl, hremoved, hstopped⟩
    refine ⟨?_, fun hr => absurd (hstopped.symm.trans hr) Bool.false_ne_true⟩
    unfold recreated
    rw [hremoved, Bool.or_false]
    rfl
  split
  · refine ⟨fun hstarts => hstarts.elim, fun w reply w' _ _ => ?_⟩
    change M.obeys conduct _ (recorded k) _
    cases reply with
    | error err =>
      refine ⟨?_, fun hr => absurd hr Bool.false_ne_true⟩
      unfold recreated
      rw [Bool.or_false]
      rfl
    | ok _ => exact removeOriginal_conducts (recorded_actsOn h) hplan
  · exact removeOriginal_conducts h hplan

/-- How a recreation goes on with the course of its operation. -/
inductive Recreates (before : InspectResponse) (targetImage : String) (k k' : Course)
    (r : RecreationResult × Option GoError) : Prop
  | unplanned (hplan : ∀ plan, buildRecreationPlan before targetImage ≠ .ok plan) (hk : k' = k)
    (hremoved : r.1.originalRemoved = false) (hstopped : r.1.originalStopped = false)
    (hfailed : ∃ err, r.2 = some err)
  | planned {plan : RecreationPlan} (hplan : buildRecreationPlan before targetImage = .ok plan)
    (hk : k' = recreated k r.1) (hstopped : r.1.originalStopped = true → before.running = true)

theorem Recreates.found {targetImage : String} {k' : Course} {r : RecreationResult × Option GoError}
    (h : Recreates before targetImage k k' r) : k'.before = k.before := by
  cases h with
  | unplanned _ hk => rw [hk]
  | planned _ hk =>
    rw [hk]
    rfl

theorem recreate_conducts {oldID targetImage : String} (h : ActsOn k before) :
    M.obeys conduct (recreate ctx oldID before targetImage) k (Recreates before targetImage k) := by
  unfold recreate
  split
  · next err hfailed =>
    refine .unplanned (fun plan hplan => ?_) rfl rfl rfl ⟨err, rfl⟩
    rw [hfailed] at hplan
    cases hplan
  · next plan hplan =>
    have hwas : plan.wasRunning = true → before.running = true := by
      obtain ⟨config, hostConfig, state, -, -, hstate, -, rfl⟩ := buildRecreationPlan_ok hplan
      intro hrunning
      unfold InspectResponse.running
      rw [hstate]
      exact hrunning
    split
    · exact Machine.obeys_mono (replaceOriginal_conducts h hwas) fun k' r hr =>
        .planned hplan hr.1 hr.2
    · refine ⟨fun hstarts => hstarts.elim, fun w reply w' _ _ => ?_⟩
      change M.obeys conduct _ (recorded k) _
      cases reply with
      | error err =>
        refine .planned hplan ?_ fun hr => absurd hr Bool.false_ne_true
        unfold recreated
        rw [Bool.or_false]
        rfl
      | ok _ =>
        exact Machine.obeys_mono (replaceOriginal_conducts (recorded_actsOn h) hwas) fun k' r hr =>
          .planned hplan hr.1 hr.2

/-! ### The error paths -/

/-- What an operation says when it failed and its container was replaced. -/
structure Reports (kind : String) (before : InspectResponse) (notice : Notification) : Prop where
  eventType : notice.eventType = kind ++ ".failed" ∨ notice.eventType = kind ++ ".revert_failed"
  target : notice.target = trimSlash before.name
  stack : notice.stack = stackOf before

/-- What an operation has announced at its end: a success, and a failure if the container was replaced
and the reverted row recorded. -/
def Announces (kind : String) (before : InspectResponse) (succeeded : String) (k' : Course) :
    Option GoError → Prop
  | none => k'.Replaced ∧ ∃ message,
      k'.notices = [⟨succeeded, trimSlash before.name, stackOf before, message⟩]
  | some err => err ≠ .nilDereference →
    if k'.Replaced then
      ∃ notice, Reports kind before notice ∧ k'.notices = [notice]
    else k'.notices = []

/-- How an operation leaves its course. -/
structure Concludes (kind : String) (before : InspectResponse) (succeeded : String) (k' : Course)
    (out : Option GoError) : Prop where
  found : k'.before = some before
  announces : Announces kind before succeeded k' out

/-- Nothing was announced yet. -/
structure Silent (k : Course) (before : InspectResponse) : Prop extends ActsOn k before where
  notices : k.notices = []

variable {kind succeeded : String}

theorem failBeforeRemoval_conducts {op : FailedOperation} {result : RecreationResult}
    (h : Silent k before) (hreplacing : k.replacing = false)
    (hstopped : result.originalStopped = true → before.running = true) :
    M.obeys conduct (failBeforeRemoval ctx op result) k (Concludes kind before succeeded) := by
  have hsilent : ∀ k' : Course, ∀ err : GoError, k'.before = some before → k'.notices = [] →
      k'.replacing = false → Concludes kind before succeeded k' (some err) := by
    intro k' err hfound hnotices hkept
    refine ⟨hfound, fun _ => ?_⟩
    rw [if_neg (by simp [hkept])]
    exact hnotices
  unfold failBeforeRemoval
  split
  · next hwas =>
    refine ⟨fun _ => h.foundRunning (hstopped hwas), fun w reply w' _ _ => ?_⟩
    cases reply with
    | error err =>
      exact ⟨fun hstarts => hstarts.elim, fun _ _ _ _ _ => hsilent _ _ h.found h.notices hreplacing⟩
    | ok _ => exact hsilent _ _ h.found h.notices hreplacing
  · exact hsilent _ _ h.found h.notices hreplacing

theorem revert_conducts (op : FailedOperation) {liveID : String} (h : Silent k op.before)
    (hname : op.name = trimSlash op.before.name) (hreplacing : k.replacing = true)
    (hrecorded : k.unrecorded = false ∨
      ∃ plan, buildRecreationPlan op.before (configImage op.before) = .ok plan) :
    M.obeys conduct (revert ctx op liveID) k (Concludes op.kind op.before succeeded) := by
  refine Machine.obeys_bind.mpr (Machine.obeys_mono (recreate_conducts h.toActsOn) ?_)
  rintro k₁ ⟨result, revertErr⟩ hrecreates
  have hk₁ : k₁.before = some op.before ∧ k₁.notices = [] ∧ k₁.replacing = true ∧
      k₁.unrecorded = false := by
    cases hrecreates with
    | unplanned hplan hk =>
      rcases hrecorded with hrecorded | ⟨plan, hplanned⟩
      · rw [hk]
        exact ⟨h.found, h.notices, hreplacing, hrecorded⟩
      · exact absurd hplanned (hplan plan)
    | planned _ hk =>
      rw [hk]
      exact ⟨h.found, h.notices, by simp [recreated, hreplacing], rfl⟩
  obtain ⟨hfound, hnotices, hreplacing₁, hrecorded₁⟩ := hk₁
  have hreports : ∀ notice : Notification, ∀ k' : Course, ∀ err : GoError, k'.before = k₁.before →
      k'.replacing = true → k'.unrecorded = false → k'.notices = k₁.notices ++ [notice] →
      Reports op.kind op.before notice → Concludes op.kind op.before succeeded k' (some err) := by
    intro notice k' err hsame hreplaced hrecorded' hsaid hreport
    refine ⟨hsame.trans hfound, fun _ => ?_⟩
    rw [if_pos ⟨hreplaced, hrecorded'⟩]
    rw [hnotices, List.nil_append] at hsaid
    exact ⟨notice, hreport, hsaid⟩
  cases revertErr with
  | some err =>
    dsimp only
    split
    · exact ⟨hfound, fun herr => absurd rfl herr⟩
    · refine ⟨fun hstarts => hstarts.elim, fun _ _ _ _ _ => ⟨fun hstarts => hstarts.elim,
        fun _ _ _ _ _ => ?_⟩⟩
      exact hreports _ _ _ rfl hreplacing₁ hrecorded₁ rfl ⟨.inr rfl, hname, rfl⟩
  | none =>
    refine ⟨fun hstarts => hstarts.elim, fun w known w' _ _ => ?_⟩
    refine ⟨fun hstarts => hstarts.elim, fun w replaced w' _ _ => ?_⟩
    cases replaced with
    | error err =>
      refine ⟨hfound, fun _ => ?_⟩
      rw [if_neg (by simp [conduct, Course.after])]
      exact hnotices
    | ok _ =>
      refine ⟨fun hstarts => hstarts.elim, fun _ _ _ _ _ => ?_⟩
      exact hreports _ _ _ rfl rfl hrecorded₁ rfl ⟨.inl rfl, hname, rfl⟩

theorem recover_conducts (op : FailedOperation) {targetImage : String} {k₁ : Course}
    {r : RecreationResult × Option GoError} (h : Silent k op.before)
    (hname : op.name = trimSlash op.before.name) (hreplacing : k.replacing = false)
    (hrecreates : Recreates op.before targetImage k k₁ r) :
    M.obeys conduct (recover ctx op r.1) { k₁ with begun := true }
      (Concludes op.kind op.before succeeded) := by
  unfold recover
  cases hrecreates with
  | unplanned _ hk hremoved hstopped _ =>
    rw [if_pos (by simp [hremoved]), hk]
    refine failBeforeRemoval_conducts ⟨⟨rfl, h.found⟩, h.notices⟩ hreplacing fun hr => ?_
    rw [hstopped] at hr
    exact absurd hr Bool.false_ne_true
  | planned hplan hk hstopped =>
    rw [hk]
    by_cases hremoved : r.1.originalRemoved = true
    · rw [if_neg (by simp [hremoved])]
      exact revert_conducts _ ⟨⟨rfl, h.found⟩, h.notices⟩ hname (by simp [recreated, hremoved]) (.inl rfl)
    · rw [if_pos hremoved]
      exact failBeforeRemoval_conducts ⟨⟨rfl, h.found⟩, h.notices⟩
        (by simp [recreated, hremoved, hreplacing]) hstopped

/-! ### Update -/

/-- The course right after the inspect an operation acts on. -/
structure Inspected (k : Course) (before : InspectResponse) : Prop where
  found : k.before = some before
  begun : k.begun = false
  replacing : k.replacing = false
  unrecorded : k.unrecorded = false
  notices : k.notices = []

/-- A replacement came up. -/
structure ReplacementUp (k : Course) (before : InspectResponse) : Prop extends Silent k before where
  unrecorded : k.unrecorded = false
  planned : ∃ plan, buildRecreationPlan before (configImage before) = .ok plan

theorem Recreates.replacementUp {targetImage : String} {k' : Course} {result : RecreationResult}
    (h : Recreates before targetImage k k' (result, none)) (hsilent : Silent k before) :
    ReplacementUp k' before := by
  cases h with
  | unplanned _ _ _ _ hfailed =>
    obtain ⟨err, hfailed⟩ := hfailed
    cases hfailed
  | planned hplan hk =>
    rw [hk]
    exact ⟨⟨⟨hsilent.begun, hsilent.found⟩, hsilent.notices⟩, rfl, buildRecreationPlan_retarget hplan _⟩

variable {req : UpdateRequest} {result : RecreationResult}

theorem reportUpdated_conducts (h : Silent k before) (hreplacing : k.replacing = true)
    (hrecorded : k.unrecorded = false) :
    M.obeys conduct (reportUpdated req before) k (Concludes kind before "update.succeeded") := by
  refine ⟨fun hstarts => hstarts.elim, fun w _ w' _ _ => ⟨fun hstarts => hstarts.elim,
    fun w _ w' _ _ => ?_⟩⟩
  exact ⟨h.found, ⟨hreplacing, hrecorded⟩, _, congrArg (fun notices => notices ++ [_]) h.notices⟩

theorem revertUncommitted_conducts {err : GoError} (h : Silent k before) (hreplacing : k.replacing = true)
    (hplanned : ∃ plan, buildRecreationPlan before (configImage before) = .ok plan) :
    M.obeys conduct (revertUncommitted req before result err) k (Concludes "update" before succeeded) := by
  refine ⟨fun hstarts => hstarts.elim, fun _ _ _ _ _ => ?_⟩
  exact revert_conducts ⟨"update", req.containerID, before, trimSlash before.name, req.requester, _⟩
    ⟨⟨rfl, h.found⟩, h.notices⟩ rfl hreplacing (.inr hplanned)

theorem commitProtected_conducts {replacement : ContainerRecord} (h : ReplacementUp k before) :
    M.obeys conduct (commitProtected req before result replacement) k
      (Concludes "update" before "update.succeeded") := by
  refine ⟨fun hstarts => hstarts.elim, fun w settings w' _ _ => ?_⟩
  cases settings with
  | error err => exact revertUncommitted_conducts ⟨⟨h.begun, h.found⟩, h.notices⟩ rfl h.planned
  | ok settings =>
    refine ⟨fun hstarts => hstarts.elim, fun w reply w' _ _ => ?_⟩
    change M.obeys conduct _ (conduct.next { k with replacing := true }
      ⟨w, .docker req.ctx (.inspect result.id), reply⟩) _
    rw [recorded_inspect (k := { k with replacing := true }) h.begun]
    refine ⟨fun hstarts => hstarts.elim, fun w now w' _ _ => ?_⟩
    refine ⟨fun hstarts => hstarts.elim, fun w committed w' _ _ => ?_⟩
    cases committed with
    | error err => exact revertUncommitted_conducts ⟨⟨h.begun, h.found⟩, h.notices⟩ rfl h.planned
    | ok _ =>
      refine ⟨fun hstarts => hstarts.elim, fun w _ w' _ _ => ?_⟩
      exact reportUpdated_conducts ⟨⟨rfl, h.found⟩, h.notices⟩ rfl rfl

theorem commitStopped_conducts {replacement : ContainerRecord} (h : ReplacementUp k before) :
    M.obeys conduct (commitStopped req before result replacement) k
      (Concludes "update" before "update.succeeded") := by
  refine ⟨fun hstarts => hstarts.elim, fun w committed w' _ _ => ?_⟩
  cases committed with
  | error err => exact revertUncommitted_conducts ⟨⟨h.begun, h.found⟩, h.notices⟩ rfl h.planned
  | ok _ =>
    refine ⟨fun hstarts => hstarts.elim, fun w _ w' _ _ => ?_⟩
    exact reportUpdated_conducts ⟨⟨h.begun, h.found⟩, h.notices⟩ rfl h.unrecorded

theorem updateInspected_conducts (h : Inspected k before) :
    M.obeys conduct (updateInspected req before) k (Concludes "update" before "update.succeeded") := by
  refine ⟨fun hstarts => hstarts.elim, fun w known w' _ _ => ?_⟩
  refine ⟨fun hstarts => hstarts.elim, fun w _ w' _ _ => ?_⟩
  change M.obeys conduct (recreate req.ctx req.containerID before req.targetImage >>= _)
    { k with begun := true } _
  have hsilent : Silent { k with begun := true } before := ⟨⟨rfl, h.found⟩, h.notices⟩
  refine Machine.obeys_bind.mpr (Machine.obeys_mono (recreate_conducts hsilent.toActsOn) ?_)
  rintro k₁ ⟨result, err⟩ hrecreates
  cases err with
  | none =>
    dsimp only
    split
    · exact commitProtected_conducts (hrecreates.replacementUp hsilent)
    · exact commitStopped_conducts (hrecreates.replacementUp hsilent)
  | some err =>
    have hrecover : ∀ cause, M.obeys conduct (recover req.ctx
        ⟨"update", req.containerID, before, trimSlash before.name, req.requester, cause⟩ result)
        { k₁ with begun := true } (Concludes "update" before "update.succeeded") := fun cause =>
      recover_conducts ⟨"update", req.containerID, before, trimSlash before.name, req.requester,
        cause⟩ hsilent rfl h.replacing hrecreates
    cases err with
    | nilDereference =>
      exact ⟨hrecreates.found.trans h.found, fun herr => absurd rfl herr⟩
    | _ => exact ⟨fun hstarts => hstarts.elim, fun _ _ _ _ _ => hrecover _⟩

/-- How a whole operation leaves its course; one that was refused or did not find its container says
nothing. -/
def Ends (kind succeeded : String) (k' : Course) (out : Option GoError) : Prop :=
  match k'.before with
  | none => out ≠ none ∧ k'.replacing = false ∧ k'.notices = []
  | some before => Announces kind before succeeded k' out

theorem Concludes.ends {k' : Course} {out : Option GoError}
    (h : Concludes kind before succeeded k' out) : Ends kind succeeded k' out := by
  unfold Ends
  rw [h.found]
  exact h.announces

/-- An operation under the guard. -/
theorem withOperation_conducts {name guarded : String} {actor : Actor} {actorID : String}
    {operation : Go (Option GoError)}
    (h : M.obeys conduct operation {} (Ends kind succeeded)) :
    M.obeys conduct (withOperation name guarded actor actorID operation) {} (Ends kind succeeded) := by
  refine Machine.obeys_bind.mpr ?_
  refine Machine.obeys_request_bind.mpr ⟨fun hstarts => hstarts.elim, fun w current w' _ _ => ?_⟩
  cases current with
  | some current =>
    refine ⟨fun hstarts => hstarts.elim, fun w _ w' _ _ => ?_⟩
    split <;> exact ⟨by simp, rfl, rfl⟩
  | none =>
    change M.obeys conduct (operation >>= _) {} _
    refine Machine.obeys_bind.mpr (Machine.obeys_mono h ?_)
    exact fun k' out hends => ⟨fun hstarts => hstarts.elim, fun _ _ _ _ _ => hends⟩

theorem update_conducts (req : UpdateRequest) :
    M.obeys conduct (update req) {} (Ends "update" "update.succeeded") := by
  refine ⟨fun hstarts => hstarts.elim, fun w known w' _ _ => ?_⟩
  refine withOperation_conducts ⟨fun hstarts => hstarts.elim, fun w reply w' _ _ => ?_⟩
  cases reply with
  | error err => exact ⟨by simp, rfl, rfl⟩
  | ok before =>
    change M.obeys conduct (if before.config.isNone = true then _ else updateInspected req before) _ _
    split
    · exact fun herr => absurd rfl herr
    · exact Machine.obeys_mono (updateInspected_conducts ⟨rfl, rfl, rfl, rfl, rfl⟩) fun _ _ h => h.ends

/-! ### Rollback -/

/-- The course after the wait of an automatic rollback. -/
def Settles (k' : Course) : Except GoError InspectResponse → Prop
  | .ok before => Inspected k' before
  | .error _ => ∃ before, Inspected k' before

theorem awaitSettled_conducts {id : String} {deadline : Time} {turns : Nat} (h : Inspected k before) :
    M.obeys conduct (awaitSettled ctx id deadline turns before) k Settles := by
  induction turns generalizing k before with
  | zero => exact h
  | succ turns ih =>
    unfold awaitSettled
    split
    · exact h
    refine ⟨fun hstarts => hstarts.elim, fun w now w' _ _ => ?_⟩
    change M.obeys conduct (if deadline ≤ now then _ else _) k _
    split
    · exact h
    refine ⟨fun hstarts => hstarts.elim, fun w now w' _ _ => ?_⟩
    refine ⟨fun hstarts => hstarts.elim, fun w slept w' _ _ => ?_⟩
    cases slept with
    | some err => exact ⟨before, h⟩
    | none =>
      refine ⟨fun hstarts => hstarts.elim, fun w reply w' _ _ => ?_⟩
      cases reply with
      | error err => exact ⟨before, h.found, h.begun, h.replacing, rfl, h.notices⟩
      | ok later =>
        refine ih ⟨?_, h.begun, h.replacing, rfl, h.notices⟩
        change (if k.begun = true then k.before else some later) = some later
        rw [h.begun, if_neg Bool.false_ne_true]

theorem settledBefore_conducts {req : RollbackRequest} (h : Inspected k before) :
    M.obeys conduct (settledBefore req before) k Settles := by
  unfold settledBefore
  split
  · exact ⟨fun hstarts => hstarts.elim, fun _ _ _ _ _ => awaitSettled_conducts h⟩
  · exact h

theorem commitRollback_conducts {req : RollbackRequest} {rec : ContainerRecord} (h : ReplacementUp k before) :
    M.obeys conduct (commitRollback req rec before result) k
      (Concludes (rollbackType req) before (rollbackType req ++ ".succeeded")) := by
  refine ⟨fun hstarts => hstarts.elim, fun w committed w' _ _ => ?_⟩
  cases committed with
  | error err =>
    refine ⟨fun hstarts => hstarts.elim, fun _ _ _ _ _ => ?_⟩
    exact revert_conducts ⟨rollbackType req, req.containerID, before, trimSlash before.name,
      req.requester, _⟩ ⟨⟨rfl, h.found⟩, h.notices⟩ rfl rfl (.inl h.unrecorded)
  | ok _ =>
    have hreport : ∀ k' : Course, k'.before = some before → k'.replacing = true →
        k'.unrecorded = false → k'.notices = [] → ∀ level : Level, ∀ message : String,
        M.obeys conduct (do
          emit (rollbackEvent req rec (trimSlash before.name) level (rollbackType req ++ ".succeeded")
            message)
          notify ⟨rollbackType req ++ ".succeeded", trimSlash before.name, stackOf before, message⟩
          return none) k' (Concludes (rollbackType req) before (rollbackType req ++ ".succeeded")) := by
      intro k' hfound hreplacing hrecorded hnotices level message
      refine ⟨fun hstarts => hstarts.elim, fun w _ w' _ _ => ⟨fun hstarts => hstarts.elim,
        fun w _ w' _ _ => ?_⟩⟩
      exact ⟨hfound, ⟨hreplacing, hrecorded⟩, _, congrArg (fun notices => notices ++ [_]) hnotices⟩
    refine ⟨fun hstarts => hstarts.elim, fun w marked w' _ _ => ?_⟩
    cases marked with
    | error err =>
      refine ⟨fun hstarts => hstarts.elim, fun _ _ _ _ _ => ?_⟩
      exact hreport { k with begun := true, replacing := true } h.found rfl h.unrecorded h.notices _ _
    | ok _ => exact hreport { k with replacing := true } h.found rfl h.unrecorded h.notices _ _

theorem rollbackInspected_conducts {req : RollbackRequest} {rec : ContainerRecord}
    (h : Inspected k before) : M.obeys conduct (rollbackInspected req rec before) k
      (Concludes (rollbackType req) before (rollbackType req ++ ".succeeded")) := by
  refine ⟨fun hstarts => hstarts.elim, fun w _ w' _ _ => ?_⟩
  change M.obeys conduct (recreate req.ctx req.containerID before rec.previousImage >>= _)
    { k with begun := true } _
  have hsilent : Silent { k with begun := true } before := ⟨⟨rfl, h.found⟩, h.notices⟩
  refine Machine.obeys_bind.mpr (Machine.obeys_mono (recreate_conducts hsilent.toActsOn) ?_)
  rintro k₁ ⟨result, err⟩ hrecreates
  cases err with
  | none => exact commitRollback_conducts (hrecreates.replacementUp hsilent)
  | some err =>
    have hrecover : ∀ cause, M.obeys conduct (recover req.ctx
        ⟨rollbackType req, req.containerID, before, trimSlash before.name, req.requester, cause⟩ result)
        { k₁ with begun := true }
        (Concludes (rollbackType req) before (rollbackType req ++ ".succeeded")) := fun cause =>
      recover_conducts ⟨rollbackType req, req.containerID, before, trimSlash before.name,
        req.requester, cause⟩ hsilent rfl h.replacing hrecreates
    cases err with
    | nilDereference => exact ⟨hrecreates.found.trans h.found, fun herr => absurd rfl herr⟩
    | _ => exact ⟨fun hstarts => hstarts.elim, fun _ _ _ _ _ => hrecover _⟩

theorem rollback_conducts (req : RollbackRequest) :
    M.obeys conduct (rollback req) {} (Ends (rollbackType req) (rollbackType req ++ ".succeeded")) := by
  refine ⟨fun hstarts => hstarts.elim, fun w reply w' _ _ => ?_⟩
  cases reply with
  | error err => exact ⟨by simp, rfl, rfl⟩
  | ok rec =>
    change M.obeys conduct (if rec.previousImage = "" then _ else _) {} _
    split
    · exact ⟨by simp, rfl, rfl⟩
    refine withOperation_conducts ⟨fun hstarts => hstarts.elim, fun w reply w' _ _ => ?_⟩
    cases reply with
    | error err => exact ⟨by simp, rfl, rfl⟩
    | ok before =>
      change M.obeys conduct (settledBefore req before >>= _) _ _
      refine Machine.obeys_bind.mpr (Machine.obeys_mono
        (settledBefore_conducts ⟨rfl, rfl, rfl, rfl, rfl⟩) ?_)
      intro k' settled hsettles
      cases settled with
      | error err =>
        obtain ⟨before, hinspected⟩ := hsettles
        refine Concludes.ends ⟨hinspected.found, fun _ => ?_⟩
        rw [if_neg (by simp [hinspected.replacing])]
        exact hinspected.notices
      | ok before =>
        exact Machine.obeys_mono (rollbackInspected_conducts hsettles) fun _ _ h => h.ends

/-! ### Stopped containers -/

theorem operation_conducts (call : OperationCall) :
    ∃ Q, M.obeys conduct call.program {} Q := by
  cases call with
  | update req => exact ⟨_, update_conducts req⟩
  | rollback req => exact ⟨_, rollback_conducts req⟩

/-- A container that was not running when an operation inspected it is not started by the operation,
and neither is what replaces it. -/
theorem stopped_never_started (call : OperationCall) {w w' : World} {trace : Trace Calls World}
    {out : Option GoError} (hrun : M.Runs call.program w trace out w') {before : InspectResponse}
    (hbefore : snapshotOf trace = some before) (hstopped : before.running = false) :
    ∀ e ∈ trace, ¬ e.op.Starts := by
  intro e he hstarts
  obtain ⟨Q, hobeys⟩ := operation_conducts call
  obtain ⟨earlier, later, rfl⟩ := List.append_of_mem he
  obtain ⟨hbegun, found, hfound, hrunning⟩ : (course earlier).FoundRunning :=
    Contract.respected_append (Machine.respected_of_obeys hobeys (Machine.runs_admits hrun))
      (Contract.expected_of_forall (fun _ _ _ => trivial) _) hstarts
  have hsame : snapshotOf (earlier ++ e :: later) = some found := by
    rw [← course_before]
    have hsplit : course (earlier ++ e :: later) = (e :: later).foldl Course.after (course earlier) :=
      List.foldl_append
    rw [hsplit, foldl_before, if_pos hbegun]
    exact hfound
  obtain rfl := Option.some.inj (hsame.symm.trans hbefore)
  exact absurd (hrunning.symm.trans hstopped) (by simp)

/-- `webSpec` after it exited. -/
def exitedWebWorld : World :=
  { webWorld with
    engine := Engine.ofContainer webSpec { status := .exited } [("web:1", "sha256:0")]
      [("web:1", "sha256:0"), ("web:2", "sha256:2")] }

def exitedUpdate : Played (Option GoError) :=
  (update updateWeb).play exitedWebWorld fun _ => .creating "c1"

/-- The replacement of the exited container is created and left as it is. -/
theorem stopped_never_started_exited :
    exitedUpdate.value = none ∧ exitedUpdate.world.engine.specs.map ContainerSpec.image = ["sha256:2"] ∧
      ∀ e ∈ exitedUpdate.trace, ¬ e.op.Starts := by
  have hfound : (snapshotOf exitedUpdate.trace).map InspectResponse.running = some false := by
    decide +kernel
  obtain ⟨before, hbefore, hstopped⟩ := Option.map_eq_some_iff.mp hfound
  exact ⟨by decide +kernel, by decide +kernel,
    stopped_never_started (.update updateWeb) (Go.play_runs _ _ _) hbefore hstopped⟩

end Updater
end Doupro
