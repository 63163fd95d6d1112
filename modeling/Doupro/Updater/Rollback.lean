import Doupro.Updater.Revert

/-!
# Rollback

`Updater.Rollback`: recreate the container from its recorded previous image. An
automatic rollback first waits for a state a container can be recreated from.
-/

namespace Doupro.Updater

open Go Interaction

structure RollbackRequest where
  ctx : Context
  containerID : String
  requester : Requester

def settleTimeout : Duration := 10 * second
def settleInterval : Duration := 100 * millisecond

/-- The states the wait of an automatic rollback ends on. -/
def Settled (before : InspectResponse) : Prop :=
  match before.state with
  | none => True
  | some state => state.status = .running ∨ state.status = .exited ∨ state.status = .created

instance (before : InspectResponse) : Decidable (Settled before) := by
  unfold Settled; split <;> infer_instance

/-- The wait of an automatic rollback. Every turn takes at least one interval, so the
number of turns is bounded by the deadline; `awaitSettled_fuel` shows that the bound is
never what ends the loop. -/
def awaitSettled (ctx : Context) (containerID : String) (deadline : Time) :
    (turns : Nat) → InspectResponse → Go (Except GoError InspectResponse)
  | 0, before => return .ok before
  | turns + 1, before => do
    if Settled before then return .ok before
    if deadline ≤ (← now) then return .ok before
    if let some err ← sleepUntil ctx ((← now) + settleInterval) then return .error err
    match ← docker ctx (.inspect containerID) with
    | .error err =>
      return .error (.wrap "inspect crash-loop container before rollback" err)
    | .ok before => awaitSettled ctx containerID deadline turns before

/-- What a rollback acts on: the container as inspected, or as the wait left it. -/
def settledBefore (req : RollbackRequest) (before : InspectResponse) :
    Go (Except GoError InspectResponse) := do
  if req.requester.actor = .system then
    let deadline := (← now) + settleTimeout
    awaitSettled req.ctx req.containerID deadline (settleTimeout / settleInterval + 1).toNat before
  else return .ok before

theorem awaitSettled_observes (ctx : Context) (id : String) (deadline : Time) (turns : Nat)
    (before : InspectResponse) :
    (awaitSettled ctx id deadline turns before).Uses Call.Observes := by
  induction turns generalizing before with
  | zero => trivial
  | succ turns ih =>
    unfold awaitSettled
    split
    · trivial
    refine Program.uses_bind ((Program.uses_request _).mpr trivial) fun now => ?_
    split
    · trivial
    refine Program.uses_bind ((Program.uses_request _).mpr trivial) fun now => ?_
    refine Program.uses_bind ((Program.uses_request _).mpr trivial) fun slept => ?_
    split
    · trivial
    refine Program.uses_bind ((Program.uses_request _).mpr trivial) fun reply => ?_
    split
    · trivial
    · exact ih _

theorem settledBefore_observes (req : RollbackRequest) (before : InspectResponse) :
    (settledBefore req before).Uses Call.Observes := by
  unfold settledBefore
  split
  · refine Program.uses_bind ((Program.uses_request _).mpr trivial) fun now => ?_
    exact awaitSettled_observes _ _ _ _ _
  · trivial

def rollbackType (req : RollbackRequest) : String :=
  if req.requester.actor = .system then "rollback.auto" else "rollback.manual"

/-- An event of a rollback, with the versions it moves between. -/
def rollbackEvent (req : RollbackRequest) (rec : ContainerRecord) (name : String) (level : Level)
    (type message : String) : LogEvent where
  level := level
  type := type
  container := name
  fromVersion := rec.currentImage
  toVersion := rec.previousImage
  actor := req.requester.actor
  actorID := req.requester.actorID
  message := message

/-- The row a rollback commits. -/
def rolledBackRecord (rec : ContainerRecord) (before : InspectResponse)
    (result : RecreationResult) : ContainerRecord where
  id := result.id
  name := trimSlash before.name
  stack := stackOf before
  state := result.state
  status := result.status
  currentImage := rec.currentImage
  previousImage := before.image

def rollbackStatus (req : RollbackRequest) : WatchStatus :=
  if req.requester.actor = .system then .automaticRollback else .manualRollback

/-- The commit of a rollback and its report. -/
def commitRollback (req : RollbackRequest) (rec : ContainerRecord) (before : InspectResponse)
    (result : RecreationResult) : Go (Option GoError) := do
  let name := trimSlash before.name
  let eventType := rollbackType req
  match ← store req.ctx (.replaceContainerAndCompleteRollback req.containerID
      (rolledBackRecord rec before result) (rollbackStatus req)) with
  | .error err =>
    let commitErr := GoError.wrap "record rolled-back container" err
    emit (rollbackEvent req rec name .error (eventType ++ ".commit_failed")
      ("rollback recreated " ++ name ++
        " but its durable commit failed; restoring the pre-rollback container: " ++
        commitErr.message))
    revert req.ctx ⟨eventType, req.containerID, before, name, req.requester, commitErr⟩ result.id
  | .ok () =>
    if let .error err ← store req.ctx (.setUpdateAvailable result.id true) then
      emit {
        level := .warn
        type := "container.sync_failed"
        container := name
        actor := req.requester.actor
        actorID := req.requester.actorID
        message := "rolled back " ++ name ++ " but could not mark an update available again: " ++
          err.message }
    let message := name ++ " rolled back to " ++ rec.previousImage
    emit (rollbackEvent req rec name .info (eventType ++ ".succeeded") message)
    notify ⟨eventType ++ ".succeeded", name, stackOf before, message⟩
    return none

/-- A rollback from the inspect response it acts on. -/
def rollbackInspected (req : RollbackRequest) (rec : ContainerRecord) (before : InspectResponse) :
    Go (Option GoError) := do
  let name := trimSlash before.name
  let eventType := rollbackType req
  let level := if req.requester.actor = .system then Level.warn else Level.info
  emit (rollbackEvent req rec name level eventType
    ("rolling back " ++ name ++ ": " ++ rec.currentImage ++ " -> " ++ rec.previousImage))
  let (result, err) ← recreate req.ctx req.containerID before rec.previousImage
  match err with
  | some .nilDereference => return some .nilDereference
  | some cause =>
    emit (rollbackEvent req rec name .error (eventType ++ ".failed")
      ("rollback failed for " ++ name ++ ", reverting to current image: " ++ cause.message))
    recover req.ctx ⟨eventType, req.containerID, before, name, req.requester, cause⟩ result
  | none => commitRollback req rec before result

/-- A rollback under the guard. -/
def rollbackGuarded (req : RollbackRequest) (rec : ContainerRecord) : Go (Option GoError) := do
  match ← docker req.ctx (.inspect req.containerID) with
  | .error err => return some (.wrap "inspect container before rollback" err)
  | .ok before => match ← settledBefore req before with
    | .error err => return some err
    | .ok before => rollbackInspected req rec before

/-- `Updater.Rollback`. -/
def rollback (req : RollbackRequest) : Go (Option GoError) := do
  match ← store req.ctx (.getContainer req.containerID) with
  | .error err => return some (.wrap "look up container" err)
  | .ok rec =>
    if rec.previousImage = "" then
      return some (.new "no previous version recorded for this container")
    withOperation rec.name "rollback" req.requester.actor req.requester.actorID
      (rollbackGuarded req rec)

/-! ### The calls of a rollback -/

theorem inRollback_of_observes {call : Call} (h : call.Observes) : InRollback call :=
  inRollback_of_onDocker (onDocker_of_observes h)

theorem commitRollback_calls (req : RollbackRequest) (rec : ContainerRecord)
    (before : InspectResponse) (result : RecreationResult) :
    (commitRollback req rec before result).Uses InRollback := by
  refine Program.uses_bind ((Program.uses_request _).mpr trivial) fun reply => ?_
  cases reply with
  | error err => exact ⟨trivial, fun _ => revert_calls _ _ _⟩
  | ok _ =>
    refine Program.uses_bind ((Program.uses_request _).mpr trivial) fun marked => ?_
    cases marked with
    | error err => exact ⟨trivial, fun _ => ⟨trivial, fun _ => ⟨trivial, fun _ => trivial⟩⟩⟩
    | ok _ => exact ⟨trivial, fun _ => ⟨trivial, fun _ => trivial⟩⟩

theorem rollbackInspected_calls (req : RollbackRequest) (rec : ContainerRecord)
    (before : InspectResponse) : (rollbackInspected req rec before).Uses InRollback := by
  refine Program.uses_bind ((Program.uses_request _).mpr trivial) fun _ => ?_
  refine Program.uses_bind (Program.uses_mono (fun _ => inRollback_of_onDocker)
    (recreate_onDocker _ _ _ _)) fun ⟨result, err⟩ => ?_
  cases err with
  | none => exact commitRollback_calls _ _ _ _
  | some err =>
    cases err with
    | nilDereference => trivial
    | _ => exact ⟨trivial, fun _ => recover_calls _ _ _⟩

/-- A rollback from its inspect on, under the guard. -/
theorem rollbackGuarded_calls (req : RollbackRequest) (rec : ContainerRecord) :
    (rollbackGuarded req rec).Uses InRollback := by
  refine Program.uses_bind ((Program.uses_request _).mpr trivial) fun reply => ?_
  cases reply with
  | error err => trivial
  | ok before =>
    refine Program.uses_bind (Program.uses_mono (fun _ => inRollback_of_observes)
      (settledBefore_observes _ _)) fun settled => ?_
    cases settled with
    | error err => trivial
    | ok before => exact rollbackInspected_calls _ _ _

theorem rollback_calls (req : RollbackRequest) : (rollback req).Uses OfRollback := by
  refine Program.uses_bind ((Program.uses_request _).mpr trivial) fun reply => ?_
  cases reply with
  | error err => trivial
  | ok rec =>
    simp only []
    split
    · trivial
    · exact withOperation_uses (fun _ _ => trivial) (fun _ _ => trivial) (fun _ => trivial) _ _ _ _
        (Program.uses_mono (fun _ => ofRollback_of_inRollback) (rollbackGuarded_calls req rec))

end Doupro.Updater
