import Doupro.Updater.Revert

/-!
# Update

`Updater.Update`: recreate the container on the target image, then commit the new row
together with its rollback watch.
-/

namespace Doupro.Updater

open Go Interaction

/-- The arguments of one `Update` call and what its first steps found. -/
structure UpdateRequest where
  ctx : Context
  containerID : String
  targetImage : String
  requester : Requester
  deriving DecidableEq

/-- An event of an update, with the versions it moves between. -/
def updateEvent (req : UpdateRequest) (before : InspectResponse) (level : Level)
    (type message : String) : LogEvent where
  level := level
  type := type
  container := trimSlash before.name
  fromVersion := configImage before
  toVersion := req.targetImage
  actor := req.requester.actor
  actorID := req.requester.actorID
  message := message

/-- `definedImage`: the reference an update records, from what the store knows already. -/
def definedImageOf (targetImage : String) : Except GoError ContainerRecord → String
  | .ok rec => stableImageReference targetImage rec.currentImage
  | .error _ => targetImage

/-- The row an update commits. -/
def updatedRecord (before : InspectResponse) (definedImage : String) (result : RecreationResult) :
    ContainerRecord where
  id := result.id
  name := trimSlash before.name
  stack := stackOf before
  state := result.state
  status := result.status
  currentImage := definedImage
  previousImage := before.image

/-- The end of an update whose commit went through. -/
def reportUpdated (req : UpdateRequest) (before : InspectResponse) : Go (Option GoError) := do
  let name := trimSlash before.name
  let message := name ++ " updated " ++ configImage before ++ " -> " ++ req.targetImage
  emit (updateEvent req before .info "update.succeeded" message)
  notify ⟨"update.succeeded", name, stackOf before, message⟩
  return none

/-- The commit failed after the replacement came up. -/
def revertUncommitted (req : UpdateRequest) (before : InspectResponse)
    (result : RecreationResult) (err : GoError) : Go (Option GoError) := do
  let commitErr := GoError.wrap "record updated container" err
  let name := trimSlash before.name
  emit (updateEvent req before .error "update.commit_failed"
    ("update reached a healthy container but its durable commit failed for " ++ name ++
      "; reverting: " ++ commitErr.message))
  revert req.ctx ⟨"update", req.containerID, before, name, req.requester, commitErr⟩ result.id

/-- The commit of a replacement that came up running: row and watch in one transaction. -/
def commitProtected (req : UpdateRequest) (before : InspectResponse) (result : RecreationResult)
    (replacement : ContainerRecord) : Go (Option GoError) := do
  match ← store req.ctx .getCrashLoopSettings with
  | .error err => revertUncommitted req before result err
  | .ok (threshold, windowMinutes) =>
    let restartCount := match ← docker req.ctx (.inspect result.id) with
      | .ok inspected => inspected.restartCount
      | .error _ => 0
    match ← store req.ctx (.replaceContainerAndArmRollback req.containerID replacement (← now)
        (windowMinutes * minute) threshold restartCount) with
    | .error err => revertUncommitted req before result err
    | .ok () =>
      let name := trimSlash before.name
      emit {
        level := .info
        type := "crashloop.armed"
        container := name
        actor := .system
        message := "automatic rollback armed for " ++ name ++ ": " ++ toString threshold ++
          " crashes within " ++ toString windowMinutes ++ " minutes"
        metadata := [("threshold", .number threshold), ("window_minutes", .number windowMinutes)] }
      reportUpdated req before

/-- The commit of a replacement that was left stopped; it also closes an older watch. -/
def commitStopped (req : UpdateRequest) (before : InspectResponse) (result : RecreationResult)
    (replacement : ContainerRecord) : Go (Option GoError) := do
  match ← store req.ctx (.replaceContainer req.containerID replacement) with
  | .error err => revertUncommitted req before result err
  | .ok () =>
    let _ ← store req.ctx (.completeRollbackWatch (trimSlash before.name) .notRunning)
    reportUpdated req before

/-- An update from the first inspect on. -/
def updateInspected (req : UpdateRequest) (before : InspectResponse) : Go (Option GoError) := do
  let name := trimSlash before.name
  let definedImage := definedImageOf req.targetImage
    (← store req.ctx (.getContainer req.containerID))
  emit (updateEvent req before .info "update.started"
    ("updating " ++ name ++ ": " ++ configImage before ++ " -> " ++ req.targetImage))
  let (result, err) ← recreate req.ctx req.containerID before req.targetImage
  match err with
  | some .nilDereference => return some .nilDereference
  | some cause =>
    emit (updateEvent req before .error "update.failed"
      ("update failed for " ++ name ++ ", reverting to previous image: " ++ cause.message))
    recover req.ctx ⟨"update", req.containerID, before, name, req.requester, cause⟩ result
  | none =>
    let replacement := updatedRecord before definedImage result
    if result.state = "running" then commitProtected req before result replacement
    else commitStopped req before result replacement

/-- An update under the guard. -/
def updateGuarded (req : UpdateRequest) : Go (Option GoError) := do
  match ← docker req.ctx (.inspect req.containerID) with
  | .error err => return some (.wrap "inspect container before update" err)
  | .ok before =>
    -- the labels of the config are read before anything else is done
    if before.config.isNone then return some .nilDereference
    updateInspected req before

/-- The name an update takes the guard under: the stored one, or the ID if it cannot be read. -/
def operationName (containerID : String) : Except GoError ContainerRecord → String
  | .ok rec => rec.name
  | .error _ => containerID

/-- `Updater.Update`. -/
def update (req : UpdateRequest) : Go (Option GoError) := do
  let name := operationName req.containerID (← store req.ctx (.getContainer req.containerID))
  withOperation name "update" req.requester.actor req.requester.actorID (updateGuarded req)

/-! ### The calls of an update -/

/-- The calls an update makes under the guard. -/
def InUpdate : Call → Prop
  | .store _ .getCrashLoopSettings | .store _ (.completeRollbackWatch _ _)
  | .store _ (.replaceContainerAndArmRollback _ _ _ _ _ _) => True
  | call => InRollback call

theorem inUpdate_of_inRollback {call : Call} (h : InRollback call) : InUpdate call := by
  unfold InUpdate
  split <;> trivial

theorem revertUncommitted_calls (req : UpdateRequest) (before : InspectResponse)
    (result : RecreationResult) (err : GoError) :
    (revertUncommitted req before result err).Uses InUpdate :=
  ⟨trivial, fun _ => Program.uses_mono (fun _ => inUpdate_of_inRollback) (revert_calls _ _ _)⟩

theorem commitProtected_calls (req : UpdateRequest) (before : InspectResponse)
    (result : RecreationResult) (replacement : ContainerRecord) :
    (commitProtected req before result replacement).Uses InUpdate := by
  refine Program.uses_bind ((Program.uses_request _).mpr trivial) fun settings => ?_
  cases settings with
  | error err => exact revertUncommitted_calls _ _ _ _
  | ok settings =>
    refine Program.uses_bind ((Program.uses_request _).mpr trivial) fun inspected => ?_
    refine Program.uses_bind ((Program.uses_request _).mpr trivial) fun now => ?_
    refine Program.uses_bind ((Program.uses_request _).mpr trivial) fun committed => ?_
    cases committed with
    | error err => exact revertUncommitted_calls _ _ _ _
    | ok _ => exact ⟨trivial, fun _ => ⟨trivial, fun _ => ⟨trivial, fun _ => trivial⟩⟩⟩

theorem commitStopped_calls (req : UpdateRequest) (before : InspectResponse)
    (result : RecreationResult) (replacement : ContainerRecord) :
    (commitStopped req before result replacement).Uses InUpdate := by
  refine Program.uses_bind ((Program.uses_request _).mpr trivial) fun committed => ?_
  cases committed with
  | error err => exact revertUncommitted_calls _ _ _ _
  | ok _ => exact ⟨trivial, fun _ => ⟨trivial, fun _ => ⟨trivial, fun _ => trivial⟩⟩⟩

theorem updateInspected_calls (req : UpdateRequest) (before : InspectResponse) :
    (updateInspected req before).Uses InUpdate := by
  refine Program.uses_bind ((Program.uses_request _).mpr trivial) fun known => ?_
  refine Program.uses_bind ((Program.uses_request _).mpr trivial) fun _ => ?_
  refine Program.uses_bind (Program.uses_mono
    (fun _ h => inUpdate_of_inRollback (inRollback_of_onDocker h)) (recreate_onDocker _ _ _ _))
    fun ⟨result, err⟩ => ?_
  cases err with
  | none =>
    dsimp only
    split
    · exact commitProtected_calls _ _ _ _
    · exact commitStopped_calls _ _ _ _
  | some err =>
    cases err with
    | nilDereference => trivial
    | _ => exact ⟨trivial, fun _ => Program.uses_mono (fun _ => inUpdate_of_inRollback)
        (recover_calls _ _ _)⟩

theorem updateGuarded_calls (req : UpdateRequest) : (updateGuarded req).Uses InUpdate := by
  refine Program.uses_bind ((Program.uses_request _).mpr trivial) fun inspected => ?_
  cases inspected with
  | error err => trivial
  | ok before =>
    dsimp only
    split
    · trivial
    · exact updateInspected_calls req before

end Doupro.Updater
