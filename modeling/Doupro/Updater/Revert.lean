import Doupro.Registry.Reference
import Doupro.Updater.Operations
import Doupro.Updater.Recreate

/-!
# After a failed recreation

`failBeforeRemoval` while the original container still exists, `revert` once it is gone.
-/

namespace Doupro.Updater

open Go Interaction

/-- `stackOf(before.Config.Labels)`, where a plan was built, so the config is there. -/
def stackOf (before : InspectResponse) : String := (before.config.map Config.stack).getD ""

/-- `before.Config.Image`. -/
def configImage (before : InspectResponse) : String := (before.config.map Config.image).getD ""

/-- `stableImageReference`. -/
def stableImageReference (operationImage storedImage : String) : String :=
  if Registry.isDigestReference operationImage ∧ storedImage ≠ "" ∧
      ¬ Registry.isDigestReference storedImage then storedImage
  else operationImage

/-- The caller of an operation, for the log. -/
structure Requester where
  actor : Actor
  actorID : String
  deriving DecidableEq

/-- What the error paths of one operation share. -/
structure FailedOperation where
  kind : String
  originalID : String
  before : InspectResponse
  name : String
  requester : Requester
  cause : GoError

/-- `Updater.failBeforeRemoval`. -/
def failBeforeRemoval (ctx : Context) (op : FailedOperation) (result : RecreationResult) :
    Go (Option GoError) := do
  if result.originalStopped then
    if let .error err ← docker ctx (.start op.originalID) then
      emit {
        level := .error
        type := op.kind ++ ".revert_failed"
        container := op.name
        actor := op.requester.actor
        actorID := op.requester.actorID
        message := "could not restart " ++ op.name ++ " after a failed " ++ op.kind ++ ": " ++
          err.message ++ " (original failure: " ++ op.cause.message ++ ")" }
      return some (.notRestarted op.kind err)
  return some (.failedBeforeRemoval op.kind op.cause)

/-- The row a revert records for the recreated original. -/
def revertedRecord (op : FailedOperation) (result : RecreationResult)
    (recorded : Except GoError ContainerRecord) : ContainerRecord :=
  let (currentImage, previousImage) := match recorded with
    | .ok rec => (stableImageReference (configImage op.before) rec.currentImage, rec.previousImage)
    | .error _ => (configImage op.before, "")
  { id := result.id
    name := op.name
    stack := stackOf op.before
    state := result.state
    status := result.status
    currentImage := currentImage
    previousImage := previousImage }

/-- `Updater.revert`. The store knows the container by `op.originalID`; `liveID` is what
Docker still runs of the failed attempt. -/
def revert (ctx : Context) (op : FailedOperation) (liveID : String) : Go (Option GoError) := do
  let (result, revertErr) ← recreate ctx liveID op.before (configImage op.before)
  match revertErr with
  | some revertErr =>
    if revertErr = .nilDereference then return some .nilDereference
    let message := "could not revert " ++ op.name ++ " after a failed " ++ op.kind ++ ": " ++
      revertErr.message ++ " (original failure: " ++ op.cause.message ++ ")"
    emit {
      level := .error
      type := op.kind ++ ".revert_failed"
      container := op.name
      actor := op.requester.actor
      actorID := op.requester.actorID
      message := message }
    notify ⟨op.kind ++ ".revert_failed", op.name, stackOf op.before, message⟩
    return some (.revertFailed op.kind op.cause revertErr)
  | none =>
    let recorded ← store ctx (.getContainer op.originalID)
    if let .error err ← store ctx (.replaceContainer op.originalID
        (revertedRecord op result recorded)) then
      return some (.wrap "record reverted container" err)
    notify ⟨op.kind ++ ".failed", op.name, stackOf op.before,
      op.kind ++ " failed for " ++ op.name ++ ", reverted to previous image: " ++
        op.cause.message⟩
    return some (.reverted op.kind op.cause)

/-- What both operations do when their recreation failed. -/
def recover (ctx : Context) (op : FailedOperation) (result : RecreationResult) :
    Go (Option GoError) :=
  if ¬ result.originalRemoved then failBeforeRemoval ctx op result
  else revert ctx op result.id

/-! ### The calls of a rollback -/

/-- The calls a rollback and the error paths of both operations make under the guard. -/
def InRollback : Call → Prop
  | .docker _ _ | .now | .sleepUntil _ _ | .emit _ | .notify _ | .store _ (.getContainer _)
  | .store _ (.replaceContainer _ _) | .store _ (.replaceContainerAndCompleteRollback _ _ _)
  | .store _ (.setUpdateAvailable _ _) => True
  | _ => False

/-- The calls a rollback makes. -/
def OfRollback : Call → Prop
  | .docker _ _ | .now | .sleepUntil _ _ | .beginOperation _ _ | .endOperation _ _ | .emit _
  | .notify _ | .store _ (.getContainer _) | .store _ (.replaceContainer _ _)
  | .store _ (.replaceContainerAndCompleteRollback _ _ _) | .store _ (.setUpdateAvailable _ _) => True
  | _ => False

theorem inRollback_of_onDocker {call : Call} (h : OnDocker call) : InRollback call := by
  unfold OnDocker at h
  split at h <;> trivial

theorem ofRollback_of_inRollback {call : Call} (h : InRollback call) : OfRollback call := by
  unfold InRollback at h
  split at h <;> trivial

theorem revert_calls (ctx : Context) (op : FailedOperation) (liveID : String) :
    (revert ctx op liveID).Uses InRollback := by
  refine Program.uses_bind (Program.uses_mono (fun _ => inRollback_of_onDocker)
    (recreate_onDocker _ _ _ _)) fun ⟨result, revertErr⟩ => ?_
  cases revertErr with
  | some err =>
    simp only []
    split
    · trivial
    · exact ⟨trivial, fun _ => ⟨trivial, fun _ => trivial⟩⟩
  | none =>
    refine Program.uses_bind ((Program.uses_request _).mpr trivial) fun recorded => ?_
    refine Program.uses_bind ((Program.uses_request _).mpr trivial) fun replaced => ?_
    cases replaced with
    | error err => trivial
    | ok _ => exact ⟨trivial, fun _ => trivial⟩

theorem recover_calls (ctx : Context) (op : FailedOperation) (result : RecreationResult) :
    (recover ctx op result).Uses InRollback := by
  unfold recover failBeforeRemoval
  split
  · split
    · refine Program.uses_bind ((Program.uses_request _).mpr trivial) fun reply => ?_
      cases reply with
      | error err => exact ⟨trivial, fun _ => trivial⟩
      | ok _ => trivial
    · trivial
  · exact revert_calls ctx op _

end Doupro.Updater
