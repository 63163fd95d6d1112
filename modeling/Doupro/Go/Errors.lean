import Mathlib.Data.String.Basic

/-!
# Errors

An error keeps its text and the identity that `errors.Is` and `errors.As` look
for. The updater's own outcomes are constructors of their own, so that a theorem
can say which one a call reported; `message` renders the text of each.
-/

namespace Doupro

inductive GoError where
  | notFound
  | contextDone
  /-- Not an error value: the goroutine panics and unwinds through its deferred calls. -/
  | nilDereference
  /-- An error value of the Docker client or of SQLite. -/
  | external (text : String)
  | new (message : String)
  /-- `fmt.Errorf("<label>: %w", cause)`. -/
  | wrap (label : String) (cause : GoError)
  | operationInProgress (container kind : String)
  | maintenanceInProgress
  /-- `SelfUpdateSafetyError`. -/
  | selfUpdateUnsafe (reason : String)
  | failedBeforeRemoval (kind : String) (cause : GoError)
  | notRestarted (kind : String) (cause : GoError)
  | reverted (kind : String) (cause : GoError)
  | revertFailed (kind : String) (cause revertErr : GoError)
  deriving DecidableEq

namespace GoError

def message : GoError → String
  | .notFound => "not found"
  | .contextDone => "context deadline exceeded"
  | .nilDereference => "runtime error: invalid memory address or nil pointer dereference"
  | .external text => text
  | .new message => message
  | .wrap label cause => label ++ ": " ++ cause.message
  | .operationInProgress container kind =>
    container ++ " already has a " ++ kind ++ " operation in progress"
  | .maintenanceInProgress => "DoUpRo self-update maintenance is in progress"
  | .selfUpdateUnsafe reason => reason
  | .failedBeforeRemoval kind cause =>
    kind ++ " failed before the original container was removed: " ++ cause.message
  | .notRestarted kind cause =>
    kind ++ " failed and original container could not be restarted: " ++ cause.message
  | .reverted kind cause => kind ++ " failed, reverted to previous image: " ++ cause.message
  | .revertFailed kind cause revertErr =>
    kind ++ " failed and revert also failed: " ++ kind ++ " error: " ++ cause.message ++
      "; revert error: " ++ revertErr.message

/-- `errors.Is(err, store.ErrNotFound)`: the error itself or one it wraps. -/
def isNotFound : GoError → Bool
  | .notFound => true
  | .wrap _ cause | .failedBeforeRemoval _ cause | .notRestarted _ cause | .reverted _ cause
  | .revertFailed _ cause _ => cause.isNotFound
  | _ => false

/-- `updater.IsMaintenanceError`. -/
def isMaintenanceError : GoError → Bool
  | .maintenanceInProgress => true
  | .wrap _ cause | .failedBeforeRemoval _ cause | .notRestarted _ cause | .reverted _ cause
  | .revertFailed _ cause _ => cause.isMaintenanceError
  | _ => false

/-- Only an update or rollback that recreated the original reports this outcome. -/
def isReverted : GoError → Bool
  | .reverted _ _ => true
  | _ => false

end GoError
end Doupro
