import Doupro.System.Calls

/-!
# Operations

`withOperation` is `beginOperation` followed by the deferred release, which runs however
the operation ends.
-/

namespace Doupro.Updater

open Go Interaction

/-- `Updater.beginOperation`. -/
def beginOperation (name kind : String) (actor : Actor) (actorID : String) :
    Go (Option GoError) := do
  match ← Go.beginOperation name kind with
  | none => return none
  | some current =>
    emit {
      level := .warn
      type := "container.operation_rejected"
      container := name
      actor := actor
      actorID := actorID
      message := "rejected " ++ kind ++ " for " ++ name ++ ": " ++ current.kind ++
        " already in progress"
      metadata := [("requested_operation", .string kind),
        ("active_operation", .string current.kind)] }
    if current.kind = "self-update" then return some .maintenanceInProgress
    return some (.operationInProgress name current.kind)

/-- Run an operation between `beginOperation` and its release. -/
def withOperation (name kind : String) (actor : Actor) (actorID : String)
    (operation : Go (Option GoError)) : Go (Option GoError) := do
  if let some err ← beginOperation name kind actor actorID then return some err
  let result ← operation
  endOperation name kind
  return result

theorem withOperation_uses {P : Call → Prop} (hbegin : ∀ name kind, P (.beginOperation name kind))
    (hend : ∀ name kind, P (.endOperation name kind)) (hemit : ∀ event, P (.emit event))
    (name kind : String) (actor : Actor) (actorID : String) {operation : Go (Option GoError)}
    (h : operation.Uses P) : (withOperation name kind actor actorID operation).Uses P := by
  have hguard : (beginOperation name kind actor actorID).Uses P := by
    refine Program.uses_bind ((Program.uses_request _).mpr (hbegin _ _)) fun current => ?_
    cases current with
    | none => trivial
    | some current =>
      refine Program.uses_bind ((Program.uses_request _).mpr (hemit _)) fun _ => ?_
      split <;> trivial
  refine Program.uses_bind hguard fun refused => ?_
  cases refused with
  | some err => trivial
  | none => exact Program.uses_bind h fun result => ⟨hend _ _, fun _ => trivial⟩

end Doupro.Updater
