import Doupro.Api.Containers

/-!
# The exclusion settings

`PATCH settings/exclusions` saves both lists, then recomputes the flag of every tracked row.
-/

namespace Doupro.Api

open Go Interaction

/-- `SetExclusions`. -/
def setExclusions (ctx : Context) (ex : Exclusions) : Go (Except GoError Unit) := do
  match ← store ctx (.saveExcludedContainers ex.containers) with
  | .error err => return .error err
  | .ok () => store ctx (.saveExcludedStacks ex.stackNames)

/-- `handleSetExclusions`, given the decoded body. -/
def handleSetExclusions (ctx : Context) (body : Option Exclusions) (actorID : String) :
    Go Answer := do
  match body with
  | none => return .refused 400 "invalid_request" "invalid JSON body"
  | some ex => match ← setExclusions ctx ex with
    | .error _ => return .refused 500 "internal_error" "failed to save exclusions"
    | .ok () => match ← store ctx (.applyExclusions ex) with
      | .error _ => return .refused 500 "internal_error" "failed to apply exclusions"
      | .ok () =>
        emit {
          level := .info
          type := "settings.exclusions_changed"
          actor := .user
          actorID := actorID
          message := "exclusions updated: " ++ toString ex.containers.length ++ " container(s), " ++
            toString ex.stackNames.length ++ " stack(s)"
          metadata := [("containers", .number ex.containers.length),
            ("stacks", .number ex.stackNames.length)] }
        return .ok

end Doupro.Api
