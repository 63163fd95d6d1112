import Doupro.Scheduler.VersionResolution
import Doupro.Updater.Services

/-!
# The container handlers

`POST update`, `POST rollback` and `POST update-all`. A result of `none` is a panic inside the
updater.
-/

namespace Doupro.Api

open Go Interaction

/-- What a handler of this package answers. -/
inductive Answer where
  | refused (status : Nat) (code message : String)
  /-- `respondAction`. -/
  | action (err : Option GoError)
  /-- `respondSelfUpdate`. -/
  | selfUpdate (err : Option GoError)
  | queued (count : Nat)
  | created (rows : List Schedule)
  | ok
  deriving DecidableEq

def lookupRefused (err : GoError) : Answer :=
  if err.isNotFound then .refused 404 "not_found" "container not found"
  else .refused 500 "internal_error" "failed to look up container"

/-- `parseSemverScope`, of the query parameter `semver`. -/
def parseSemverScope (semver : String) : Except String String :=
  let scope := if semver = "" then "major" else semver
  if scope = "patch" ∨ scope = "minor" ∨ scope = "major" then .ok scope
  else .error "semver must be patch, minor, or major"

/-- `resolveUpdateTarget`. -/
def resolveUpdateTarget (ctx : Context) (rec : ContainerRecord) (scope : String) :
    Go (String × String) := do
  match ← store ctx (.getUpdateCandidate rec.id scope) with
  | .error _ => return (rec.currentImage, rec.availableVersion)
  | .ok candidate =>
    return (candidate.image,
      if Scheduler.isVersion candidate.version then candidate.version else rec.availableVersion)

/-- The version of a container that was updated or rolled back; a failure is not reported. -/
def resolveAfter (ctx : Context) (name : String) : Go Unit := do
  match ← Monitor.getContainerByName ctx name with
  | .error _ => return
  | .ok updated =>
    let _ ← Scheduler.resolveVersionAfterAction ctx updated.id updated.currentImage

/-- What follows an update that went through. -/
def concludeUpdate (ctx : Context) (rec : ContainerRecord) : Go Unit := do
  let _ ← store ctx (.clearUpdateCandidates rec.id)
  resolveAfter ctx rec.name

/-- `handleUpdateContainer`; `ctx` is the request's context, `opCtx` that of the operation. -/
def handleUpdateContainer (updater : Updater.SelfUpdater) (ctx opCtx : Context)
    (name semver actorID : String) : Daemon (Option Answer) := do
  match ← Monitor.getContainerByName ctx name with
  | .error err => return some (lookupRefused err)
  | .ok rec => match parseSemverScope semver with
    | .error message => return some (.refused 400 "invalid_request" message)
    | .ok scope =>
      let (target, _) ← resolveUpdateTarget ctx rec scope
      if ← Updater.isSelf updater ctx rec.id then
        return some (.selfUpdate (← Daemon.startSelfUpdate updater ctx rec.id target actorID))
      match ← Daemon.update ⟨opCtx, rec.id, target, ⟨.user, actorID⟩⟩ with
      | some .nilDereference => return none
      | some err => return some (.action (some err))
      | none =>
        concludeUpdate opCtx rec
        return some (.action none)

/-- `handleRollbackContainer`. -/
def handleRollbackContainer (ctx opCtx : Context) (name actorID : String) :
    Daemon (Option Answer) := do
  match ← Monitor.getContainerByName ctx name with
  | .error err => return some (lookupRefused err)
  | .ok rec => match ← Daemon.rollback ⟨opCtx, rec.id, ⟨.user, actorID⟩⟩ with
    | some .nilDereference => return none
    | some err => return some (.action (some err))
    | none =>
      resolveAfter opCtx rec.name
      return some (.action none)

/-! ### Update-all -/

/-- `selectBulkUpdateTargets`. -/
def selectBulkUpdateTargets (records : List ContainerRecord) (stack : String) :
    List ContainerRecord :=
  records.filter fun c => c.updateAvailable && !c.excluded && (stack = "" || c.stack = stack)

/-- `excludeSelf`. -/
def excludeSelf (updater : Updater.SelfUpdater) (ctx : Context) :
    List ContainerRecord → Go (List ContainerRecord)
  | [] => return []
  | c :: rest => do
    let self ← Updater.isSelf updater ctx c.id
    let others ← excludeSelf updater ctx rest
    return if self then others else c :: others

/-- The update of one target of update-all. -/
def bulkUpdateRequest (ctx : Context) (actorID : String) (rec : ContainerRecord) :
    Updater.UpdateRequest :=
  ⟨ctx, rec.id, rec.currentImage, ⟨.user, actorID⟩⟩

/-- The loop of `runBulkUpdate`: how many updates succeeded and failed. -/
def bulkUpdates (ctx : Context) (actorID : String) :
    List ContainerRecord → (succeeded failed : Nat) → Daemon (Option (Nat × Nat))
  | [], succeeded, failed => return some (succeeded, failed)
  | rec :: rest, succeeded, failed => do
    match ← Daemon.update (bulkUpdateRequest ctx actorID rec) with
    | some .nilDereference => return none
    | some _ => bulkUpdates ctx actorID rest succeeded (failed + 1)
    | none =>
      concludeUpdate ctx rec
      bulkUpdates ctx actorID rest (succeeded + 1) failed

/-- An event of update-all. -/
def bulkEvent (type actorID message : String) (metadata : List (String × Json)) : LogEvent where
  level := .info
  type := type
  actor := .user
  actorID := actorID
  message := message
  metadata := metadata

/-- `runBulkUpdate`. -/
def runBulkUpdate (ctx : Context) (targets : List ContainerRecord) (actorID : String) :
    Daemon (Option Unit) := do
  match ← bulkUpdates ctx actorID targets 0 0 with
  | none => return none
  | some (succeeded, failed) =>
    emit (bulkEvent "containers.bulk_update_completed" actorID
      ("bulk update finished: " ++ toString succeeded ++ " succeeded, " ++ toString failed ++
        " failed")
      [("succeeded", .number succeeded), ("failed", .number failed)])
    return some ()

/-- `handleUpdateAllContainers` and the goroutine it starts. -/
def handleUpdateAllContainers (updater : Updater.SelfUpdater) (ctx opCtx : Context)
    (stack actorID : String) : Daemon (Option Answer) := do
  match ← store ctx .listContainers with
  | .error _ => return some (.refused 500 "internal_error" "failed to list containers")
  | .ok records =>
    let targets ← excludeSelf updater ctx (selectBulkUpdateTargets records stack)
    if targets = [] then return some (.queued 0)
    emit (bulkEvent "containers.bulk_update_started" actorID
      ("bulk update started for " ++ toString targets.length ++ " container(s) in " ++
        (if stack = "" then "every stack" else "stack " ++ stack))
      [("count", .number targets.length), ("stack", .string stack)])
    match ← runBulkUpdate opCtx targets actorID with
    | none => return none
    | some () => return some (.queued targets.length)

end Doupro.Api
