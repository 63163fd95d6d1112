import Doupro.Scheduler.Blockers

/-!
# Self-update

How the daemon recognises its own container, and `StartSelfUpdate`: close the maintenance
gate, check the horizon, pull the target and start a sibling helper that replaces the
daemon.
-/

namespace Doupro.Updater

open Go Interaction

/-- What the updater of this process knows of itself. -/
structure SelfUpdater where
  /-- `os.Hostname()`, empty if that failed. -/
  hostname : String := ""
  socketPath : String := "/var/run/docker.sock"
  /-- `ConfigureSelfUpdate` was called with the scheduler's blockers and a shutdown function. -/
  configured : Bool := true

def selfUpdateSafetyWindow : Duration := 5 * minute

/-- A container whose ID the hostname is a prefix of. -/
def SelfUpdater.names (u : SelfUpdater) (item : ListedContainer) : Bool :=
  u.hostname ≠ "" && hasPrefix item.id u.hostname

/-- The containers that carry the instance label. -/
def labelled (items : List ListedContainer) : List String :=
  (items.filter fun item => item.label "doupro.instance" = "true").map ListedContainer.id

/-- What `selfContainerID` makes of a listing. -/
def SelfUpdater.identify (u : SelfUpdater) (items : List ListedContainer) : Except GoError String :=
  match items.find? u.names with
  | some item => .ok item.id
  | none => match labelled items with
    | [id] => .ok id
    | ids => .error (.new ("self-update requires exactly one doupro.instance=true container (found " ++
        toString ids.length ++ ")"))

/-- `selfContainerID`. -/
def selfContainerID (u : SelfUpdater) (ctx : Context) : Go (Except GoError String) := do
  match ← docker ctx .list with
  | .error err => return .error err
  | .ok items => return u.identify items

/-- One of two container IDs is a prefix of the other. -/
def sameContainer (selfID containerID : String) : Bool :=
  hasPrefix selfID containerID || hasPrefix containerID selfID

/-- `Updater.IsSelf`. -/
def isSelf (u : SelfUpdater) (ctx : Context) (containerID : String) : Go Bool := do
  match ← selfContainerID u ctx with
  | .error _ => return false
  | .ok selfID => return sameContainer selfID containerID

/-- `parentEnv`. -/
def parentEnv (ctx : Context) (id : String) : Go (List String) := do
  match ← docker ctx (.inspect id) with
  | .error _ => return []
  | .ok info => return (info.config.bind Config.env).getD []

/-- `envOrDefault`. -/
def envOrDefault (env : List String) (key fallback : String) : String :=
  match env.find? fun item => hasPrefix item (key ++ "=") with
  | some item => String.ofList (item.toList.drop (key.length + 1))
  | none => fallback

/-- `mustInspectName`. -/
def mustInspectName (ctx : Context) (id : String) : Go String := do
  match ← docker ctx (.inspect id) with
  | .error _ => return id
  | .ok info => return info.name

/-- The database lies under a mount point. -/
def holdsPath (path : String) (point : MountPoint) : Bool :=
  let dir := point.destination.toList
  let base := if dir.getLast? = some '/' then dir.dropLast else dir
  path = point.destination || (base ++ ['/']).isPrefixOf path.toList

/-- The mount that gives the helper the database of the parent. -/
def helperMount (dbPath : String) (parent : InspectResponse) : List Mount :=
  ((parent.mounts.find? (holdsPath dbPath)).toList).map fun point =>
    { type := point.type
      source := if point.type = "volume" then point.name else point.source
      target := point.destination
      readOnly := !point.rw }

def helperConfig (u : SelfUpdater) (selfID targetImage token dbPath : String) : Config where
  image := targetImage
  cmd := some ["self-update-helper", "--parent-id", selfID, "--target-image", targetImage, "--token",
    token, "--socket", u.socketPath, "--db-path", dbPath]
  labels := some [("doupro.enable", "false"), ("doupro.self-update-helper", "true")]

def helperHostConfig (u : SelfUpdater) (dbPath : String) (parent : InspectResponse) : HostConfig where
  autoRemove := true
  binds := some [u.socketPath ++ ":" ++ u.socketPath]
  groupAdd := (parent.hostConfig.bind HostConfig.groupAdd).filter (!·.isEmpty)
  mounts := helperMount dbPath parent

/-- The helper is made and started; the daemon shuts down a second later. -/
def launchHelper (u : SelfUpdater) (ctx : Context) (selfID targetImage actorID : String) :
    Go (Option GoError) := do
  if let .error err ← docker ctx (.pull targetImage) then
    return some (.wrap "prepare self-update image" err)
  let token := toString (← now)
  let dbPath := envOrDefault (← parentEnv ctx selfID) "DOUPRO_DB_PATH" "/data/doupro.db"
  match ← docker ctx (.inspect selfID) with
  | .error err => return some (.wrap "inspect self-update parent" err)
  | .ok parent =>
    match ← docker ctx (.create (helperConfig u selfID targetImage token dbPath)
        (helperHostConfig u dbPath parent) none ("doupro-self-update-" ++ token)) with
    | .error err => return some (.wrap "create self-update helper" err)
    | .ok helperID =>
      if let .error err ← docker ctx (.start helperID) then
        let _ ← docker .background (.remove helperID true)
        return some (.wrap "start self-update helper" err)
      let name ← mustInspectName ctx selfID
      emit {
        level := .info
        type := "self_update.started"
        container := trimSlash name
        actor := .user
        actorID := actorID
        toVersion := targetImage
        message := "safe self-update helper started" }
      goShutdown
      return none

/-- `StartSelfUpdate` behind the closed gate. -/
def prepareSelfUpdate (u : SelfUpdater) (ctx : Context) (containerID targetImage actorID : String) :
    Go (Option GoError) := do
  match ← selfContainerID u ctx with
  | .error _ => return some (.selfUpdateUnsafe "self-update identity could not be verified")
  | .ok selfID =>
    if ¬ sameContainer selfID containerID then
      return some (.selfUpdateUnsafe "self-update identity could not be verified")
    if ¬ u.configured then return some (.new "self-update is not configured")
    match ← Scheduler.selfUpdateBlockers ctx ((← now) + selfUpdateSafetyWindow) with
    | .error err => return some (.wrap "check self-update safety window" err)
    | .ok blockers =>
      if blockers ≠ [] then
        return some (.selfUpdateUnsafe ("self-update refused: " ++ String.intercalate "; " blockers))
      launchHelper u ctx selfID targetImage actorID

/-- `Updater.StartSelfUpdate`. An accepted self-update leaves the gate closed for good. -/
def startSelfUpdate (u : SelfUpdater) (ctx : Context) (containerID targetImage actorID : String) :
    Go (Option GoError) := do
  match ← beginMaintenance with
  | .error active =>
    return some (.selfUpdateUnsafe
      ("self-update refused: active operations: " ++ String.intercalate ", " active))
  | .ok () =>
    let err ← prepareSelfUpdate u ctx containerID targetImage actorID
    if err.isSome then endMaintenance
    return err

end Doupro.Updater
