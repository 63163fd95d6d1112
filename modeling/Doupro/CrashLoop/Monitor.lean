import Doupro.Updater.Rollback

/-!
# The crash monitor

`Monitor` of the crash-loop package: it counts crashes from die events and from
`RestartCount`, and starts the automatic rollback of a watch that reached its threshold.
-/

namespace Doupro.Monitor

open Go

/-- An event of the monitor itself. -/
def systemEvent (level : Level) (type container message : String)
    (metadata : List (String × Json)) : LogEvent where
  level := level
  type := type
  container := container
  actor := .system
  message := message
  metadata := metadata

/-- The rollback call of the monitor, on a context that never ends. -/
def rollbackRequest (containerID : String) : Updater.RollbackRequest where
  ctx := .background
  containerID := containerID
  requester := ⟨.system, "crashloop"⟩

/-- `GetContainerByName`. -/
def getContainerByName (ctx : Context) (name : String) : Go (Except GoError ContainerRecord) := do
  match ← store ctx (.containerIDByName name) with
  | .error err => return .error err
  | .ok id => store ctx (.getContainer id)

/-- What `Monitor.rollback` does with the outcome. Maintenance leaves the watch triggered
for the next daemon, and so does a panic, which ends this one. -/
def concludeRollback (watch : RollbackWatch) : Option GoError → Go Unit
  | none => return
  | some .nilDereference => return
  | some err => do
    if err.isMaintenanceError then return
    let _ ← store .background (.completeRollbackWatch watch.containerName .rollbackFailed)
    emit (systemEvent .error "crashloop.rollback_failed" watch.containerName
      ("automatic rollback failed for " ++ watch.containerName ++ ": " ++ err.message) [])

/-- `Monitor.rollback`, started as a goroutine with `context.WithoutCancel`. -/
def rollback (watch : RollbackWatch) : Go Unit := do
  match ← getContainerByName .background watch.containerName with
  | .error err => concludeRollback watch (some err)
  | .ok rec => concludeRollback watch (← Updater.rollback (rollbackRequest rec.id))

/-- The claim of the threshold, reported and acted on. -/
def reportTriggered (name : String) (watch : RollbackWatch) : Go Unit := do
  emit (systemEvent .warn "crashloop.threshold_reached" name
    (name ++ " crashed " ++ toString watch.crashCount ++
      " times after update; starting automatic rollback")
    [("crash_count", .number watch.crashCount), ("threshold", .number watch.threshold)])
  goRollback watch

/-- `Monitor.recordCrash`. -/
def recordCrash (ctx : Context) (name id : String) (eventNano : Int) (crashedAt : Time)
    (source : String) : Go Unit := do
  match ← store ctx (.recordCrash name id eventNano crashedAt) with
  | .error err =>
    if err.isNotFound then return
    emit (systemEvent .error "crashloop.record_failed" name
      ("failed to record crash for " ++ name ++ ": " ++ err.message) [])
  | .ok reply =>
    if ¬ reply.counted then return
    match reply.watch with
    | none => return
    | some watch =>
      emit (systemEvent .warn "crashloop.crash_detected" name
        ("detected crash " ++ toString watch.crashCount ++ "/" ++ toString watch.threshold ++
          " for " ++ name)
        [("crash_count", .number watch.crashCount), ("threshold", .number watch.threshold),
          ("source", .string source)])
      if reply.triggered then reportTriggered name watch

/-- The crashes a restart counter is ahead by, stamped one nanosecond apart. -/
def recordRestarts (ctx : Context) (watch : RollbackWatch) (now : Time) :
    (delta : Nat) → (first : Nat) → Go Unit
  | 0, _ => return
  | delta + 1, first => do
    recordCrash ctx watch.containerName watch.containerID (now + first) now "restart_counter"
    recordRestarts ctx watch now delta (first + 1)

/-- The body of the loop of `reconcile`, for one watch of the list. -/
def reconcileWatch (ctx : Context) (now : Time) (watch : RollbackWatch) : Go Unit := do
  match ← docker ctx (.inspect watch.containerID) with
  | .error _ => return
  | .ok info =>
    recordRestarts ctx watch now (info.restartCount - watch.observedRestartCount) 0
    let _ ← store ctx (.setRollbackWatchRestartCount watch.containerName info.restartCount)

def reconcileWatches (ctx : Context) (now : Time) : List RollbackWatch → Go Unit
  | [] => return
  | watch :: rest => do
    reconcileWatch ctx now watch
    reconcileWatches ctx now rest

/-- `since` of `reconcile` after the whole list. -/
def sinceOf (first : Time) (watches : List RollbackWatch) : Time :=
  watches.foldl (fun since watch =>
    if watch.updateAppliedAt < since then watch.updateAppliedAt - second else since) first

/-- `Monitor.reconcile`, returning the instant to re-open the event stream at. -/
def reconcile (ctx : Context) : Go Time := do
  let now ← now
  if let .ok (expired : Nat) ← store ctx (.expireRollbackWatches now) then
    if 0 < expired then
      emit (systemEvent .info "crashloop.expired" ""
        ("expired " ++ toString expired ++ " automatic rollback watch(es)")
        [("count", .number expired)])
  match ← store ctx (.listRollbackWatches .active) with
  | .error _ => return now
  | .ok [] => return now
  | .ok (watch :: rest) =>
    reconcileWatches ctx now (watch :: rest)
    return sinceOf (watch.updateAppliedAt - second) (watch :: rest)

/-- `lifecycleState`. -/
def lifecycleState (action : String) : Option String :=
  [("start", "running"), ("unpause", "running"), ("die", "exited"), ("stop", "exited"),
    ("kill", "exited"), ("pause", "paused"), ("oom", "exited")].lookup action

/-- `Monitor.syncState`. -/
def syncState (ctx : Context) (event : ContainerEvent) : Go Unit := do
  match lifecycleState event.action with
  | none => return
  | some state =>
    if event.containerID = "" then return
    if let .error err ← store ctx (.setContainerState event.containerID state "") then
      emit (systemEvent .warn "container.sync_failed" event.name
        ("could not sync live state for " ++ event.name ++ ": " ++ err.message) [])

/-- `Monitor.handleEvent`. -/
def handleEvent (ctx : Context) (event : ContainerEvent) : Go Unit := do
  syncState ctx event
  if event.action ≠ "die" ∨ event.name = "" then return
  if atoi event.exitCode = some 0 then return
  -- `Time.UnixNano` of an event without a nanosecond stamp
  let eventNano := if event.timeNano = 0 then event.time else event.timeNano
  recordCrash ctx event.name event.containerID eventNano event.time "docker_event"

/-- `Monitor.recoverTriggered`: the watches whose rollback it resumes. -/
def recoverTriggered (ctx : Context) : Go Unit := do
  match ← store ctx (.listRollbackWatches .triggered) with
  | .error _ => return
  | .ok watches => watches.forM fun watch => do
    emit (systemEvent .warn "crashloop.rollback_recovered" watch.containerName
      ("resuming durable automatic rollback for " ++ watch.containerName ++
        " after daemon restart") [])
    goRollback watch

end Doupro.Monitor
