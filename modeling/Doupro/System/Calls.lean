import Doupro.Docker.Engine
import Doupro.Interaction.Syntax
import Doupro.Registry.Client
import Doupro.Store.Schedules
import Doupro.Updater.OperationGuard

/-!
# External calls of the updater, the crash monitor and the scheduler

Everything the packages ask of the Docker daemon, the store, the operation guard, the
clock, the event log and the notifier, with the reply to each call.
-/

namespace Doupro

/-- A `context.Context`. Only a request's context can end; `background` also stands for
`context.WithoutCancel(ctx)`. -/
inductive Context where
  | background
  | request (id : Nat)
  deriving DecidableEq

inductive Actor where
  | system
  | user
  | schedule
  deriving DecidableEq

inductive Level where
  | debug
  | info
  | warn
  | error
  deriving DecidableEq

/-- `events.Event`. -/
structure LogEvent where
  level : Level
  type : String
  container : String := ""
  stack : String := ""
  fromVersion : String := ""
  toVersion : String := ""
  actor : Actor
  actorID : String := ""
  requestID : String := ""
  message : String
  metadata : List (String × Json) := []

/-- The arguments of `Notifier.Notify`. -/
structure Notification where
  eventType : String
  target : String
  stack : String
  message : String
  deriving DecidableEq

/-- `docker.ContainerEvent`. -/
structure ContainerEvent where
  containerID : String
  name : String
  action : String
  exitCode : String
  time : Time
  timeNano : Int
  deriving DecidableEq

/-- What the select of `Monitor.Run` receives. -/
inductive MonitorInput where
  | event (event : ContainerEvent)
  | expiryTick
  | streamEnded
  deriving DecidableEq

/-- The methods of `store.Store` the packages call. -/
inductive StoreCall where
  | getContainer (id : String)
  /-- The first query of `GetContainerByName`. -/
  | containerIDByName (name : String)
  | getCrashLoopSettings
  | replaceContainer (oldID : String) (rec : ContainerRecord)
  | replaceContainerAndArmRollback (oldID : String) (rec : ContainerRecord) (appliedAt : Time)
    (window : Duration) (threshold restartCount : Nat)
  | replaceContainerAndCompleteRollback (oldID : String) (rec : ContainerRecord)
    (status : WatchStatus)
  | setUpdateAvailable (id : String) (available : Bool)
  | setContainerState (id state status : String)
  | listRollbackWatches (status : WatchStatus)
  | recordCrash (name containerID : String) (eventNano : Int) (crashedAt : Time)
  | setRollbackWatchRestartCount (name : String) (count : Nat)
  | completeRollbackWatch (name : String) (status : WatchStatus)
  | expireRollbackWatches (now : Time)
  | upsertSeen (rec : ContainerRecord)
  | pruneContainers (liveIDs : List String)
  | listContainers
  | getExclusions
  | getCheckIntervalMinutes
  | dueSchedules (now : Time)
  | listSchedules
  | markScheduleRun (id : Nat) (nextRun : Option Time)
  | touchScheduleLastRun (id : Nat)
  | getUpdateCandidate (containerID scope : String)
  | clearUpdateCandidates (containerID : String)
  | getSchedule (id : Nat)
  | createSchedule (sc : Schedule)
  | setScheduleEnabled (id : Nat) (enabled : Bool)
  | deleteSchedule (id : Nat)
  /-- The two writes of `SetExclusions`. -/
  | saveExcludedContainers (names : List String)
  | saveExcludedStacks (stackNames : List String)
  | applyExclusions (ex : Exclusions)
  | replaceUpdateCandidates (containerID : String) (candidates : List UpdateCandidate) (now : Time)
  | setVersions (id currentVersion availableVersion : String)
  | repairCurrentImage (id image : String)
  | getImageVersion (registry repository digest : String)
  | putImageVersion (rec : ImageVersionRecord)

@[reducible] def StoreCall.Result : StoreCall → Type
  | .getContainer _ => ContainerRecord
  | .containerIDByName _ => String
  | .getCrashLoopSettings => Nat × Nat
  | .listRollbackWatches _ => List RollbackWatch
  | .recordCrash _ _ _ _ => Store.CrashReply
  | .expireRollbackWatches _ => Nat
  | .listContainers => List ContainerRecord
  | .getExclusions => Exclusions
  | .getCheckIntervalMinutes => Option Int
  | .dueSchedules _ | .listSchedules => List Schedule
  | .getUpdateCandidate _ _ => UpdateCandidate
  | .getSchedule _ => Schedule
  | .createSchedule _ => Nat
  | .getImageVersion _ _ _ => Option ImageVersionRecord
  | .replaceContainer _ _ | .replaceContainerAndArmRollback _ _ _ _ _ _
  | .replaceContainerAndCompleteRollback _ _ _ | .setUpdateAvailable _ _
  | .setContainerState _ _ _ | .setRollbackWatchRestartCount _ _
  | .completeRollbackWatch _ _ | .upsertSeen _ | .pruneContainers _ | .markScheduleRun _ _
  | .touchScheduleLastRun _ | .clearUpdateCandidates _ | .setScheduleEnabled _ _
  | .deleteSchedule _ | .saveExcludedContainers _ | .saveExcludedStacks _ | .applyExclusions _
  | .replaceUpdateCandidates _ _ _ | .setVersions _ _ _ | .repairCurrentImage _ _
  | .putImageVersion _ => Unit

namespace Store

/-- What a call does when SQLite carries it out. `now` is the instant statements stamp. -/
def perform (s : Store) (now : Time) : (call : StoreCall) → Except GoError (call.Result × Store)
  | .getContainer id => match s.getContainer id with
    | none => .error .notFound
    | some rec => .ok (rec, s)
  | .containerIDByName name => match Table.lookup ContainerRecord.name name s.containers with
    | none => .error .notFound
    | some rec => .ok (rec.id, s)
  | .getCrashLoopSettings => .ok (s.getCrashLoopSettings, s)
  | .replaceContainer oldID rec => .ok ((), s.replaceContainer oldID rec)
  | .replaceContainerAndArmRollback oldID rec appliedAt window threshold restartCount =>
    .ok ((), s.replaceContainerAndArmRollback oldID rec appliedAt window threshold restartCount)
  | .replaceContainerAndCompleteRollback oldID rec status =>
    .ok ((), s.replaceContainerAndCompleteRollback oldID rec status)
  | .setUpdateAvailable id available => .ok ((), s.setUpdateAvailable id available now)
  | .setContainerState id state status => .ok ((), s.setContainerState id state status)
  | .listRollbackWatches status => .ok (s.listRollbackWatches status, s)
  | .recordCrash name containerID eventNano crashedAt =>
    let (reply, after) := s.recordCrash none name containerID eventNano crashedAt
    match reply.err with
    | some err => .error err
    | none => .ok (reply, after)
  | .setRollbackWatchRestartCount name count =>
    .ok ((), s.setRollbackWatchRestartCount name count)
  | .completeRollbackWatch name status => .ok ((), s.completeRollbackWatch name status)
  | .expireRollbackWatches now => .ok (s.expiredCount now, s.expireRollbackWatches now)
  | .upsertSeen rec => .ok ((), s.upsertSeen rec)
  | .pruneContainers liveIDs => .ok ((), s.pruneContainers liveIDs)
  | .listContainers => .ok (s.listContainers, s)
  | .getExclusions => .ok (s.exclusions, s)
  | .getCheckIntervalMinutes => .ok (s.getCheckIntervalMinutes, s)
  | .dueSchedules now => .ok (s.dueSchedules now, s)
  | .listSchedules => .ok (s.listSchedules, s)
  | .markScheduleRun id nextRun => .ok ((), s.markScheduleRun id nextRun now)
  | .touchScheduleLastRun id => .ok ((), s.touchScheduleLastRun id now)
  | .getUpdateCandidate containerID scope => match s.getUpdateCandidate containerID scope with
    | none => .error (.wrap ("get " ++ scope ++ " update candidate")
        (.external "sql: no rows in result set"))
    | some candidate => .ok (candidate, s)
  | .clearUpdateCandidates containerID => .ok ((), s.clearUpdateCandidates containerID)
  | .getSchedule id => match s.getSchedule id with
    | none => .error .notFound
    | some sc => .ok (sc, s)
  | .createSchedule sc => .ok (s.nextScheduleID, s.createSchedule sc)
  | .setScheduleEnabled id enabled =>
    if (s.getSchedule id).isNone then .error .notFound
    else .ok ((), s.setScheduleEnabled id enabled)
  | .deleteSchedule id =>
    if (s.getSchedule id).isNone then .error .notFound else .ok ((), s.deleteSchedule id)
  | .saveExcludedContainers names => .ok ((), { s with exclusions.containers := names })
  | .saveExcludedStacks stackNames => .ok ((), { s with exclusions.stackNames := stackNames })
  | .applyExclusions ex => .ok ((), s.applyExclusions ex)
  | .replaceUpdateCandidates containerID candidates now =>
    .ok ((), s.replaceUpdateCandidates containerID candidates now)
  | .setVersions id currentVersion availableVersion =>
    .ok ((), s.setVersions id currentVersion availableVersion)
  | .repairCurrentImage id image => .ok ((), s.repairCurrentImage id image)
  | .getImageVersion registry repository digest =>
    .ok (s.getImageVersion registry repository digest, s)
  | .putImageVersion rec => .ok ((), s.putImageVersion rec)

end Store

/-- The statements that change nothing. -/
def StoreCall.Reads : StoreCall → Prop
  | .getContainer _ | .containerIDByName _ | .getCrashLoopSettings | .listRollbackWatches _
  | .listContainers | .getExclusions | .getCheckIntervalMinutes | .dueSchedules _ | .listSchedules
  | .getUpdateCandidate _ _ | .getSchedule _ | .getImageVersion _ _ _ => True
  | _ => False

namespace Store

variable {s s' : Store} {now : Time}

theorem perform_getContainer {id : String} {rec : ContainerRecord} :
    s.perform now (.getContainer id) = .ok (rec, s') ↔ s.getContainer id = some rec ∧ s' = s := by
  change (match s.getContainer id with
    | none => .error .notFound
    | some rec => .ok (rec, s) : Except GoError (ContainerRecord × Store)) = _ ↔ _
  cases s.getContainer id with
  | none => simp
  | some found => simpa using fun _ => eq_comm

theorem perform_containerIDByName {name id : String} :
    s.perform now (.containerIDByName name) = .ok (id, s') ↔
      (∃ row, Table.lookup ContainerRecord.name name s.containers = some row ∧ row.id = id) ∧ s' = s := by
  change (match Table.lookup ContainerRecord.name name s.containers with
    | none => .error .notFound
    | some rec => .ok (rec.id, s) : Except GoError (String × Store)) = _ ↔ _
  cases Table.lookup ContainerRecord.name name s.containers with
  | none => simp
  | some row => simpa using fun _ => eq_comm

theorem perform_getUpdateCandidate {containerID scope : String} {candidate : UpdateCandidate} :
    s.perform now (.getUpdateCandidate containerID scope) = .ok (candidate, s') ↔
      s.getUpdateCandidate containerID scope = some candidate ∧ s' = s := by
  change (match s.getUpdateCandidate containerID scope with
    | none => .error _
    | some candidate => .ok (candidate, s) : Except GoError (UpdateCandidate × Store)) = _ ↔ _
  cases s.getUpdateCandidate containerID scope with
  | none => simp
  | some found => simpa using fun _ => eq_comm

theorem perform_getSchedule {id : Nat} {sc : Schedule} :
    s.perform now (.getSchedule id) = .ok (sc, s') ↔ s.getSchedule id = some sc ∧ s' = s := by
  change (match s.getSchedule id with
    | none => .error .notFound
    | some sc => .ok (sc, s) : Except GoError (Schedule × Store)) = _ ↔ _
  cases s.getSchedule id with
  | none => simp
  | some found => simpa using fun _ => eq_comm

theorem perform_reads {call : StoreCall} {result : call.Result} (hcall : call.Reads)
    (h : s.perform now call = .ok (result, s')) : s' = s := by
  cases call with
  | getContainer id => exact (perform_getContainer.mp h).2
  | containerIDByName name => exact (perform_containerIDByName.mp h).2
  | getUpdateCandidate containerID scope => exact (perform_getUpdateCandidate.mp h).2
  | getSchedule id => exact (perform_getSchedule.mp h).2
  | getCrashLoopSettings | listRollbackWatches | listContainers | getExclusions
  | getCheckIntervalMinutes | dueSchedules | listSchedules | getImageVersion =>
    exact (Prod.mk.inj (Except.ok.inj h)).2.symm
  | _ => exact hcall.elim

theorem perform_setScheduleEnabled {id : Nat} {enabled : Bool} {result : Unit}
    (h : s.perform now (.setScheduleEnabled id enabled) = .ok (result, s')) :
    s' = s.setScheduleEnabled id enabled := by
  change (if _ then _ else _) = _ at h
  split at h
  · cases h
  · exact (Prod.mk.inj (Except.ok.inj h)).2.symm

theorem perform_deleteSchedule {id : Nat} {result : Unit}
    (h : s.perform now (.deleteSchedule id) = .ok (result, s')) : s' = s.deleteSchedule id := by
  change (if _ then _ else _) = _ at h
  split at h
  · cases h
  · exact (Prod.mk.inj (Except.ok.inj h)).2.symm

theorem perform_recordCrash {name containerID : String} {eventNano : Int} {crashedAt : Time}
    {reply : CrashReply}
    (h : s.perform now (.recordCrash name containerID eventNano crashedAt) = .ok (reply, s')) :
    s' = (s.recordCrash none name containerID eventNano crashedAt).2 := by
  change (match (s.recordCrash none name containerID eventNano crashedAt).1.err with
    | some err => .error err
    | none => .ok (s.recordCrash none name containerID eventNano crashedAt) :
      Except GoError (CrashReply × Store)) = _ at h
  split at h
  · cases h
  · rw [Except.ok.inj h]

/-- A crash is counted in the table of the watches. -/
theorem recordCrash_frame (s : Store) (name containerID : String) (eventNano : Int) (crashedAt : Time) :
    ∃ watches, (s.recordCrash none name containerID eventNano crashedAt).2 = { s with watches } := by
  unfold recordCrash
  split
  · exact ⟨s.watches, rfl⟩
  · exact ⟨s.watches, rfl⟩
  · exact ⟨s.watches, rfl⟩
  · split
    · exact ⟨_, rfl⟩
    · exact ⟨s.watches, rfl⟩

theorem perform_recordCrash_frame {name containerID : String} {eventNano : Int} {crashedAt : Time}
    {reply : CrashReply}
    (h : s.perform now (.recordCrash name containerID eventNano crashedAt) = .ok (reply, s')) :
    ∃ watches, s' = { s with watches } :=
  perform_recordCrash h ▸ s.recordCrash_frame name containerID eventNano crashedAt

end Store

/-- The statements on the rows of schedules. -/
def StoreCall.EditsSchedules : StoreCall → Prop
  | .markScheduleRun _ _ | .touchScheduleLastRun _ | .createSchedule _ | .setScheduleEnabled _ _
  | .deleteSchedule _ => True
  | _ => False

theorem Store.perform_scheduleTable {s s' : Store} {now : Time} {call : StoreCall}
    {result : call.Result} (hcall : ¬ call.EditsSchedules)
    (h : s.perform now call = .ok (result, s')) :
    s'.schedules = s.schedules ∧ s'.scheduleSeq = s.scheduleSeq := by
  cases call with
  | markScheduleRun | touchScheduleLastRun | createSchedule | setScheduleEnabled | deleteSchedule =>
    exact absurd trivial hcall
  | getContainer | containerIDByName | getUpdateCandidate | getSchedule =>
    obtain rfl := perform_reads (by trivial) h
    exact ⟨rfl, rfl⟩
  | recordCrash name containerID eventNano crashedAt =>
    obtain ⟨watches, rfl⟩ := perform_recordCrash_frame h
    exact ⟨rfl, rfl⟩
  | pruneContainers liveIDs =>
    obtain ⟨-, rfl⟩ := Prod.mk.inj (Except.ok.inj h)
    unfold pruneContainers
    split <;> exact ⟨rfl, rfl⟩
  | _ =>
    obtain ⟨-, rfl⟩ := Prod.mk.inj (Except.ok.inj h)
    exact ⟨rfl, rfl⟩

theorem Store.perform_schedules {s s' : Store} {now : Time} {call : StoreCall}
    {result : call.Result} (hcall : ¬ call.EditsSchedules)
    (h : s.perform now call = .ok (result, s')) : s'.schedules = s.schedules :=
  (Store.perform_scheduleTable hcall h).1

/-- Every statement keeps the primary key of `containers`. -/
theorem Store.perform_uniqueIDs {s s' : Store} {now : Time} {call : StoreCall} {result : call.Result}
    (h : s.UniqueIDs) (hperform : s.perform now call = .ok (result, s')) : s'.UniqueIDs := by
  cases call with
  | getContainer | containerIDByName | getUpdateCandidate | getSchedule =>
    obtain rfl := perform_reads (by trivial) hperform
    exact h
  | setScheduleEnabled =>
    obtain rfl := perform_setScheduleEnabled hperform
    exact h
  | deleteSchedule =>
    obtain rfl := perform_deleteSchedule hperform
    exact h
  | recordCrash name containerID eventNano crashedAt =>
    obtain ⟨watches, rfl⟩ := perform_recordCrash_frame hperform
    exact h
  | pruneContainers liveIDs =>
    obtain ⟨-, rfl⟩ := Prod.mk.inj (Except.ok.inj hperform)
    unfold pruneContainers
    split
    · exact h
    · exact Table.unique_deleteWhere _ _ h
  | replaceContainer oldID rec =>
    obtain ⟨-, rfl⟩ := Prod.mk.inj (Except.ok.inj hperform)
    exact uniqueIDs_replaceContainer h oldID rec
  | replaceContainerAndArmRollback oldID rec appliedAt window threshold restartCount =>
    obtain ⟨-, rfl⟩ := Prod.mk.inj (Except.ok.inj hperform)
    exact uniqueIDs_replaceContainer h oldID rec
  | replaceContainerAndCompleteRollback oldID rec status =>
    obtain ⟨-, rfl⟩ := Prod.mk.inj (Except.ok.inj hperform)
    exact uniqueIDs_replaceContainer h oldID rec
  | upsertSeen rec =>
    obtain ⟨-, rfl⟩ := Prod.mk.inj (Except.ok.inj hperform)
    exact Table.unique_upsert ContainerRecord.id (discoveredRow rec) (seenRow rec) (fun _ => rfl) h
  | setUpdateAvailable | setContainerState | applyExclusions | setVersions | repairCurrentImage =>
    obtain ⟨-, rfl⟩ := Prod.mk.inj (Except.ok.inj hperform)
    refine Table.unique_updateWhere ContainerRecord.id _ _ ?_ h
    exact fun _ => rfl
  | _ =>
    obtain ⟨-, rfl⟩ := Prod.mk.inj (Except.ok.inj hperform)
    exact h

/-- The statements on the exclusion lists. -/
def StoreCall.EditsLists : StoreCall → Prop
  | .saveExcludedContainers _ | .saveExcludedStacks _ => True
  | _ => False

theorem Store.perform_lists {s s' : Store} {now : Time} {call : StoreCall} {result : call.Result}
    (hcall : ¬ call.EditsLists) (h : s.perform now call = .ok (result, s')) :
    s'.exclusions = s.exclusions := by
  cases call with
  | saveExcludedContainers | saveExcludedStacks => exact absurd trivial hcall
  | getContainer | containerIDByName | getUpdateCandidate | getSchedule =>
    rw [perform_reads (by trivial) h]
  | setScheduleEnabled =>
    rw [perform_setScheduleEnabled h]
    rfl
  | deleteSchedule =>
    rw [perform_deleteSchedule h]
    rfl
  | recordCrash name containerID eventNano crashedAt =>
    obtain ⟨watches, rfl⟩ := perform_recordCrash_frame h
    rfl
  | pruneContainers liveIDs =>
    obtain ⟨-, rfl⟩ := Prod.mk.inj (Except.ok.inj h)
    unfold pruneContainers
    split <;> rfl
  | _ =>
    obtain ⟨-, rfl⟩ := Prod.mk.inj (Except.ok.inj h)
    rfl

/-- What is asked about images, of the Docker daemon, of a registry and of the event log. The
exchange with a registry behind a question is that of the registry client. -/
inductive Lookup where
  /-- `docker.Client.ImageDigests`. -/
  | imageDigests (imageID : String)
  /-- `docker.Client.ImageVersionLabel`. -/
  | imageVersionLabel (imageID : String) (repository : Text)
  /-- `registry.Digest`. -/
  | digest (ref : Registry.Ref)
  /-- `registry.ListTags`; the digests of the tags are not asked for. -/
  | listTags (ref : Registry.Ref)
  /-- `registry.VersionLabelForDigest`. -/
  | versionLabelForDigest (ref : Registry.Ref) (digest : String)
  /-- `registry.ResolveVersionTags`, the tags and digests it found. -/
  | resolveVersionTags (ref : Registry.Ref) (missing : List String)
  /-- `store.RecoverImageReference`. -/
  | recoverImageReference (name : String)

@[reducible] def Lookup.Result : Lookup → Type
  | .imageDigests _ | .listTags _ => List String
  | .imageVersionLabel _ _ | .digest _ | .versionLabelForDigest _ _ | .recoverImageReference _ =>
    String
  | .resolveVersionTags _ _ => List (String × String)

inductive Call where
  | docker (ctx : Context) (call : DockerCall)
  | store (ctx : Context) (call : StoreCall)
  | lookup (ctx : Context) (question : Lookup)
  | beginOperation (name kind : String)
  | endOperation (name kind : String)
  | beginMaintenance
  | endMaintenance
  /-- `Updater.MaintenanceActive`. -/
  | maintenanceActive
  /-- `time.Now()`. -/
  | now
  /-- A select on `ctx.Done()` and a timer that fires at an instant. -/
  | sleepUntil (ctx : Context) (deadline : Time)
  | emit (event : LogEvent)
  | notify (notification : Notification)
  /-- `go m.rollback(context.WithoutCancel(ctx), watch)`. -/
  | goRollback (watch : RollbackWatch)
  /-- The goroutine that shuts the daemon down after a second. -/
  | goShutdown
  | receive (ctx : Context)

@[reducible] def Call.Reply : Call → Type
  | .docker _ call => Except GoError call.Result
  | .store _ call => Except GoError call.Result
  | .lookup _ question => Except GoError question.Result
  | .beginOperation _ _ => Option Operation
  | .beginMaintenance => Except (List String) Unit
  | .maintenanceActive => Bool
  | .now => Time
  | .sleepUntil _ _ => Option GoError
  | .receive _ => Option MonitorInput
  | .endOperation _ _ | .endMaintenance | .emit _ | .notify _ | .goRollback _ | .goShutdown => Unit

abbrev Calls : Interaction.Signature := ⟨Call, Call.Reply⟩

/-- A Go function over the external calls. -/
abbrev Go (α : Type) := Interaction.Program Calls α

namespace Go

abbrev docker (ctx : Context) (call : DockerCall) : Go (Except GoError call.Result) :=
  .request (S := Calls) (.docker ctx call)

abbrev store (ctx : Context) (call : StoreCall) : Go (Except GoError call.Result) :=
  .request (S := Calls) (.store ctx call)

abbrev lookup (ctx : Context) (question : Lookup) : Go (Except GoError question.Result) :=
  .request (S := Calls) (.lookup ctx question)

abbrev beginOperation (name kind : String) : Go (Option Operation) :=
  .request (S := Calls) (.beginOperation name kind)

abbrev endOperation (name kind : String) : Go Unit := .request (S := Calls) (.endOperation name kind)

abbrev beginMaintenance : Go (Except (List String) Unit) := .request (S := Calls) .beginMaintenance

abbrev endMaintenance : Go Unit := .request (S := Calls) .endMaintenance

abbrev maintenanceActive : Go Bool := .request (S := Calls) .maintenanceActive

abbrev goShutdown : Go Unit := .request (S := Calls) .goShutdown

abbrev now : Go Time := .request (S := Calls) .now

abbrev sleepUntil (ctx : Context) (deadline : Time) : Go (Option GoError) :=
  .request (S := Calls) (.sleepUntil ctx deadline)

abbrev emit (event : LogEvent) : Go Unit := .request (S := Calls) (.emit event)

abbrev notify (notification : Notification) : Go Unit := .request (S := Calls) (.notify notification)

abbrev goRollback (watch : RollbackWatch) : Go Unit := .request (S := Calls) (.goRollback watch)

abbrev receive (ctx : Context) : Go (Option MonitorInput) := .request (S := Calls) (.receive ctx)

end Go
end Doupro
