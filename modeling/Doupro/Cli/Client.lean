import Doupro.Api.Routes
import Doupro.Go.Values

/-!
# The client of the command line

What each method of `cliclient.Client` sends, and which handler of the daemon answers it. A name
that goes into a path arrives as it was given, whatever its characters; so does every query
parameter.
-/

namespace Doupro.Cli

open Api Doupro.Path Query ServeMux Text

/-- `LogFilter`. -/
structure LogFilter where
  event : Text
  container : Text
  level : Text
  limit : Int

/-- The methods of `Client`, with what they put into the URL. -/
inductive Call where
  | listUsers
  | createUser
  | setUserAccess (id : Bytes)
  | deleteUser (id : Bytes)
  | listAPIKeys
  | createAPIKey
  | revokeAPIKey (id : Bytes)
  | listContainers
  | getContainer (name : Bytes)
  | checkContainer (name : Bytes)
  | updateContainer (name : Bytes) (semverPolicy : Text)
  | previewUpdate (name : Bytes) (semverPolicy : Text)
  | rollbackContainer (name : Bytes)
  | updateAllContainers (stack : Text)
  | listLogs (f : LogFilter)
  | listSchedules
  | createSchedule
  | deleteSchedule (id : Bytes)
  | setScheduleEnabled (id : Bytes)
  | listNotifications
  | listNotificationQueue
  | retryNotification (id : Bytes)
  | listNotificationChannels
  | stats
  | listRegistryConfigs
  | setRegistryConfigs
  | testRegistryConfig
  | getGeneralSettings
  | setGeneralSettings

/-- The method, the path and the query that are given to `do`. -/
structure Sent where
  method : Text
  path : Text
  query : Values

def send (method : String) (path : Text) (query : Values := []) : Sent :=
  ⟨method.toList, path, query⟩

/-- The query of `ListLogs`. -/
def logsQuery (f : LogFilter) : Values :=
  setNonempty "event" f.event ++ setNonempty "container" f.container ++
    setNonempty "level" f.level ++
    if 0 < f.limit then [("limit".toList, (toString f.limit).toList)] else []

def Call.sent : Call → Sent
  | .listUsers => send "GET" "/api/v1/users".toList
  | .createUser => send "POST" "/api/v1/users".toList
  | .setUserAccess id => send "PATCH" ("/api/v1/users/".toList ++ pathEscape id)
  | .deleteUser id => send "DELETE" ("/api/v1/users/".toList ++ pathEscape id)
  | .listAPIKeys => send "GET" "/api/v1/settings/security/api-keys".toList
  | .createAPIKey => send "POST" "/api/v1/settings/security/api-keys".toList
  | .revokeAPIKey id => send "DELETE" ("/api/v1/settings/security/api-keys/".toList ++ pathEscape id)
  | .listContainers => send "GET" "/api/v1/containers".toList
  | .getContainer name => send "GET" ("/api/v1/containers/".toList ++ pathEscape name)
  | .checkContainer name =>
    send "POST" ("/api/v1/containers/".toList ++ pathEscape name ++ "/check".toList)
  | .updateContainer name semverPolicy =>
    send "POST" ("/api/v1/containers/".toList ++ pathEscape name ++ "/update".toList)
      (setNonempty "semver" semverPolicy)
  | .previewUpdate name semverPolicy =>
    send "GET" ("/api/v1/containers/".toList ++ pathEscape name ++ "/update".toList)
      (setNonempty "semver" semverPolicy)
  | .rollbackContainer name =>
    send "POST" ("/api/v1/containers/".toList ++ pathEscape name ++ "/rollback".toList)
  | .updateAllContainers stack =>
    send "POST" "/api/v1/containers/update-all".toList (setNonempty "stack" stack)
  | .listLogs f => send "GET" "/api/v1/logs".toList (logsQuery f)
  | .listSchedules => send "GET" "/api/v1/schedules".toList
  | .createSchedule => send "POST" "/api/v1/schedules".toList
  | .deleteSchedule id => send "DELETE" ("/api/v1/schedules/".toList ++ pathEscape id)
  | .setScheduleEnabled id => send "PATCH" ("/api/v1/schedules/".toList ++ pathEscape id)
  | .listNotifications => send "GET" "/api/v1/notifications".toList
  | .listNotificationQueue => send "GET" "/api/v1/notifications/queue".toList
  | .retryNotification id =>
    send "POST" ("/api/v1/notifications/queue/".toList ++ pathEscape id ++ "/retry".toList)
  | .listNotificationChannels => send "GET" "/api/v1/settings/notifications".toList
  | .stats => send "GET" "/api/v1/stats".toList
  | .listRegistryConfigs => send "GET" "/api/v1/settings/registries".toList
  | .setRegistryConfigs => send "PATCH" "/api/v1/settings/registries".toList
  | .testRegistryConfig => send "POST" "/api/v1/settings/registries/test".toList
  | .getGeneralSettings => send "GET" "/api/v1/settings/general".toList
  | .setGeneralSettings => send "PATCH" "/api/v1/settings/general".toList

/-- What `do` appends to the base URL. -/
def Sent.target (s : Sent) : Text :=
  if s.query = [] then s.path else s.path ++ '?' :: encode s.query

/-- The path and the query of a request, out of the target of the URL it was made for. -/
def targetPath (target : Text) : Text := (cut '?' (cut '#' target).1).1
def targetQuery (target : Text) : Text := (cut '?' (cut '#' target).1).2.getD []

/-! ### What is meant -/

/-- What is fixed about a method: the parts of its path around the name it is given, and the
handler it is meant for. -/
structure Template where
  method : Text
  before : List Text
  /-- What the daemon calls the name. -/
  wildcard : Option Text
  after : List Text
  endpoint : Endpoint

def template (method : String) (before : List String) (endpoint : Endpoint)
    (wildcard : Option String := none) (after : List String := []) : Template :=
  ⟨method.toList, before.map String.toList, wildcard.map String.toList, after.map String.toList,
    endpoint⟩

def Call.template : Call → Template
  | .listUsers => Cli.template "GET" ["api", "v1", "users"] .handleListUsers
  | .createUser => Cli.template "POST" ["api", "v1", "users"] .handleCreateUser
  | .setUserAccess _ =>
    Cli.template "PATCH" ["api", "v1", "users"] .handleUpdateUserAccess (some "id")
  | .deleteUser _ => Cli.template "DELETE" ["api", "v1", "users"] .handleDeleteUser (some "id")
  | .listAPIKeys =>
    Cli.template "GET" ["api", "v1", "settings", "security", "api-keys"] .handleListAPIKeys
  | .createAPIKey =>
    Cli.template "POST" ["api", "v1", "settings", "security", "api-keys"] .handleCreateAPIKey
  | .revokeAPIKey _ =>
    Cli.template "DELETE" ["api", "v1", "settings", "security", "api-keys"] .handleRevokeAPIKey
      (some "id")
  | .listContainers => Cli.template "GET" ["api", "v1", "containers"] .handleListContainers
  | .getContainer _ =>
    Cli.template "GET" ["api", "v1", "containers"] .handleGetContainer (some "name")
  | .checkContainer _ =>
    Cli.template "POST" ["api", "v1", "containers"] .handleCheckContainer (some "name") ["check"]
  | .updateContainer _ _ =>
    Cli.template "POST" ["api", "v1", "containers"] .handleUpdateContainer (some "name") ["update"]
  | .previewUpdate _ _ =>
    Cli.template "GET" ["api", "v1", "containers"] .handlePreviewUpdate (some "name") ["update"]
  | .rollbackContainer _ =>
    Cli.template "POST" ["api", "v1", "containers"] .handleRollbackContainer (some "name")
      ["rollback"]
  | .updateAllContainers _ =>
    Cli.template "POST" ["api", "v1", "containers", "update-all"] .handleUpdateAllContainers
  | .listLogs _ => Cli.template "GET" ["api", "v1", "logs"] .handleListLogs
  | .listSchedules => Cli.template "GET" ["api", "v1", "schedules"] .handleListSchedules
  | .createSchedule => Cli.template "POST" ["api", "v1", "schedules"] .handleCreateSchedule
  | .deleteSchedule _ =>
    Cli.template "DELETE" ["api", "v1", "schedules"] .handleDeleteSchedule (some "id")
  | .setScheduleEnabled _ =>
    Cli.template "PATCH" ["api", "v1", "schedules"] .handleUpdateSchedule (some "id")
  | .listNotifications => Cli.template "GET" ["api", "v1", "notifications"] .handleListNotifications
  | .listNotificationQueue =>
    Cli.template "GET" ["api", "v1", "notifications", "queue"] .handleListNotificationQueue
  | .retryNotification _ =>
    Cli.template "POST" ["api", "v1", "notifications", "queue"] .handleRetryNotification
      (some "id") ["retry"]
  | .listNotificationChannels =>
    Cli.template "GET" ["api", "v1", "settings", "notifications"] .handleGetNotificationChannels
  | .stats => Cli.template "GET" ["api", "v1", "stats"] .handleStatsSummary
  | .listRegistryConfigs =>
    Cli.template "GET" ["api", "v1", "settings", "registries"] .handleGetRegistries
  | .setRegistryConfigs =>
    Cli.template "PATCH" ["api", "v1", "settings", "registries"] .handleSetRegistries
  | .testRegistryConfig =>
    Cli.template "POST" ["api", "v1", "settings", "registries", "test"] .handleTestRegistry
  | .getGeneralSettings =>
    Cli.template "GET" ["api", "v1", "settings", "general"] .handleGetGeneralSettings
  | .setGeneralSettings =>
    Cli.template "PATCH" ["api", "v1", "settings", "general"] .handleSetGeneralSettings

/-- The name a method is given for its path. -/
def Call.argument : Call → Option Bytes
  | .setUserAccess a | .deleteUser a | .revokeAPIKey a | .getContainer a | .checkContainer a
  | .updateContainer a _ | .previewUpdate a _ | .rollbackContainer a | .deleteSchedule a
  | .setScheduleEnabled a | .retryNotification a => some a
  | _ => none

/-- A name that can stand in a path: cleaning takes the others for none, for the directory or
for its parent, and routing a lone slash for the end of the path. -/
def proper (name : Bytes) : Bool :=
  name ≠ [] && name ≠ [0x2E] && name ≠ [0x2E, 0x2E] && name ≠ slash

/-- The handler a request has run, with the values of its path. -/
def handled : Found Handler → Option (Endpoint × List Bytes)
  | .handler route values => some (route.handler.endpoint, values)
  | _ => none

end Doupro.Cli
