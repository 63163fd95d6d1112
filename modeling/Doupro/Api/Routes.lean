import Doupro.Accounts.Statements
import Doupro.Http.ServeMux

/-!
# The routes of the daemon

Every pattern of `api.RegisterRoutes`, `metrics.RegisterRoute` and `web.RegisterRoutes`, with
the middleware in front of its handler.
-/

namespace Doupro

namespace Accounts

/-- `store.Permission`. -/
inductive Permission where
  | readContainers
  | writeContainers
  | viewLogs
  | manageSchedules
  | manageNotifications
  | viewStats
  | manageSettings
  | manageUsers
  deriving DecidableEq

/-- `AccessControl.Can`. -/
def AccessControl.can (a : AccessControl) (permission : Permission) : Bool :=
  if a.role = .admin then true
  else match permission with
    | .readContainers => a.role = .write || a.role = .read
    | .writeContainers => a.role = .write
    | .viewLogs => a.viewLogs
    | .manageSchedules => a.manageSchedules
    | .manageNotifications => a.manageNotifications
    | .viewStats => a.viewStats
    | .manageSettings | .manageUsers => false

end Accounts

namespace Api

open Accounts ServeMux

/-- The handlers behind the routes. -/
inductive Endpoint where
  | handleHealth
  | handleOpenAPISpec
  | handleLogin
  | handleLogout
  | handleOIDCLogin
  | handleOIDCCallback
  | handleChangePassword
  | handleListContainers
  | handleListLogs
  | handleGetContainer
  | handleCheckContainer
  | handlePreviewUpdate
  | handleUpdateContainer
  | handleRollbackContainer
  | handleUpdateAllContainers
  | handleGetGeneralSettings
  | handleSetGeneralSettings
  | handleGetExclusions
  | handleSetExclusions
  | handleGetRegistries
  | handleSetRegistries
  | handleTestRegistry
  | handleListAPIKeys
  | handleCreateAPIKey
  | handleRevokeAPIKey
  | handleListUsers
  | handleCreateUser
  | handleUpdateUserAccess
  | handleDeleteUser
  | handleStatsSummary
  | handleListNotifications
  | handleListNotificationQueue
  | handleRetryNotification
  | handleGetNotificationChannels
  | handleSetNotificationChannels
  | handleTestNotificationChannel
  | handleListSchedules
  | handleCreateSchedule
  | handleUpdateSchedule
  | handleDeleteSchedule
  /-- `promhttp.HandlerFor`. -/
  | metrics
  /-- The file server of the static assets. -/
  | static
  | handleLoginPage
  | handleChangePasswordPage
  | handleContainers
  | handleLogs
  | handleSchedule
  | handleNotifications
  | handleSettings
  | handleStats
  | handleManual
  | handleSwagger
  deriving DecidableEq

/-- The middleware in front of a handler. -/
inductive Guard where
  | unguarded
  /-- `protected`. -/
  | authenticated
  /-- `withPermission`. -/
  | permission (permission : Permission)
  deriving DecidableEq

structure Entry where
  pattern : String
  guard : Guard
  endpoint : Endpoint

/-- The routes `api.RegisterRoutes` adds with a provider for single sign-on. -/
def oidcRoutes : List Entry :=
  [⟨"GET /api/v1/auth/oidc/login", .unguarded, .handleOIDCLogin⟩,
    ⟨"GET /api/v1/auth/oidc/callback", .unguarded, .handleOIDCCallback⟩]

/-- `api.RegisterRoutes`. -/
def apiRoutes (oidcProvider : Bool) : List Entry :=
  [⟨"GET /health", .unguarded, .handleHealth⟩,
    ⟨"GET /api/v1/openapi.json", .unguarded, .handleOpenAPISpec⟩,
    ⟨"POST /api/v1/auth/login", .unguarded, .handleLogin⟩,
    ⟨"POST /api/v1/auth/logout", .unguarded, .handleLogout⟩] ++
  (if oidcProvider then oidcRoutes else []) ++
  [⟨"POST /api/v1/auth/password", .authenticated, .handleChangePassword⟩,
    ⟨"GET /api/v1/containers", .permission .readContainers, .handleListContainers⟩,
    ⟨"GET /api/v1/logs", .permission .viewLogs, .handleListLogs⟩,
    ⟨"GET /api/v1/containers/{name}", .permission .readContainers, .handleGetContainer⟩,
    ⟨"POST /api/v1/containers/{name}/check", .permission .writeContainers, .handleCheckContainer⟩,
    ⟨"GET /api/v1/containers/{name}/update", .permission .readContainers, .handlePreviewUpdate⟩,
    ⟨"POST /api/v1/containers/{name}/update", .permission .writeContainers, .handleUpdateContainer⟩,
    ⟨"POST /api/v1/containers/{name}/rollback", .permission .writeContainers,
      .handleRollbackContainer⟩,
    ⟨"POST /api/v1/containers/update-all", .permission .writeContainers,
      .handleUpdateAllContainers⟩,
    ⟨"GET /api/v1/settings/general", .permission .manageSettings, .handleGetGeneralSettings⟩,
    ⟨"PATCH /api/v1/settings/general", .permission .manageSettings, .handleSetGeneralSettings⟩,
    ⟨"GET /api/v1/settings/exclusions", .permission .manageSettings, .handleGetExclusions⟩,
    ⟨"PATCH /api/v1/settings/exclusions", .permission .manageSettings, .handleSetExclusions⟩,
    ⟨"GET /api/v1/settings/registries", .permission .manageSettings, .handleGetRegistries⟩,
    ⟨"PATCH /api/v1/settings/registries", .permission .manageSettings, .handleSetRegistries⟩,
    ⟨"POST /api/v1/settings/registries/test", .permission .manageSettings, .handleTestRegistry⟩,
    ⟨"GET /api/v1/settings/security/api-keys", .permission .manageSettings, .handleListAPIKeys⟩,
    ⟨"POST /api/v1/settings/security/api-keys", .permission .manageSettings, .handleCreateAPIKey⟩,
    ⟨"DELETE /api/v1/settings/security/api-keys/{id}", .permission .manageSettings,
      .handleRevokeAPIKey⟩,
    ⟨"GET /api/v1/users", .permission .manageUsers, .handleListUsers⟩,
    ⟨"POST /api/v1/users", .permission .manageUsers, .handleCreateUser⟩,
    ⟨"PATCH /api/v1/users/{id}", .permission .manageUsers, .handleUpdateUserAccess⟩,
    ⟨"DELETE /api/v1/users/{id}", .permission .manageUsers, .handleDeleteUser⟩,
    ⟨"GET /api/v1/stats", .permission .viewStats, .handleStatsSummary⟩,
    ⟨"GET /api/v1/notifications", .permission .manageNotifications, .handleListNotifications⟩,
    ⟨"GET /api/v1/notifications/queue", .permission .manageNotifications,
      .handleListNotificationQueue⟩,
    ⟨"POST /api/v1/notifications/queue/{id}/retry", .permission .manageNotifications,
      .handleRetryNotification⟩,
    ⟨"GET /api/v1/settings/notifications", .permission .manageNotifications,
      .handleGetNotificationChannels⟩,
    ⟨"PATCH /api/v1/settings/notifications", .permission .manageNotifications,
      .handleSetNotificationChannels⟩,
    ⟨"POST /api/v1/settings/notifications/test", .permission .manageNotifications,
      .handleTestNotificationChannel⟩,
    ⟨"GET /api/v1/schedules", .permission .manageSchedules, .handleListSchedules⟩,
    ⟨"POST /api/v1/schedules", .permission .manageSchedules, .handleCreateSchedule⟩,
    ⟨"PATCH /api/v1/schedules/{id}", .permission .manageSchedules, .handleUpdateSchedule⟩,
    ⟨"DELETE /api/v1/schedules/{id}", .permission .manageSchedules, .handleDeleteSchedule⟩]

/-- `metrics.RegisterRoute`. -/
def metricsRoutes : List Entry := [⟨"GET /metrics", .unguarded, .metrics⟩]

/-- `web.RegisterRoutes`. -/
def webRoutes : List Entry :=
  [⟨"GET /static/", .unguarded, .static⟩,
    ⟨"GET /login", .unguarded, .handleLoginPage⟩,
    ⟨"GET /change-password", .authenticated, .handleChangePasswordPage⟩,
    ⟨"GET /{$}", .permission .readContainers, .handleContainers⟩,
    ⟨"GET /logs", .permission .viewLogs, .handleLogs⟩,
    ⟨"GET /schedule", .permission .manageSchedules, .handleSchedule⟩,
    ⟨"GET /notifications", .permission .manageNotifications, .handleNotifications⟩,
    ⟨"GET /settings", .permission .manageSettings, .handleSettings⟩,
    ⟨"GET /stats", .permission .viewStats, .handleStats⟩,
    ⟨"GET /manual", .permission .readContainers, .handleManual⟩,
    ⟨"GET /manual/{page}", .permission .readContainers, .handleManual⟩,
    ⟨"GET /swagger", .authenticated, .handleSwagger⟩]

/-- A handler with the middleware in front of it. -/
structure Handler where
  guard : Guard
  endpoint : Endpoint
  deriving DecidableEq

def Entry.route (e : Entry) : Route Handler := parsePattern e.pattern ⟨e.guard, e.endpoint⟩

/-- The mux of `serve`. -/
def mux (oidcProvider : Bool) : List (Route Handler) :=
  (apiRoutes oidcProvider ++ metricsRoutes ++ webRoutes).map Entry.route

example : ((mux true).map Route.pieces)[9]? = some [.literal "api".toList, .literal "v1".toList,
  .literal "containers".toList, .wildcard "name".toList] := by decide +kernel

end Api
end Doupro
