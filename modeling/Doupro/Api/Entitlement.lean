import Doupro.Accounts.AdminCount
import Doupro.Api.Authorization

/-!
# Which credential a handler runs for

The manual gives each role its share of the program. Whatever other requests do to the store
between two statements, a handler runs only within the share of an assignment that was stored
for the credential of the request, and never changes anything for a request another site made.
-/

namespace Doupro.Api

open Accounts Interaction ServeMux

/-- The parts of the program that the manual gives out. -/
inductive Area where
  /-- Open to everyone. -/
  | signIn
  /-- The own account. -/
  | account
  | containers
  | logs
  | schedules
  | notifications
  | stats
  /-- Settings, users and API keys. -/
  | administration
  deriving DecidableEq

def Endpoint.area : Endpoint → Area
  | .handleHealth | .handleOpenAPISpec | .handleLogin | .handleLogout | .handleOIDCLogin
  | .handleOIDCCallback | .metrics | .static | .handleLoginPage => .signIn
  | .handleChangePassword | .handleChangePasswordPage | .handleSwagger => .account
  | .handleListContainers | .handleGetContainer | .handleCheckContainer | .handlePreviewUpdate
  | .handleUpdateContainer | .handleRollbackContainer | .handleUpdateAllContainers
  | .handleContainers | .handleManual => .containers
  | .handleListLogs | .handleLogs => .logs
  | .handleListSchedules | .handleCreateSchedule | .handleUpdateSchedule | .handleDeleteSchedule
  | .handleSchedule => .schedules
  | .handleListNotifications | .handleListNotificationQueue | .handleRetryNotification
  | .handleGetNotificationChannels | .handleSetNotificationChannels
  | .handleTestNotificationChannel | .handleNotifications => .notifications
  | .handleStatsSummary | .handleStats => .stats
  | .handleGetGeneralSettings | .handleSetGeneralSettings | .handleGetExclusions
  | .handleSetExclusions | .handleGetRegistries | .handleSetRegistries | .handleTestRegistry
  | .handleListAPIKeys | .handleCreateAPIKey | .handleRevokeAPIKey | .handleListUsers
  | .handleCreateUser | .handleUpdateUserAccess | .handleDeleteUser | .handleSettings =>
    .administration

/-- The handlers that write to the store or start work on a container or a channel. -/
def Endpoint.changes : Endpoint → Bool
  | .handleLogin | .handleLogout | .handleOIDCCallback | .handleChangePassword
  | .handleCheckContainer | .handleUpdateContainer | .handleRollbackContainer
  | .handleUpdateAllContainers | .handleSetGeneralSettings | .handleSetExclusions
  | .handleSetRegistries | .handleTestRegistry | .handleCreateAPIKey | .handleRevokeAPIKey
  | .handleCreateUser | .handleUpdateUserAccess | .handleDeleteUser | .handleRetryNotification
  | .handleSetNotificationChannels | .handleTestNotificationChannel | .handleCreateSchedule
  | .handleUpdateSchedule | .handleDeleteSchedule => true
  | _ => false

/-- What the manual lets a role and its checkboxes do in an area. -/
def grants (a : AccessControl) (area : Area) (changes : Bool) : Prop :=
  match area with
  | .signIn | .account => True
  | .containers => a.role = .admin ∨ a.role = .write ∨ (a.role = .read ∧ changes = false)
  | .logs => a.role = .admin ∨ a.viewLogs = true
  | .schedules => a.role = .admin ∨ a.manageSchedules = true
  | .notifications => a.role = .admin ∨ a.manageNotifications = true
  | .stats => a.role = .admin ∨ a.viewStats = true
  | .administration => a.role = .admin

/-! ### Requests of another site -/

/-- A request that carries no token of its own, as another site can have a browser make one. -/
structure Forged (r : Request) : Prop where
  remote : r.trustedLocal = false
  keyless : r.bearer = none
  tokenless : validCSRF r = false

/-- Behind a safe method, only the end of a single sign-on changes anything. -/
theorem safe_routes : ∀ oidcProvider, ∀ route ∈ mux oidcProvider,
    route.method = "GET".toList ∨ route.method = "HEAD".toList ∨ route.method = "OPTIONS".toList →
    route.handler.endpoint.changes = true → route.handler.endpoint = .handleOIDCCallback := by
  decide +kernel

theorem unguarded_routes : ∀ oidcProvider, ∀ route ∈ mux oidcProvider,
    route.handler.guard = .unguarded → route.handler.endpoint.changes = true →
    route.handler.endpoint = .handleLogin ∨ route.handler.endpoint = .handleLogout ∨
      route.handler.endpoint = .handleOIDCCallback := by
  decide +kernel

variable {M : Machine Statements Database} {auth : AuthPrimitives} {oidcProvider : Bool}
  {r : Request} {now : Time} {db db' : Database} {trace : Trace Statements Database}
  {caller : Caller} {endpoint : Endpoint} {values : List Bytes}

/-- A caller who was let in on a request of another site used a safe method. -/
theorem Forged.safe (h : Forged r) (hadmitted : Admitted M auth r now db trace db' caller) :
    csrfSafeMethod r.method = true := by
  cases hadmitted with
  | «local» hlocal => exact absurd hlocal (by rw [h.remote]; decide)
  | key hremote hbearer hrun => exact absurd hbearer (by rw [h.keyless]; simp)
  | session hremote hbearer hcookie hrun hpassword hcsrf =>
    exact hcsrf.resolve_right (by rw [h.tokenless]; decide)

/-- A form of another site that signs the operator out. -/
@[irreducible] def forgedLogout : Request where
  trustedLocal := false
  method := "POST".toList
  path := "/api/v1/auth/logout".toList
  sessionCookie := some "token"
  csrfCookie := some "a1b2"
  csrfField := "guess"

/-- The store with other requests at work on it: between two statements it can become any other. -/
def sharedConnection : Machine Statements Database where
  rely _ _ := True
  step := connection.step

/-- The credential of a request is that of a principal: a key that is stored, or a session that
has not expired, of an account. -/
def Authenticates (auth : AuthPrimitives) (r : Request) (now : Time) (db : Database) :
    Principal → Prop
  | (.apiKey, id) => ∃ token, r.bearer = some token ∧
      ∃ key ∈ db.apiKeys, key.id = id ∧ key.keyHash = auth.hashToken token
  | (.user, id) => r.bearer = none ∧ ∃ token, r.sessionCookie = some token ∧
      (∃ s ∈ db.sessions, s.token = auth.hashToken token ∧ s.userID = id ∧
        Time.columnLE s.expiresAt now = false) ∧ HasUser db id

/-- The access of a principal: of one without an assignment, that of an older binary. -/
def assigned (db : Database) (p : Principal) : AccessControl :=
  (db.assignment p).getD { role := .admin }

theorem accessFor_assigned {p : Principal} {access : AccessControl}
    (h : sharedConnection.Runs (accessFor p) db trace (.ok access) db') :
    ∃ e ∈ trace, access = assigned e.world p := by
  obtain ⟨db₀, found, db₁, rest, -, hselect, rfl, hrest⟩ := Machine.runs_request_bind.mp h
  refine ⟨_, List.mem_cons_self, ?_⟩
  obtain ⟨err, rfl, -⟩ | ⟨result, rfl, hperform⟩ := connection_step hselect
  · cases hrest.2.1
  · simp only [Database.perform] at hperform
    split at hperform
    · simp only [Except.ok.injEq, Prod.mk.injEq] at hperform
      obtain ⟨rfl, -⟩ := hperform
      unfold assigned
      cases hfound : db₀.assignment p with
      | some current =>
        rw [hfound] at hrest
        exact Except.ok.inj hrest.2.1
      | none =>
        rw [hfound] at hrest
        obtain ⟨_, written, _, _, -, hlast, -⟩ := Machine.runs_bind.mp hrest
        cases written with
        | error err => cases hlast.2.1
        | ok _ => exact Except.ok.inj hlast.2.1
    · cases hperform

/-- A first event, then a later one. -/
def Then (trace : Trace Statements Database) (first second : Database → Prop) : Prop :=
  ∃ e e', [e, e'].Sublist trace ∧ first e.world ∧ second e'.world

theorem then_cons {e : Event Statements Database} {first second : Database → Prop}
    (hfirst : first e.world) (hsecond : ∃ e' ∈ trace, second e'.world) :
    Then (e :: trace) first second := by
  obtain ⟨e', hmem, hsecond⟩ := hsecond
  exact ⟨e, e', .cons_cons e (List.singleton_sublist.mpr hmem), hfirst, hsecond⟩

theorem authenticateAPIKey_held {token : String} {key : APIKey} (hbearer : r.bearer = some token)
    (h : sharedConnection.Runs (authenticateAPIKey (auth.hashToken token) now) db trace (.ok key) db') :
    Then trace (Authenticates auth r now · (.apiKey, key.id))
      (key.access = assigned · (.apiKey, key.id)) := by
  obtain ⟨db₀, found, db₁, rest, -, hselect, rfl, hrest⟩ := Machine.runs_request_bind.mp h
  obtain ⟨err, rfl, -⟩ | ⟨result, rfl, hperform⟩ := connection_step hselect
  · cases hrest.2.1
  · simp only [Database.perform, Except.ok.injEq, Prod.mk.injEq] at hperform
    obtain ⟨rfl, -⟩ := hperform
    cases hfound : db₀.apiKeys.find? fun k => k.keyHash = auth.hashToken token with
    | none =>
      rw [hfound] at hrest
      cases hrest.2.1
    | some row =>
      rw [hfound] at hrest
      obtain ⟨first, resolved, db₂, last, haccess, hlast, rfl⟩ := Machine.runs_bind.mp hrest
      cases resolved with
      | error err => cases hlast.2.1
      | ok access =>
        obtain ⟨_, _, _, _, -, -, -, -, hkey, -⟩ := Machine.runs_request_bind.mp hlast
        obtain rfl := Except.ok.inj hkey
        obtain ⟨e, he, hassigned⟩ := accessFor_assigned haccess
        refine then_cons ⟨token, hbearer, row, List.mem_of_find?_eq_some hfound, rfl, ?_⟩
          ⟨e, List.mem_append_left _ he, hassigned⟩
        simpa using List.find?_some hfound

theorem sessionUser_held {token : String} {user : User} (hbearer : r.bearer = none)
    (hcookie : r.sessionCookie = some token)
    (h : sharedConnection.Runs (sessionUser (auth.hashToken token) now) db trace (.ok user) db') :
    Then trace (Authenticates auth r now · (.user, user.id))
      (user.access = assigned · (.user, user.id)) := by
  obtain ⟨db₀, found, db₁, rest, -, hselect, rfl, hrest⟩ := Machine.runs_request_bind.mp h
  obtain ⟨err, rfl, -⟩ | ⟨result, rfl, hperform⟩ := connection_step hselect
  · cases hrest.2.1
  · simp only [Database.perform, Except.ok.injEq, Prod.mk.injEq] at hperform
    obtain ⟨rfl, -⟩ := hperform
    cases hfound : db₀.findUser (.session (auth.hashToken token) now) with
    | none =>
      rw [hfound] at hrest
      cases hrest.2.1
    | some row =>
      rw [hfound] at hrest
      obtain ⟨first, resolved, db₂, last, haccess, hlast, rfl⟩ := Machine.runs_bind.mp hrest
      cases resolved with
      | error err => cases hlast.2.1
      | ok access =>
        obtain rfl := Except.ok.inj hlast.2.1
        obtain ⟨e, he, hassigned⟩ := accessFor_assigned haccess
        obtain ⟨session, hsession, hrow⟩ := Option.bind_eq_some_iff.mp hfound
        have hlive := List.find?_some hsession
        have hid := List.find?_some hrow
        simp only [decide_eq_true_eq, Bool.not_eq_true'] at hlive hid
        exact then_cons ⟨hbearer, token, hcookie,
          ⟨session, List.mem_of_find?_eq_some hsession, hlive.1, hid.symm, hlive.2⟩,
          row, List.mem_of_find?_eq_some hrow, rfl⟩ ⟨e, List.mem_append_left _ he, hassigned⟩

/-- Where the access of a caller comes from. -/
theorem Admitted.access (h : Admitted sharedConnection auth r now db trace db' caller) :
    r.trustedLocal = true ∨ ∃ p, Then trace (Authenticates auth r now · p)
      (caller.access = assigned · p) := by
  cases h with
  | «local» hlocal => exact .inl hlocal
  | key hremote hbearer hrun => exact .inr ⟨_, authenticateAPIKey_held hbearer hrun⟩
  | session hremote hbearer hcookie hrun hpassword hcsrf =>
    exact .inr ⟨_, sessionUser_held hbearer hcookie hrun⟩

/-! ### Shares -/

/-- The area whose handlers a guard stands before. -/
def Guard.area : Guard → Area
  | .unguarded => .signIn
  | .authenticated => .account
  | .permission required => match required with
    | .readContainers | .writeContainers => .containers
    | .viewLogs => .logs
    | .manageSchedules => .schedules
    | .manageNotifications => .notifications
    | .viewStats => .stats
    | .manageSettings | .manageUsers => .administration

theorem guard_area : ∀ oidcProvider, ∀ route ∈ mux oidcProvider,
    route.handler.guard.area = route.handler.endpoint.area := by
  decide +kernel

theorem reading_routes : ∀ oidcProvider, ∀ route ∈ mux oidcProvider,
    route.handler.guard = .permission .readContainers →
    route.handler.endpoint.changes = false := by
  decide +kernel

/-- A permission is within the share of the assignments that have it. -/
theorem grants_of_can {a : AccessControl} {permission : Permission} {changes : Bool}
    (hcan : a.can permission = true) (hreads : permission = .readContainers → changes = false) :
    grants a (Guard.permission permission).area changes := by
  unfold AccessControl.can at hcan
  split at hcan
  · next hadmin => cases permission <;> simp [Guard.area, grants, hadmin]
  · next hadmin => cases permission <;> simp_all [Guard.area, grants]

/-- A key with the write role. -/
def keyStore : Database where
  apiKeys :=
    [{ id := 1, name := "deploy", keyHash := "digest of dpr_1", keyPrefix := "dpr_1",
       createdAt := 0 }]
  assignments := [((.apiKey, 1), { role := .write })]
  apiKeySeq := 1
  protectedColumn := true

@[irreducible] def keyedUpdate : Request where
  trustedLocal := false
  method := "POST".toList
  path := "/api/v1/containers/web/update".toList
  authorization := "Bearer dpr_1"

end Doupro.Api
