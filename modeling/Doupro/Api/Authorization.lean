import Doupro.Accounts.PasswordChange
import Doupro.Api.Routes

/-!
# Who may have a handler run

A request is routed first, then `RequireAuth` and `RequirePermission` decide in front of the
handler. What the theorems say holds of every request, whatever the store answers.
-/

namespace Doupro.Api

open Accounts Interaction ServeMux

/-- The parts of a request that routing and authentication look at. -/
structure Request where
  /-- The connection was accepted by the local socket. -/
  trustedLocal : Bool := false
  method : Text
  /-- The path of the request line. -/
  path : Text
  authorization : String := ""
  sessionCookie : Option String := none
  csrfCookie : Option String := none
  csrfHeader : String := ""
  /-- `FormValue("csrf_token")`. -/
  csrfField : String := ""

/-- `URL.Path`. -/
def Request.urlPath (r : Request) : Bytes := (Path.pathUnescape r.path).getD []

def Request.isAPI (r : Request) : Bool := (Text.bytes "/api/".toList).isPrefixOf r.urlPath

/-- What `RequireAuth` attaches to the context of a request. -/
structure Caller where
  actor : String
  user : Option User := none
  access : AccessControl

def changePasswordPaths : List String :=
  ["/change-password", "/api/v1/auth/password", "/api/v1/auth/logout"]

def Request.mayChangePassword (r : Request) : Bool :=
  changePasswordPaths.any fun path => Text.bytes path.toList = r.urlPath

def csrfSafeMethod (method : Text) : Bool :=
  method = "GET".toList || method = "HEAD".toList || method = "OPTIONS".toList

def validCSRF (r : Request) : Bool :=
  let submitted := if r.csrfHeader = "" then r.csrfField else r.csrfHeader
  match r.csrfCookie with
  | none => false
  | some cookie => cookie ≠ "" && submitted ≠ "" && cookie = submitted

/-- The bearer token of a request. -/
def Request.bearer (r : Request) : Option String :=
  if hasPrefix r.authorization "Bearer " then
    some (String.ofList (r.authorization.toList.drop "Bearer ".length))
  else none

/-- A refusal, in JSON for the API and otherwise as a page does it. -/
def Request.refusal (r : Request) (status : Nat) (code message : String) (page : AuthResponse) :
    AuthResponse :=
  if r.isAPI then .error status code message else page

def writeUnauthorized (r : Request) (message : String) : AuthResponse :=
  r.refusal 401 "unauthenticated" message (.redirect "/login")

def writeForbidden (r : Request) : AuthResponse :=
  r.refusal 403 "forbidden" "insufficient permission" (.text 403 "insufficient permission")

def writeCSRFRequired (r : Request) : AuthResponse :=
  r.refusal 403 "csrf_token_invalid" "missing or invalid CSRF token"
    (.text 403 "missing or invalid CSRF token")

def writePasswordChangeRequired (r : Request) : AuthResponse :=
  r.refusal 403 "password_change_required"
    "the default password must be changed before continuing" (.redirect "/change-password")

/-- `RequireAuth` before the handler it wraps. -/
def requireAuth (auth : AuthPrimitives) (r : Request) (now : Time) :
    SQL (Except AuthResponse Caller) := do
  if r.trustedLocal then return .ok { actor := "local-socket", access := { role := .admin } }
  else
    match r.bearer, r.sessionCookie with
    | some key, _ =>
      match ← authenticateAPIKey (auth.hashToken key) now with
      | .error _ => return .error (writeUnauthorized r "invalid or revoked API key")
      | .ok key => return .ok { actor := "api-key", access := key.access }
    | none, none => return .error (writeUnauthorized r "login required")
    | none, some token =>
      match ← sessionUser (auth.hashToken token) now with
      | .error _ => return .error (writeUnauthorized r "login required")
      | .ok user =>
        if user.mustChangePassword ∧ ¬ r.mayChangePassword then
          return .error (writePasswordChangeRequired r)
        else if ¬ csrfSafeMethod r.method ∧ ¬ validCSRF r then
          return .error (writeCSRFRequired r)
        else return .ok { actor := user.username, user := some user, access := user.access }

/-- What becomes of a request. -/
inductive Served where
  /-- A handler ran, for a caller if its route asks for one. -/
  | ran (endpoint : Endpoint) (caller : Option Caller) (values : List Bytes)
  | answered (response : AuthResponse)
  | badRequest
  | redirect
  | methodNotAllowed
  | notFound

/-- `withPermission` and `protected`, in front of a handler. -/
def guarded (auth : AuthPrimitives) (r : Request) (now : Time) (handler : Handler)
    (values : List Bytes) : SQL Served := do
  match handler.guard with
  | .unguarded => return .ran handler.endpoint none values
  | .authenticated =>
    match ← requireAuth auth r now with
    | .error response => return .answered response
    | .ok caller => return .ran handler.endpoint (some caller) values
  | .permission permission =>
    match ← requireAuth auth r now with
    | .error response => return .answered response
    | .ok caller =>
      if caller.access.can permission then return .ran handler.endpoint (some caller) values
      else return .answered (writeForbidden r)

/-- `ServeMux.ServeHTTP` of the daemon. -/
def serveHTTP (auth : AuthPrimitives) (oidcProvider : Bool) (r : Request) (now : Time) :
    SQL Served :=
  match findHandler (mux oidcProvider) r.method r.path with
  | .handler route values => guarded auth r now route.handler values
  | .badRequest => return .badRequest
  | .redirect => return .redirect
  | .methodNotAllowed => return .methodNotAllowed
  | .notFound => return .notFound

/-! ### What the middleware lets through -/

variable {M : Machine Statements Database} {auth : AuthPrimitives} {oidcProvider : Bool}
  {r : Request} {now : Time} {db db' : Database} {trace : Trace Statements Database}
  {caller : Caller} {endpoint : Endpoint} {values : List Bytes}

/-- How a caller can have been admitted. -/
inductive Admitted (M : Machine Statements Database) (auth : AuthPrimitives) (r : Request)
    (now : Time) (db : Database) (trace : Trace Statements Database) (db' : Database) :
    Caller → Prop
  | local (hlocal : r.trustedLocal = true) (hquiet : trace = [] ∧ db' = db) :
    Admitted M auth r now db trace db'
      { actor := "local-socket", access := { role := .admin } }
  | key {token : String} {key : APIKey} (hremote : r.trustedLocal = false)
    (hbearer : r.bearer = some token)
    (hrun : M.Runs (authenticateAPIKey (auth.hashToken token) now) db trace (.ok key) db') :
    Admitted M auth r now db trace db' { actor := "api-key", access := key.access }
  | session {token : String} {user : User} (hremote : r.trustedLocal = false)
    (hbearer : r.bearer = none) (hcookie : r.sessionCookie = some token)
    (hrun : M.Runs (sessionUser (auth.hashToken token) now) db trace (.ok user) db')
    (hpassword : user.mustChangePassword = true → r.mayChangePassword = true)
    (hcsrf : csrfSafeMethod r.method = true ∨ validCSRF r = true) :
    Admitted M auth r now db trace db'
      { actor := user.username, user := some user, access := user.access }

theorem requireAuth_runs
    (h : M.Runs (requireAuth auth r now) db trace (.ok caller) db') :
    Admitted M auth r now db trace db' caller := by
  unfold requireAuth at h
  split at h
  · next hlocal =>
    obtain ⟨htrace, hcaller, hsame⟩ := h
    obtain rfl := Except.ok.inj hcaller
    exact .local hlocal ⟨htrace, hsame⟩
  · next hremote =>
    rw [Bool.not_eq_true] at hremote
    split at h
    · next key cookie hbearer =>
      obtain ⟨first, reply, db₁, rest, hfirst, hrest, rfl⟩ := Machine.runs_bind.mp h
      cases reply with
      | error err => cases hrest.2.1
      | ok found =>
        obtain ⟨rfl, hcaller, rfl⟩ := hrest
        obtain rfl := Except.ok.inj hcaller
        rw [List.append_nil]
        exact .key hremote hbearer hfirst
    · cases h.2.1
    · next token hbearer hcookie =>
      obtain ⟨first, reply, db₁, rest, hfirst, hrest, rfl⟩ := Machine.runs_bind.mp h
      cases reply with
      | error err => cases hrest.2.1
      | ok user =>
        simp only at hrest
        split at hrest
        · cases hrest.2.1
        · next hpassword =>
          split at hrest
          · cases hrest.2.1
          · next hcsrf =>
            obtain ⟨rfl, hcaller, rfl⟩ := hrest
            obtain rfl := Except.ok.inj hcaller
            rw [List.append_nil]
            refine .session hremote hbearer hcookie hfirst (fun hmust => ?_) ?_
            · by_contra hno
              exact hpassword ⟨hmust, hno⟩
            · by_cases hsafe : csrfSafeMethod r.method = true
              · exact .inl hsafe
              · refine .inr ?_
                by_contra hno
                exact hcsrf ⟨hsafe, hno⟩

theorem Admitted.runs (h : Admitted M auth r now db trace db' caller) :
    M.Runs (requireAuth auth r now) db trace (.ok caller) db' := by
  unfold requireAuth
  cases h with
  | «local» hlocal hquiet =>
    rw [if_pos hlocal]
    exact ⟨hquiet.1, rfl, hquiet.2⟩
  | key hremote hbearer hrun =>
    rw [if_neg (by simp [hremote])]
    simp only [hbearer]
    exact Machine.runs_bind.mpr ⟨trace, _, db', [], hrun, ⟨rfl, rfl, rfl⟩, by simp⟩
  | session hremote hbearer hcookie hrun hpassword hcsrf =>
    rw [if_neg (by simp [hremote])]
    simp only [hbearer, hcookie]
    refine Machine.runs_bind.mpr ⟨trace, _, db', [], hrun, ?_, by simp⟩
    simp only
    rw [if_neg (fun hmust => hmust.2 (hpassword hmust.1)), if_neg ?_]
    · exact ⟨rfl, rfl, rfl⟩
    · rintro ⟨hchanging, hinvalid⟩
      exact hcsrf.elim hchanging hinvalid

/-- What a guard asks of the caller a handler runs for. -/
def Admits (M : Machine Statements Database) (auth : AuthPrimitives) (r : Request)
    (now : Time) (db : Database) (trace : Trace Statements Database) (db' : Database) :
    Guard → Option Caller → Prop
  | .unguarded, caller => caller = none
  | .authenticated, caller => ∃ c, caller = some c ∧ Admitted M auth r now db trace db' c
  | .permission required, caller => ∃ c, caller = some c ∧
      Admitted M auth r now db trace db' c ∧ c.access.can required = true

/-- The handler that ran is the one its route leads to, behind its guard. -/
theorem serveHTTP_ran {caller : Option Caller}
    (h : M.Runs (serveHTTP auth oidcProvider r now) db trace (.ran endpoint caller values) db') :
    ∃ route, findHandler (mux oidcProvider) r.method r.path = .handler route values ∧
      route.handler.endpoint = endpoint ∧
      Admits M auth r now db trace db' route.handler.guard caller := by
  unfold serveHTTP at h
  split at h
  · next route found hroute =>
    have hguard : found = values ∧ route.handler.endpoint = endpoint ∧
        Admits M auth r now db trace db' route.handler.guard caller := by
      unfold guarded at h
      cases hkind : route.handler.guard with
      | unguarded =>
        simp only [hkind] at h
        obtain ⟨rfl, hran, rfl⟩ := h
        obtain ⟨rfl, rfl, rfl⟩ := Served.ran.inj hran
        exact ⟨rfl, rfl, rfl⟩
      | authenticated =>
        simp only [hkind] at h
        obtain ⟨first, reply, db₁, rest, hfirst, hrest, rfl⟩ := Machine.runs_bind.mp h
        cases reply with
        | error response => cases hrest.2.1
        | ok c =>
          obtain ⟨rfl, hran, rfl⟩ := hrest
          obtain ⟨rfl, rfl, rfl⟩ := Served.ran.inj hran
          rw [List.append_nil]
          exact ⟨rfl, rfl, c, rfl, requireAuth_runs hfirst⟩
      | permission permission =>
        simp only [hkind] at h
        obtain ⟨first, reply, db₁, rest, hfirst, hrest, rfl⟩ := Machine.runs_bind.mp h
        cases reply with
        | error response => cases hrest.2.1
        | ok c =>
          simp only at hrest
          split at hrest
          · next hcan =>
            obtain ⟨rfl, hran, rfl⟩ := hrest
            obtain ⟨rfl, rfl, rfl⟩ := Served.ran.inj hran
            rw [List.append_nil]
            exact ⟨rfl, rfl, c, rfl, requireAuth_runs hfirst, hcan⟩
          · cases hrest.2.1
    obtain ⟨rfl, hendpoint, hadmits⟩ := hguard
    exact ⟨route, hroute, hendpoint, hadmits⟩
  · cases h.2.1
  · cases h.2.1
  · cases h.2.1
  · cases h.2.1

/-- A request that is routed to a guard that lets its caller in has the handler run. -/
theorem serveHTTP_admits {route : Route Handler} {c : Caller}
    (hroute : findHandler (mux oidcProvider) r.method r.path = .handler route values)
    (hguard : route.handler.guard ≠ .unguarded)
    (h : Admits M auth r now db trace db' route.handler.guard (some c)) :
    M.Runs (serveHTTP auth oidcProvider r now) db trace
      (.ran route.handler.endpoint (some c) values) db' := by
  unfold serveHTTP
  rw [hroute]
  unfold guarded
  cases hkind : route.handler.guard with
  | unguarded => exact absurd hkind hguard
  | authenticated =>
    rw [hkind] at h
    obtain ⟨c', hcaller, hadmitted⟩ := h
    obtain rfl := Option.some.inj hcaller
    simp only [hkind]
    exact Machine.runs_bind.mpr ⟨trace, _, db', [], hadmitted.runs, ⟨rfl, rfl, rfl⟩, by simp⟩
  | permission required =>
    rw [hkind] at h
    obtain ⟨c', hcaller, hadmitted, hcan⟩ := h
    obtain rfl := Option.some.inj hcaller
    simp only [hkind]
    refine Machine.runs_bind.mpr ⟨trace, _, db', [], hadmitted.runs, ?_, by simp⟩
    simp only [if_pos hcan]
    exact ⟨rfl, rfl, rfl⟩

/-! ### Routes -/

/-- What is read off the table: no route is for `CONNECT`, and of the routes behind `RequireAuth`,
the paths left open to an account with a password to change lead to two. -/
theorem mux_routes : ∀ oidcProvider, ∀ route ∈ mux oidcProvider,
    (route.method ≠ "CONNECT".toList ∧ route.method ≠ []) ∧
      (route.handler.guard ≠ .unguarded →
        (changePasswordPaths.any fun path => fits route.pieces (Text.bytes path.toList)) = true →
        route.handler.endpoint = .handleChangePasswordPage ∨
          route.handler.endpoint = .handleChangePassword) := by
  decide +kernel

theorem serves_method {route : Route Handler} (hmem : route ∈ mux oidcProvider)
    (hserves : Serves route r.method) : r.method ≠ "CONNECT".toList ∧
      (route.method = r.method ∨ (r.method = "HEAD".toList ∧ route.method = "GET".toList)) := by
  obtain ⟨hconnect, hany⟩ := (mux_routes oidcProvider route hmem).1
  rcases hserves with hown | ⟨hhead, hget⟩ | hempty
  · exact ⟨hown ▸ hconnect, .inl hown⟩
  · exact ⟨by rw [hhead]; decide, .inr ⟨hhead, hget⟩⟩
  · exact absurd hempty hany

/-- The handler that is found for a request is one whose pattern the path of the URL fits. -/
theorem findHandler_mux {route : Route Handler}
    (h : findHandler (mux oidcProvider) r.method r.path = .handler route values) :
    route ∈ mux oidcProvider ∧ fits route.pieces r.urlPath = true ∧
      (route.method = r.method ∨ (r.method = "HEAD".toList ∧ route.method = "GET".toList)) := by
  obtain ⟨-, -, -, -, hmem, hserves, -⟩ := findHandler_sound h
  obtain ⟨hconnect, hmethod⟩ := serves_method hmem hserves
  obtain ⟨decoded, hraw, hfits⟩ := findHandler_fits h hconnect
  have hpath : r.urlPath = decoded := by rw [Request.urlPath, hraw, Option.getD_some]
  exact ⟨hmem, hpath ▸ hfits, hmethod⟩

/-- A session whose account has a password to change gets nowhere but to the page and the
endpoint that change it, however the path of the request is escaped. -/
theorem passwordChange_confines {user : User}
    (h : M.Runs (serveHTTP auth oidcProvider r now) db trace (.ran endpoint (some caller) values) db')
    (huser : caller.user = some user) (hmust : user.mustChangePassword = true) :
    endpoint = .handleChangePasswordPage ∨ endpoint = .handleChangePassword := by
  obtain ⟨route, hroute, rfl, hadmits⟩ := serveHTTP_ran h
  obtain ⟨hmem, hfits, -⟩ := findHandler_mux hroute
  have hadmitted : route.handler.guard ≠ .unguarded ∧ Admitted M auth r now db trace db' caller := by
    cases hguard : route.handler.guard with
    | unguarded =>
      rw [hguard] at hadmits
      cases hadmits
    | authenticated =>
      rw [hguard] at hadmits
      obtain ⟨c, hcaller, hadmitted⟩ := hadmits
      exact ⟨by simp, Option.some.inj hcaller ▸ hadmitted⟩
    | permission required =>
      rw [hguard] at hadmits
      obtain ⟨c, hcaller, hadmitted, -⟩ := hadmits
      exact ⟨by simp, Option.some.inj hcaller ▸ hadmitted⟩
  have hexempt : r.mayChangePassword = true := by
    cases hadmitted.2 with
    | «local» => cases huser
    | key => cases huser
    | session hremote hbearer hcookie hrun hpassword hcsrf =>
      obtain rfl := Option.some.inj huser
      exact hpassword hmust
  unfold Request.mayChangePassword at hexempt
  obtain ⟨path, hpath, hbytes⟩ := List.any_eq_true.mp hexempt
  refine (mux_routes oidcProvider route hmem).2 hadmitted.1 (List.any_eq_true.mpr ⟨path, hpath, ?_⟩)
  rw [decide_eq_true_eq] at hbytes
  rwa [hbytes]

/-- The session of an account that still has the password it was set up with. -/
def unchangedPassword : Database where
  users :=
    [{ id := 1, username := "admin", passwordHash := "hash of admin", mustChangePassword := true,
       createdAt := 0 }]
  sessions := [⟨"digest of token", 1, 0, sessionTTL⟩]
  assignments := [((.user, 1), { role := .admin, isProtected := true })]
  userSeq := 1
  protectedColumn := true

/-- The page that changes the password, its path spelt with an escape. -/
@[irreducible] def openChangePassword : Request where
  trustedLocal := false
  method := "GET".toList
  path := "/change%2Dpassword".toList
  sessionCookie := some "token"

theorem openChangePassword_found : ∃ route,
    findHandler (mux false) openChangePassword.method openChangePassword.path = .handler route [] ∧
      route.handler = ⟨.authenticated, .handleChangePasswordPage⟩ :=
  ⟨Entry.route ⟨"GET /change-password", .authenticated, .handleChangePasswordPage⟩,
    by decide +kernel, rfl⟩

theorem passwordChange_confines_page : ∃ trace endpoint caller, connection.Runs
    (serveHTTP plainAuth false openChangePassword 1) unchangedPassword trace
    (.ran endpoint (some caller) []) unchangedPassword ∧
    (endpoint = .handleChangePasswordPage ∨ endpoint = .handleChangePassword) := by
  have hsession : ∃ trace user, connection.Runs (sessionUser "digest of token" 1) unchangedPassword
      trace (.ok user) unchangedPassword ∧ user.mustChangePassword = true :=
    ⟨_, _, ⟨_, _, _, _, rfl, ⟨none, rfl⟩, rfl, _, _, _, _, rfl, ⟨none, rfl⟩, rfl, rfl, rfl, rfl⟩, rfl⟩
  obtain ⟨trace, user, hrun, hmust⟩ := hsession
  have hrequest : openChangePassword.trustedLocal = false ∧ openChangePassword.bearer = none ∧
      openChangePassword.sessionCookie = some "token" ∧
      openChangePassword.mayChangePassword = true ∧
      csrfSafeMethod openChangePassword.method = true := by decide +kernel
  obtain ⟨hremote, hbearer, hcookie, hmay, hsafe⟩ := hrequest
  have hadmitted : Admitted connection plainAuth openChangePassword 1 unchangedPassword trace
      unchangedPassword ⟨user.username, some user, user.access⟩ :=
    .session hremote hbearer hcookie hrun (fun _ => hmay) (.inl hsafe)
  obtain ⟨route, hroute, hhandler⟩ := openChangePassword_found
  have hran := serveHTTP_admits hroute (by simp [hhandler])
    (by rw [hhandler]; exact ⟨_, rfl, hadmitted⟩)
  exact ⟨trace, _, _, hran, passwordChange_confines hran rfl hmust⟩

end Doupro.Api
