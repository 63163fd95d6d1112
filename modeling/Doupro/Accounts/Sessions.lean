import Doupro.Accounts.Programs
import Doupro.Interaction.Layers
import Doupro.Interaction.Threads

/-!
# Sessions

Signing in, changing a password and signing out, statement by statement, with the middleware in
front of the password change. A login reads the user and inserts the session in two statements; a
password change writes the hash and deletes sessions in two statements.
-/

namespace Doupro.Accounts

open Interaction

inductive SessionStatement where
  | account (s : Statement)
  /-- The `UPDATE` of `UpdatePassword`. -/
  | updatePassword (userID : Nat) (passwordHash : String)
  | deleteSession (tokenHash : String)
  | deleteOtherSessions (userID : Nat) (keepTokenHash : String)

@[reducible] def SessionStatement.Result : SessionStatement → Type
  | .account s => s.Result
  | .updatePassword _ _ => Nat
  | .deleteSession _ | .deleteOtherSessions _ _ => Unit

abbrev SessionStatements : Signature := ⟨SessionStatement, fun s => Except SQLError s.Result⟩

abbrev SessionSQL (α : Type) := Program SessionStatements α

/-- An account function next to the session functions. -/
def account {α : Type} (p : SQL α) : SessionSQL α :=
  p.expand fun s => .request (S := SessionStatements) (.account s)

namespace Database

def performSession (db : Database) : (s : SessionStatement) → Except SQLError (s.Result × Database)
  | .account s => db.perform s
  | .updatePassword userID passwordHash =>
    .ok (db.users.countP fun u => u.id = userID, { db with
      users := Table.updateWhere (fun u => decide (u.id = userID))
        (fun u => { u with passwordHash, mustChangePassword := false }) db.users })
  | .deleteSession tokenHash =>
    .ok ((), { db with
      sessions := Table.deleteWhere (fun s => decide (s.token = tokenHash)) db.sessions })
  | .deleteOtherSessions userID keepTokenHash =>
    .ok ((), { db with
      sessions := Table.deleteWhere
        (fun s => decide (s.userID = userID ∧ s.token ≠ keepTokenHash)) db.sessions })

def execSession (db : Database) (fault : Option String) (s : SessionStatement) :
    Except SQLError s.Result × Database :=
  match fault with
  | some text => (.error (.other text), db)
  | none => match db.performSession s with
    | .error err => (.error err, db)
    | .ok (result, db') => (.ok result, db')

end Database

/-- The connection, with the session statements. -/
def sessionConnection : Machine SessionStatements Database where
  rely db db' := db' = db
  step db s r db' := ∃ fault, db.execSession fault s = (r, db')

theorem sessionConnection_step {db db' : Database} {s : SessionStatement} {r : Except SQLError s.Result}
    (h : sessionConnection.step db s r db') :
    (∃ err, r = .error err ∧ db' = db) ∨
      ∃ result, r = .ok result ∧ db.performSession s = .ok (result, db') := by
  obtain ⟨fault, hexec⟩ := h
  unfold Database.execSession at hexec
  cases fault with
  | some text =>
    rw [Prod.mk.injEq] at hexec
    exact .inl ⟨.other text, hexec.1.symm, hexec.2.symm⟩
  | none =>
    cases hperform : db.performSession s with
    | error err =>
      simp only [hperform, Prod.mk.injEq] at hexec
      exact .inl ⟨err, hexec.1.symm, hexec.2.symm⟩
    | ok out =>
      obtain ⟨result, after⟩ := out
      simp only [hperform, Prod.mk.injEq] at hexec
      exact .inr ⟨result, hexec.1.symm, by rw [hexec.2]⟩

/-! ### Store functions -/

/-- `Store.UpdatePassword`. -/
def updatePassword (userID : Nat) (passwordHash : String) : SessionSQL (Except GoError Unit) := do
  match ← .request (S := SessionStatements) (.updatePassword userID passwordHash) with
  | .error err => return .error (.wrap ("update password for user " ++ toString userID) err.asError)
  | .ok n => if n = 0 then return .error .notFound else return .ok ()

/-- `Store.DeleteSession`. -/
def deleteSession (tokenHash : String) : SessionSQL (Except GoError Unit) := do
  match ← .request (S := SessionStatements) (.deleteSession tokenHash) with
  | .error err => return .error (.wrap "delete session" err.asError)
  | .ok () => return .ok ()

/-- `Store.DeleteOtherSessions`. -/
def deleteOtherSessions (userID : Nat) (keepTokenHash : String) : SessionSQL (Except GoError Unit) := do
  match ← .request (S := SessionStatements) (.deleteOtherSessions userID keepTokenHash) with
  | .error err =>
    return .error (.wrap ("delete other sessions for user " ++ toString userID) err.asError)
  | .ok () => return .ok ()

/-! ### Handlers -/

/-- The functions of package auth that the handlers call. -/
structure AuthPrimitives where
  /-- `VerifyPassword`. -/
  verifyPassword : (hash password : String) → Bool
  /-- `HashToken`. -/
  hashToken : String → String

/-- `VerifyPasswordConstantTime`; the time it takes is left out. -/
def AuthPrimitives.verifyPasswordConstantTime (auth : AuthPrimitives) (hash password : String) : Bool :=
  if hash = "" then false else auth.verifyPassword hash password

/-- `auth.SessionTTL`. -/
def sessionTTL : Duration := 30 * 24 * (60 * minute)

def sessionCookieName : String := "doupro_session"
def csrfCookieName : String := "doupro_csrf"

/-- What a handler writes: an error, in JSON or in plain text, or a success with its cookies. -/
inductive AuthResponse where
  | error (status : Nat) (code message : String)
  | text (status : Nat) (message : String)
  | ok (cookies : List (String × String) := [])
  | redirect (location : String) (cookies : List (String × String) := [])
  deriving DecidableEq

structure LoginRequest where
  username : String
  password : String

/-- `handleLogin`, given how reading the body and drawing the two tokens go. -/
def handleLogin (auth : AuthPrimitives) (wantsJSON : Bool) (body : Option LoginRequest)
    (token csrfToken : Except GoError String) (now : Time) : SessionSQL AuthResponse := do
  match body with
  | none =>
    return .error 400 "invalid_request" (if wantsJSON then "invalid JSON body" else "invalid form body")
  | some req =>
    let refused : AuthResponse :=
      if wantsJSON then .error 401 "invalid_credentials" "invalid username or password"
      else .redirect "/login?error=1"
    match ← account (getUserByUsername req.username) with
    | .error _ => return refused
    | .ok user =>
      if auth.verifyPasswordConstantTime user.passwordHash req.password then
        match token with
        | .error _ => return .error 500 "internal_error" "failed to create session"
        | .ok token =>
          match ← account (createSession (auth.hashToken token) user.id sessionTTL now) with
          | .error _ => return .error 500 "internal_error" "failed to create session"
          | .ok () =>
            match csrfToken with
            | .error _ => return .error 500 "internal_error" "failed to create session"
            | .ok csrfToken =>
              let cookies := [(sessionCookieName, token), (csrfCookieName, csrfToken)]
              return if wantsJSON then .ok cookies else .redirect "/" cookies
      else return refused

/-- `handleOIDCCallback` from where the provider has vouched for an identity. -/
def handleOIDCCallback (auth : AuthPrimitives) (subject username : String)
    (token csrfToken : Except GoError String) (now : Time) : SessionSQL AuthResponse := do
  match ← account (getOrCreateOIDCUser subject username now) with
  | .error _ => return .redirect "/login?error=1"
  | .ok user =>
    match token with
    | .error _ => return .text 500 "failed to create session"
    | .ok token =>
      match ← account (createSession (auth.hashToken token) user.id sessionTTL now) with
      | .error _ => return .text 500 "failed to create session"
      | .ok () =>
        match csrfToken with
        | .error _ => return .text 500 "failed to create session"
        | .ok csrfToken =>
          return .redirect "/" [(sessionCookieName, token), (csrfCookieName, csrfToken)]

/-- The parts of a request that say who sends it. -/
structure Sender where
  /-- The request came over the local socket. -/
  trustedLocal : Bool := false
  bearer : Option String := none
  /-- The session cookie. -/
  cookie : Option String := none
  validCSRF : Bool := true

/-- `RequireAuth` before a POST that an account with a password to change may send. -/
def requireAuth (auth : AuthPrimitives) (sender : Sender) (now : Time)
    (next : Option User → SessionSQL AuthResponse) : SessionSQL AuthResponse := do
  if sender.trustedLocal then next none
  else
    match sender.bearer, sender.cookie with
    | some key, _ =>
      match ← account (authenticateAPIKey (auth.hashToken key) now) with
      | .error _ => return .error 401 "unauthenticated" "invalid or revoked API key"
      | .ok _ => next none
    | none, none => return .error 401 "unauthenticated" "login required"
    | none, some token =>
      match ← account (sessionUser (auth.hashToken token) now) with
      | .error _ => return .error 401 "unauthenticated" "login required"
      | .ok user =>
        if sender.validCSRF then next (some user)
        else return .error 403 "csrf_token_invalid" "missing or invalid CSRF token"

structure ChangePasswordRequest where
  currentPassword : String
  newPassword : String

/-- The last statement of `handleChangePassword`. Its error is dropped. -/
def revokeOthers (auth : AuthPrimitives) (cookie : Option String) (user : User) :
    SessionSQL Unit := do
  match cookie with
  | none => return ()
  | some token =>
    let _ ← deleteOtherSessions user.id (auth.hashToken token)
    return ()

/-- `handleChangePassword`, given the user of the context, the session cookie, how reading the body
goes and how hashing the new password does. -/
def handleChangePassword (auth : AuthPrimitives) (cookie : Option String)
    (body : Option ChangePasswordRequest) (hash : Except GoError String) (user : Option User) :
    SessionSQL AuthResponse := do
  match user, body with
  | none, _ =>
    return .error 403 "forbidden" "password changes require a browser session, not an API key"
  | some _, none => return .error 400 "invalid_request" "invalid JSON body"
  | some user, some req =>
    if auth.verifyPassword user.passwordHash req.currentPassword then
      if req.newPassword = "CHANGE_ME" ∨ req.newPassword.utf8ByteSize < 8 then
        return .error 400 "invalid_request" "new password must be at least 8 characters"
      else
        match hash with
        | .error _ => return .error 500 "internal_error" "failed to hash password"
        | .ok hash =>
          match ← updatePassword user.id hash with
          | .error _ => return .error 500 "internal_error" "failed to update password"
          | .ok () =>
            revokeOthers auth cookie user
            return .ok
    else return .error 401 "invalid_credentials" "current password is incorrect"

/-- `handleLogout`. -/
def handleLogout (auth : AuthPrimitives) (wantsJSON : Bool) (cookie : Option String) (now : Time) :
    SessionSQL AuthResponse := do
  let cleared := [(sessionCookieName, ""), (csrfCookieName, "")]
  let response : AuthResponse := if wantsJSON then .ok cleared else .redirect "/login" cleared
  match cookie with
  | none => return response
  | some token =>
    let _ ← account (sessionUser (auth.hashToken token) now)
    let _ ← deleteSession (auth.hashToken token)
    return response

/-! ### Sessions of a table -/

namespace Database

variable {db db' : Database}

/-- A statement inserts a session, or leaves no session that was not there. -/
theorem perform_sessions {s : Statement} {r : s.Result} (h : db.perform s = .ok (r, db')) :
    (∃ session, s = .insertSession session ∧ db'.sessions = db.sessions ++ [session]) ∨
      db'.sessions ⊆ db.sessions := by
  cases s with
  | insertSession session =>
    simp only [perform] at h
    split at h
    · cases h
    split at h
    · cases h
    cases h
    exact .inl ⟨session, rfl, rfl⟩
  | deleteUser id =>
    cases h
    exact .inr (List.filter_subset_self _)
  | selectAccess _ | selectExisting _ | upsertAssignment _ _ | insertUser _ _ _ _ _ _
  | insertAPIKey _ _ _ _ | addProtectedColumn =>
    simp only [perform] at h
    split at h
    · cases h <;> exact .inr (List.Subset.refl _)
    · cases h <;> exact .inr (List.Subset.refl _)
  | _ =>
    cases h
    exact .inr (List.Subset.refl _)

/-- A session that was not there is the one that the statement inserted. -/
theorem performSession_sessions {s : SessionStatement} {r : s.Result}
    (h : db.performSession s = .ok (r, db')) {row : SessionRow} (hrow : row ∈ db'.sessions) :
    row ∈ db.sessions ∨ s = .account (.insertSession row) := by
  cases s with
  | account s =>
    rcases perform_sessions h with ⟨session, rfl, hsessions⟩ | hsub
    · rw [hsessions, List.mem_append, List.mem_singleton] at hrow
      rcases hrow with hold | rfl
      · exact .inl hold
      · exact .inr rfl
    · exact .inl (hsub hrow)
  | updatePassword userID passwordHash =>
    cases h
    exact .inl hrow
  | deleteSession tokenHash =>
    cases h
    exact .inl (List.mem_of_mem_filter hrow)
  | deleteOtherSessions userID keepTokenHash =>
    cases h
    exact .inl (List.mem_of_mem_filter hrow)

end Database

end Doupro.Accounts
