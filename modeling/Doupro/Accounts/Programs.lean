import Doupro.Accounts.Statements

/-!
# Account functions of the store

Users, API keys and their role assignments, statement by statement. Principals and their
assignments are written by different statements, with no transaction around them.
-/

namespace Doupro.Accounts

open Interaction

/-- `store.User`. -/
structure User where
  id : Nat
  username : String
  passwordHash : String := ""
  mustChangePassword : Bool := false
  authProvider : String := ""
  oidcSubject : String := ""
  createdAt : Option Time := none
  access : AccessControl
  deriving DecidableEq

/-- `store.APIKey`. -/
structure APIKey where
  id : Nat
  name : String
  keyPrefix : String
  createdAt : Option Time := none
  lastUsedAt : Option Time := none
  access : AccessControl
  deriving DecidableEq

/-! ### Assignments -/

def accessLabel (verb : String) (p : Principal) : String :=
  verb ++ " " ++ p.1.text ++ " " ++ toString p.2 ++ " access"

/-- `Store.accessForExisting`. -/
def accessForExisting (p : Principal) : SQL (Except GoError AccessControl) := do
  match ← .request (S := Statements) (.selectExisting p) with
  | .error err => return .error (.wrap (accessLabel "get" p) err.asError)
  | .ok none => return .error .notFound
  | .ok (some access) => return .ok access

def writeAccess (p : Principal) (access : AccessControl) : SQL (Except GoError Unit) := do
  match ← .request (S := Statements) (.upsertAssignment p access) with
  | .error err => return .error (.wrap (accessLabel "set" p) err.asError)
  | .ok () => return .ok ()

/-- `Store.SetAccess`. -/
def setAccess (p : Principal) (access : AccessControl) : SQL (Except GoError Unit) := do
  if access.valid then
    match ← accessForExisting p with
    | .error err => if err.isNotFound then writeAccess p access else return .error err
    | .ok current =>
      if current.isProtected then
        return .error (.new "protected administrator access cannot be changed")
      else writeAccess p access
  else return .error (.new "invalid RBAC assignment")

/-- `Store.accessFor`. A principal without an assignment is taken for one of an older binary. -/
def accessFor (p : Principal) : SQL (Except GoError AccessControl) := do
  match ← .request (S := Statements) (.selectAccess p) with
  | .error err => return .error (.wrap (accessLabel "get" p) err.asError)
  | .ok (some access) => return .ok access
  | .ok none =>
    match ← setAccess p { role := .admin } with
    | .error err => return .error err
    | .ok () => return .ok { role := .admin }

/-- What the access functions read and write of a principal. -/
structure Accesses (P : Statement → Prop) (p : Principal) : Prop where
  select : P (.selectAccess p)
  existing : P (.selectExisting p)
  write : ∀ access, P (.upsertAssignment p access)

section Uses

variable {P : Statement → Prop} {p : Principal}

theorem writeAccess_uses (h : Accesses P p) (access : AccessControl) :
    (writeAccess p access).Uses P := by
  refine Program.uses_request_bind (h.write access) fun r => ?_
  cases r <;> trivial

theorem setAccess_uses (h : Accesses P p) (access : AccessControl) :
    (setAccess p access).Uses P := by
  unfold setAccess
  split
  · refine Program.uses_bind (Program.uses_request_bind h.existing fun r => ?_) fun r => ?_
    · rcases r with _ | _ | _ <;> trivial
    · cases r with
      | error err => exact Program.uses_ite (writeAccess_uses h access) trivial
      | ok current => exact Program.uses_ite trivial (writeAccess_uses h access)
  · trivial

theorem accessFor_uses (h : Accesses P p) : (accessFor p).Uses P := by
  refine Program.uses_request_bind h.select fun r => ?_
  rcases r with err | _ | access
  · trivial
  · refine Program.uses_bind (setAccess_uses h _) fun r => ?_
    cases r <;> trivial
  · trivial

end Uses

/-! ### Users -/

/-- `Store.HasAnyUser`. -/
def hasAnyUser : SQL (Except GoError Bool) := do
  match ← .request (S := Statements) .countUsers with
  | .error err => return .error (.wrap "count users" err.asError)
  | .ok n => return .ok (0 < n)

/-- `Store.CreateUserWithAccess`. The first account is the protected administrator. -/
def createUserWithAccess (username passwordHash : String) (mustChangePassword : Bool)
    (access : AccessControl) (now : Time) : SQL (Except GoError User) := do
  if access.valid then
    match ← .request (S := Statements) .countUsers with
    | .error err => return .error (.wrap "count users before create" err.asError)
    | .ok existingUsers =>
      let access := if existingUsers = 0 then { role := .admin, isProtected := true } else access
      match ← .request (S := Statements)
        (.insertUser username passwordHash mustChangePassword "local" none now) with
      | .error err => return .error (.wrap ("create user " ++ username) err.asError)
      | .ok id =>
        match ← setAccess (.user, id) access with
        | .error err =>
          let _ ← .request (S := Statements) (.deleteUser id)
          return .error err
        | .ok () => return .ok {
            id, username, passwordHash, mustChangePassword, access
            authProvider := "local"
            createdAt := some now }
  else return .error (.new ("create user: invalid role " ++ access.role.text.quote))

/-- `Store.CreateUser`. -/
def createUser (username passwordHash : String) (mustChangePassword : Bool) (now : Time) :
    SQL (Except GoError User) :=
  createUserWithAccess username passwordHash mustChangePassword { role := .admin } now

/-- `api.Bootstrap`, given how hashing the password goes. -/
def bootstrap (adminUser adminPassword : String) (hash : Except GoError String) (now : Time) :
    SQL (Except GoError Unit) := do
  match ← hasAnyUser with
  | .error err => return .error (.wrap "check existing users" err)
  | .ok true => return .ok ()
  | .ok false =>
    let unset := adminUser = "" ∧ adminPassword = ""
    if ¬ unset ∧ (adminUser = "" ∨ adminPassword = "") then
      return .error (.new ("only one of DOUPRO_ADMIN_USER/DOUPRO_ADMIN_PASSWORD is set — set " ++
        "both, or leave both unset to use the admin/admin default (see .env.example)"))
    else if ¬ unset ∧ (adminPassword = "CHANGE_ME" ∨ adminPassword.utf8ByteSize < 8) then
      return .error (.new ("DOUPRO_ADMIN_PASSWORD is still the .env.example placeholder or too " ++
        "short (8+ chars) — set a real password"))
    else
      match hash with
      | .error err => return .error err
      | .ok hash =>
        match ← createUser (if unset then "admin" else adminUser) hash unset now with
        | .error err => return .error err
        | .ok _ => return .ok ()

/-- A row with its resolved access. -/
def withAccess (row : UserRow) (created : Bool) : SQL (Except GoError User) := do
  match ← accessFor (.user, row.id) with
  | .error err => return .error err
  | .ok access => return .ok {
      id := row.id
      username := row.username
      passwordHash := row.passwordHash
      mustChangePassword := row.mustChangePassword
      authProvider := row.authProvider
      oidcSubject := row.oidcSubject.getD ""
      createdAt := if created then some row.createdAt else none
      access }

/-- The lookups by one key differ in the key and the label of their errors. -/
def lookupUser (key : UserKey) (label : String) (created : Bool) : SQL (Except GoError User) := do
  match ← .request (S := Statements) (.selectUser key) with
  | .error err => return .error (.wrap label err.asError)
  | .ok none => return .error .notFound
  | .ok (some row) => withAccess row created

/-- `Store.GetUserByUsername`. -/
def getUserByUsername (username : String) : SQL (Except GoError User) :=
  lookupUser (.username username) ("get user " ++ username) false

/-- `Store.GetUserByID`. -/
def getUserByID (id : Nat) : SQL (Except GoError User) :=
  lookupUser (.id id) ("get user " ++ toString id) true

/-- `Store.SessionUser`. -/
def sessionUser (tokenHash : String) (now : Time) : SQL (Except GoError User) :=
  lookupUser (.session tokenHash now) "resolve session" false

/-- The loop of `ListUsers`. -/
def resolveUsers : List UserRow → SQL (Except GoError (List User))
  | [] => return .ok []
  | row :: rest => do
    match ← withAccess row true with
    | .error err => return .error err
    | .ok user =>
      match ← resolveUsers rest with
      | .error err => return .error err
      | .ok users => return .ok (user :: users)

/-- `Store.ListUsers`. -/
def listUsers : SQL (Except GoError (List User)) := do
  match ← .request (S := Statements) .selectUsers with
  | .error err => return .error (.wrap "list users" err.asError)
  | .ok rows => resolveUsers rows

/-- `Store.DeleteUser`. -/
def deleteUser (id : Nat) : SQL (Except GoError Unit) := do
  match ← accessFor (.user, id) with
  | .error err => return .error err
  | .ok access =>
    if access.isProtected then return .error (.new "protected administrator cannot be deleted")
    else
      match ← .request (S := Statements) (.deleteUser id) with
      | .error err => return .error (.wrap ("delete user " ++ toString id) err.asError)
      | .ok n =>
        if n = 0 then return .error .notFound
        else
          let _ ← .request (S := Statements) (.deleteUserAssignment id)
          return .ok ()

/-- `Store.AdminCount`. -/
def adminCount : SQL (Except GoError Nat) := do
  match ← .request (S := Statements) .countAdmins with
  | .error err => return .error (.wrap "count administrators" err.asError)
  | .ok n => return .ok n

/-- The `INSERT` of `GetOrCreateOIDCUser`. -/
def insertOIDCUser (username subject : String) (now : Time) : SQL (Except SQLError Nat) :=
  .request (S := Statements) (.insertUser username "" false "oidc" (some subject) now)

/-- The assignment of a provisioned identity. -/
def provisionOIDCUser (username subject : String) :
    Except SQLError Nat → SQL (Except GoError User)
  | .error err => return .error (.wrap ("create oidc user " ++ username) err.asError)
  | .ok id => do
    match ← setAccess (.user, id) { role := .read } with
    | .error err => return .error err
    | .ok () => return .ok {
        id, username
        authProvider := "oidc"
        oidcSubject := subject
        access := { role := .read } }

/-- `Store.GetOrCreateOIDCUser`. -/
def getOrCreateOIDCUser (subject username : String) (now : Time) : SQL (Except GoError User) := do
  match ← .request (S := Statements) (.selectUser (.subject subject)) with
  | .error err => return .error (.wrap ("lookup oidc user " ++ subject) err.asError)
  | .ok (some row) => withAccess row false
  | .ok none =>
    match ← insertOIDCUser username subject now with
    | .error .uniqueConstraint =>
      let username := username ++ "-" ++ String.ofList (subject.toList.take 8)
      let inserted ← insertOIDCUser username subject now
      provisionOIDCUser username subject inserted
    | inserted => provisionOIDCUser username subject inserted

/-- `Store.CreateSession`. -/
def createSession (tokenHash : String) (userID : Nat) (ttl : Duration) (now : Time) :
    SQL (Except GoError Unit) := do
  match ← .request (S := Statements) (.insertSession ⟨tokenHash, userID, now, now + ttl⟩) with
  | .error err => return .error (.wrap "create session" err.asError)
  | .ok () => return .ok ()

/-! ### API keys -/

/-- `Store.CreateAPIKeyWithAccess`. -/
def createAPIKeyWithAccess (name keyHash keyPrefix : String) (access : AccessControl) (now : Time) :
    SQL (Except GoError Nat) := do
  if access.valid then
    match ← .request (S := Statements) (.insertAPIKey name keyHash keyPrefix now) with
    | .error err => return .error (.wrap "create api key" err.asError)
    | .ok id =>
      match ← setAccess (.apiKey, id) access with
      | .error err =>
        let _ ← .request (S := Statements) (.deleteAPIKey id)
        return .error err
      | .ok () => return .ok id
  else return .error (.new ("create api key: invalid role " ++ access.role.text.quote))

/-- `Store.CreateAPIKey`. -/
def createAPIKey (name keyHash keyPrefix : String) (now : Time) : SQL (Except GoError Nat) :=
  createAPIKeyWithAccess name keyHash keyPrefix { role := .admin } now

/-- `Store.AuthenticateAPIKey`. -/
def authenticateAPIKey (keyHash : String) (now : Time) : SQL (Except GoError APIKey) := do
  match ← .request (S := Statements) (.selectAPIKey keyHash) with
  | .error err => return .error (.wrap "lookup api key" err.asError)
  | .ok none => return .error .notFound
  | .ok (some row) =>
    match ← accessFor (.apiKey, row.id) with
    | .error err => return .error err
    | .ok access =>
      let _ ← .request (S := Statements) (.touchAPIKey row.id now)
      return .ok { id := row.id, name := row.name, keyPrefix := row.keyPrefix, access }

/-- The loop of `ListAPIKeys`. -/
def resolveAPIKeys : List APIKeyRow → SQL (Except GoError (List APIKey))
  | [] => return .ok []
  | row :: rest => do
    match ← accessFor (.apiKey, row.id) with
    | .error err => return .error err
    | .ok access =>
      match ← resolveAPIKeys rest with
      | .error err => return .error err
      | .ok keys => return .ok ({
          id := row.id
          name := row.name
          keyPrefix := row.keyPrefix
          createdAt := some row.createdAt
          lastUsedAt := row.lastUsedAt
          access } :: keys)

/-- `Store.ListAPIKeys`. -/
def listAPIKeys : SQL (Except GoError (List APIKey)) := do
  match ← .request (S := Statements) .selectAPIKeys with
  | .error err => return .error (.wrap "list api keys" err.asError)
  | .ok rows => resolveAPIKeys rows

/-- `Store.RevokeAPIKey`. The assignment of the key stays behind. -/
def revokeAPIKey (id : Nat) : SQL (Except GoError Unit) := do
  match ← .request (S := Statements) (.deleteAPIKey id) with
  | .error err => return .error (.wrap ("revoke api key " ++ toString id) err.asError)
  | .ok n => if n = 0 then return .error .notFound else return .ok ()

/-! ### Start-up -/

/-- The statements of a migration, up to the first that fails. -/
def runScript : List { s : Statement // s.Result = Unit } → SQL (Except SQLError Unit)
  | [] => return .ok ()
  | s :: rest => do
    match ← .request (S := Statements) s.1 with
    | .error err => return .error err
    | .ok _ => runScript rest

/-- Migrations 0006 and 0007, the ones that write assignments. -/
def migrations : List (String × List { s : Statement // s.Result = Unit }) :=
  [("0006_rbac.sql", [⟨.backfill .user, rfl⟩, ⟨.backfill .apiKey, rfl⟩]),
    ("0007_protected_admin.sql", [⟨.addProtectedColumn, rfl⟩, ⟨.protectBootstrap, rfl⟩])]

/-- The loop of `Store.migrate`. Every file is replayed on every start-up. -/
def applyMigrations :
    List (String × List { s : Statement // s.Result = Unit }) → SQL (Except GoError Unit)
  | [] => return .ok ()
  | (name, script) :: rest => do
    match ← runScript script with
    | .error .duplicateColumn => applyMigrations rest
    | .error err => return .error (.wrap ("apply migration " ++ name) err.asError)
    | .ok () => applyMigrations rest

/-- `Store.migrate`. -/
def migrate : SQL (Except GoError Unit) := applyMigrations migrations

end Doupro.Accounts
