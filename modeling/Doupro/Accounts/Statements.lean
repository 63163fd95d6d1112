import Doupro.Interaction.Semantics
import Doupro.Store.Records
import Mathlib.Data.List.Sort

/-!
# Tables and statements of the account store

Users, sessions, API keys and the role assignments, with every SQL statement the account
functions and the start-up migrations run. A statement either takes effect or fails and
changes nothing; what happens between two statements is up to the other goroutines.
-/

namespace Doupro.Accounts

open Interaction

/-- `store.Role`. A request can carry any text. -/
inductive Role where
  | admin
  | write
  | read
  | other (text : String)
  deriving DecidableEq

def Role.text : Role → String
  | .admin => "admin"
  | .write => "write"
  | .read => "read"
  | .other text => text

/-- `store.AccessControl`. -/
structure AccessControl where
  role : Role
  viewLogs : Bool := false
  manageSchedules : Bool := false
  manageNotifications : Bool := false
  viewStats : Bool := false
  isProtected : Bool := false
  deriving DecidableEq

/-- `AccessControl.Valid`. -/
def AccessControl.valid (a : AccessControl) : Bool :=
  a.role = .admin ∨ a.role = .write ∨ a.role = .read

inductive PrincipalType where
  | user
  | apiKey
  deriving DecidableEq

def PrincipalType.text : PrincipalType → String
  | .user => "user"
  | .apiKey => "api_key"

abbrev Principal := PrincipalType × Nat

/-- A row of `users`. -/
structure UserRow where
  id : Nat
  username : String
  passwordHash : String
  mustChangePassword : Bool
  authProvider : String := "local"
  oidcSubject : Option String := none
  createdAt : Time
  deriving DecidableEq

/-- A row of `sessions`. -/
structure SessionRow where
  token : String
  userID : Nat
  createdAt : Time
  expiresAt : Time
  deriving DecidableEq

/-- A row of `api_keys`. -/
structure APIKeyRow where
  id : Nat
  name : String
  keyHash : String
  keyPrefix : String
  createdAt : Time
  lastUsedAt : Option Time := none
  deriving DecidableEq

structure Database where
  users : List UserRow := []
  sessions : List SessionRow := []
  apiKeys : List APIKeyRow := []
  /-- `rbac_assignments` by its primary key. -/
  assignments : List (Principal × AccessControl) := []
  /-- The rows of `sqlite_sequence`: an id is never handed out twice. -/
  userSeq : Nat := 0
  apiKeySeq : Nat := 0
  /-- Whether `rbac_assignments` has its `protected` column. -/
  protectedColumn : Bool := false
  deriving DecidableEq

/-- How a `SELECT` finds one user. -/
inductive UserKey where
  | username (username : String)
  | id (id : Nat)
  | subject (subject : String)
  | session (token : String) (now : Time)
  deriving DecidableEq

inductive Statement where
  | countUsers
  /-- The query of `AdminCount`. -/
  | countAdmins
  /-- The query of `accessFor`. -/
  | selectAccess (p : Principal)
  /-- The query of `accessForExisting`. -/
  | selectExisting (p : Principal)
  | upsertAssignment (p : Principal) (access : AccessControl)
  | deleteUserAssignment (id : Nat)
  | insertUser (username passwordHash : String) (mustChangePassword : Bool) (authProvider : String)
    (oidcSubject : Option String) (createdAt : Time)
  | deleteUser (id : Nat)
  | selectUser (key : UserKey)
  | selectUsers
  | insertSession (session : SessionRow)
  | insertAPIKey (name keyHash keyPrefix : String) (createdAt : Time)
  | deleteAPIKey (id : Nat)
  | selectAPIKey (keyHash : String)
  | selectAPIKeys
  | touchAPIKey (id : Nat) (now : Time)
  /-- `INSERT OR IGNORE ... SELECT ..., 'admin'` of migration 0006. -/
  | backfill (type : PrincipalType)
  /-- `ALTER TABLE rbac_assignments ADD COLUMN protected` of migration 0007. -/
  | addProtectedColumn
  /-- The `UPDATE` of migration 0007. -/
  | protectBootstrap

inductive SQLError where
  | uniqueConstraint
  | duplicateColumn
  | other (text : String)
  deriving DecidableEq

def SQLError.asError : SQLError → GoError
  | .uniqueConstraint => .external "UNIQUE constraint failed"
  | .duplicateColumn => .external "duplicate column name: protected"
  | .other text => .external text

@[reducible] def Statement.Result : Statement → Type
  | .countUsers | .countAdmins | .deleteUser _ | .deleteAPIKey _ => Nat
  | .insertUser _ _ _ _ _ _ | .insertAPIKey _ _ _ _ => Nat
  | .selectAccess _ | .selectExisting _ => Option AccessControl
  | .selectUser _ => Option UserRow
  | .selectUsers => List UserRow
  | .selectAPIKey _ => Option APIKeyRow
  | .selectAPIKeys => List APIKeyRow
  | .upsertAssignment _ _ | .deleteUserAssignment _ | .insertSession _ | .touchAPIKey _ _
  | .backfill _ | .addProtectedColumn | .protectBootstrap => Unit

abbrev Statements : Signature := ⟨Statement, fun s => Except SQLError s.Result⟩

/-- A function over SQL statements. -/
abbrev SQL (α : Type) := Program Statements α

namespace Database

/-- The assignment of a principal. -/
def assignment (db : Database) (p : Principal) : Option AccessControl := db.assignments.lookup p

/-- The principals of a type, by id. -/
def principals (db : Database) : PrincipalType → List Principal
  | .user => db.users.map fun u => (.user, u.id)
  | .apiKey => db.apiKeys.map fun k => (.apiKey, k.id)

def findUser (db : Database) : UserKey → Option UserRow
  | .username username => db.users.find? fun u => u.username = username
  | .id id => db.users.find? fun u => u.id = id
  | .subject subject => db.users.find? fun u => u.oidcSubject = some subject
  | .session token now =>
    (db.sessions.find? fun s => s.token = token ∧ !Time.columnLE s.expiresAt now).bind fun s =>
      db.users.find? fun u => u.id = s.userID

/-- What an upsert leaves in a row: `protected` is not in its SET list. -/
def replacedAccess (access old : AccessControl) : AccessControl :=
  { access with isProtected := old.isProtected }

def upsertAssignment (db : Database) (p : Principal) (access : AccessControl) : Database :=
  { db with
    assignments := Table.upsert Prod.fst (p, access) (fun row => (row.1, replacedAccess access row.2))
      db.assignments }

/-- `INSERT OR IGNORE`: a principal that has an assignment keeps it. -/
def backfill (db : Database) (type : PrincipalType) : Database :=
  { db with
    assignments := db.assignments ++ ((db.principals type).filter fun p =>
      (db.assignment p).isNone).map fun p => (p, { role := .admin }) }

/-- The first local user. -/
def bootstrapUser (db : Database) : Option Nat :=
  ((db.users.filter fun u => u.authProvider = "local").map UserRow.id).min?

def protectBootstrap (db : Database) : Database :=
  { db with
    assignments := Table.updateWhere
      (fun row => decide (row.1.1 = .user ∧ some row.1.2 = db.bootstrapUser))
      (fun row => (row.1, { row.2 with role := .admin, isProtected := true })) db.assignments }

/-- A statement that SQLite carries out. The statements that name the `protected` column
need it. -/
def perform (db : Database) : (s : Statement) → Except SQLError (s.Result × Database)
  | .countUsers => .ok (db.users.length, db)
  | .countAdmins =>
    .ok (db.assignments.countP fun row => row.1.1 = .user ∧ row.2.role = .admin, db)
  | .selectAccess p | .selectExisting p =>
    if db.protectedColumn then .ok (db.assignment p, db)
    else .error (.other "no such column: protected")
  | .upsertAssignment p access =>
    if db.protectedColumn then .ok ((), db.upsertAssignment p access)
    else .error (.other "table rbac_assignments has no column named protected")
  | .deleteUserAssignment id =>
    .ok ((), { db with
      assignments := Table.deleteWhere (fun row => decide (row.1 = (.user, id))) db.assignments })
  | .insertUser username passwordHash mustChangePassword authProvider oidcSubject createdAt =>
    if db.users.any fun u => u.username = username ∨ oidcSubject.isSome ∧ u.oidcSubject = oidcSubject
    then .error .uniqueConstraint
    else
      let id := db.userSeq + 1
      let row : UserRow :=
        { id, username, passwordHash, mustChangePassword, authProvider, oidcSubject, createdAt }
      .ok (id, { db with users := db.users ++ [row], userSeq := id })
  | .deleteUser id =>
    let gone := db.users.filter fun u => u.id = id
    .ok (gone.length, { db with
      users := Table.deleteWhere (fun u => decide (u.id = id)) db.users
      sessions := Table.deleteWhere (fun s => decide (s.userID = id)) db.sessions })
  | .selectUser key => .ok (db.findUser key, db)
  | .selectUsers => .ok (db.users.insertionSort fun a b => a.username.toLower ≤ b.username.toLower, db)
  | .insertSession session =>
    if db.sessions.any fun s => s.token = session.token then .error .uniqueConstraint
    else if db.users.all fun u => u.id ≠ session.userID then
      .error (.other "FOREIGN KEY constraint failed")
    else .ok ((), { db with sessions := db.sessions ++ [session] })
  | .insertAPIKey name keyHash keyPrefix createdAt =>
    if db.apiKeys.any fun k => k.keyHash = keyHash then .error .uniqueConstraint
    else
      let id := db.apiKeySeq + 1
      let row : APIKeyRow := { id, name, keyHash, keyPrefix, createdAt }
      .ok (id, { db with apiKeys := db.apiKeys ++ [row], apiKeySeq := id })
  | .deleteAPIKey id =>
    let gone := db.apiKeys.filter fun k => k.id = id
    .ok (gone.length, { db with
      apiKeys := Table.deleteWhere (fun k => decide (k.id = id)) db.apiKeys })
  | .selectAPIKey keyHash => .ok (db.apiKeys.find? fun k => k.keyHash = keyHash, db)
  | .selectAPIKeys =>
    .ok (db.apiKeys.insertionSort fun a b => Time.columnLE b.createdAt a.createdAt = true, db)
  | .touchAPIKey id now =>
    .ok ((), { db with
      apiKeys := Table.updateWhere (fun k => decide (k.id = id))
        (fun k => { k with lastUsedAt := some now }) db.apiKeys })
  | .backfill type => .ok ((), db.backfill type)
  | .addProtectedColumn =>
    if db.protectedColumn then .error .duplicateColumn
    else .ok ((), { db with protectedColumn := true })
  | .protectBootstrap => .ok ((), db.protectBootstrap)

/-- A statement, which a fault of its own may keep from taking effect. -/
def exec (db : Database) (fault : Option String) (s : Statement) :
    Except SQLError s.Result × Database :=
  match fault with
  | some text => (.error (.other text), db)
  | none => match db.perform s with
    | .error err => (.error err, db)
    | .ok (result, db') => (.ok result, db')

end Database

/-- One serialized connection: each statement acts on what the one before it left. -/
def connection : Machine Statements Database where
  rely db db' := db' = db
  step db s r db' := ∃ fault, db.exec fault s = (r, db')

/-- A statement that succeeds was carried out; one that fails changed nothing. -/
theorem connection_step {db db' : Database} {s : Statement} {r : Except SQLError s.Result}
    (h : connection.step db s r db') :
    (∃ err, r = .error err ∧ db' = db) ∨
      ∃ result, r = .ok result ∧ db.perform s = .ok (result, db') := by
  obtain ⟨fault, hexec⟩ := h
  unfold Database.exec at hexec
  cases fault with
  | some text =>
    rw [Prod.mk.injEq] at hexec
    exact .inl ⟨.other text, hexec.1.symm, hexec.2.symm⟩
  | none =>
    cases hperform : db.perform s with
    | error err =>
      simp only [hperform, Prod.mk.injEq] at hexec
      exact .inl ⟨err, hexec.1.symm, hexec.2.symm⟩
    | ok out =>
      obtain ⟨result, after⟩ := out
      simp only [hperform, Prod.mk.injEq] at hexec
      exact .inr ⟨result, hexec.1.symm, by rw [hexec.2]⟩

end Doupro.Accounts
