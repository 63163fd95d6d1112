import Doupro.Accounts.ProtectedAdmin

/-!
# Identities of the OpenID provider

Logins of an identity and creations of local users, one after the other. A login finds the row of
its subject, or inserts one under the name the provider gives, or else under that name with the
first characters of the subject behind it. There is no third name.
-/

namespace Doupro.Accounts

open Interaction

/-! ### Functions on a database of their own -/

/-- A store function run by itself, with no fault in any of its statements. -/
def onDatabase {α : Type} : SQL α → Database → α × Database
  | .ret a, db => (a, db)
  | .call s next, db => onDatabase (next (db.exec none s).1) (db.exec none s).2

section OnDatabase

variable {α β : Type} {db : Database}

@[simp] theorem onDatabase_pure (a : α) : onDatabase (pure a) db = (a, db) := rfl

theorem onDatabase_request_bind {s : Statement} {f : Except SQLError s.Result → SQL α} :
    onDatabase (.request (S := Statements) s >>= f) db =
      onDatabase (f (db.exec none s).1) (db.exec none s).2 := rfl

theorem onDatabase_bind {p : SQL α} {f : α → SQL β} :
    onDatabase (p >>= f) db = onDatabase (f (onDatabase p db).1) (onDatabase p db).2 := by
  change onDatabase (p.bind f) db = _
  induction p generalizing db with
  | ret a => rfl
  | call s next ih => exact ih _

/-- It is one of the runs on the connection. -/
theorem onDatabase_runs (p : SQL α) (db : Database) :
    ∃ trace, connection.Runs p db trace (onDatabase p db).1 (onDatabase p db).2 := by
  induction p generalizing db with
  | ret a => exact ⟨[], rfl, rfl, rfl⟩
  | call s next ih =>
    obtain ⟨trace, hrest⟩ := ih (db.exec none s).1 (db.exec none s).2
    exact ⟨_, db, _, _, trace, rfl, ⟨none, rfl⟩, rfl, hrest⟩

end OnDatabase

/-! ### Rows and their users -/

/-- What the lookup of a login returns of a row. -/
def UserRow.user (row : UserRow) (access : AccessControl) : User where
  id := row.id
  username := row.username
  passwordHash := row.passwordHash
  mustChangePassword := row.mustChangePassword
  authProvider := row.authProvider
  oidcSubject := row.oidcSubject.getD ""
  access := access

/-- The second name a login tries. -/
def disambiguated (subject username : String) : String :=
  username ++ "-" ++ String.ofList (subject.toList.take 8)

/-- The row of a new identity. -/
def oidcRow (id : Nat) (username subject : String) (now : Time) : UserRow where
  id := id
  username := username
  passwordHash := ""
  mustChangePassword := false
  authProvider := "oidc"
  oidcSubject := some subject
  createdAt := now

namespace Database

def Taken (db : Database) (username : String) : Prop := ∃ row ∈ db.users, row.username = username

def Known (db : Database) (subject : String) : Prop :=
  ∃ row ∈ db.users, row.oidcSubject = some subject

/-- A login can find a row or a name. -/
def Nameable (db : Database) (subject username : String) : Prop :=
  db.Known subject ∨ ¬ db.Taken username ∨ ¬ db.Taken (disambiguated subject username)

def insertRow (db : Database) (row : UserRow) : Database :=
  { db with users := db.users ++ [row], userSeq := row.id }

/-- A new row, then its assignment. -/
def provision (db : Database) (row : UserRow) (access : AccessControl) : Database :=
  (db.insertRow row).upsertAssignment (.user, row.id) access

/-- What the constraints of the tables promise. An assignment may be left of an id that was never
handed out, but not a protected one. -/
structure Tables (db : Database) : Prop where
  ids : (db.users.map UserRow.id).Nodup
  usernames : (db.users.map UserRow.username).Nodup
  subjects : ∀ row ∈ db.users, ∀ other ∈ db.users, row.oidcSubject.isSome →
    row.oidcSubject = other.oidcSubject → row = other
  issued : ∀ row ∈ db.users, row.id ≤ db.userSeq
  ahead : ∀ row ∈ db.assignments, row.1.1 = .user → row.2.isProtected = true → row.1.2 ≤ db.userSeq

/-- What a start-up adds: every user has an assignment. -/
structure Sound (db : Database) : Prop extends db.Tables where
  column : db.protectedColumn = true
  assigned : ∀ row ∈ db.users, (db.assignment (.user, row.id)).isSome

end Database

/-! ### Start-up -/

theorem assignment_isSome {db : Database} {p : Principal} :
    (db.assignment p).isSome ↔ ∃ row ∈ db.assignments, row.1 = p := by
  rw [assignment_eq_lookup, Option.isSome_map, Option.isSome_iff_ne_none, ne_eq, Table.lookup_eq_none]
  push Not
  rfl

/-- The migrations give every user an assignment. -/
theorem backfill_assigned {db : Database} {row : UserRow} (hrow : row ∈ db.users) :
    ((db.backfill .user).assignment (.user, row.id)).isSome := by
  rw [assignment_isSome]
  cases hassigned : db.assignment (.user, row.id) with
  | some access => exact ⟨_, List.mem_append_left _ (lookup_mem_assignments hassigned), rfl⟩
  | none =>
    refine ⟨((.user, row.id), { role := .admin }), List.mem_append_right _ ?_, rfl⟩
    exact List.mem_map.mpr ⟨(.user, row.id), List.mem_filter.mpr
      ⟨List.mem_map_of_mem hrow, by simp [hassigned]⟩, rfl⟩

theorem backfill_assigned_of {db : Database} (type : PrincipalType) {p : Principal}
    (h : (db.assignment p).isSome) : ((db.backfill type).assignment p).isSome := by
  obtain ⟨row, hrow, hkey⟩ := assignment_isSome.mp h
  exact assignment_isSome.mpr ⟨row, List.mem_append_left _ hrow, hkey⟩

theorem Database.Tables.backfill {db : Database} (h : db.Tables) (type : PrincipalType) :
    (db.backfill type).Tables where
  ids := h.ids
  usernames := h.usernames
  subjects := h.subjects
  issued := h.issued
  ahead := by
    intro row hrow huser hprotected
    rcases mem_backfill hrow with hold | ⟨hprincipal, -⟩
    · exact h.ahead row hold huser hprotected
    · cases type with
      | user =>
        obtain ⟨user, hmem, hkey⟩ := List.mem_map.mp hprincipal
        rw [← hkey]
        exact h.issued user hmem
      | apiKey =>
        obtain ⟨key, -, hkey⟩ := List.mem_map.mp hprincipal
        rw [← hkey] at huser
        cases huser

theorem bootstrapUser_mem {db : Database} {id : Nat} (h : some id = db.bootstrapUser) :
    ∃ user ∈ db.users, user.id = id := by
  have hmem := List.min?_mem h.symm
  obtain ⟨user, huser, rfl⟩ := List.mem_map.mp hmem
  exact ⟨user, (List.mem_filter.mp huser).1, rfl⟩

theorem Database.Tables.protectBootstrap {db : Database} (h : db.Tables) : db.protectBootstrap.Tables where
  ids := h.ids
  usernames := h.usernames
  subjects := h.subjects
  issued := h.issued
  ahead := by
    intro row hrow huser hprotected
    obtain ⟨old, hold, rfl⟩ := (Table.mem_updateWhere).mp hrow
    by_cases hboot : old.1.1 = .user ∧ some old.1.2 = db.bootstrapUser
    · obtain ⟨user, hmem, hsame⟩ := bootstrapUser_mem hboot.2
      rw [if_pos (decide_eq_true hboot)]
      exact hsame ▸ h.issued user hmem
    · rw [if_neg (by simpa using hboot)] at huser hprotected ⊢
      exact h.ahead old hold huser hprotected

theorem protectBootstrap_assigned {db : Database} {p : Principal} (h : (db.assignment p).isSome) :
    (db.protectBootstrap.assignment p).isSome := by
  obtain ⟨row, hrow, hkey⟩ := assignment_isSome.mp h
  refine assignment_isSome.mpr ⟨_, Table.mem_updateWhere.mpr ⟨row, hrow, rfl⟩, ?_⟩
  split <;> exact hkey

/-- A start-up leaves every user with an assignment, whatever version it started from. -/
theorem migrate_sound {db : Database} (h : db.Tables) : (onDatabase migrate db).2.Sound := by
  have htables := (h.backfill .user).backfill .apiKey
  have hassigned : ∀ row ∈ db.users,
      (((db.backfill .user).backfill .apiKey).assignment (.user, row.id)).isSome :=
    fun row hrow => backfill_assigned_of .apiKey (backfill_assigned hrow)
  cases hcolumn : db.protectedColumn with
  | true =>
    have hafter : (onDatabase migrate db).2 = (db.backfill .user).backfill .apiKey := by
      obtain ⟨_, _, _, _, _, _, _⟩ := db
      obtain rfl : _ = true := hcolumn
      rfl
    rw [hafter]
    exact ⟨htables, hcolumn, hassigned⟩
  | false =>
    let added : Database := { (db.backfill .user).backfill .apiKey with protectedColumn := true }
    have hafter : (onDatabase migrate db).2 = added.protectBootstrap := by
      obtain ⟨_, _, _, _, _, _, _⟩ := db
      obtain rfl : _ = false := hcolumn
      rfl
    have hadded : added.Tables := ⟨htables.ids, htables.usernames, htables.subjects, htables.issued, htables.ahead⟩
    rw [hafter]
    exact ⟨hadded.protectBootstrap, rfl, fun row hrow => protectBootstrap_assigned (hassigned row hrow)⟩

/-- The database of a first start-up. -/
def started : Database := (onDatabase migrate {}).2

theorem started_sound : started.Sound :=
  migrate_sound ⟨by decide, by decide, by decide, by decide, by decide⟩

section Statements

variable {db : Database} {row : UserRow} {access : AccessControl}

@[simp] theorem provision_users : (db.provision row access).users = db.users ++ [row] := rfl

@[simp] theorem provision_userSeq : (db.provision row access).userSeq = row.id := rfl

theorem assignment_provision_ne {p : Principal} (h : p ≠ (.user, row.id)) :
    (db.provision row access).assignment p = db.assignment p := by
  rw [Database.provision, assignment_upsert_ne (Ne.symm h)]
  rfl

/-- The assignment of a new row is what was asked for, up to protection. -/
theorem assignment_provision (db : Database) (row : UserRow) (access : AccessControl) :
    (db.provision row access).assignment (.user, row.id) =
      some ((db.assignment (.user, row.id)).elim access (Database.replacedAccess access)) := by
  rw [Database.provision, assignment_upsert, if_pos rfl]
  rfl

namespace Database.Sound

variable (h : db.Sound)
include h

theorem unassigned (hid : row.id = db.userSeq + 1) {current : AccessControl}
    (hcurrent : db.assignment (.user, row.id) = some current) : current.isProtected = false := by
  by_contra hprotected
  have := h.ahead _ (lookup_mem_assignments hcurrent) rfl (by simpa using hprotected)
  simp only [hid] at this
  omega

/-- A row with the next id and a name and subject of its own. -/
theorem provision (hid : row.id = db.userSeq + 1) (hname : ¬ db.Taken row.username)
    (hsubject : ∀ subject, row.oidcSubject = some subject → ¬ db.Known subject)
    (access : AccessControl) : (db.provision row access).Sound where
  column := h.column
  ids := by
    rw [provision_users, List.map_append, List.nodup_append]
    refine ⟨h.ids, List.nodup_singleton _, ?_⟩
    rintro id hold _ hnew rfl
    obtain ⟨other, hother, rfl⟩ := List.mem_map.mp hold
    have := h.issued other hother
    have hsame := List.mem_singleton.mp hnew
    omega
  usernames := by
    rw [provision_users, List.map_append, List.nodup_append]
    refine ⟨h.usernames, List.nodup_singleton _, ?_⟩
    rintro username hold _ hnew rfl
    obtain ⟨other, hother, heq⟩ := List.mem_map.mp hold
    exact hname ⟨other, hother, heq.trans (List.mem_singleton.mp hnew)⟩
  subjects := by
    intro first hfirst second hsecond hsome heq
    obtain ⟨subject, hsubj⟩ := Option.isSome_iff_exists.mp hsome
    rcases List.mem_append.mp hfirst with hf | hf <;> rcases List.mem_append.mp hsecond with hs | hs
    · exact h.subjects first hf second hs hsome heq
    · obtain rfl := List.mem_singleton.mp hs
      exact absurd ⟨first, hf, hsubj⟩ (hsubject subject (heq.symm.trans hsubj))
    · obtain rfl := List.mem_singleton.mp hf
      exact absurd ⟨second, hs, heq.symm.trans hsubj⟩ (hsubject subject hsubj)
    · rw [List.mem_singleton.mp hf, List.mem_singleton.mp hs]
  issued := by
    intro other hother
    rcases List.mem_append.mp hother with hother | hother
    · have := h.issued other hother
      rw [provision_userSeq]
      omega
    · rw [List.mem_singleton.mp hother, provision_userSeq]
  assigned := by
    intro other hother
    by_cases hsame : other.id = row.id
    · rw [hsame, assignment_provision]
      rfl
    · rcases List.mem_append.mp hother with hother | hother
      · rw [assignment_provision_ne (by simpa using hsame)]
        exact h.assigned other hother
      · exact absurd (congrArg UserRow.id (List.mem_singleton.mp hother)) hsame
  ahead := by
    intro assigned hassigned huser hprotected
    rw [provision_userSeq]
    rcases Table.mem_upsert Prod.fst hassigned with rfl | ⟨old, hold, hkey, rfl⟩ | ⟨hold, -⟩
    · exact le_rfl
    · exact le_of_eq (congrArg Prod.snd hkey)
    · have := h.ahead assigned hold huser hprotected
      omega

/-- A new row leaves the assignments of the others. -/
theorem others (hid : row.id = db.userSeq + 1) (access : AccessControl) {other : UserRow}
    (hother : other ∈ db.users) :
    (db.provision row access).assignment (.user, other.id) = db.assignment (.user, other.id) := by
  have := h.issued other hother
  exact assignment_provision_ne (by simp; omega)

/-- What an unprotected assignment of a new row reads. -/
theorem provisioned (hid : row.id = db.userSeq + 1) (haccess : access.isProtected = false) :
    (db.provision row access).assignment (.user, row.id) = some access := by
  rw [assignment_provision]
  cases hcurrent : db.assignment (.user, row.id) with
  | none => rfl
  | some current =>
    have hfree := h.unassigned hid hcurrent
    simp only [Option.elim_some, Database.replacedAccess, hfree, ← haccess]

theorem mem_unique {other : UserRow} (hrow : row ∈ db.users) (hother : other ∈ db.users) :
    (row.id = other.id → row = other) ∧ (row.username = other.username → row = other) :=
  ⟨List.inj_on_of_nodup_map h.ids hrow hother, List.inj_on_of_nodup_map h.usernames hrow hother⟩

end Database.Sound

end Statements

/-! ### One call -/

section Calls

variable {db : Database} {row : UserRow} {access : AccessControl}

theorem onDatabase_accessFor (hcolumn : db.protectedColumn = true) {p : Principal}
    (haccess : db.assignment p = some access) :
    onDatabase (accessFor p) db = (.ok access, db) := by
  rw [accessFor, onDatabase_request_bind]
  simp [Database.exec, Database.perform, hcolumn, haccess]

theorem onDatabase_withAccess (hcolumn : db.protectedColumn = true)
    (haccess : db.assignment (.user, row.id) = some access) :
    onDatabase (withAccess row false) db = (.ok (row.user access), db) := by
  rw [withAccess, onDatabase_bind, onDatabase_accessFor hcolumn haccess]
  rfl

/-- An assignment that is written where no protected one stands. -/
theorem onDatabase_setAccess (hcolumn : db.protectedColumn = true) {p : Principal}
    (hvalid : access.valid = true)
    (hfree : ∀ current, db.assignment p = some current → current.isProtected = false) :
    onDatabase (setAccess p access) db = (.ok (), db.upsertAssignment p access) := by
  have hwrite : onDatabase (writeAccess p access) db = (.ok (), db.upsertAssignment p access) := by
    rw [writeAccess, onDatabase_request_bind]
    simp [Database.exec, Database.perform, hcolumn]
  rw [setAccess, if_pos hvalid, onDatabase_bind, accessForExisting, onDatabase_request_bind]
  cases hcurrent : db.assignment p with
  | none => simpa [Database.exec, Database.perform, hcolumn, hcurrent, GoError.isNotFound] using hwrite
  | some current =>
    simpa [Database.exec, Database.perform, hcolumn, hcurrent, hfree current hcurrent] using hwrite

theorem exec_insertUser_refused {username hash provider : String} {change : Bool}
    {subject : Option String} {now : Time} (h : db.Taken username) :
    db.exec none (.insertUser username hash change provider subject now) =
      (.error .uniqueConstraint, db) := by
  obtain ⟨other, hother, hname⟩ := h
  have hany : (db.users.any fun u =>
      u.username = username ∨ subject.isSome ∧ u.oidcSubject = subject) = true :=
    List.any_eq_true.mpr ⟨other, hother, by simp [hname]⟩
  simp only [Database.exec, Database.perform, if_pos hany]

theorem exec_insertUser {username hash provider : String} {change : Bool} {subject : Option String}
    {now : Time} (hname : ¬ db.Taken username) (hsubject : ∀ s, subject = some s → ¬ db.Known s) :
    db.exec none (.insertUser username hash change provider subject now) =
      (.ok (db.userSeq + 1),
        db.insertRow ⟨db.userSeq + 1, username, hash, change, provider, subject, now⟩) := by
  have hany : ¬ (db.users.any fun u =>
      u.username = username ∨ subject.isSome ∧ u.oidcSubject = subject) = true := by
    rw [List.any_eq_true]
    rintro ⟨other, hother, hclash⟩
    rcases of_decide_eq_true hclash with hclash | ⟨hsome, hclash⟩
    · exact hname ⟨other, hother, hclash⟩
    · obtain ⟨s, rfl⟩ := Option.isSome_iff_exists.mp hsome
      exact hsubject s rfl ⟨other, hother, hclash⟩
  simp only [Database.exec, Database.perform, if_neg hany, Database.insertRow]

namespace Database.Sound

variable (h : db.Sound)
include h

/-- A subject with a row gets it. -/
theorem login_known {subject : String} (hrow : row ∈ db.users) (hsubject : row.oidcSubject = some subject)
    (username : String) (now : Time) :
    ∃ access, db.assignment (.user, row.id) = some access ∧
      onDatabase (getOrCreateOIDCUser subject username now) db = (.ok (row.user access), db) := by
  have hfind : db.findUser (.subject subject) = some row := by
    cases hfind : db.findUser (.subject subject) with
    | none =>
      have := List.find?_eq_none.mp hfind row hrow
      simp [hsubject] at this
    | some other =>
      have hother := List.find?_some hfind
      have hmem := List.mem_of_find?_eq_some hfind
      rw [h.subjects row hrow other hmem (by simp [hsubject])
        (hsubject.trans (of_decide_eq_true hother).symm)]
  obtain ⟨access, haccess⟩ := Option.isSome_iff_exists.mp (h.assigned row hrow)
  refine ⟨access, haccess, ?_⟩
  rw [getOrCreateOIDCUser, onDatabase_request_bind]
  simp only [Database.exec, Database.perform, hfind]
  exact onDatabase_withAccess h.column haccess

theorem assigns (hid : row.id = db.userSeq + 1) (hvalid : access.valid = true) :
    onDatabase (setAccess (.user, row.id) access) (db.insertRow row) =
      (.ok (), db.provision row access) := by
  have hcolumn : (db.insertRow row).protectedColumn = true := h.column
  exact onDatabase_setAccess hcolumn hvalid fun _ hcurrent => h.unassigned hid hcurrent

/-- A free name for a new subject: the row and then its assignment. -/
theorem provisions {name subject : String} (hnew : ¬ db.Known subject) (hname : ¬ db.Taken name)
    (now : Time) :
    onDatabase (insertOIDCUser name subject now >>= provisionOIDCUser name subject) db =
      (.ok ((oidcRow (db.userSeq + 1) name subject now).user { role := .read }),
        db.provision (oidcRow (db.userSeq + 1) name subject now) { role := .read }) := by
  have hsubject : ∀ s, some subject = some s → ¬ db.Known s := fun s hs => Option.some.inj hs ▸ hnew
  let row := oidcRow (db.userSeq + 1) name subject now
  rw [insertOIDCUser, onDatabase_request_bind, exec_insertUser hname hsubject]
  change onDatabase (setAccess (.user, row.id) { role := .read } >>= _) (db.insertRow row) = _
  rw [onDatabase_bind, h.assigns rfl rfl]
  rfl

/-- A new subject gets a row under the first of its two names that is free. -/
theorem login_new {subject : String} (hnew : ¬ db.Known subject) (username : String) (now : Time) :
    (∃ name, (name = username ∨ name = disambiguated subject username) ∧ ¬ db.Taken name ∧
      onDatabase (getOrCreateOIDCUser subject username now) db =
        (.ok ((oidcRow (db.userSeq + 1) name subject now).user { role := .read }),
          db.provision (oidcRow (db.userSeq + 1) name subject now) { role := .read })) ∨
    (db.Taken username ∧ db.Taken (disambiguated subject username) ∧ ∃ err,
      onDatabase (getOrCreateOIDCUser subject username now) db = (.error err, db)) := by
  have hfind : db.findUser (.subject subject) = none :=
    List.find?_eq_none.mpr fun row hrow hsubject => hnew ⟨row, hrow, of_decide_eq_true hsubject⟩
  have hfound : db.exec none (.selectUser (.subject subject)) = (.ok none, db) := by
    simp only [Database.exec, Database.perform, hfind]
  rw [getOrCreateOIDCUser, onDatabase_request_bind, hfound]
  by_cases hname : db.Taken username
  · have hrefused : onDatabase (insertOIDCUser username subject now) db = (.error .uniqueConstraint, db) :=
      exec_insertUser_refused hname
    by_cases hsecond : db.Taken (disambiguated subject username)
    · have hagain : onDatabase (insertOIDCUser (disambiguated subject username) subject now) db =
          (.error .uniqueConstraint, db) := exec_insertUser_refused hsecond
      refine .inr ⟨hname, hsecond, .wrap ("create oidc user " ++ disambiguated subject username)
        SQLError.uniqueConstraint.asError, ?_⟩
      simp only [onDatabase_bind, hrefused]
      rw [← disambiguated, hagain]
      rfl
    · refine .inl ⟨disambiguated subject username, .inr rfl, hsecond, ?_⟩
      simp only [onDatabase_bind, hrefused]
      rw [← disambiguated, ← onDatabase_bind]
      exact h.provisions hnew hsecond now
  · refine .inl ⟨username, .inl rfl, hname, ?_⟩
    have hprovisioned := h.provisions hnew hname now
    have haccepted : ∃ inserted, onDatabase (insertOIDCUser username subject now) db =
        (.ok (db.userSeq + 1), inserted) := ⟨_, exec_insertUser hname fun s hs => Option.some.inj hs ▸ hnew⟩
    obtain ⟨inserted, haccepted⟩ := haccepted
    simp only [onDatabase_bind, haccepted] at hprovisioned ⊢
    exact hprovisioned

/-- Creating a local user fails and does nothing, or adds a row without a subject. -/
theorem creation (username hash : String) (change : Bool) (access : AccessControl) (now : Time) :
    (∃ err, onDatabase (createUserWithAccess username hash change access now) db = (.error err, db)) ∨
    ∃ row granted user, row.id = db.userSeq + 1 ∧ row.oidcSubject = none ∧ ¬ db.Taken row.username ∧
      onDatabase (createUserWithAccess username hash change access now) db =
        (.ok user, db.provision row granted) := by
  by_cases hvalid : access.valid = true
  · let granted := if db.users.length = 0 then { role := .admin, isProtected := true } else access
    have hgranted : granted.valid = true := by
      unfold granted
      split
      · rfl
      · exact hvalid
    let insert : Statement := .insertUser username hash change "local" none now
    have hcount : db.exec none .countUsers = (.ok db.users.length, db) := rfl
    by_cases hname : db.Taken username
    · refine .inl ⟨.wrap ("create user " ++ username) SQLError.uniqueConstraint.asError, ?_⟩
      rw [createUserWithAccess, if_pos hvalid, onDatabase_request_bind, hcount]
      change onDatabase (.request (S := Statements) insert >>= _) db = _
      rw [onDatabase_request_bind, exec_insertUser_refused hname]
      rfl
    · let row : UserRow := ⟨db.userSeq + 1, username, hash, change, "local", none, now⟩
      refine .inr ⟨row, granted, { (row.user granted) with createdAt := some now }, rfl, rfl, hname, ?_⟩
      rw [createUserWithAccess, if_pos hvalid, onDatabase_request_bind, hcount]
      change onDatabase (.request (S := Statements) insert >>= _) db = _
      rw [onDatabase_request_bind, exec_insertUser hname (by simp)]
      change onDatabase (setAccess (.user, row.id) granted >>= _) (db.insertRow row) = _
      rw [onDatabase_bind, h.assigns rfl hgranted]
      rfl
  · rw [createUserWithAccess, if_neg hvalid]
    exact .inl ⟨_, rfl⟩

end Database.Sound

end Calls

/-! ### Any order of logins and creations -/

/-- A login of an identity that is let in, or the creation of a local user. -/
inductive IdentityCall where
  | login (subject username : String) (now : Time)
  | createUser (username passwordHash : String) (mustChangePassword : Bool) (access : AccessControl)
    (now : Time)

namespace IdentityCall

def subject : IdentityCall → Option String
  | .login subject _ _ => some subject
  | .createUser _ _ _ _ _ => none

def program : IdentityCall → SQL (Except GoError User)
  | .login subject username now => getOrCreateOIDCUser subject username now
  | .createUser username passwordHash mustChangePassword access now =>
    createUserWithAccess username passwordHash mustChangePassword access now

/-- What a call needs of the database it meets. -/
def Nameable (db : Database) : IdentityCall → Prop
  | .login subject username _ => db.Nameable subject username
  | .createUser _ _ _ _ _ => True

end IdentityCall

structure IdentityTurn where
  call : IdentityCall
  before : Database
  outcome : Except GoError User
  after : Database

def IdentityCall.turn (call : IdentityCall) (db : Database) : IdentityTurn where
  call := call
  before := db
  outcome := (onDatabase call.program db).1
  after := (onDatabase call.program db).2

def playIdentities : List IdentityCall → Database → List IdentityTurn
  | [], _ => []
  | call :: rest, db => call.turn db :: playIdentities rest (call.turn db).after

/-- The turn is a login of the subject and returns the user of a row it leaves. -/
def IdentityTurn.Obtains (t : IdentityTurn) (subject : String) (row : UserRow) : Prop :=
  t.call.subject = some subject ∧ row ∈ t.after.users ∧ row.oidcSubject = some subject ∧
    ∃ access, t.after.assignment (.user, row.id) = some access ∧ t.outcome = .ok (row.user access)

/-- No row and no role of one database is changed in another. -/
structure Database.Extends (db db' : Database) : Prop where
  rows : db.users <+: db'.users
  roles : ∀ row ∈ db.users, db'.assignment (.user, row.id) = db.assignment (.user, row.id)

/-- Every login obtains the row of its subject and leaves those of the others. -/
structure StableIdentities (turns : List IdentityTurn) : Prop where
  total : ∀ t ∈ turns, ∀ subject, t.call.subject = some subject → ∃ row, t.Obtains subject row
  same : ∀ t ∈ turns, ∀ t' ∈ turns, ∀ subject row row', t.Obtains subject row →
    t'.Obtains subject row' → row = row'
  distinct : ∀ t ∈ turns, ∀ t' ∈ turns, ∀ subject subject' row row', t.Obtains subject row →
    t'.Obtains subject' row' → subject ≠ subject' → row.id ≠ row'.id ∧ row.username ≠ row'.username
  untouched : ∀ t ∈ turns, t.call.subject.isSome → t.before.Extends t.after

namespace Database.Extends

variable {db db' db'' : Database}

theorem refl (db : Database) : db.Extends db := ⟨List.prefix_refl _, fun _ _ => rfl⟩

theorem trans (h : db.Extends db') (h' : db'.Extends db'') : db.Extends db'' :=
  ⟨h.rows.trans h'.rows, fun row hrow =>
    (h'.roles row (h.rows.subset hrow)).trans (h.roles row hrow)⟩

end Database.Extends

section Runs

variable {db : Database}

theorem Database.Sound.extends_provision (h : db.Sound) {row : UserRow} (hid : row.id = db.userSeq + 1)
    (access : AccessControl) : db.Extends (db.provision row access) :=
  ⟨List.prefix_append _ _, fun _ hother => h.others hid access hother⟩

/-- A call keeps the tables sound and everything in them. -/
theorem call_keeps (h : db.Sound) (call : IdentityCall) :
    (call.turn db).after.Sound ∧ db.Extends (call.turn db).after := by
  cases call with
  | login subject username now =>
    by_cases hknown : db.Known subject
    · obtain ⟨row, hrow, hsubject⟩ := hknown
      obtain ⟨access, -, hout⟩ := h.login_known hrow hsubject username now
      rw [IdentityCall.turn, IdentityCall.program, hout]
      exact ⟨h, .refl db⟩
    · rcases h.login_new hknown username now with
        ⟨name, -, hname, hout⟩ | ⟨-, -, err, hout⟩ <;> rw [IdentityCall.turn, IdentityCall.program, hout]
      · have hsubject : ∀ s, some subject = some s → ¬ db.Known s :=
          fun s hs => Option.some.inj hs ▸ hknown
        exact ⟨h.provision rfl hname hsubject _, h.extends_provision rfl _⟩
      · exact ⟨h, .refl db⟩
  | createUser username hash change access now =>
    rcases h.creation username hash change access now with
      ⟨err, hout⟩ | ⟨row, granted, user, hid, hnone, hname, hout⟩ <;> rw [IdentityCall.turn, IdentityCall.program, hout]
    · exact ⟨h, .refl db⟩
    · exact ⟨h.provision hid hname (by simp [hnone]) _, h.extends_provision hid _⟩

/-- A login obtains the row of its subject exactly if it finds a row or a name. -/
theorem login_obtains_iff (h : db.Sound) (subject username : String) (now : Time) :
    (∃ row, ((IdentityCall.login subject username now).turn db).Obtains subject row) ↔
      db.Nameable subject username := by
  by_cases hknown : db.Known subject
  · refine iff_of_true ?_ (.inl hknown)
    obtain ⟨row, hrow, hsubject⟩ := hknown
    obtain ⟨access, haccess, hout⟩ := h.login_known hrow hsubject username now
    rw [IdentityCall.turn, IdentityCall.program, hout]
    exact ⟨row, rfl, hrow, hsubject, access, haccess, rfl⟩
  · rcases h.login_new hknown username now with
      ⟨name, hwhich, hname, hout⟩ | ⟨hfirst, hsecond, err, hout⟩ <;>
      rw [IdentityCall.turn, IdentityCall.program, hout]
    · refine iff_of_true ⟨oidcRow (db.userSeq + 1) name subject now, rfl,
        List.mem_append_right _ List.mem_cons_self, rfl, { role := .read }, h.provisioned rfl rfl, rfl⟩ ?_
      rcases hwhich with rfl | rfl
      · exact .inr (.inl hname)
      · exact .inr (.inr hname)
    · refine iff_of_false ?_ ?_
      · rintro ⟨row, -, -, -, access, -, hok⟩
        cases hok
      · rintro (hbad | hbad | hbad)
        · exact hknown hbad
        · exact hbad hfirst
        · exact hbad hsecond

/-- The turns of a run, and the database it ends with. -/
theorem turns_extend (h : db.Sound) (calls : List IdentityCall) :
    ∃ last, last.Sound ∧ db.Extends last ∧ ∀ t ∈ playIdentities calls db,
      t.before.Sound ∧ t.after.Extends last ∧ t = t.call.turn t.before := by
  induction calls generalizing db with
  | nil => exact ⟨db, h, .refl db, by simp [playIdentities]⟩
  | cons call rest ih =>
    obtain ⟨hafter, hkeeps⟩ := call_keeps h call
    obtain ⟨last, hlast, hextends, hturns⟩ := ih hafter
    refine ⟨last, hlast, hkeeps.trans hextends, ?_⟩
    intro t ht
    rcases List.mem_cons.mp ht with rfl | ht
    · exact ⟨h, hextends, rfl⟩
    · exact hturns t ht

/-- Every login of a run obtains a row exactly if each finds its subject or a free name. -/
theorem logins_total_iff {turns : List IdentityTurn}
    (hturns : ∀ t ∈ turns, t.before.Sound ∧ t = t.call.turn t.before) :
    (∀ t ∈ turns, ∀ subject, t.call.subject = some subject → ∃ row, t.Obtains subject row) ↔
      ∀ t ∈ turns, t.call.Nameable t.before := by
  refine forall₂_congr fun t ht => ?_
  obtain ⟨hsound, hturn⟩ := hturns t ht
  rw [hturn]
  cases hcall : t.call with
  | createUser username hash change access now =>
    refine iff_of_true ?_ trivial
    rintro subject hsubject
    cases hsubject
  | login subject username now =>
    refine Iff.trans ?_ (login_obtains_iff hsound subject username now)
    constructor
    · exact fun hobtains => hobtains subject rfl
    · rintro hobtains subject' hsubject
      obtain rfl := Option.some.inj hsubject
      exact hobtains

/-- Two subjects that begin alike, after a local user of the name both are given. -/
def sharedPrefix : List IdentityCall :=
  [.createUser "bob" "hash" false { role := .admin } default,
    .login "directory-1" "bob" default, .login "directory-2" "bob" default]

end Runs
end Doupro.Accounts
