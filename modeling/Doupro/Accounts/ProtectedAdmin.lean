import Doupro.Accounts.NoImplicitAdmin
import Doupro.Accounts.UserHandlers

/-!
# The protected administrator

The first account has a protected assignment. Every request that would write or delete an
assignment or a user reads the assignment of that principal first, and stops at the flag; IDs
are never handed out twice. So no order of statements of any number of requests reaches it.
-/

namespace Doupro.Accounts

open Interaction

/-- The assignment of the first account. -/
def protectedAdmin : AccessControl := { role := .admin, isProtected := true }

/-- A user has the assignment of the first account. -/
def HasProtectedAdmin (db : Database) (id : Nat) : Prop :=
  (∃ user ∈ db.users, user.id = id) ∧ db.assignment (.user, id) = some protectedAdmin

/-- What the statements of the requests keep: besides, no later user gets the id. -/
structure Guarded (id : Nat) (db : Database) : Prop where
  admin : HasProtectedAdmin db id
  issued : id ≤ db.userSeq

/-! ### Statements -/

/-- A request leaves a user and its assignment alone, as long as it finds the flag set. -/
def sparing (id : Nat) : Contract Statements Database Unit where
  allowed
    | _, .upsertAssignment p _ => p ≠ (.user, id)
    | _, .deleteUserAssignment other | _, .deleteUser other => other ≠ id
    | _, .backfill _ | _, .addProtectedColumn | _, .protectBootstrap => False
    | _, _ => True
  expects
    | _, ⟨_, .selectAccess p, .ok found⟩ | _, ⟨_, .selectExisting p, .ok found⟩ =>
      p = (.user, id) → found = some protectedAdmin
    | _, ⟨_, .insertUser _ _ _ _ _ _, .ok new⟩ => new ≠ id
    | _, _ => True
  next _ _ := ()

theorem assignment_eq_lookup (db : Database) (p : Principal) :
    db.assignment p = (Table.lookup Prod.fst p db.assignments).map Prod.snd := by
  unfold Database.assignment
  induction db.assignments with
  | nil => rfl
  | cons row rows ih =>
    obtain ⟨r, a⟩ := row
    by_cases hr : r = p
    · simp [Table.lookup, hr]
    · have hp : (p == r) = false := by simp [Ne.symm hr]
      rw [List.lookup_cons, hp, ih]
      simp [Table.lookup, hr]

theorem assignment_upsert (db : Database) (p q : Principal) (access : AccessControl) :
    (db.upsertAssignment p access).assignment q =
      if q = p then some ((db.assignment p).elim access (Database.replacedAccess access))
      else db.assignment q := by
  have hrow := Table.lookup_upsert Prod.fst (p, access)
    (fun row => (row.1, Database.replacedAccess access row.2)) (fun _ => rfl) q db.assignments
  simp only [assignment_eq_lookup, Database.upsertAssignment, hrow]
  split
  · next h =>
    subst h
    cases Table.lookup Prod.fst q db.assignments <;> rfl
  · rfl

theorem assignment_upsert_ne {db : Database} {p q : Principal} {access : AccessControl} (h : p ≠ q) :
    (db.upsertAssignment p access).assignment q = db.assignment q := by
  rw [assignment_upsert, if_neg (Ne.symm h)]

/-- The database after the assignment of a user is deleted. -/
theorem assignment_deleteUserAssignment (db : Database) (id : Nat) (p : Principal) :
    ({ db with
      assignments := Table.deleteWhere (fun row => decide (row.1 = (.user, id)))
        db.assignments } : Database).assignment p =
      if p = (.user, id) then none else db.assignment p := by
  simp only [assignment_eq_lookup, Table.lookup_deleteWhere]
  split <;> rfl

/-- A statement that a request may run keeps the protected assignment and its user, and
answers as the requests expect. -/
theorem Guarded.next {id : Nat} {db db' : Database} {s : Statement} {r : Except SQLError s.Result}
    (h : Guarded id db) (hallowed : (sparing id).allowed () s) (hstep : connection.step db s r db') :
    (sparing id).expects () ⟨db, s, r⟩ ∧ Guarded id db' := by
  obtain ⟨err, rfl, rfl⟩ | ⟨result, rfl, hperform⟩ := connection_step hstep
  · refine ⟨?_, h⟩
    cases s <;> trivial
  cases s with
  | upsertAssignment p access =>
    obtain rfl := perform_upsert hperform
    exact ⟨trivial, ⟨h.admin.1, (assignment_upsert_ne hallowed).trans h.admin.2⟩, h.issued⟩
  | deleteUserAssignment other =>
    simp only [Database.perform, Except.ok.injEq, Prod.mk.injEq] at hperform
    obtain ⟨-, rfl⟩ := hperform
    have hne : ((.user, id) : Principal) ≠ (.user, other) := by simpa using Ne.symm hallowed
    refine ⟨trivial, ⟨h.admin.1, ?_⟩, h.issued⟩
    rw [assignment_deleteUserAssignment, if_neg hne]
    exact h.admin.2
  | deleteUser other =>
    simp only [Database.perform, Except.ok.injEq, Prod.mk.injEq] at hperform
    obtain ⟨-, rfl⟩ := hperform
    obtain ⟨user, huser, hid⟩ := h.admin.1
    refine ⟨trivial, ⟨⟨user, Table.mem_deleteWhere.mpr ⟨huser, ?_⟩, hid⟩, h.admin.2⟩, h.issued⟩
    simpa [hid] using Ne.symm hallowed
  | backfill _ | addProtectedColumn | protectBootstrap => exact hallowed.elim
  | selectAccess p | selectExisting p =>
    simp only [Database.perform] at hperform
    split at hperform
    · simp only [Except.ok.injEq, Prod.mk.injEq] at hperform
      obtain ⟨rfl, rfl⟩ := hperform
      refine ⟨?_, h⟩
      rintro rfl
      exact h.admin.2
    · cases hperform
  | insertUser username passwordHash mustChange provider subject createdAt =>
    simp only [Database.perform] at hperform
    split at hperform
    · cases hperform
    · simp only [Except.ok.injEq, Prod.mk.injEq] at hperform
      obtain ⟨rfl, rfl⟩ := hperform
      have hissued := h.issued
      obtain ⟨user, huser, hid⟩ := h.admin.1
      refine ⟨?_, ⟨⟨user, List.mem_append_left _ huser, hid⟩, h.admin.2⟩, ?_⟩
      · change db.userSeq + 1 ≠ id
        omega
      · change id ≤ db.userSeq + 1
        omega
  | countUsers | countAdmins | selectUser _ | selectUsers | selectAPIKey _ | selectAPIKeys
  | deleteAPIKey _ | touchAPIKey _ _ =>
    simp only [Database.perform, Except.ok.injEq, Prod.mk.injEq] at hperform
    obtain ⟨-, rfl⟩ := hperform
    exact ⟨trivial, h.admin, h.issued⟩
  | insertAPIKey _ _ _ _ =>
    simp only [Database.perform] at hperform
    split at hperform
    · cases hperform
    · simp only [Except.ok.injEq, Prod.mk.injEq] at hperform
      obtain ⟨-, rfl⟩ := hperform
      exact ⟨trivial, h.admin, h.issued⟩
  | insertSession _ =>
    simp only [Database.perform] at hperform
    split at hperform
    · cases hperform
    · split at hperform
      · cases hperform
      · simp only [Except.ok.injEq, Prod.mk.injEq] at hperform
        obtain ⟨-, rfl⟩ := hperform
        exact ⟨trivial, h.admin, h.issued⟩

/-! ### Store functions -/

section Obeys

variable {id : Nat}

/-- What a request returns of it does not matter. -/
def Anything {α : Type} : Unit → α → Prop := fun _ _ => True

theorem writeAccess_spares {p : Principal} (h : p ≠ (.user, id)) (access : AccessControl) :
    connection.obeys (sparing id) (writeAccess p access) () Anything := by
  refine ⟨h, fun db r db' _ _ => ?_⟩
  cases r <;> trivial

theorem setAccess_spares (p : Principal) (access : AccessControl) :
    connection.obeys (sparing id) (setAccess p access) () Anything := by
  unfold setAccess
  split
  · refine ⟨trivial, fun db r db' _ hexpects => ?_⟩
    by_cases hp : p = (.user, id)
    · cases r with
      | error err => cases err <;> trivial
      | ok found =>
        obtain rfl := hexpects hp
        trivial
    · cases r with
      | error err => cases err <;> trivial
      | ok found => cases found with
        | none => exact writeAccess_spares hp access
        | some current =>
          change connection.obeys (sparing id) (ite _ _ _) () Anything
          split
          · trivial
          · exact writeAccess_spares hp access
  · trivial

/-- The access of the protected principal is resolved with its flag. -/
theorem accessFor_spares (p : Principal) : connection.obeys (sparing id) (accessFor p) ()
    fun _ r => p = (.user, id) → ∀ access, r = .ok access → access.isProtected = true := by
  refine ⟨trivial, fun db r db' _ hexpects => ?_⟩
  cases r with
  | error err => exact fun _ access h => by cases h
  | ok found => cases found with
    | some access =>
      rintro hp found h
      obtain rfl := Except.ok.inj h
      obtain rfl := Option.some.inj (hexpects hp)
      rfl
    | none =>
      have hp : p ≠ (.user, id) := fun hp => by cases hexpects hp
      change connection.obeys _ (setAccess _ _ >>= _) _ _
      refine Machine.obeys_bind.mpr (Machine.obeys_mono (setAccess_spares p _) fun _ r _ => ?_)
      cases r <;> exact fun h => absurd h hp

theorem withAccess_spares (row : UserRow) (created : Bool) :
    connection.obeys (sparing id) (withAccess row created) () Anything := by
  refine Machine.obeys_bind.mpr (Machine.obeys_mono (accessFor_spares _) fun _ r _ => ?_)
  cases r <;> trivial

theorem lookupUser_spares (key : UserKey) (label : String) (created : Bool) :
    connection.obeys (sparing id) (lookupUser key label created) () Anything := by
  refine ⟨trivial, fun db r db' _ _ => ?_⟩
  cases r with
  | error err => trivial
  | ok found => cases found with
    | none => trivial
    | some row => exact withAccess_spares row created

theorem createUserWithAccess_spares (username passwordHash : String) (mustChange : Bool)
    (access : AccessControl) (now : Time) : connection.obeys (sparing id)
      (createUserWithAccess username passwordHash mustChange access now) () Anything := by
  unfold createUserWithAccess
  split
  · refine ⟨trivial, fun db r db' _ _ => ?_⟩
    cases r with
    | error err => trivial
    | ok n =>
      refine ⟨trivial, fun db r db' _ hnew => ?_⟩
      cases r with
      | error err => trivial
      | ok new =>
        change connection.obeys _ (setAccess _ _ >>= _) _ _
        refine Machine.obeys_bind.mpr (Machine.obeys_mono (setAccess_spares _ _) fun _ r _ => ?_)
        cases r with
        | error err => exact ⟨hnew, fun _ _ _ _ _ => trivial⟩
        | ok _ => trivial
  · trivial

theorem deleteUser_spares (other : Nat) :
    connection.obeys (sparing id) (deleteUser other) () Anything := by
  refine Machine.obeys_bind.mpr (Machine.obeys_mono (accessFor_spares _) fun _ r hflag => ?_)
  cases r with
  | error err => trivial
  | ok access =>
    change connection.obeys (sparing id) (ite _ _ _) () Anything
    split
    · trivial
    · next hopen =>
      have hne : other ≠ id := fun h => hopen (hflag (by rw [h]) access rfl)
      refine ⟨hne, fun db r db' _ _ => ?_⟩
      cases r with
      | error err => trivial
      | ok n =>
        change connection.obeys (sparing id) (ite _ _ _) () Anything
        split
        · trivial
        · exact ⟨hne, fun _ _ _ _ _ => trivial⟩

theorem resolveUsers_spares (rows : List UserRow) :
    connection.obeys (sparing id) (resolveUsers rows) () Anything := by
  induction rows with
  | nil => trivial
  | cons row rest ih =>
    refine Machine.obeys_bind.mpr (Machine.obeys_mono (withAccess_spares row true) fun _ r _ => ?_)
    cases r with
    | error err => trivial
    | ok user =>
      refine Machine.obeys_bind.mpr (Machine.obeys_mono ih fun _ r _ => ?_)
      cases r <;> trivial

theorem listUsers_spares : connection.obeys (sparing id) listUsers () Anything := by
  refine ⟨trivial, fun db r db' _ _ => ?_⟩
  cases r with
  | error err => trivial
  | ok rows => exact resolveUsers_spares rows

theorem adminCount_spares : connection.obeys (sparing id) adminCount () Anything := by
  refine ⟨trivial, fun db r db' _ _ => ?_⟩
  cases r <;> trivial

theorem hasAnyUser_spares : connection.obeys (sparing id) hasAnyUser () Anything := by
  refine ⟨trivial, fun db r db' _ _ => ?_⟩
  cases r <;> trivial

theorem bootstrap_spares (adminUser adminPassword : String) (hash : Except GoError String)
    (now : Time) :
    connection.obeys (sparing id) (bootstrap adminUser adminPassword hash now) () Anything := by
  refine Machine.obeys_bind.mpr (Machine.obeys_mono hasAnyUser_spares fun _ r _ => ?_)
  cases r with
  | error err => trivial
  | ok some => cases some with
    | true => trivial
    | false =>
      change connection.obeys (sparing id) (ite _ _ _) () Anything
      split
      · trivial
      · split
        · trivial
        · cases hash with
          | error err => trivial
          | ok hash =>
            refine Machine.obeys_bind.mpr (Machine.obeys_mono
              (createUserWithAccess_spares _ _ _ _ _) fun _ r _ => ?_)
            cases r <;> trivial

theorem provisionOIDCUser_spares (username subject : String) (inserted : Except SQLError Nat) :
    connection.obeys (sparing id) (provisionOIDCUser username subject inserted) () Anything := by
  cases inserted with
  | error err => trivial
  | ok new =>
    refine Machine.obeys_bind.mpr (Machine.obeys_mono (setAccess_spares _ _) fun _ r _ => ?_)
    cases r <;> trivial

theorem getOrCreateOIDCUser_spares (subject username : String) (now : Time) :
    connection.obeys (sparing id) (getOrCreateOIDCUser subject username now) () Anything := by
  refine ⟨trivial, fun db r db' _ _ => ?_⟩
  cases r with
  | error err => trivial
  | ok found => cases found with
    | some row => exact withAccess_spares row false
    | none =>
      refine ⟨trivial, fun db r db' _ _ => ?_⟩
      cases r with
      | ok new => exact provisionOIDCUser_spares username subject (.ok new)
      | error err => cases err with
        | uniqueConstraint => exact ⟨trivial, fun _ r _ _ _ => provisionOIDCUser_spares _ _ r⟩
        | duplicateColumn => exact provisionOIDCUser_spares username subject (.error .duplicateColumn)
        | other text => exact provisionOIDCUser_spares username subject (.error (.other text))

/-- An API key is another principal than a user. -/
theorem createAPIKeyWithAccess_spares (name keyHash keyPrefix : String) (access : AccessControl)
    (now : Time) : connection.obeys (sparing id)
      (createAPIKeyWithAccess name keyHash keyPrefix access now) () Anything := by
  unfold createAPIKeyWithAccess
  split
  · refine ⟨trivial, fun db r db' _ _ => ?_⟩
    cases r with
    | error err => trivial
    | ok new =>
      change connection.obeys _ (setAccess _ _ >>= _) _ _
      refine Machine.obeys_bind.mpr (Machine.obeys_mono (setAccess_spares _ _) fun _ r _ => ?_)
      cases r with
      | error err => exact ⟨trivial, fun _ _ _ _ _ => trivial⟩
      | ok _ => trivial
  · trivial

theorem authenticateAPIKey_spares (keyHash : String) (now : Time) :
    connection.obeys (sparing id) (authenticateAPIKey keyHash now) () Anything := by
  refine ⟨trivial, fun db r db' _ _ => ?_⟩
  cases r with
  | error err => trivial
  | ok found => cases found with
    | none => trivial
    | some row =>
      change connection.obeys _ (accessFor _ >>= _) _ _
      refine Machine.obeys_bind.mpr (Machine.obeys_mono (accessFor_spares _) fun _ r _ => ?_)
      cases r with
      | error err => trivial
      | ok access => exact ⟨trivial, fun _ _ _ _ _ => trivial⟩

theorem resolveAPIKeys_spares (rows : List APIKeyRow) :
    connection.obeys (sparing id) (resolveAPIKeys rows) () Anything := by
  induction rows with
  | nil => trivial
  | cons row rest ih =>
    refine Machine.obeys_bind.mpr (Machine.obeys_mono (accessFor_spares _) fun _ r _ => ?_)
    cases r with
    | error err => trivial
    | ok access =>
      refine Machine.obeys_bind.mpr (Machine.obeys_mono ih fun _ r _ => ?_)
      cases r <;> trivial

theorem listAPIKeys_spares : connection.obeys (sparing id) listAPIKeys () Anything := by
  refine ⟨trivial, fun db r db' _ _ => ?_⟩
  cases r with
  | error err => trivial
  | ok rows => exact resolveAPIKeys_spares rows

theorem revokeAPIKey_spares (key : Nat) :
    connection.obeys (sparing id) (revokeAPIKey key) () Anything := by
  refine ⟨trivial, fun db r db' _ _ => ?_⟩
  cases r with
  | error err => trivial
  | ok n =>
    change connection.obeys (sparing id) (ite _ _ _) () Anything
    split <;> trivial

theorem createSession_spares (tokenHash : String) (userID : Nat) (ttl : Duration) (now : Time) :
    connection.obeys (sparing id) (createSession tokenHash userID ttl now) () Anything := by
  refine ⟨trivial, fun db r db' _ _ => ?_⟩
  cases r <;> trivial

theorem spares_map {α β : Type} {p : SQL α} (h : connection.obeys (sparing id) p () Anything)
    (f : α → β) : connection.obeys (sparing id) (f <$> p) () Anything := by
  rw [map_eq_pure_bind]
  exact Machine.obeys_bind.mpr (Machine.obeys_mono h fun _ _ _ => trivial)

theorem accountOp_spares (op : AccountOp) : connection.obeys (sparing id) op.run () Anything := by
  cases op with
  | bootstrap _ _ _ _ => exact spares_map (bootstrap_spares _ _ _ _) _
  | createUser _ _ _ _ | createUserWithAccess _ _ _ _ _ =>
    exact spares_map (createUserWithAccess_spares _ _ _ _ _) _
  | getOrCreateOIDCUser _ _ _ => exact spares_map (getOrCreateOIDCUser_spares _ _ _) _
  | getUserByUsername _ | getUserByID _ | sessionUser _ _ =>
    exact spares_map (lookupUser_spares _ _ _) _
  | createSession _ _ _ _ => exact spares_map (createSession_spares _ _ _ _) _
  | listUsers => exact spares_map listUsers_spares _
  | deleteUser _ => exact spares_map (deleteUser_spares _) _
  | setAccess _ _ => exact spares_map (setAccess_spares _ _) _
  | createAPIKey _ _ _ _ | createAPIKeyWithAccess _ _ _ _ _ =>
    exact spares_map (createAPIKeyWithAccess_spares _ _ _ _ _) _
  | authenticateAPIKey _ _ => exact spares_map (authenticateAPIKey_spares _ _) _
  | listAPIKeys => exact spares_map listAPIKeys_spares _
  | revokeAPIKey _ => exact spares_map (revokeAPIKey_spares _) _

/-! ### Handlers -/

theorem handleListUsers_spares : connection.obeys (sparing id) handleListUsers () Anything := by
  refine Machine.obeys_bind.mpr (Machine.obeys_mono listUsers_spares fun _ r _ => ?_)
  cases r <;> trivial

theorem handleCreateUser_spares (body : Option CreateUserBody) (hash : Except GoError String)
    (now : Time) : connection.obeys (sparing id) (handleCreateUser body hash now) () Anything := by
  cases body with
  | none => trivial
  | some req =>
    change connection.obeys (sparing id) (ite _ _ _) () Anything
    split
    · trivial
    · cases hash with
      | error err => trivial
      | ok hash =>
        refine Machine.obeys_bind.mpr (Machine.obeys_mono
          (createUserWithAccess_spares _ _ _ _ _) fun _ r _ => ?_)
        cases r <;> trivial

theorem demotesLast_spares (user : User) (access : AccessControl) :
    connection.obeys (sparing id) (demotesLast user access) () Anything := by
  unfold demotesLast
  split
  · refine Machine.obeys_bind.mpr (Machine.obeys_mono adminCount_spares fun _ r _ => ?_)
    cases r <;> trivial
  · trivial

theorem handleUpdateUserAccess_spares (other : Option Nat) (body : Option AccessControl) :
    connection.obeys (sparing id) (handleUpdateUserAccess other body) () Anything := by
  unfold handleUpdateUserAccess
  split
  · trivial
  · trivial
  · refine Machine.obeys_bind.mpr (Machine.obeys_mono (lookupUser_spares _ _ _) fun _ r _ => ?_)
    cases r with
    | error err =>
      change connection.obeys (sparing id) (ite _ _ _) () Anything
      split <;> trivial
    | ok user =>
      change connection.obeys (sparing id) (ite _ _ _) () Anything
      split
      · trivial
      · refine Machine.obeys_bind.mpr (Machine.obeys_mono (demotesLast_spares _ _) fun _ r _ => ?_)
        cases r with
        | error err => trivial
        | ok last => cases last with
          | true => trivial
          | false =>
            refine Machine.obeys_bind.mpr (Machine.obeys_mono (setAccess_spares _ _) fun _ r _ => ?_)
            cases r <;> trivial

theorem deletesLast_spares (user : User) :
    connection.obeys (sparing id) (deletesLast user) () Anything := by
  unfold deletesLast
  split
  · refine Machine.obeys_bind.mpr (Machine.obeys_mono adminCount_spares fun _ r _ => ?_)
    cases r <;> trivial
  · trivial

theorem handleDeleteUser_spares (other current : Option Nat) :
    connection.obeys (sparing id) (handleDeleteUser other current) () Anything := by
  cases other with
  | none => trivial
  | some other =>
    refine Machine.obeys_bind.mpr (Machine.obeys_mono (lookupUser_spares _ _ _) fun _ r _ => ?_)
    cases r with
    | error err =>
      change connection.obeys (sparing id) (ite _ _ _) () Anything
      split <;> trivial
    | ok user =>
      change connection.obeys (sparing id) (ite _ _ _) () Anything
      split
      · trivial
      · split
        · trivial
        · refine Machine.obeys_bind.mpr (Machine.obeys_mono (deletesLast_spares _) fun _ last _ => ?_)
          change connection.obeys (sparing id) (ite _ _ _) () Anything
          split
          · trivial
          · refine Machine.obeys_bind.mpr (Machine.obeys_mono (deleteUser_spares _) fun _ r _ => ?_)
            cases r <;> trivial

theorem request_spares (req : Request) : connection.obeys (sparing id) req.run () Anything := by
  cases req with
  | listUsers => exact spares_map handleListUsers_spares _
  | createUser _ _ _ => exact spares_map (handleCreateUser_spares _ _ _) _
  | updateUserAccess _ _ => exact spares_map (handleUpdateUserAccess_spares _ _) _
  | deleteUser _ _ => exact spares_map (handleDeleteUser_spares _ _) _
  | account op => exact spares_map (accountOp_spares op) _

end Obeys

/-! ### Runs -/

/-- A fresh database: no account was created yet. -/
def Fresh (db : Database) : Prop := db.users = [] ∧ db.assignments = []

/-- A new principal is given the access that is asked for. -/
theorem setAccess_new {p : Principal} {access : AccessControl} {db db' : Database}
    {trace : Trace Statements Database} (hnone : db.assignment p = none)
    (hrun : connection.Runs (setAccess p access) db trace (.ok ()) db') :
    db' = db.upsertAssignment p access := by
  unfold setAccess at hrun
  split at hrun
  · obtain ⟨_, found, db₁, _, rfl, hselect, -, h₁⟩ := Machine.runs_request_bind.mp hrun
    obtain ⟨err, rfl, -⟩ | ⟨result, rfl, hperform⟩ := connection_step hselect
    · cases err <;> cases h₁.2.1
    · simp only [Database.perform] at hperform
      split at hperform
      · simp only [Except.ok.injEq, Prod.mk.injEq, hnone] at hperform
        obtain ⟨rfl, rfl⟩ := hperform
        obtain ⟨_, written, db₂, _, rfl, hwrite, -, h₂⟩ := Machine.runs_request_bind.mp h₁
        obtain ⟨err, rfl, -⟩ | ⟨result, rfl, hperform⟩ := connection_step hwrite
        · cases h₂.2.1
        · obtain ⟨-, -, rfl⟩ := h₂
          exact perform_upsert hperform
      · cases hperform
  · cases hrun.2.1

/-- The first account gets the protected assignment. -/
theorem createUser_guarded {fresh db : Database} {username passwordHash : String} {mustChange : Bool}
    {now : Time} {trace : Trace Statements Database} {user : User} (hfresh : Fresh fresh)
    (hcreate : connection.Runs (createUser username passwordHash mustChange now) fresh trace
      (.ok user) db) : Guarded user.id db := by
  obtain ⟨_, counted, db₁, _, rfl, hcount, -, h₁⟩ := Machine.runs_request_bind.mp hcreate
  cases counted with
  | error err => cases h₁.2.1
  | ok n =>
    obtain ⟨err, herr, -⟩ | ⟨_, hn, hcounted⟩ := connection_step hcount
    · cases herr
    simp only [Database.perform, Except.ok.injEq, Prod.mk.injEq, hfresh.1, List.length_nil] at hn hcounted
    obtain ⟨rfl, rfl⟩ := hcounted
    subst hn
    obtain ⟨_, inserted, db₂, _, rfl, hinsert, -, h₂⟩ := Machine.runs_request_bind.mp h₁
    cases inserted with
    | error err => cases h₂.2.1
    | ok id =>
      obtain ⟨err, herr, -⟩ | ⟨_, hid, hinserted⟩ := connection_step hinsert
      · cases herr
      simp only [Database.perform] at hinserted
      split at hinserted
      · cases hinserted
      simp only [Except.ok.injEq, Prod.mk.injEq] at hid hinserted
      obtain ⟨rfl, rfl⟩ := hinserted
      subst hid
      change connection.Runs (setAccess (.user, _) protectedAdmin >>= _) _ _ _ _ at h₂
      obtain ⟨first, assigned, db₁, rest, hassign, h₃, -⟩ := Machine.runs_bind.mp h₂
      cases assigned with
      | error err =>
        obtain ⟨_, _, _, _, _, _, _, h₄⟩ := Machine.runs_request_bind.mp h₃
        cases h₄.2.1
      | ok _ =>
        obtain ⟨-, huser, rfl⟩ := h₃
        obtain rfl := Except.ok.inj huser
        obtain rfl := setAccess_new (by simp [Database.assignment, hfresh.2]) hassign
        refine ⟨⟨⟨_, List.mem_append_right _ List.mem_cons_self, rfl⟩, ?_⟩, le_refl _⟩
        simp [Database.assignment, Database.upsertAssignment, Table.upsert, Table.lookup, hfresh.2]

/-- The protected administrator outlives every interleaving of requests, unchanged. -/
theorem protected_admin_kept {fresh db db' : Database} {username passwordHash : String}
    {mustChange : Bool} {now : Time} {trace : Trace Statements Database} {user : User}
    (hfresh : Fresh fresh)
    (hcreate : connection.Runs (createUser username passwordHash mustChange now) fresh trace
      (.ok user) db) {ι : Type} [DecidableEq ι] {requests : ι → Request}
    {history : List (ι × Event Statements Database)} {pool' : ι → SQL Unit}
    (hrun : connection.PoolRuns (fun i => (requests i).run) db history pool' db') :
    (∀ entry ∈ history, HasProtectedAdmin entry.2.world user.id) ∧ HasProtectedAdmin db' user.id := by
  have hkept : ∀ {past : List (ι × Event Statements Database)} {mid : ι → SQL Unit} {db₁ : Database},
      connection.PoolRuns (fun i => (requests i).run) db past mid db₁ → Guarded user.id db₁ := by
    intro past mid db₁ hpast
    obtain ⟨k', hguarded, -⟩ := hpast.contracts (C := fun _ => sparing user.id)
      (J := fun db _ _ => Guarded user.id db) (fun {w₀ w₁ w₂ k past} i {op r} hJ hrely hstep _ hallowed => by
        obtain rfl := hrely
        exact hJ.next hallowed hstep) (Machine.throughout_trivial [] past)
      (fun i => request_spares (requests i)) (k := fun _ => ()) (createUser_guarded hfresh hcreate)
    exact hguarded
  refine ⟨fun entry hentry => ?_, (hkept hrun).admin⟩
  obtain ⟨before, after, rfl⟩ := List.append_of_mem hentry
  obtain ⟨mid, db₁, next, hbefore, -, hrely⟩ := hrun.split
  obtain rfl := hrely
  exact (hkept hbefore).admin

/-! ### A scripted run -/

/-- The database after the first account was created. -/
def bootstrapped : Database where
  users :=
    [{ id := 1, username := "admin", passwordHash := "$2a$10$hash", mustChangePassword := true,
       createdAt := 0 }]
  assignments := [((.user, 1), protectedAdmin)]
  userSeq := 1
  protectedColumn := true

theorem bootstrapped_runs : ∃ trace user, connection.Runs (createUser "admin" "$2a$10$hash" true 0)
    { protectedColumn := true } trace (.ok user) bootstrapped ∧ user.id = 1 :=
  ⟨_, _, ⟨_, _, _, _, rfl, ⟨none, rfl⟩, rfl, _, _, _, _, rfl, ⟨none, rfl⟩, rfl,
    _, _, _, _, rfl, ⟨none, rfl⟩, rfl, _, _, _, _, rfl, ⟨none, rfl⟩, rfl, rfl, rfl, rfl⟩, rfl⟩

/-- An identity signs in, and demotes and deletes the administrator. -/
def attacks : Nat → Request
  | 0 => .account (.getOrCreateOIDCUser "subject-eve" "eve" 1)
  | 1 => .updateUserAccess (some 1) (some { role := .read })
  | 2 => .deleteUser (some 1) (some 2)
  | _ => .listUsers

/-- The three requests, statement by statement in turn. -/
def attacked : List (Nat × Event Statements Database) × (Nat → SQL Unit) × Database :=
  Machine.replay Database.exec ((List.replicate 4 [0, 1, 2]).flatten.map fun i => (i, none))
    (fun i => (attacks i).run) bootstrapped

theorem protected_admin_kept_attacked :
    attacked.1.length = 8 ∧ HasProtectedAdmin attacked.2.2 1 := by
  obtain ⟨trace, user, hcreate, hid⟩ := bootstrapped_runs
  refine ⟨by decide +kernel, hid ▸ ?_⟩
  exact (protected_admin_kept ⟨rfl, rfl⟩ hcreate (Machine.replay_runs (M := connection)
    (fun _ => rfl) (fun _ fault _ => ⟨fault, rfl⟩) _ _ _)).2

end Doupro.Accounts
