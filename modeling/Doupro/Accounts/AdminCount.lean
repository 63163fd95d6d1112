import Doupro.Accounts.ProtectedAdmin
import Mathlib.Data.Fintype.Basic

/-!
# The number of administrators

`AdminCount` counts assignments, not users, and a creation and a deletion write the two tables one
after the other. The count is right wherever no request is between its two writes, as long as no
administrator's assignment is written for a user whose deletion is already complete.
-/

namespace Doupro.Accounts

open Interaction

variable {ι : Type}

/-! ### Users and their role -/

def HasUser (db : Database) (id : Nat) : Prop := ∃ user ∈ db.users, user.id = id

instance (db : Database) (id : Nat) : Decidable (HasUser db id) :=
  inferInstanceAs (Decidable (∃ user ∈ db.users, user.id = id))

/-- The role that `accessFor` resolves a user to. -/
def resolvedRole (db : Database) (id : Nat) : Role :=
  ((db.assignment (.user, id)).map AccessControl.role).getD .admin

/-- The users there are whose role resolves to admin. -/
def resolvedAdmins (db : Database) : Nat :=
  db.users.countP fun user => resolvedRole db user.id = .admin

/-- Whatever `AdminCount` returns is the number of these users. -/
def CountsAdmins (db : Database) : Prop :=
  ∀ trace n db', connection.Runs adminCount db trace (.ok n) db' → n = resolvedAdmins db

theorem accessFor_resolves {db db' : Database} {id : Nat} {trace : Trace Statements Database}
    {access : AccessControl}
    (h : connection.Runs (accessFor (.user, id)) db trace (.ok access) db') :
    access.role = resolvedRole db id := by
  obtain ⟨db₀, found, db₁, _, hsame, hselect, -, hrest⟩ := Machine.runs_request_bind.mp h
  obtain rfl : db₀ = db := hsame
  obtain ⟨err, rfl, -⟩ | ⟨result, rfl, hperform⟩ := connection_step hselect
  · cases hrest.2.1
  · simp only [Database.perform] at hperform
    split at hperform
    · simp only [Except.ok.injEq, Prod.mk.injEq] at hperform
      obtain ⟨rfl, -⟩ := hperform
      cases hfound : db₀.assignment (.user, id) with
      | some current =>
        rw [hfound] at hrest
        obtain rfl := Except.ok.inj hrest.2.1
        simp [resolvedRole, hfound]
      | none =>
        rw [hfound] at hrest
        obtain ⟨_, written, _, _, -, hlast, -⟩ := Machine.runs_bind.mp hrest
        cases written with
        | error err => cases hlast.2.1
        | ok _ =>
          obtain rfl := Except.ok.inj hlast.2.1
          simp [resolvedRole, hfound]
    · cases hperform

/-- The users' assignments with the role admin. -/
def adminRows (db : Database) : Nat :=
  db.assignments.countP fun row => row.1.1 = .user ∧ row.2.role = .admin

theorem countsAdmins_iff {db : Database} : CountsAdmins db ↔ adminRows db = resolvedAdmins db := by
  constructor
  · intro h
    exact h [⟨db, .countAdmins, .ok (adminRows db)⟩] _ db
      ⟨db, .ok (adminRows db), db, [], rfl, ⟨none, rfl⟩, rfl, rfl, rfl, rfl⟩
  · intro h trace n db' hrun
    obtain ⟨_, counted, db₁, _, rfl, hcount, -, hrest⟩ := Machine.runs_request_bind.mp hrun
    cases counted with
    | error err => cases hrest.2.1
    | ok found =>
      obtain ⟨err, herr, -⟩ | ⟨result, hresult, hperform⟩ := connection_step hcount
      · cases herr
      · cases hresult
        simp only [Database.perform, Except.ok.injEq, Prod.mk.injEq] at hperform
        cases hrest.2.1
        exact hperform.1.symm.trans h

/-! ### How far a request is -/

/-- The user a request has inserted, or the one it has deleted without its assignment. -/
inductive Progress where
  | even
  | inserted (id : Nat)
  | deleted (id : Nat)
  deriving DecidableEq

/-- The second write of a creation or a deletion is still missing. -/
def Progress.Pending (db : Database) : Progress → Prop
  | .even => False
  | .inserted id => HasUser db id ∧ db.assignment (.user, id) = none
  | .deleted id => (db.assignment (.user, id)).map AccessControl.role = some .admin

instance (db : Database) (k : Progress) : Decidable (k.Pending db) := by
  cases k with
  | even => exact inferInstanceAs (Decidable False)
  | inserted id => exact inferInstanceAs (Decidable (_ ∧ _))
  | deleted id => exact inferInstanceAs (Decidable (_ = _))

/-- A request deletes the assignment of a user it has deleted, and no other. -/
def pairing : Contract Statements Database Progress where
  allowed
    | k, .insertUser _ _ _ _ _ _ => k = .even
    | k, .deleteUser id => k = .even ∨ k = .inserted id
    | k, .deleteUserAssignment id => k = .deleted id
    | _, .backfill _ | _, .addProtectedColumn | _, .protectBootstrap => False
    | _, _ => True
  expects _ _ := True
  next
    | _, ⟨_, .insertUser _ _ _ _ _ _, .ok id⟩ => .inserted id
    | k, ⟨_, .deleteUser id, .ok n⟩ => if n = 0 then k else .deleted id
    | _, ⟨_, .deleteUserAssignment _, .ok ()⟩ => .even
    | k, _ => k

abbrev AccountEvent := Event Statements Database

/-- How far each request of a history is. -/
def progress [DecidableEq ι] (history : List (ι × AccountEvent)) (i : ι) : Progress :=
  pairing.learnedBy .even history i

/-- An assignment with the role admin is written for a user that is there, or for one whose
deletion still removes the assignment. -/
def WritesForUser [DecidableEq ι] (past : List (ι × AccountEvent)) : ι × AccountEvent → Prop
  | (_, ⟨db, .upsertAssignment (.user, id) access, .ok ()⟩) =>
    access.role = .admin → HasUser db id ∨ ∃ j, progress past j = .deleted id
  | _ => True

instance [DecidableEq ι] [Fintype ι] (past : List (ι × AccountEvent)) (entry : ι × AccountEvent) :
    Decidable (WritesForUser past entry) := by
  unfold WritesForUser
  split <;> infer_instance

/-- Only requests that are between their two writes leave a user without an assignment, or an
administrator's assignment without its user. -/
structure Accounted (db : Database) (k : ι → Progress) : Prop where
  ids : (db.users.map UserRow.id).Nodup
  keys : (db.assignments.map Prod.fst).Nodup
  issued : ∀ user ∈ db.users, user.id ≤ db.userSeq
  owned : ∀ id access, db.assignment (.user, id) = some access → access.role = .admin →
    HasUser db id ∨ ∃ i, k i = .deleted id
  assigned : ∀ id, HasUser db id → db.assignment (.user, id) = none → ∃ i, k i = .inserted id
  gone : ∀ i id, k i = .deleted id → ¬ HasUser db id ∧ id ≤ db.userSeq

/-- Every user has an assignment, and every administrator's assignment its user. -/
structure Clean (db : Database) : Prop where
  ids : (db.users.map UserRow.id).Nodup
  keys : (db.assignments.map Prod.fst).Nodup
  issued : ∀ user ∈ db.users, user.id ≤ db.userSeq
  owned : ∀ row ∈ db.assignments, row.1.1 = .user → row.2.role = .admin → HasUser db row.1.2
  assigned : ∀ user ∈ db.users, db.assignment (.user, user.id) ≠ none

theorem Clean.accounted {db : Database} (h : Clean db) : Accounted db fun _ : ι => .even where
  ids := h.ids
  keys := h.keys
  issued := h.issued
  owned _ _ hrow hrole := .inl (h.owned _ (lookup_mem_assignments hrow) rfl hrole)
  assigned := by
    rintro _ ⟨user, huser, rfl⟩ hnone
    exact absurd hnone (h.assigned user huser)
  gone _ _ hk := nomatch hk

example : Clean {} := ⟨by decide, by decide, by decide, by decide, by decide⟩

/-! ### One statement -/

section Step

variable [DecidableEq ι] {db : Database} {k : ι → Progress} {i : ι}

theorem HasUser.congr {db db' : Database} (h : db'.users = db.users) (id : Nat) :
    HasUser db' id ↔ HasUser db id := by
  unfold HasUser
  rw [h]

omit [DecidableEq ι] in
/-- Statements on the other tables. -/
theorem Accounted.congr {db' : Database} (h : Accounted db k) (husers : db'.users = db.users)
    (hrows : db'.assignments = db.assignments) (hseq : db'.userSeq = db.userSeq) :
    Accounted db' k := by
  have hassignment : db'.assignment = db.assignment := by
    funext p
    unfold Database.assignment
    rw [hrows]
  constructor
  · rw [husers]
    exact h.ids
  · rw [hrows]
    exact h.keys
  · rw [husers, hseq]
    exact h.issued
  · simp only [hassignment, HasUser.congr husers]
    exact h.owned
  · simp only [hassignment, HasUser.congr husers]
    exact h.assigned
  · simp only [HasUser.congr husers, hseq]
    exact h.gone

/-- Who else is between two writes does not change with a request that is not. -/
theorem elsewhere {p q : Progress} (hi : k i ≠ p) (h : ∃ j, k j = p) :
    ∃ j, Function.update k i q j = p := by
  obtain ⟨j, hj⟩ := h
  have hne : j ≠ i := by
    rintro rfl
    exact hi hj
  exact ⟨j, by rw [Function.update_of_ne hne, hj]⟩

omit [DecidableEq ι] in
theorem Accounted.upsert (h : Accounted db k) {p : Principal} {access : AccessControl}
    (hwrite : ∀ id, p = (.user, id) → access.role = .admin →
      HasUser db id ∨ ∃ j, k j = .deleted id) : Accounted (db.upsertAssignment p access) k where
  ids := h.ids
  keys := Table.unique_upsert Prod.fst (p, access)
    (fun row => (row.1, Database.replacedAccess access row.2)) (fun _ => rfl) h.keys
  issued := h.issued
  owned id found hfound hrole := by
    rw [assignment_upsert] at hfound
    by_cases hp : (.user, id) = p
    · rw [if_pos hp, Option.some.injEq] at hfound
      have hsame : found.role = access.role := by
        rw [← hfound]
        cases db.assignment p <;> rfl
      exact hwrite id hp.symm (hsame ▸ hrole)
    · rw [if_neg hp] at hfound
      exact h.owned id found hfound hrole
  assigned id huser hnone := by
    rw [assignment_upsert] at hnone
    by_cases hp : (.user, id) = p
    · rw [if_pos hp] at hnone
      cases hnone
    · rw [if_neg hp] at hnone
      exact h.assigned id huser hnone
  gone := h.gone

theorem Accounted.deleteAssignment (h : Accounted db k) {id : Nat} (hi : k i = .deleted id) :
    Accounted { db with
      assignments := Table.deleteWhere (fun row => decide (row.1 = (.user, id))) db.assignments }
      (Function.update k i .even) where
  ids := h.ids
  keys := Table.unique_deleteWhere Prod.fst _ h.keys
  issued := h.issued
  owned other access hrow hrole := by
    rw [assignment_deleteUserAssignment] at hrow
    by_cases hother : other = id
    · subst hother
      simp at hrow
    · rw [if_neg (by simpa using hother)] at hrow
      refine (h.owned other access hrow hrole).imp_right (elsewhere ?_)
      rw [hi]
      simpa using Ne.symm hother
  assigned other huser hnone := by
    rw [assignment_deleteUserAssignment] at hnone
    -- the user of the deleted assignment is gone
    have hother : other ≠ id := by
      rintro rfl
      exact (h.gone i other hi).1 huser
    rw [if_neg (by simpa using hother)] at hnone
    exact elsewhere (by simp [hi]) (h.assigned other huser hnone)
  gone j other hj := by
    by_cases hji : j = i
    · subst hji
      simp at hj
    · rw [Function.update_of_ne hji] at hj
      exact h.gone j other hj

theorem Accounted.insertUser (h : Accounted db k) (hi : k i = .even) {row : UserRow}
    (hrow : row.id = db.userSeq + 1) :
    Accounted { db with users := db.users ++ [row], userSeq := db.userSeq + 1 }
      (Function.update k i (.inserted row.id)) := by
  have hgrows : ∀ {id}, HasUser db id →
      HasUser { db with users := db.users ++ [row], userSeq := db.userSeq + 1 } id := by
    rintro id ⟨user, huser, hid⟩
    exact ⟨user, List.mem_append_left _ huser, hid⟩
  constructor
  · have hnew : row.id ∉ db.users.map UserRow.id := by
      intro hmem
      obtain ⟨user, huser, hid⟩ := List.mem_map.mp hmem
      have hissued := h.issued user huser
      omega
    simpa using (List.nodup_concat _ _).mpr ⟨hnew, h.ids⟩
  · exact h.keys
  · intro user huser
    change user.id ≤ db.userSeq + 1
    rcases List.mem_append.mp huser with hold | hnew
    · have hissued := h.issued user hold
      omega
    · obtain rfl := List.mem_singleton.mp hnew
      omega
  · intro id access hassigned hrole
    refine (h.owned id access hassigned hrole).imp hgrows (elsewhere ?_)
    simp [hi]
  · rintro id ⟨user, huser, rfl⟩ hnone
    rcases List.mem_append.mp huser with hold | hnew
    · exact elsewhere (by simp [hi]) (h.assigned user.id ⟨user, hold, rfl⟩ hnone)
    · obtain rfl := List.mem_singleton.mp hnew
      exact ⟨i, Function.update_self ..⟩
  · intro j id hj
    change ¬ HasUser _ id ∧ id ≤ db.userSeq + 1
    by_cases hji : j = i
    · subst hji
      simp at hj
    · rw [Function.update_of_ne hji] at hj
      obtain ⟨hgone, hissued⟩ := h.gone j id hj
      refine ⟨?_, by omega⟩
      rintro ⟨user, huser, rfl⟩
      rcases List.mem_append.mp huser with hold | hnew
      · exact hgone ⟨user, hold, rfl⟩
      · obtain rfl := List.mem_singleton.mp hnew
        omega

theorem hasUser_delete {id other : Nat} (sessions : List SessionRow) : HasUser { db with
      users := Table.deleteWhere (fun u => decide (u.id = id)) db.users, sessions } other ↔
    HasUser db other ∧ other ≠ id := by
  constructor
  · rintro ⟨user, huser, rfl⟩
    obtain ⟨hold, hne⟩ := Table.mem_deleteWhere.mp huser
    exact ⟨⟨user, hold, rfl⟩, by simpa using hne⟩
  · rintro ⟨⟨user, huser, rfl⟩, hne⟩
    exact ⟨user, Table.mem_deleteWhere.mpr ⟨huser, by simpa using hne⟩, rfl⟩

/-- The user is gone; its assignment is for the request to delete. -/
theorem Accounted.deleteUser (h : Accounted db k) {id : Nat} (hi : k i = .even ∨ k i = .inserted id)
    (huser : HasUser db id) (sessions : List SessionRow) : Accounted { db with
      users := Table.deleteWhere (fun u => decide (u.id = id)) db.users, sessions }
      (Function.update k i (.deleted id)) where
  ids := Table.unique_deleteWhere UserRow.id _ h.ids
  keys := h.keys
  issued user hmem := h.issued user (Table.mem_deleteWhere.mp hmem).1
  owned other access hrow hrole := by
    by_cases hother : other = id
    · subst hother
      exact .inr ⟨i, Function.update_self ..⟩
    · refine (h.owned other access hrow hrole).imp ?_ (elsewhere ?_)
      · exact fun hold => (hasUser_delete sessions).mpr ⟨hold, hother⟩
      · rcases hi with hi | hi <;> simp [hi]
  assigned other hleft hnone := by
    obtain ⟨hold, hother⟩ := (hasUser_delete sessions).mp hleft
    refine elsewhere ?_ (h.assigned other hold hnone)
    rcases hi with hi | hi
    · simp [hi]
    · simpa [hi] using Ne.symm hother
  gone j other hj := by
    by_cases hji : j = i
    · subst hji
      rw [Function.update_self, Progress.deleted.injEq] at hj
      subst hj
      obtain ⟨user, hmem, rfl⟩ := huser
      exact ⟨fun hleft => ((hasUser_delete sessions).mp hleft).2 rfl, h.issued user hmem⟩
    · rw [Function.update_of_ne hji] at hj
      obtain ⟨hgone, hissued⟩ := h.gone j other hj
      exact ⟨fun hleft => hgone ((hasUser_delete sessions).mp hleft).1, hissued⟩

/-- A statement that its request may run keeps the account. -/
theorem Accounted.next {db' : Database} {s : Statement} {r : Except SQLError s.Result}
    (h : Accounted db k) (hallowed : pairing.allowed (k i) s)
    (hwrite : ∀ id access, s = .upsertAssignment (.user, id) access → (∃ done, r = .ok done) →
      access.role = .admin → HasUser db id ∨ ∃ j, k j = .deleted id) (hstep : connection.step db s r db') :
    Accounted db' (Function.update k i (pairing.next (k i) ⟨db, s, r⟩)) := by
  obtain ⟨err, rfl, rfl⟩ | ⟨result, rfl, hperform⟩ := connection_step hstep
  · have hsame : pairing.next (k i) ⟨db', s, .error err⟩ = k i := by
      cases s <;> rfl
    rw [hsame, Function.update_eq_self]
    exact h
  cases s with
  | upsertAssignment p access =>
    obtain rfl := perform_upsert hperform
    change Accounted _ (Function.update k i (k i))
    rw [Function.update_eq_self]
    refine h.upsert fun id hp hrole => ?_
    subst hp
    exact hwrite id access rfl ⟨_, rfl⟩ hrole
  | deleteUserAssignment id =>
    simp only [Database.perform, Except.ok.injEq, Prod.mk.injEq] at hperform
    obtain ⟨-, rfl⟩ := hperform
    exact h.deleteAssignment hallowed
  | deleteUser id =>
    simp only [Database.perform, Except.ok.injEq, Prod.mk.injEq] at hperform
    obtain ⟨rfl, rfl⟩ := hperform
    change Accounted _ (Function.update k i (ite _ _ _))
    by_cases huser : HasUser db id
    · obtain ⟨user, hmem, hid⟩ := huser
      have hfound : (db.users.filter fun u => u.id = id).length ≠ 0 := by
        intro hnone
        have hnil := List.eq_nil_of_length_eq_zero hnone
        simp only [List.filter_eq_nil_iff, decide_eq_true_eq] at hnil
        exact hnil user hmem hid
      rw [if_neg hfound]
      exact h.deleteUser hallowed ⟨user, hmem, hid⟩ _
    · have habsent : ∀ user ∈ db.users, ¬ user.id = id := fun user hmem hid => huser ⟨user, hmem, hid⟩
      have hnone : (db.users.filter fun u => u.id = id).length = 0 := by
        rw [List.filter_eq_nil_iff.mpr (by simpa using habsent), List.length_nil]
      rw [if_pos hnone, Function.update_eq_self]
      refine h.congr ?_ rfl rfl
      exact List.filter_eq_self.mpr (by simpa using habsent)
  | insertUser username passwordHash mustChange provider subject createdAt =>
    simp only [Database.perform] at hperform
    split at hperform
    · cases hperform
    · simp only [Except.ok.injEq, Prod.mk.injEq] at hperform
      obtain ⟨rfl, rfl⟩ := hperform
      exact h.insertUser hallowed rfl
  | backfill _ | addProtectedColumn | protectBootstrap => exact hallowed.elim
  | countUsers | countAdmins | selectUser _ | selectUsers | selectAPIKey _ | selectAPIKeys
  | deleteAPIKey _ | touchAPIKey _ _ =>
    simp only [Database.perform, Except.ok.injEq, Prod.mk.injEq] at hperform
    obtain ⟨-, rfl⟩ := hperform
    change Accounted _ (Function.update k i (k i))
    rw [Function.update_eq_self]
    exact h.congr rfl rfl rfl
  | selectAccess _ | selectExisting _ | insertAPIKey _ _ _ _ =>
    simp only [Database.perform] at hperform
    split at hperform
    all_goals simp only [Except.ok.injEq, Prod.mk.injEq, reduceCtorEq] at hperform
    obtain ⟨-, rfl⟩ := hperform
    change Accounted _ (Function.update k i (k i))
    rw [Function.update_eq_self]
    exact h.congr rfl rfl rfl
  | insertSession _ =>
    simp only [Database.perform] at hperform
    repeat' split at hperform
    all_goals simp only [Except.ok.injEq, Prod.mk.injEq, reduceCtorEq] at hperform
    obtain ⟨-, rfl⟩ := hperform
    change Accounted _ (Function.update k i (k i))
    rw [Function.update_eq_self]
    exact h.congr rfl rfl rfl

end Step

/-! ### Store functions -/

/-- Statements that neither insert nor delete a user, and delete no assignment. -/
def Settling : Statement → Prop
  | .insertUser _ _ _ _ _ _ | .deleteUser _ | .deleteUserAssignment _ => False
  | .backfill _ | .addProtectedColumn | .protectBootstrap => False
  | _ => True

theorem accesses_settling (p : Principal) : Accesses Settling p :=
  ⟨trivial, trivial, fun _ => trivial⟩

/-- Such statements change nothing in how far a request is. -/
theorem obeys_of_settling {α : Type} {p : SQL α} (h : p.Uses Settling) :
    connection.obeys pairing p .even fun k _ => k = .even := by
  refine Machine.obeys_of_uses_at (fun s hs => ?_) (fun e he => ?_) h
  · cases s <;> trivial
  · obtain ⟨db, s, r⟩ := e
    cases s <;> cases r <;> first | rfl | exact he.elim

/-- A part that writes neither table, and what its request does next. -/
theorem obeys_settling_bind {α β : Type} {p : SQL α} {f : α → SQL β} (h : p.Uses Settling)
    (hf : ∀ a, connection.obeys pairing (f a) .even fun _ _ => True) :
    connection.obeys pairing (p >>= f) .even fun _ _ => True := by
  refine Machine.obeys_bind.mpr (Machine.obeys_mono (obeys_of_settling h) ?_)
  rintro k a rfl
  exact hf a

theorem withAccess_settles (row : UserRow) (created : Bool) :
    (withAccess row created).Uses Settling := by
  refine Program.uses_bind (accessFor_uses (accesses_settling _)) fun r => ?_
  cases r <;> trivial

theorem lookupUser_settles (key : UserKey) (label : String) (created : Bool) :
    (lookupUser key label created).Uses Settling := by
  refine Program.uses_request_bind trivial fun r => ?_
  rcases r with err | _ | row
  · trivial
  · trivial
  · exact withAccess_settles row created

theorem resolveUsers_settles (rows : List UserRow) : (resolveUsers rows).Uses Settling := by
  induction rows with
  | nil => trivial
  | cons row rest ih =>
    refine Program.uses_bind (withAccess_settles row true) fun r => ?_
    cases r with
    | error err => trivial
    | ok user =>
      refine Program.uses_bind ih fun r => ?_
      cases r <;> trivial

theorem listUsers_settles : listUsers.Uses Settling := by
  refine Program.uses_request_bind trivial fun r => ?_
  cases r with
  | error err => trivial
  | ok rows => exact resolveUsers_settles rows

theorem adminCount_settles : adminCount.Uses Settling := by
  refine Program.uses_request_bind trivial fun r => ?_
  cases r <;> trivial

theorem hasAnyUser_settles : hasAnyUser.Uses Settling := by
  refine Program.uses_request_bind trivial fun r => ?_
  cases r <;> trivial

theorem createSession_settles (tokenHash : String) (userID : Nat) (ttl : Duration) (now : Time) :
    (createSession tokenHash userID ttl now).Uses Settling := by
  refine Program.uses_request_bind trivial fun r => ?_
  cases r <;> trivial

theorem createAPIKeyWithAccess_settles (name keyHash keyPrefix : String) (access : AccessControl)
    (now : Time) : (createAPIKeyWithAccess name keyHash keyPrefix access now).Uses Settling := by
  unfold createAPIKeyWithAccess
  split
  · refine Program.uses_request_bind trivial fun r => ?_
    cases r with
    | error err => trivial
    | ok id =>
      refine Program.uses_bind (setAccess_uses (accesses_settling _) _) fun r => ?_
      cases r with
      | error err => exact Program.uses_request_bind trivial fun _ => trivial
      | ok _ => trivial
  · trivial

theorem authenticateAPIKey_settles (keyHash : String) (now : Time) :
    (authenticateAPIKey keyHash now).Uses Settling := by
  refine Program.uses_request_bind trivial fun r => ?_
  rcases r with err | _ | row
  · trivial
  · trivial
  · refine Program.uses_bind (accessFor_uses (accesses_settling _)) fun r => ?_
    cases r with
    | error err => trivial
    | ok access => exact Program.uses_request_bind trivial fun _ => trivial

theorem resolveAPIKeys_settles (rows : List APIKeyRow) : (resolveAPIKeys rows).Uses Settling := by
  induction rows with
  | nil => trivial
  | cons row rest ih =>
    refine Program.uses_bind (accessFor_uses (accesses_settling _)) fun r => ?_
    cases r with
    | error err => trivial
    | ok access =>
      refine Program.uses_bind ih fun r => ?_
      cases r <;> trivial

theorem listAPIKeys_settles : listAPIKeys.Uses Settling := by
  refine Program.uses_request_bind trivial fun r => ?_
  cases r with
  | error err => trivial
  | ok rows => exact resolveAPIKeys_settles rows

theorem revokeAPIKey_settles (id : Nat) : (revokeAPIKey id).Uses Settling := by
  refine Program.uses_request_bind trivial fun r => ?_
  cases r with
  | error err => trivial
  | ok n => exact Program.uses_ite trivial trivial

/-- After an insertion the assignment is all that is left to write. -/
theorem obeys_setAccess {β : Type} {k : Progress} (p : Principal) (access : AccessControl)
    {f : Except GoError Unit → SQL β}
    (hf : ∀ r, connection.obeys pairing (f r) k fun _ _ => True) :
    connection.obeys pairing (setAccess p access >>= f) k fun _ _ => True := by
  have hkept : connection.obeys pairing (setAccess p access) k fun k' _ => k' = k := by
    refine Machine.obeys_of_uses (P := fun s : Statement => s = .selectAccess p ∨ s = .selectExisting p ∨
      ∃ access, s = .upsertAssignment p access) ?_ ?_ (setAccess_uses ?_ access) k
    · rintro k s (rfl | rfl | ⟨access, rfl⟩) <;> trivial
    · rintro k ⟨db, s, r⟩ (rfl | rfl | ⟨access, rfl⟩) <;> rfl
    · exact ⟨.inl rfl, .inr (.inl rfl), fun access => .inr (.inr ⟨access, rfl⟩)⟩
  refine Machine.obeys_bind.mpr (Machine.obeys_mono hkept ?_)
  rintro k' r rfl
  exact hf r

theorem createUserWithAccess_pairs (username passwordHash : String) (mustChange : Bool)
    (access : AccessControl) (now : Time) : connection.obeys pairing
      (createUserWithAccess username passwordHash mustChange access now) .even fun _ _ => True := by
  unfold createUserWithAccess
  split
  · refine ⟨trivial, fun db r db' _ _ => ?_⟩
    cases r with
    | error err => trivial
    | ok n =>
      refine ⟨rfl, fun db r db' _ _ => ?_⟩
      cases r with
      | error err => trivial
      | ok id =>
        refine obeys_setAccess _ _ fun r => ?_
        cases r with
        -- the creation takes the user back
        | error err => exact ⟨.inr rfl, fun _ _ _ _ _ => trivial⟩
        | ok _ => trivial
  · trivial

theorem bootstrap_pairs (adminUser adminPassword : String) (hash : Except GoError String)
    (now : Time) : connection.obeys pairing (bootstrap adminUser adminPassword hash now) .even
      fun _ _ => True := by
  refine obeys_settling_bind hasAnyUser_settles fun r => ?_
  rcases r with err | _ | _
  · trivial
  · change connection.obeys pairing (ite _ _ _) .even _
    split
    · trivial
    · split
      · trivial
      · cases hash with
        | error err => trivial
        | ok hash =>
          refine Machine.obeys_bind.mpr (Machine.obeys_mono
            (createUserWithAccess_pairs _ _ _ _ _) fun _ r _ => ?_)
          cases r <;> trivial
  · trivial

theorem provisionOIDCUser_pairs {k : Progress} (username subject : String)
    (inserted : Except SQLError Nat) :
    connection.obeys pairing (provisionOIDCUser username subject inserted) k fun _ _ => True := by
  cases inserted with
  | error err => trivial
  | ok id =>
    refine obeys_setAccess _ _ fun r => ?_
    cases r <;> trivial

theorem getOrCreateOIDCUser_pairs (subject username : String) (now : Time) :
    connection.obeys pairing (getOrCreateOIDCUser subject username now) .even fun _ _ => True := by
  refine ⟨trivial, fun db r db' _ _ => ?_⟩
  rcases r with err | _ | row
  · trivial
  · refine ⟨rfl, fun db r db' _ _ => ?_⟩
    rcases r with (_ | _ | text) | id
    · exact ⟨rfl, fun _ r _ _ _ => provisionOIDCUser_pairs _ _ r⟩
    · exact provisionOIDCUser_pairs username subject (.error .duplicateColumn)
    · exact provisionOIDCUser_pairs username subject (.error (.other text))
    · exact provisionOIDCUser_pairs username subject (.ok id)
  · exact Machine.obeys_mono (obeys_of_settling (withAccess_settles row false)) fun _ _ _ => trivial

/-- A deletion that found its user deletes the assignment next. -/
theorem deleteUser_pairs (id : Nat) :
    connection.obeys pairing (deleteUser id) .even fun _ _ => True := by
  refine obeys_settling_bind (accessFor_uses (accesses_settling _)) fun r => ?_
  cases r with
  | error err => trivial
  | ok access =>
    change connection.obeys pairing (ite _ _ _) .even _
    split
    · trivial
    · refine ⟨.inl rfl, fun db r db' _ _ => ?_⟩
      cases r with
      | error err => trivial
      | ok n =>
        change connection.obeys pairing (ite _ _ _) (ite _ _ _) _
        split
        · trivial
        · exact ⟨rfl, fun _ _ _ _ _ => trivial⟩

theorem pairs_of_settling {α : Type} {p : SQL α} (h : p.Uses Settling) :
    connection.obeys pairing p .even fun _ _ => True :=
  Machine.obeys_mono (obeys_of_settling h) fun _ _ _ => trivial

theorem pairs_map {α β : Type} {p : SQL α}
    (h : connection.obeys pairing p .even fun _ _ => True) (f : α → β) :
    connection.obeys pairing (f <$> p) .even fun _ _ => True := by
  rw [map_eq_pure_bind]
  exact Machine.obeys_bind.mpr (Machine.obeys_mono h fun _ _ _ => trivial)

theorem accountOp_pairs (op : AccountOp) :
    connection.obeys pairing op.run .even fun _ _ => True := by
  cases op with
  | bootstrap _ _ _ _ => exact pairs_map (bootstrap_pairs _ _ _ _) _
  | createUser _ _ _ _ | createUserWithAccess _ _ _ _ _ =>
    exact pairs_map (createUserWithAccess_pairs _ _ _ _ _) _
  | getOrCreateOIDCUser _ _ _ => exact pairs_map (getOrCreateOIDCUser_pairs _ _ _) _
  | getUserByUsername _ | getUserByID _ | sessionUser _ _ =>
    exact pairs_map (pairs_of_settling (lookupUser_settles _ _ _)) _
  | createSession _ _ _ _ => exact pairs_map (pairs_of_settling (createSession_settles _ _ _ _)) _
  | listUsers => exact pairs_map (pairs_of_settling listUsers_settles) _
  | deleteUser _ => exact pairs_map (deleteUser_pairs _) _
  | setAccess p _ =>
    exact pairs_map (pairs_of_settling (setAccess_uses (accesses_settling p) _)) _
  | createAPIKey _ _ _ _ | createAPIKeyWithAccess _ _ _ _ _ =>
    exact pairs_map (pairs_of_settling (createAPIKeyWithAccess_settles _ _ _ _ _)) _
  | authenticateAPIKey _ _ => exact pairs_map (pairs_of_settling (authenticateAPIKey_settles _ _)) _
  | listAPIKeys => exact pairs_map (pairs_of_settling listAPIKeys_settles) _
  | revokeAPIKey _ => exact pairs_map (pairs_of_settling (revokeAPIKey_settles _)) _

/-! ### Handlers -/

theorem handleListUsers_settles : handleListUsers.Uses Settling := by
  refine Program.uses_bind listUsers_settles fun r => ?_
  cases r <;> trivial

theorem handleCreateUser_pairs (body : Option CreateUserBody) (hash : Except GoError String)
    (now : Time) : connection.obeys pairing (handleCreateUser body hash now) .even
      fun _ _ => True := by
  cases body with
  | none => trivial
  | some req =>
    change connection.obeys pairing (ite _ _ _) .even _
    split
    · trivial
    · cases hash with
      | error err => trivial
      | ok hash =>
        refine Machine.obeys_bind.mpr (Machine.obeys_mono
          (createUserWithAccess_pairs _ _ _ _ _) fun _ r _ => ?_)
        cases r <;> trivial

theorem demotesLast_settles (user : User) (access : AccessControl) :
    (demotesLast user access).Uses Settling := by
  unfold demotesLast
  split
  · refine Program.uses_bind adminCount_settles fun r => ?_
    cases r <;> trivial
  · trivial

theorem handleUpdateUserAccess_settles (id : Option Nat) (body : Option AccessControl) :
    (handleUpdateUserAccess id body).Uses Settling := by
  unfold handleUpdateUserAccess
  split
  · trivial
  · trivial
  · refine Program.uses_bind (lookupUser_settles _ _ _) fun r => ?_
    cases r with
    | error err => exact Program.uses_ite trivial trivial
    | ok user =>
      refine Program.uses_ite trivial (Program.uses_bind (demotesLast_settles _ _) fun r => ?_)
      rcases r with err | _ | _
      · trivial
      · refine Program.uses_bind (setAccess_uses (accesses_settling _) _) fun r => ?_
        cases r <;> trivial
      · trivial

theorem deletesLast_settles (user : User) : (deletesLast user).Uses Settling := by
  unfold deletesLast
  split
  · refine Program.uses_bind adminCount_settles fun r => ?_
    cases r <;> trivial
  · trivial

theorem handleDeleteUser_pairs (id current : Option Nat) :
    connection.obeys pairing (handleDeleteUser id current) .even fun _ _ => True := by
  cases id with
  | none => trivial
  | some id =>
    refine obeys_settling_bind (lookupUser_settles _ _ _) fun r => ?_
    cases r with
    | error err =>
      change connection.obeys pairing (ite _ _ _) .even _
      split <;> trivial
    | ok user =>
      change connection.obeys pairing (ite _ _ _) .even _
      split
      · trivial
      · split
        · trivial
        · refine obeys_settling_bind (deletesLast_settles _) fun last => ?_
          change connection.obeys pairing (ite _ _ _) .even _
          split
          · trivial
          · refine Machine.obeys_bind.mpr (Machine.obeys_mono (deleteUser_pairs _) fun _ r _ => ?_)
            cases r <;> trivial

theorem request_pairs (req : Request) :
    connection.obeys pairing req.run .even fun _ _ => True := by
  cases req with
  | listUsers => exact pairs_map (pairs_of_settling handleListUsers_settles) _
  | createUser _ _ _ => exact pairs_map (handleCreateUser_pairs _ _ _) _
  | updateUserAccess _ _ =>
    exact pairs_map (pairs_of_settling (handleUpdateUserAccess_settles _ _)) _
  | deleteUser _ _ => exact pairs_map (handleDeleteUser_pairs _ _) _
  | account op => exact pairs_map (accountOp_pairs op) _

/-! ### Runs -/

theorem resolvedRole_of_assignment {db : Database} {id : Nat} {access : AccessControl}
    (h : db.assignment (.user, id) = some access) : resolvedRole db id = access.role := by
  simp [resolvedRole, h]

theorem assignment_of_mem {db : Database} (hkeys : (db.assignments.map Prod.fst).Nodup)
    {row : Principal × AccessControl} (h : row ∈ db.assignments) : db.assignment row.1 = some row.2 := by
  rw [assignment_eq_lookup, Table.lookup_of_mem hkeys h]
  rfl

/-- Where no request is between its two writes, the administrators are counted. -/
theorem Accounted.countsAdmins {db : Database} {k : ι → Progress} (h : Accounted db k)
    (hsettled : ∀ i, ¬ (k i).Pending db) : CountsAdmins db := by
  rw [countsAdmins_iff]
  have hids : (db.users.map fun user => ((.user, user.id) : Principal)).Nodup := by
    have hmap : (db.users.map fun user => ((.user, user.id) : Principal)) =
        (db.users.map UserRow.id).map (Prod.mk .user) := by
      rw [List.map_map]
      rfl
    rw [hmap]
    exact h.ids.map fun a b hab => (Prod.mk.injEq _ _ _ _ ▸ hab).2
  refine Table.countP_eq_countP h.keys hids fun p => ⟨?_, ?_⟩
  · rintro ⟨⟨⟨type, id⟩, access⟩, hrow, hadmin, rfl⟩
    obtain ⟨rfl, hrole⟩ := of_decide_eq_true hadmin
    have hassigned := assignment_of_mem h.keys hrow
    have hthere : HasUser db id := by
      refine (h.owned id access hassigned hrole).resolve_right fun ⟨i, hi⟩ => hsettled i ?_
      rw [hi]
      exact (congrArg (Option.map AccessControl.role) hassigned).trans (congrArg some hrole)
    obtain ⟨user, huser, rfl⟩ := hthere
    exact ⟨user, huser, decide_eq_true ((resolvedRole_of_assignment hassigned).trans hrole), rfl⟩
  · rintro ⟨user, huser, hadmin, rfl⟩
    have hrole := of_decide_eq_true hadmin
    cases hassigned : db.assignment (.user, user.id) with
    | none =>
      obtain ⟨i, hi⟩ := h.assigned user.id ⟨user, huser, rfl⟩ hassigned
      refine absurd ?_ (hsettled i)
      rw [hi]
      exact ⟨⟨user, huser, rfl⟩, hassigned⟩
    | some access =>
      rw [resolvedRole_of_assignment hassigned] at hrole
      exact ⟨_, lookup_mem_assignments hassigned, decide_eq_true ⟨rfl, hrole⟩, rfl⟩

/-- In every run that writes administrators only for users that are there, the count is right in
every state in which no request is between its two writes. -/
theorem adminCount_settled [DecidableEq ι] {requests : ι → Request} {db db' : Database}
    {history : List (ι × AccountEvent)} {pool' : ι → SQL Unit} (hclean : Clean db)
    (hrun : connection.PoolRuns (fun i => (requests i).run) db history pool' db')
    (hwrites : Machine.Throughout WritesForUser [] history)
    (hsettled : ∀ i, ¬ (progress history i).Pending db') : CountsAdmins db' := by
  obtain ⟨k, ⟨hk, haccounted⟩, -⟩ := hrun.contracts (C := fun _ => pairing) (A := WritesForUser)
    (Q := fun _ _ _ => True) (k := fun _ => .even)
    (J := fun db k past => k = progress past ∧ Accounted db k)
    (fun {w w₀ w₁ k past} i {op r} hJ hrely hstep hwrite hallowed => by
      obtain rfl : w₀ = w := hrely
      obtain ⟨rfl, haccounted⟩ := hJ
      refine ⟨trivial, (Contract.learnedBy_concat ..).symm, ?_⟩
      refine haccounted.next hallowed ?_ hstep
      rintro id access rfl ⟨done, rfl⟩
      exact hwrite)
    hwrites (fun i => request_pairs (requests i)) ⟨rfl, hclean.accounted⟩
  rw [List.nil_append] at hk
  exact haccounted.countsAdmins (hk ▸ hsettled)

/-! ### Scripted runs -/

theorem replayed_runs [DecidableEq ι] (turns : List (ι × Option String)) (requests : ι → Request)
    (db : Database) :
    let played := Machine.replay Database.exec turns (fun i => (requests i).run) db
    connection.PoolRuns (fun i => (requests i).run) db played.1 played.2.1 played.2.2 :=
  Machine.replay_runs (M := connection) (fun _ => rfl) (fun _ fault _ => ⟨fault, rfl⟩) turns _ db

/-- The administrator of the first account, and a second one. -/
def twoAdmins : Database where
  users := bootstrapped.users ++
    [{ id := 2, username := "eve", passwordHash := "$2a$10$eve", mustChangePassword := false,
       createdAt := 1 }]
  assignments := bootstrapped.assignments ++ [((.user, 2), { role := .admin })]
  userSeq := 2
  protectedColumn := true

theorem twoAdmins_clean : Clean twoAdmins :=
  ⟨by decide, by decide, by decide, by decide, by decide⟩

/-- An administrator is created while the second one is deleted and signs in. -/
def shift : Fin 3 → Request
  | 0 => .createUser (some ⟨"carol", "password", { role := .admin }⟩) (.ok "$2a$10$carol") 2
  | 1 => .deleteUser (some 2) (some 1)
  | 2 => .account (.getUserByUsername "eve")

/-- The three requests, statement by statement in turn. -/
def shifted : List (Fin 3 × AccountEvent) × (Fin 3 → SQL Unit) × Database :=
  Machine.replay Database.exec ((List.replicate 6 [0, 1, 2]).flatten.map fun i => (i, none))
    (fun i => (shift i).run) twoAdmins

theorem adminCount_settled_shifted : shifted.1.length = 12 ∧ adminRows shifted.2.2 = 2 ∧
    CountsAdmins shifted.2.2 :=
  ⟨by decide +kernel, by decide +kernel, adminCount_settled twoAdmins_clean
    (replayed_runs _ shift twoAdmins) (by decide +kernel) (by decide +kernel)⟩

/-- The second administrator is deleted twice at once. -/
def deletions : Bool → Request := fun _ => .deleteUser (some 2) (some 1)

/-- Both deletions find the user, the first one completes, and then the second one. -/
def deleted : List (Bool × AccountEvent) × (Bool → SQL Unit) × Database :=
  Machine.replay Database.exec (([false, false, false, true, true, true] ++
    List.replicate 3 false ++ List.replicate 4 true).map fun i => (i, none))
    (fun i => (deletions i).run) twoAdmins

theorem deletions_inflate : ¬ ∀ (requests : Bool → Request) (db db' : Database)
    (history : List (Bool × AccountEvent)) (pool' : Bool → SQL Unit), Clean db →
    connection.PoolRuns (fun i => (requests i).run) db history pool' db' →
    (∀ i, pool' i = pure ()) → CountsAdmins db' := by
  intro hcounts
  have hrun : connection.PoolRuns (fun i => (deletions i).run) twoAdmins deleted.1 deleted.2.1
      deleted.2.2 := replayed_runs _ deletions twoAdmins
  have hcount := hcounts deletions _ _ _ _ twoAdmins_clean hrun fun i => ?_
  · have hrows : adminRows deleted.2.2 = 2 := by decide +kernel
    have hadmins : resolvedAdmins deleted.2.2 = 1 := by decide +kernel
    have hequal : adminRows deleted.2.2 = resolvedAdmins deleted.2.2 := countsAdmins_iff.mp hcount
    omega
  · cases i <;> rfl

end Doupro.Accounts
