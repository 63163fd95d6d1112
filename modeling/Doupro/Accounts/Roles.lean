import Doupro.Accounts.Programs
import Doupro.Interaction.Threads

/-!
# Who is an administrator

Account operations run beside each other in any number, process after process, and every
process first replays the migrations. Each operation obeys a contract: it makes a principal
an administrator only if it knows the principal to be entitled to it. Runs in which no access
read and no migration meets an unentitled principal without an assignment keep the role
confined to entitled principals.
-/

namespace Doupro.Accounts

open Interaction

/-! ### Operations -/

/-- One use of an account function. -/
inductive AccountOp where
  | bootstrap (adminUser adminPassword : String) (hash : Except GoError String) (now : Time)
  | createUser (username passwordHash : String) (mustChangePassword : Bool) (now : Time)
  | createUserWithAccess (username passwordHash : String) (mustChangePassword : Bool)
    (access : AccessControl) (now : Time)
  | getOrCreateOIDCUser (subject username : String) (now : Time)
  | getUserByUsername (username : String)
  | getUserByID (id : Nat)
  | sessionUser (tokenHash : String) (now : Time)
  | createSession (tokenHash : String) (userID : Nat) (ttl : Duration) (now : Time)
  | listUsers
  | deleteUser (id : Nat)
  | setAccess (p : Principal) (access : AccessControl)
  | createAPIKey (name keyHash keyPrefix : String) (now : Time)
  | createAPIKeyWithAccess (name keyHash keyPrefix : String) (access : AccessControl) (now : Time)
  | authenticateAPIKey (keyHash : String) (now : Time)
  | listAPIKeys
  | revokeAPIKey (id : Nat)

/-- The principals in the reply of an operation, with the access each resolved to. -/
class Resolves (α : Type) where
  accesses : α → List (Principal × AccessControl)

instance : Resolves Unit := ⟨fun _ => []⟩
instance : Resolves Nat := ⟨fun _ => []⟩
instance : Resolves User := ⟨fun u => [((.user, u.id), u.access)]⟩
instance : Resolves APIKey := ⟨fun key => [((.apiKey, key.id), key.access)]⟩
instance {α : Type} [Resolves α] : Resolves (List α) := ⟨fun as => as.flatMap Resolves.accesses⟩

/-- An error resolves nothing. -/
def resolved {α : Type} [Resolves α] : Except GoError α → List (Principal × AccessControl)
  | .error _ => []
  | .ok a => Resolves.accesses a

/-- The program of an operation, with the accesses it resolved as its result. -/
def AccountOp.run : AccountOp → SQL (List (Principal × AccessControl))
  | .bootstrap adminUser adminPassword hash now =>
    resolved <$> Accounts.bootstrap adminUser adminPassword hash now
  | .createUser username passwordHash mustChange now =>
    resolved <$> Accounts.createUser username passwordHash mustChange now
  | .createUserWithAccess username passwordHash mustChange access now =>
    resolved <$> Accounts.createUserWithAccess username passwordHash mustChange access now
  | .getOrCreateOIDCUser subject username now =>
    resolved <$> Accounts.getOrCreateOIDCUser subject username now
  | .getUserByUsername username => resolved <$> Accounts.getUserByUsername username
  | .getUserByID id => resolved <$> Accounts.getUserByID id
  | .sessionUser tokenHash now => resolved <$> Accounts.sessionUser tokenHash now
  | .createSession tokenHash userID ttl now =>
    resolved <$> Accounts.createSession tokenHash userID ttl now
  | .listUsers => resolved <$> Accounts.listUsers
  | .deleteUser id => resolved <$> Accounts.deleteUser id
  | .setAccess p access => resolved <$> Accounts.setAccess p access
  | .createAPIKey name keyHash keyPrefix now =>
    resolved <$> Accounts.createAPIKey name keyHash keyPrefix now
  | .createAPIKeyWithAccess name keyHash keyPrefix access now =>
    resolved <$> Accounts.createAPIKeyWithAccess name keyHash keyPrefix access now
  | .authenticateAPIKey keyHash now => resolved <$> Accounts.authenticateAPIKey keyHash now
  | .listAPIKeys => resolved <$> Accounts.listAPIKeys
  | .revokeAPIKey id => resolved <$> Accounts.revokeAPIKey id

namespace AccountOp

/-- A creation that asks for the role admin. -/
def createsAdmin : AccountOp → Bool
  | .bootstrap _ _ _ _ | .createUser _ _ _ _ | .createAPIKey _ _ _ _ => true
  | .createUserWithAccess _ _ _ access _ | .createAPIKeyWithAccess _ _ _ access _ =>
    access.role = .admin
  | _ => false

/-- A creation of a local account. -/
def createsLocal : AccountOp → Bool
  | .bootstrap _ _ _ _ | .createUser _ _ _ _ | .createUserWithAccess _ _ _ _ _ => true
  | _ => false

/-- An access update that gives a principal the role admin. -/
def promotes (p : Principal) : AccountOp → Bool
  | .setAccess q access => q = p ∧ access.role = .admin
  | _ => false

end AccountOp

/-- Who runs a statement: the start-up of a process, or one of its operations. -/
inductive Origin where
  | startUp (process : Nat)
  | operation (process number : Nat) (op : AccountOp)

namespace Origin

/-- Processes and their operations are numbered. -/
def key : Origin → Nat × Option Nat
  | .startUp process => (process, none)
  | .operation process number _ => (process, some number)

def createsAdmin : Origin → Bool
  | .startUp _ => false
  | .operation _ _ op => op.createsAdmin

def createsLocal : Origin → Bool
  | .startUp _ => false
  | .operation _ _ op => op.createsLocal

def promotes (p : Principal) : Origin → Bool
  | .startUp _ => false
  | .operation _ _ op => op.promotes p

end Origin

/-- A statement that was run, and by whom. -/
abbrev Entry := Origin × Event Statements Database

/-- An entry makes its principal an administrator on purpose: the bootstrap user is
inserted, a principal is created with role admin, or an access update gives the role. -/
def entitles (p : Principal) : Entry → Bool
  | (who, ⟨db, .insertUser _ _ _ _ _ _, .ok id⟩) =>
    p = (.user, id) && (who.createsAdmin || who.createsLocal && db.users.isEmpty)
  | (who, ⟨_, .insertAPIKey _ _ _ _, .ok id⟩) => p = (.apiKey, id) && who.createsAdmin
  | (who, ⟨_, .upsertAssignment q _, .ok ()⟩) => p = q && who.promotes p
  | _ => false

/-- The principal was entitled to the role admin before a point of the run. -/
def Entitled (past : List Entry) (p : Principal) : Prop := past.any (entitles p) = true

instance (past : List Entry) (p : Principal) : Decidable (Entitled past p) :=
  inferInstanceAs (Decidable (_ = _))

theorem Entitled.append {past : List Entry} {p : Principal} (h : Entitled past p)
    (later : List Entry) : Entitled (past ++ later) p := by
  rw [Entitled, List.any_append, h, Bool.true_or]

theorem entitled_last {past : List Entry} {p : Principal} {entry : Entry}
    (h : entitles p entry = true) : Entitled (past ++ [entry]) p := by
  rw [Entitled, List.any_append, List.any_cons, h, Bool.true_or, Bool.or_true]

/-- A count of users that found none. -/
def countsNone (who : Origin) : Entry → Bool
  | (other, ⟨_, .countUsers, .ok 0⟩) => other.key = who.key
  | _ => false

/-- Nothing is taken for the work of an older binary that is not: an access read and a
migration meet no principal without an assignment, unless it is entitled. And a creation that
counted no users and asks for a lesser role is the first to insert one. -/
def Assigned (past : List Entry) : Entry → Prop
  | (_, ⟨_, .selectAccess p, .ok none⟩) => Entitled past p
  | (_, ⟨db, .backfill type, .ok ()⟩) =>
    ∀ p ∈ db.principals type, db.assignment p = none → Entitled past p
  | (who, ⟨db, .insertUser _ _ _ _ _ _, .ok _⟩) =>
    who.createsLocal = true → who.createsAdmin = false → past.any (countsNone who) = true →
      db.users = []
  | _ => True

instance (past : List Entry) (entry : Entry) : Decidable (Assigned past entry) := by
  unfold Assigned
  split <;> infer_instance

/-! ### The contract of an operation -/

/-- What an operation knows of the principals it met. -/
structure Knowledge where
  entitled : List Principal := []
  countedNone : Bool := false

namespace Knowledge

def learn (k : Knowledge) (p : Principal) : Knowledge := { k with entitled := p :: k.entitled }

end Knowledge

def contract (op : AccountOp) : Contract Statements Database Knowledge where
  allowed
    | k, .upsertAssignment p access =>
      access.role = .admin → p ∈ k.entitled ∨ op.promotes p = true
    | _, .backfill _ | _, .addProtectedColumn | _, .protectBootstrap => False
    | _, _ => True
  expects
    | k, ⟨db, .insertUser _ _ _ _ _ _, .ok _⟩ =>
      op.createsLocal = true → op.createsAdmin = false → k.countedNone = true → db.users = []
    | _, _ => True
  next
    | k, ⟨_, .countUsers, .ok n⟩ => { k with countedNone := n = 0 }
    | k, ⟨db, .insertUser _ _ _ _ _ _, .ok id⟩ =>
      if op.createsAdmin = true ∨ op.createsLocal = true ∧ db.users = [] then k.learn (.user, id)
      else k
    | k, ⟨_, .insertAPIKey _ _ _ _, .ok id⟩ =>
      if op.createsAdmin = true then k.learn (.apiKey, id) else k
    | k, ⟨_, .selectAccess p, .ok none⟩ => k.learn p
    | k, ⟨_, .selectAccess p, .ok (some access)⟩ =>
      if access.role = .admin then k.learn p else k
    | k, _ => k

variable {op : AccountOp} {k : Knowledge}

/-- An access a program resolved is known to be right. -/
def Knows (k : Knowledge) (accesses : List (Principal × AccessControl)) : Prop :=
  ∀ entry ∈ accesses, entry.2.role = .admin → entry.1 ∈ k.entitled

theorem Knows.mono {k k' : Knowledge} {accesses : List (Principal × AccessControl)}
    (h : Knows k accesses) (hsub : k.entitled ⊆ k'.entitled) : Knows k' accesses :=
  fun entry hmem hrole => hsub (h entry hmem hrole)

/-- What a part of an operation leaves known: no less than before, and its own result. -/
def Learned {α : Type} [Resolves α] (k k' : Knowledge) (r : Except GoError α) : Prop :=
  k.entitled ⊆ k'.entitled ∧ Knows k' (resolved r)

theorem learned_error {α : Type} [Resolves α] (k : Knowledge) (err : GoError) :
    Learned (α := α) k k (.error err) :=
  ⟨List.Subset.refl _, by simp [Knows, resolved]⟩

theorem learned_unit (k : Knowledge) (r : Except GoError Unit) : Learned k k r :=
  ⟨List.Subset.refl _, by cases r <;> simp [Knows, resolved, Resolves.accesses]⟩

theorem writeAccess_obeys {p : Principal} {access : AccessControl}
    (h : access.role = .admin → p ∈ k.entitled ∨ op.promotes p = true) :
    connection.obeys (contract op) (writeAccess p access) k fun k' _ => k' = k := by
  refine ⟨h, fun db r db' _ _ => ?_⟩
  cases r <;> rfl

/-- An assignment is written only if the role may be given. -/
theorem setAccess_obeys {p : Principal} {access : AccessControl}
    (h : access.role = .admin → p ∈ k.entitled ∨ op.promotes p = true) :
    connection.obeys (contract op) (setAccess p access) k fun k' _ => k' = k := by
  unfold setAccess
  split
  · refine ⟨trivial, fun db r db' _ _ => ?_⟩
    cases r with
    | error err =>
      change connection.obeys (contract op) (ite _ _ _) k _
      split
      · exact writeAccess_obeys h
      · rfl
    | ok current =>
      cases current with
      | none => exact writeAccess_obeys h
      | some current =>
        change connection.obeys (contract op) (ite _ _ _) k _
        split
        · rfl
        · exact writeAccess_obeys h
  · rfl

/-- A resolved role admin is of a principal known to be entitled. -/
theorem accessFor_obeys (p : Principal) :
    connection.obeys (contract op) (accessFor p) k fun k' r => k.entitled ⊆ k'.entitled ∧
      ∀ access, r = .ok access → access.role = .admin → p ∈ k'.entitled := by
  refine ⟨trivial, fun db r db' _ _ => ?_⟩
  cases r with
  | error err => exact ⟨List.Subset.refl _, by simp⟩
  | ok found =>
    cases found with
    | some access =>
      refine ⟨?_, ?_⟩
      · simp only [contract]
        split
        · exact List.subset_cons_self _ _
        · exact List.Subset.refl _
      · intro found hfound hrole
        rw [Except.ok.injEq] at hfound
        subst hfound
        simp only [contract, if_pos hrole]
        exact List.mem_cons_self
    | none =>
      change connection.obeys (contract op) (setAccess p { role := .admin } >>= _) (k.learn p) _
      refine Machine.obeys_bind.mpr ?_
      refine Machine.obeys_mono (setAccess_obeys fun _ => .inl List.mem_cons_self) ?_
      rintro _ r rfl
      cases r with
      | error err => exact ⟨List.subset_cons_self _ _, by simp⟩
      | ok _ => exact ⟨List.subset_cons_self _ _, fun _ _ _ => List.mem_cons_self⟩

/-! ### Every operation obeys its contract -/

/-- A creation of a local account, on behalf of an operation that asks for its role. -/
theorem createUserWithAccess_obeys {access : AccessControl} (hlocal : op.createsLocal = true)
    (hadmin : access.role = .admin → op.createsAdmin = true) (username passwordHash : String)
    (mustChange : Bool) (now : Time) :
    connection.obeys (contract op)
      (createUserWithAccess username passwordHash mustChange access now) k (Learned k) := by
  unfold createUserWithAccess
  split
  · refine ⟨trivial, fun db r db' _ _ => ?_⟩
    cases r with
    | error err => exact learned_error k _
    | ok n =>
      refine ⟨trivial, fun db r db' _ hexpects => ?_⟩
      cases r with
      | error err => exact learned_error k _
      | ok id =>
        -- a lesser role is only raised if the count said so, and then the table is empty
        have hentitled : (if n = 0 then
            ({ role := .admin, isProtected := true } : AccessControl) else access).role = .admin →
            op.createsAdmin = true ∨ op.createsLocal = true ∧ db.users = [] := by
          intro hrole
          by_cases hop : op.createsAdmin = true
          · exact .inl hop
          · refine .inr ⟨hlocal, hexpects hlocal (Bool.not_eq_true _ ▸ hop) ?_⟩
            by_cases hn : n = 0
            · simp [contract, hn]
            · rw [if_neg hn] at hrole
              exact absurd (hadmin hrole) hop
        change connection.obeys _ (setAccess _ _ >>= _) _ _
        refine Machine.obeys_bind.mpr (Machine.obeys_mono (setAccess_obeys ?_) ?_)
        · intro hrole
          refine .inl ?_
          simp only [contract, if_pos (hentitled hrole)]
          exact List.mem_cons_self
        · rintro k' r rfl
          cases r with
          | error err =>
            refine ⟨trivial, fun db r db' _ _ => ⟨?_, by simp [Knows, resolved]⟩⟩
            cases r <;> (simp only [contract]; split <;> simp [Knowledge.learn])
          | ok _ =>
            refine ⟨?_, fun entry hentry hrole => ?_⟩
            · simp only [contract]
              split <;> simp [Knowledge.learn]
            · simp only [resolved, Resolves.accesses, List.mem_singleton] at hentry
              subst hentry
              simp only [contract, if_pos (hentitled hrole)]
              exact List.mem_cons_self
  · exact learned_error k _

theorem hasAnyUser_obeys :
    connection.obeys (contract op) hasAnyUser k fun k' _ => k.entitled ⊆ k'.entitled := by
  refine ⟨trivial, fun db r db' _ _ => ?_⟩
  cases r <;> exact List.Subset.refl _

theorem bootstrap_obeys (adminUser adminPassword : String) (hash : Except GoError String)
    (now : Time) : connection.obeys (contract (.bootstrap adminUser adminPassword hash now))
      (bootstrap adminUser adminPassword hash now) k (Learned k) := by
  refine Machine.obeys_bind.mpr (Machine.obeys_mono hasAnyUser_obeys ?_)
  intro k₁ r hk₁
  cases r with
  | error err => exact ⟨hk₁, by simp [Knows, resolved]⟩
  | ok some => cases some with
    | true => exact ⟨hk₁, by simp [Knows, resolved, Resolves.accesses]⟩
    | false =>
      change connection.obeys _ (ite _ _ _) _ _
      split
      · exact ⟨hk₁, by simp [Knows, resolved]⟩
      · split
        · exact ⟨hk₁, by simp [Knows, resolved]⟩
        · cases hash with
          | error err => exact ⟨hk₁, by simp [Knows, resolved]⟩
          | ok hash =>
            refine Machine.obeys_bind.mpr (Machine.obeys_mono
              (createUserWithAccess_obeys rfl (fun _ => rfl) _ _ _ _) ?_)
            rintro k₂ r ⟨hgrows, -⟩
            have hsub : k.entitled ⊆ k₂.entitled := List.Subset.trans hk₁ hgrows
            cases r with
            | error err => exact ⟨hsub, by simp [Knows, resolved]⟩
            | ok _ => exact ⟨hsub, by simp [Knows, resolved, Resolves.accesses]⟩

theorem withAccess_obeys (row : UserRow) (created : Bool) :
    connection.obeys (contract op) (withAccess row created) k (Learned k) := by
  refine Machine.obeys_bind.mpr (Machine.obeys_mono (accessFor_obeys (.user, row.id)) ?_)
  rintro k' r ⟨hgrows, hknown⟩
  cases r with
  | error err => exact ⟨hgrows, by simp [Knows, resolved]⟩
  | ok access =>
    refine ⟨hgrows, fun entry hentry hrole => ?_⟩
    simp only [resolved, Resolves.accesses, List.mem_singleton] at hentry
    subst hentry
    exact hknown access rfl hrole

theorem lookupUser_obeys (key : UserKey) (label : String) (created : Bool) :
    connection.obeys (contract op) (lookupUser key label created) k (Learned k) := by
  refine ⟨trivial, fun db r db' _ _ => ?_⟩
  cases r with
  | error err => exact learned_error k _
  | ok found => cases found with
    | none => exact learned_error k _
    | some row => exact withAccess_obeys row created

/-- What two steps of a loop learn adds up. -/
theorem Learned.cons {α : Type} [Resolves α] {k k₁ k₂ : Knowledge} {a : α} {as : List α}
    (hfirst : Learned k k₁ (.ok a)) (hrest : Learned k₁ k₂ (.ok as)) :
    Learned k k₂ (.ok (a :: as)) := by
  refine ⟨List.Subset.trans hfirst.1 hrest.1, fun entry hentry hrole => ?_⟩
  simp only [resolved, Resolves.accesses, List.flatMap_cons, List.mem_append] at hentry
  rcases hentry with hentry | hentry
  · exact hrest.1 (hfirst.2 entry hentry hrole)
  · exact hrest.2 entry hentry hrole

theorem resolveUsers_obeys (rows : List UserRow) :
    connection.obeys (contract op) (resolveUsers rows) k (Learned k) := by
  induction rows generalizing k with
  | nil => exact ⟨List.Subset.refl _, by simp [Knows, resolved, Resolves.accesses]⟩
  | cons row rest ih =>
    refine Machine.obeys_bind.mpr (Machine.obeys_mono (withAccess_obeys row true) ?_)
    intro k₁ r hfirst
    cases r with
    | error err => exact ⟨hfirst.1, by simp [Knows, resolved]⟩
    | ok user =>
      refine Machine.obeys_bind.mpr (Machine.obeys_mono ih ?_)
      intro k₂ r hrest
      cases r with
      | error err => exact ⟨List.Subset.trans hfirst.1 hrest.1, by simp [Knows, resolved]⟩
      | ok users => exact hfirst.cons hrest

theorem listUsers_obeys : connection.obeys (contract op) listUsers k (Learned k) := by
  refine ⟨trivial, fun db r db' _ _ => ?_⟩
  cases r with
  | error err => exact learned_error k _
  | ok rows => exact resolveUsers_obeys rows

theorem deleteUser_obeys (id : Nat) :
    connection.obeys (contract op) (deleteUser id) k (Learned k) := by
  refine Machine.obeys_bind.mpr (Machine.obeys_mono (accessFor_obeys (.user, id)) ?_)
  rintro k' r ⟨hgrows, -⟩
  cases r with
  | error err => exact ⟨hgrows, by simp [Knows, resolved]⟩
  | ok access =>
    change connection.obeys _ (ite _ _ _) _ _
    split
    · exact ⟨hgrows, by simp [Knows, resolved]⟩
    · refine ⟨trivial, fun db r db' _ _ => ?_⟩
      cases r with
      | error err => exact ⟨hgrows, by simp [Knows, resolved]⟩
      | ok n =>
        change connection.obeys _ (ite _ _ _) k' _
        split
        · exact ⟨hgrows, by simp [Knows, resolved]⟩
        · refine ⟨trivial, fun db r db' _ _ => ?_⟩
          cases r <;> exact ⟨hgrows, by simp [Knows, resolved, Resolves.accesses]⟩

/-- A provisioned identity is given the role read, which needs no title. -/
theorem provisionOIDCUser_obeys (username subject : String) (inserted : Except SQLError Nat) :
    connection.obeys (contract op) (provisionOIDCUser username subject inserted) k (Learned k) := by
  cases inserted with
  | error err => exact learned_error k _
  | ok id =>
    refine Machine.obeys_bind.mpr (Machine.obeys_mono (setAccess_obeys (by simp)) ?_)
    rintro k' r rfl
    cases r with
    | error err => exact learned_error _ _
    | ok _ => exact ⟨List.Subset.refl _, by simp [Knows, resolved, Resolves.accesses]⟩

theorem getOrCreateOIDCUser_obeys (subject username : String) (now : Time)
    (hop : op.createsLocal = false) (hadmin : op.createsAdmin = false) :
    connection.obeys (contract op) (getOrCreateOIDCUser subject username now) k (Learned k) := by
  have hinsert : ∀ (name : String) (e : Event Statements Database),
      e.op = .insertUser name "" false "oidc" (some subject) now →
      (contract op).next k e = k := by
    rintro name ⟨db, _, r⟩ rfl
    cases r <;> simp [contract, hop, hadmin]
  refine ⟨trivial, fun db r db' _ _ => ?_⟩
  cases r with
  | error err => exact learned_error k _
  | ok found => cases found with
    | some row => exact withAccess_obeys row false
    | none =>
      refine ⟨trivial, fun db r db' _ _ => ?_⟩
      change connection.obeys (contract op) _ ((contract op).next k _) _
      rw [hinsert username _ rfl]
      cases r with
      | ok id => exact provisionOIDCUser_obeys username subject (.ok id)
      | error err => cases err with
        | uniqueConstraint =>
          refine ⟨trivial, fun db r db' _ _ => ?_⟩
          rw [hinsert _ _ rfl]
          exact provisionOIDCUser_obeys _ _ r
        | duplicateColumn => exact provisionOIDCUser_obeys username subject (.error .duplicateColumn)
        | other text => exact provisionOIDCUser_obeys username subject (.error (.other text))

theorem createSession_obeys (tokenHash : String) (userID : Nat) (ttl : Duration) (now : Time) :
    connection.obeys (contract op) (createSession tokenHash userID ttl now) k (Learned k) := by
  refine ⟨trivial, fun db r db' _ _ => ?_⟩
  cases r with
  | error err => exact learned_error k _
  | ok _ => exact learned_unit k (.ok ())

theorem createAPIKeyWithAccess_obeys {access : AccessControl}
    (hadmin : access.role = .admin → op.createsAdmin = true) (name keyHash keyPrefix : String)
    (now : Time) : connection.obeys (contract op)
      (createAPIKeyWithAccess name keyHash keyPrefix access now) k (Learned k) := by
  unfold createAPIKeyWithAccess
  split
  · refine ⟨trivial, fun db r db' _ _ => ?_⟩
    cases r with
    | error err => exact learned_error k _
    | ok id =>
      change connection.obeys _ (setAccess _ _ >>= _) _ _
      refine Machine.obeys_bind.mpr (Machine.obeys_mono (setAccess_obeys ?_) ?_)
      · intro hrole
        refine .inl ?_
        simp only [contract, if_pos (hadmin hrole)]
        exact List.mem_cons_self
      · have hgrows : k.entitled ⊆ ((contract op).next k ⟨db,
            .insertAPIKey name keyHash keyPrefix now, .ok id⟩).entitled := by
          simp only [contract]
          split <;> simp [Knowledge.learn]
        rintro k' r rfl
        cases r with
        | error err =>
          refine ⟨trivial, fun db r db' _ _ => ?_⟩
          cases r <;> exact ⟨hgrows, by simp [Knows, resolved]⟩
        | ok _ => exact ⟨hgrows, by simp [Knows, resolved, Resolves.accesses]⟩
  · exact learned_error k _

/-- A row and the access resolved for it. -/
theorem apiKey_learned {k k' : Knowledge} {key : APIKey} (hgrows : k.entitled ⊆ k'.entitled)
    (h : key.access.role = .admin → (.apiKey, key.id) ∈ k'.entitled) : Learned k k' (.ok key) := by
  refine ⟨hgrows, fun entry hentry hrole => ?_⟩
  simp only [resolved, Resolves.accesses, List.mem_singleton] at hentry
  subst hentry
  exact h hrole

theorem authenticateAPIKey_obeys (keyHash : String) (now : Time) :
    connection.obeys (contract op) (authenticateAPIKey keyHash now) k (Learned k) := by
  refine ⟨trivial, fun db r db' _ _ => ?_⟩
  cases r with
  | error err => exact learned_error k _
  | ok found => cases found with
    | none => exact learned_error k _
    | some row =>
      change connection.obeys _ (accessFor _ >>= _) _ _
      refine Machine.obeys_bind.mpr (Machine.obeys_mono (accessFor_obeys (.apiKey, row.id)) ?_)
      rintro k' r ⟨hgrows, hknown⟩
      cases r with
      | error err => exact ⟨hgrows, by simp [Knows, resolved]⟩
      | ok access =>
        refine ⟨trivial, fun db r db' _ _ => ?_⟩
        cases r <;> exact apiKey_learned hgrows (hknown access rfl)

theorem resolveAPIKeys_obeys (rows : List APIKeyRow) :
    connection.obeys (contract op) (resolveAPIKeys rows) k (Learned k) := by
  induction rows generalizing k with
  | nil => exact ⟨List.Subset.refl _, by simp [Knows, resolved, Resolves.accesses]⟩
  | cons row rest ih =>
    refine Machine.obeys_bind.mpr (Machine.obeys_mono (accessFor_obeys (.apiKey, row.id)) ?_)
    rintro k₁ r ⟨hgrows, hknown⟩
    cases r with
    | error err => exact ⟨hgrows, by simp [Knows, resolved]⟩
    | ok access =>
      refine Machine.obeys_bind.mpr (Machine.obeys_mono ih ?_)
      intro k₂ r hrest
      cases r with
      | error err => exact ⟨List.Subset.trans hgrows hrest.1, by simp [Knows, resolved]⟩
      | ok keys => exact (apiKey_learned hgrows (hknown access rfl)).cons hrest

theorem listAPIKeys_obeys : connection.obeys (contract op) listAPIKeys k (Learned k) := by
  refine ⟨trivial, fun db r db' _ _ => ?_⟩
  cases r with
  | error err => exact learned_error k _
  | ok rows => exact resolveAPIKeys_obeys rows

theorem revokeAPIKey_obeys (id : Nat) :
    connection.obeys (contract op) (revokeAPIKey id) k (Learned k) := by
  refine ⟨trivial, fun db r db' _ _ => ?_⟩
  cases r with
  | error err => exact learned_error k _
  | ok n =>
    change connection.obeys (contract op) (ite _ _ _) k _
    split
    · exact learned_error k _
    · exact learned_unit k (.ok ())

theorem resolved_obeys {α : Type} [Resolves α] {p : SQL (Except GoError α)}
    (h : connection.obeys (contract op) p k (Learned k)) :
    connection.obeys (contract op) (resolved <$> p) k Knows := by
  rw [map_eq_pure_bind]
  exact Machine.obeys_bind.mpr (Machine.obeys_mono h fun k' r hr => hr.2)

theorem run_obeys (op : AccountOp) : connection.obeys (contract op) op.run k Knows := by
  cases op with
  | bootstrap _ _ _ _ => exact resolved_obeys (bootstrap_obeys _ _ _ _)
  | createUser _ _ _ _ =>
    exact resolved_obeys (createUserWithAccess_obeys rfl (fun _ => rfl) _ _ _ _)
  | createUserWithAccess _ _ _ access _ =>
    exact resolved_obeys (createUserWithAccess_obeys rfl (by simp [AccountOp.createsAdmin]) _ _ _ _)
  | getOrCreateOIDCUser _ _ _ => exact resolved_obeys (getOrCreateOIDCUser_obeys _ _ _ rfl rfl)
  | getUserByUsername _ | getUserByID _ | sessionUser _ _ =>
    exact resolved_obeys (lookupUser_obeys _ _ _)
  | createSession _ _ _ _ => exact resolved_obeys (createSession_obeys _ _ _ _)
  | listUsers => exact resolved_obeys listUsers_obeys
  | deleteUser _ => exact resolved_obeys (deleteUser_obeys _)
  | setAccess p access =>
    refine resolved_obeys (Machine.obeys_mono (setAccess_obeys fun hrole => .inr ?_) ?_)
    · simp [AccountOp.promotes, hrole]
    · rintro k' r rfl
      exact learned_unit _ r
  | createAPIKey _ _ _ _ =>
    exact resolved_obeys (createAPIKeyWithAccess_obeys (fun _ => rfl) _ _ _ _)
  | createAPIKeyWithAccess _ _ _ access _ =>
    exact resolved_obeys (createAPIKeyWithAccess_obeys (by simp [AccountOp.createsAdmin]) _ _ _ _)
  | authenticateAPIKey _ _ => exact resolved_obeys (authenticateAPIKey_obeys _ _)
  | listAPIKeys => exact resolved_obeys listAPIKeys_obeys
  | revokeAPIKey _ => exact resolved_obeys (revokeAPIKey_obeys _)

end Doupro.Accounts
