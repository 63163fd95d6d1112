import Doupro.Accounts.Roles
import Doupro.Table.Associations

/-!
# No implicit administrator

The step and run lemmas of the account store, from an empty database through any number of
processes, each of which can stop between any two statements.
-/

namespace Doupro.Accounts

open Interaction

/-! ### Processes -/

def startUpEntry (process : Nat) : Unit × Event Statements Database → Entry :=
  fun (_, e) => (.startUp process, e)

def operationEntry (process : Nat) (ops : Nat → AccountOp) : Nat × Event Statements Database → Entry :=
  fun (i, e) => (.operation process i (ops i), e)

/-- Runs from an empty database: how many processes there were, the statements they ran, the
accesses their operations resolved, and the database they left. A process stops anywhere in
its start-up, or serves any operations after it and stops anywhere in those. -/
inductive Lived : Nat → List Entry → List (Principal × AccessControl) → Database → Prop
  | empty : Lived 0 [] [] {}
  | stopped {n past outputs db h pool' db'} (hpast : Lived n past outputs db)
      (hstart : connection.PoolRuns (fun _ : Unit => migrate) db h pool' db') :
      Lived (n + 1) (past ++ h.map (startUpEntry n)) outputs db'
  | served {n past outputs db h started db₁ hist pool' db'} {ops : Nat → AccountOp}
      {results : List (List (Principal × AccessControl))} (hpast : Lived n past outputs db)
      (hstart : connection.PoolRuns (fun _ : Unit => migrate) db h started db₁)
      (hready : started () = .ret (.ok ()))
      (hserve : connection.PoolRuns (fun i => (ops i).run) db₁ hist pool' db')
      (hresults : ∀ result ∈ results, ∃ i, pool' i = .ret result) :
      Lived (n + 1) (past ++ h.map (startUpEntry n) ++ hist.map (operationEntry n ops))
        (outputs ++ results.flatten) db'

/-- Every assignment of the role admin is of an entitled principal. -/
def AdminRows (past : List Entry) (db : Database) : Prop :=
  ∀ row ∈ db.assignments, row.2.role = .admin → Entitled past row.1

theorem AdminRows.append {past : List Entry} {db : Database} (h : AdminRows past db)
    (later : List Entry) : AdminRows (past ++ later) db :=
  fun row hrow hrole => (h row hrow hrole).append later

/-- No principal was created yet. -/
def Vacant (db : Database) : Prop := db.users = [] ∧ db.apiKeys = [] ∧ db.assignments = []

/-! ### What a statement does to the assignments -/

theorem perform_upsert {db db' : Database} {p : Principal} {access : AccessControl} {u : Unit}
    (h : db.perform (.upsertAssignment p access) = .ok (u, db')) : db' = db.upsertAssignment p access := by
  simp only [Database.perform] at h
  split at h
  · rw [Except.ok.injEq, Prod.mk.injEq] at h
    exact h.2.symm
  · cases h

/-- An upsert leaves the other rows, and gives the row of its principal the new role. -/
theorem mem_upsertAssignment {db : Database} {p : Principal} {access : AccessControl}
    {row : Principal × AccessControl} (h : row ∈ (db.upsertAssignment p access).assignments) :
    row ∈ db.assignments ∨ (row.1 = p ∧ row.2.role = access.role) := by
  unfold Database.upsertAssignment Table.upsert at h
  split at h
  · obtain ⟨old, hold, rfl⟩ := Table.mem_updateWhere.mp h
    split
    · next hkey => exact .inr ⟨of_decide_eq_true hkey, rfl⟩
    · exact .inl hold
  · rcases List.mem_append.mp h with hold | hnew
    · exact .inl hold
    · obtain rfl := List.mem_singleton.mp hnew
      exact .inr ⟨rfl, rfl⟩

/-- A migration adds the role admin for principals that have no assignment. -/
theorem mem_backfill {db : Database} {type : PrincipalType} {row : Principal × AccessControl}
    (h : row ∈ (db.backfill type).assignments) : row ∈ db.assignments ∨
      (row.1 ∈ db.principals type ∧ db.assignment row.1 = none) := by
  rcases List.mem_append.mp h with hold | hnew
  · exact .inl hold
  · obtain ⟨p, hp, rfl⟩ := List.mem_map.mp hnew
    obtain ⟨hmem, hnone⟩ := List.mem_filter.mp hp
    exact .inr ⟨hmem, Option.isNone_iff_eq_none.mp hnone⟩

theorem lookup_mem_assignments {db : Database} {p : Principal} {access : AccessControl}
    (h : db.assignment p = some access) : (p, access) ∈ db.assignments :=
  Table.mem_of_lookup h

/-- Only four statements touch assignments, and only start-up changes the columns. -/
theorem perform_frame {db db' : Database} {s : Statement} {result : s.Result}
    (h : db.perform s = .ok (result, db')) : match s with
      | .upsertAssignment _ _ | .deleteUserAssignment _ | .backfill _ | .addProtectedColumn
      | .protectBootstrap => True
      | _ => db'.assignments = db.assignments ∧ db'.protectedColumn = db.protectedColumn := by
  cases s with
  | upsertAssignment _ _ | deleteUserAssignment _ | backfill _ | addProtectedColumn
  | protectBootstrap => trivial
  | countUsers | countAdmins | selectUser _ | selectUsers | selectAPIKey _ | selectAPIKeys | deleteUser _
  | deleteAPIKey _ | touchAPIKey _ _ =>
    simp only [Database.perform, Except.ok.injEq, Prod.mk.injEq] at h
    obtain ⟨-, rfl⟩ := h
    exact ⟨rfl, rfl⟩
  | selectAccess _ | selectExisting _ | insertUser _ _ _ _ _ _ | insertAPIKey _ _ _ _ =>
    simp only [Database.perform] at h
    split at h
    all_goals simp only [Except.ok.injEq, Prod.mk.injEq, reduceCtorEq] at h
    all_goals obtain ⟨-, rfl⟩ := h
    all_goals exact ⟨rfl, rfl⟩
  | insertSession _ =>
    simp only [Database.perform] at h
    repeat' split at h
    all_goals simp only [Except.ok.injEq, Prod.mk.injEq, reduceCtorEq] at h
    all_goals obtain ⟨-, rfl⟩ := h
    all_goals exact ⟨rfl, rfl⟩

/-- The statements of an operation touch assignments only by an upsert or a delete. -/
theorem perform_assignments {db db' : Database} {s : Statement} {result : s.Result}
    {op : AccountOp} {k : Knowledge} (h : db.perform s = .ok (result, db'))
    (hallowed : (contract op).allowed k s) : db'.protectedColumn = db.protectedColumn ∧
      ∀ row ∈ db'.assignments, row ∈ db.assignments ∨
        ∃ p access, s = .upsertAssignment p access ∧ row.1 = p ∧ row.2.role = access.role := by
  cases s with
  | upsertAssignment p access =>
    obtain rfl := perform_upsert h
    refine ⟨rfl, fun row hrow => ?_⟩
    rcases mem_upsertAssignment hrow with hold | ⟨hp, hrole⟩
    · exact .inl hold
    · exact .inr ⟨p, access, rfl, hp, hrole⟩
  | deleteUserAssignment id =>
    simp only [Database.perform, Except.ok.injEq, Prod.mk.injEq] at h
    obtain ⟨-, rfl⟩ := h
    exact ⟨rfl, fun row hrow => .inl (Table.mem_deleteWhere.mp hrow).1⟩
  | backfill _ | addProtectedColumn | protectBootstrap => exact hallowed.elim
  | countUsers | countAdmins | selectAccess _ | selectExisting _ | selectUser _ | selectUsers | selectAPIKey _
  | selectAPIKeys | insertUser _ _ _ _ _ _ | insertSession _ | insertAPIKey _ _ _ _ | deleteUser _
  | deleteAPIKey _ | touchAPIKey _ _ =>
    obtain ⟨hrows, hcolumn⟩ := perform_frame h
    exact ⟨hcolumn, fun row hrow => .inl (hrows ▸ hrow)⟩

/-! ### One statement of an operation -/

/-- What a member of a process takes for known is so. -/
def Sound (past : List Entry) (who : Origin) (k : Knowledge) : Prop :=
  (∀ p ∈ k.entitled, Entitled past p) ∧ (k.countedNone = true → past.any (countsNone who) = true)

theorem Sound.append {past : List Entry} {who : Origin} {k : Knowledge} (h : Sound past who k)
    (later : List Entry) : Sound (past ++ later) who k := by
  refine ⟨fun p hp => (h.1 p hp).append later, fun hcount => ?_⟩
  rw [List.any_append, h.2 hcount, Bool.true_or]

theorem Sound.learn {past : List Entry} {who : Origin} {k : Knowledge} (h : Sound past who k)
    {p : Principal} (hp : Entitled past p) : Sound past who (k.learn p) :=
  ⟨List.forall_mem_cons.mpr ⟨hp, h.1⟩, h.2⟩

/-- A statement teaches an operation only what the run bears out. -/
theorem Sound.next {past : List Entry} {process number : Nat} {op : AccountOp} {k : Knowledge}
    {db db' : Database} {s : Statement} {r : Except SQLError s.Result}
    (h : Sound past (.operation process number op) k) (hrows : AdminRows past db)
    (hstep : connection.step db s r db')
    (hok : Assigned past (.operation process number op, ⟨db, s, r⟩)) :
    Sound (past ++ [(.operation process number op, ⟨db, s, r⟩)]) (.operation process number op)
      ((contract op).next k ⟨db, s, r⟩) := by
  have hmore := h.append [(.operation process number op, ⟨db, s, r⟩)]
  cases s with
  | countUsers => cases r with
    | error _ => exact hmore
    | ok n =>
      refine ⟨hmore.1, fun hnone => ?_⟩
      obtain rfl : n = 0 := by simpa [contract] using hnone
      rw [List.any_append]
      simp [countsNone]
  | insertUser _ _ _ _ _ _ => cases r with
    | error _ => exact hmore
    | ok id =>
      simp only [contract]
      split
      · next hentitled =>
        refine hmore.learn (entitled_last ?_)
        simp only [entitles, decide_true, Bool.true_and, Bool.or_eq_true, Bool.and_eq_true,
          List.isEmpty_iff]
        exact hentitled
      · exact hmore
  | insertAPIKey _ _ _ _ => cases r with
    | error _ => exact hmore
    | ok id =>
      simp only [contract]
      split
      · next hadmin =>
        refine hmore.learn (entitled_last ?_)
        simp only [entitles, decide_true, Bool.true_and]
        exact hadmin
      · exact hmore
  | selectAccess p => cases r with
    | error _ => exact hmore
    | ok found => cases found with
      | none => exact hmore.learn (Entitled.append hok _)
      | some access =>
        simp only [contract]
        split
        · next hrole =>
          obtain ⟨err, herr, -⟩ | ⟨result, hresult, hperform⟩ := connection_step hstep
          · cases herr
          · simp only [Except.ok.injEq] at hresult
            subst hresult
            simp only [Database.perform] at hperform
            split at hperform
            · simp only [Except.ok.injEq, Prod.mk.injEq] at hperform
              have hmem := lookup_mem_assignments hperform.1
              exact hmore.learn ((hrows _ hmem hrole).append _)
            · cases hperform
        · exact hmore
  | countAdmins | selectExisting _ | upsertAssignment _ _ | deleteUserAssignment _ | deleteUser _ | selectUser _
  | selectUsers | insertSession _ | deleteAPIKey _ | selectAPIKey _ | selectAPIKeys
  | touchAPIKey _ _ | backfill _ | addProtectedColumn | protectBootstrap => exact hmore

/-- A statement that an operation may run gives the role only to entitled principals. -/
theorem AdminRows.next {past : List Entry} {process number : Nat} {op : AccountOp} {k : Knowledge}
    {db db' : Database} {s : Statement} {r : Except SQLError s.Result} (h : AdminRows past db)
    (hk : Sound past (.operation process number op) k) (hstep : connection.step db s r db')
    (hallowed : (contract op).allowed k s) :
    AdminRows (past ++ [(.operation process number op, ⟨db, s, r⟩)]) db' ∧
      db'.protectedColumn = db.protectedColumn := by
  obtain ⟨err, -, rfl⟩ | ⟨result, rfl, hperform⟩ := connection_step hstep
  · exact ⟨h.append _, rfl⟩
  · obtain ⟨hcolumn, hmem⟩ := perform_assignments hperform hallowed
    refine ⟨fun row hrow hrole => ?_, hcolumn⟩
    rcases hmem row hrow with hold | ⟨p, access, rfl, rfl, hsame⟩
    · exact (h row hold hrole).append _
    · rcases hallowed (hsame ▸ hrole) with hknown | hpromotes
      · exact (hk.1 _ hknown).append _
      · refine entitled_last ?_
        simpa [entitles, Origin.promotes] using hpromotes

/-- The reply to a statement is as its operation expects. -/
theorem expects_of_assigned {past : List Entry} {process number : Nat} {op : AccountOp}
    {k : Knowledge} {e : Event Statements Database}
    (hk : Sound past (.operation process number op) k)
    (hok : Assigned past (.operation process number op, e)) : (contract op).expects k e := by
  obtain ⟨db, s, r⟩ := e
  cases s with
  | insertUser _ _ _ _ _ _ => cases r with
    | error _ => trivial
    | ok id => exact fun hlocal hadmin hcount => hok hlocal hadmin (hk.2 hcount)
  | countUsers | countAdmins | selectAccess _ | selectExisting _ | upsertAssignment _ _ | deleteUserAssignment _
  | deleteUser _ | selectUser _ | selectUsers | insertSession _ | insertAPIKey _ _ _ _
  | deleteAPIKey _ | selectAPIKey _ | selectAPIKeys | touchAPIKey _ _ | backfill _
  | addProtectedColumn | protectBootstrap => trivial

/-! ### The operations of a process -/

theorem throughout_map {ε ζ : Type} {f : ε → ζ} {ok : List ζ → ζ → Prop} {base : List ζ}
    {past history : List ε}
    (h : Machine.Throughout ok (base ++ past.map f) (history.map f)) :
    Machine.Throughout (fun before entry => ok (base ++ before.map f) (f entry)) past history := by
  induction history generalizing past with
  | nil => trivial
  | cons entry rest ih =>
    refine ⟨h.1, ih ?_⟩
    simpa [List.append_assoc] using h.2

theorem throughout_append {ε : Type} {ok : List ε → ε → Prop} {past first rest : List ε} :
    Machine.Throughout ok past (first ++ rest) ↔
      Machine.Throughout ok past first ∧ Machine.Throughout ok (past ++ first) rest := by
  induction first generalizing past with
  | nil => simp [Machine.Throughout]
  | cons entry first ih =>
    simp [Machine.Throughout, ih, and_assoc]

/-- What holds between two statements of a process. -/
def Serving (past : List Entry) (n : Nat) (ops : Nat → AccountOp) (column : Bool) (db : Database)
    (k : Nat → Knowledge) (before : List (Nat × Event Statements Database)) : Prop :=
  AdminRows (past ++ before.map (operationEntry n ops)) db ∧ db.protectedColumn = column ∧
    ∀ i, Sound (past ++ before.map (operationEntry n ops)) (.operation n i (ops i)) (k i)

theorem Serving.next {past : List Entry} {n : Nat} {ops : Nat → AccountOp} {column : Bool}
    {db db₀ db₁ : Database} {k : Nat → Knowledge} {before : List (Nat × Event Statements Database)}
    (i : Nat) {s : Statement} {r : Except SQLError s.Result} (h : Serving past n ops column db k before)
    (hrely : connection.rely db db₀) (hstep : connection.step db₀ s r db₁)
    (hentry : Assigned (past ++ before.map (operationEntry n ops))
      (operationEntry n ops (i, ⟨db₀, s, r⟩))) (hallowed : (contract (ops i)).allowed (k i) s) :
    (contract (ops i)).expects (k i) ⟨db₀, s, r⟩ ∧
      Serving past n ops column db₁ (Function.update k i ((contract (ops i)).next (k i) ⟨db₀, s, r⟩))
        (before ++ [(i, ⟨db₀, s, r⟩)]) := by
  obtain rfl := hrely
  obtain ⟨hrows, hcolumn, hk⟩ := h
  obtain ⟨hafter, hsame⟩ := hrows.next (hk i) hstep hallowed
  refine ⟨expects_of_assigned (hk i) hentry, ?_⟩
  unfold Serving
  rw [List.map_append, ← List.append_assoc]
  refine ⟨hafter, hsame.trans hcolumn, fun j => ?_⟩
  by_cases hij : j = i
  · subst hij
    rw [Function.update_self]
    exact (hk j).next hrows hstep hentry
  · rw [Function.update_of_ne hij]
    exact (hk j).append _

/-- The operations of a process keep the role to entitled principals, and resolve it only for
those. -/
theorem served_confined {past : List Entry} {n : Nat} {ops : Nat → AccountOp}
    {hist : List (Nat × Event Statements Database)} {pool' : Nat → SQL (List (Principal × AccessControl))}
    {db db' : Database} (h : connection.PoolRuns (fun i => (ops i).run) db hist pool' db')
    (hok : Machine.Throughout Assigned past (hist.map (operationEntry n ops)))
    (hrows : AdminRows past db) :
    AdminRows (past ++ hist.map (operationEntry n ops)) db' ∧
      db'.protectedColumn = db.protectedColumn ∧
      ∀ i result, pool' i = .ret result → ∀ entry ∈ result, entry.2.role = .admin →
        Entitled (past ++ hist.map (operationEntry n ops)) entry.1 := by
  have hstart : Serving past n ops db.protectedColumn db (fun _ => {}) [] :=
    ⟨by simpa using hrows, rfl, fun i => ⟨by simp, by simp⟩⟩
  have hassigned : Machine.Throughout (fun before entry =>
      Assigned (past ++ before.map (operationEntry n ops)) (operationEntry n ops entry)) [] hist :=
    throughout_map (by simpa using hok)
  obtain ⟨k', ⟨hrows', hcolumn, hsound⟩, hobeys⟩ := h.contracts
    (J := Serving past n ops db.protectedColumn) Serving.next
    hassigned (fun i => run_obeys (ops i)) hstart
  refine ⟨by simpa using hrows', hcolumn, fun i result hi entry hentry hrole => ?_⟩
  have hknows := hobeys i
  rw [hi] at hknows
  simpa using (hsound i).1 _ (hknows entry hentry hrole)

/-! ### The start-up of a process -/

/-- What a start-up has found out about the `protected` column. -/
structure Schema where
  /-- This start-up added it. -/
  added : Bool := false
  /-- It is there. -/
  present : Bool := false

/-- A start-up marks the bootstrap user only if it has just added the column. -/
def startUpContract : Contract Statements Database Schema where
  allowed
    | _, .backfill _ | _, .addProtectedColumn => True
    | k, .protectBootstrap => k.added = true
    | _, _ => False
  expects _ _ := True
  next
    | _, ⟨_, .addProtectedColumn, .ok ()⟩ => { added := true, present := true }
    | k, ⟨_, .addProtectedColumn, .error .duplicateColumn⟩ => { k with present := true }
    | k, _ => k

theorem backfill_obeys (k : Schema) : connection.obeys startUpContract
    (runScript [⟨.backfill .user, rfl⟩, ⟨.backfill .apiKey, rfl⟩]) k fun k' _ => k' = k := by
  refine ⟨trivial, fun db r db' _ _ => ?_⟩
  cases r with
  | error err => rfl
  | ok _ =>
    refine ⟨trivial, fun db r db' _ _ => ?_⟩
    cases r <;> rfl

theorem protect_obeys (k : Schema) : connection.obeys startUpContract
    (runScript [⟨.addProtectedColumn, rfl⟩, ⟨.protectBootstrap, rfl⟩]) k fun k' r =>
      r = .ok () ∨ r = .error .duplicateColumn → k'.present = true := by
  refine ⟨trivial, fun db r db' _ _ => ?_⟩
  cases r with
  | error err => cases err with
    | duplicateColumn => exact fun _ => rfl
    | uniqueConstraint | other _ =>
      intro h
      simp at h
  | ok _ =>
    refine ⟨rfl, fun db r db' _ _ => ?_⟩
    cases r <;> exact fun _ => rfl

/-- A start-up that succeeds leaves the column there. -/
theorem migrate_obeys : connection.obeys startUpContract migrate {} fun k r =>
    r = .ok () → k.present = true := by
  have hprotect : ∀ k, connection.obeys startUpContract (applyMigrations [("0007_protected_admin.sql",
      [⟨.addProtectedColumn, rfl⟩, ⟨.protectBootstrap, rfl⟩])]) k fun k' r =>
        r = .ok () → k'.present = true := by
    intro k
    refine Machine.obeys_bind.mpr (Machine.obeys_mono (protect_obeys k) ?_)
    intro k' r hpresent
    cases r with
    | ok _ => exact fun _ => hpresent (.inl rfl)
    | error err => cases err with
      | duplicateColumn => exact fun _ => hpresent (.inr rfl)
      | uniqueConstraint | other _ =>
        intro h
        cases h
  refine Machine.obeys_bind.mpr (Machine.obeys_mono (backfill_obeys {}) ?_)
  rintro k r rfl
  cases r with
  | ok _ => exact hprotect {}
  | error err => cases err with
    | duplicateColumn => exact hprotect {}
    | uniqueConstraint | other _ =>
      intro h
      cases h

/-- What holds between two statements of a start-up. -/
def Starting (past : List Entry) (n : Nat) (db : Database) (k : Unit → Schema)
    (before : List (Unit × Event Statements Database)) : Prop :=
  AdminRows (past ++ before.map (startUpEntry n)) db ∧ (db.protectedColumn = false → Vacant db) ∧
    ((k ()).added = true → Vacant db) ∧ ((k ()).present = true → db.protectedColumn = true)

theorem vacant_backfill {db : Database} (h : Vacant db) (type : PrincipalType) :
    Vacant (db.backfill type) := by
  obtain ⟨husers, hkeys, hrows⟩ := h
  refine ⟨husers, hkeys, ?_⟩
  cases type <;> simp [Database.backfill, Database.principals, husers, hkeys, hrows]

theorem Starting.next {past : List Entry} {n : Nat} {db db₀ db₁ : Database} {k : Unit → Schema}
    {before : List (Unit × Event Statements Database)} (i : Unit) {s : Statement}
    {r : Except SQLError s.Result} (h : Starting past n db k before)
    (hrely : connection.rely db db₀) (hstep : connection.step db₀ s r db₁)
    (hentry : Assigned (past ++ before.map (startUpEntry n)) (startUpEntry n (i, ⟨db₀, s, r⟩)))
    (hallowed : startUpContract.allowed (k i) s) : True ∧
      Starting past n db₁ (Function.update k i (startUpContract.next (k i) ⟨db₀, s, r⟩))
        (before ++ [(i, ⟨db₀, s, r⟩)]) := by
  refine ⟨trivial, ?_⟩
  obtain rfl := hrely
  obtain ⟨hrows, hvacant, hadded, hpresent⟩ := h
  unfold Starting
  rw [List.map_append, ← List.append_assoc, Function.update_self]
  have hkept : ∀ k' : Schema, k' = k i → AdminRows (past ++ before.map (startUpEntry n) ++
      [(i, ⟨db₀, s, r⟩)].map (startUpEntry n)) db₀ ∧ (db₀.protectedColumn = false → Vacant db₀) ∧
      (k'.added = true → Vacant db₀) ∧ (k'.present = true → db₀.protectedColumn = true) := by
    rintro _ rfl
    exact ⟨hrows.append _, hvacant, hadded, hpresent⟩
  obtain ⟨err, rfl, rfl⟩ | ⟨result, rfl, hperform⟩ := connection_step hstep
  · cases s with
    | addProtectedColumn => cases err with
      | duplicateColumn =>
        -- only an existing column is reported as a duplicate
        refine ⟨hrows.append _, hvacant, hadded, fun _ => ?_⟩
        by_contra hcolumn
        obtain ⟨fault, hexec⟩ := hstep
        cases fault <;> simp [Database.exec, Database.perform, hcolumn] at hexec
      | uniqueConstraint | other _ => exact hkept _ rfl
    | backfill _ | protectBootstrap => exact hkept _ rfl
    | _ => exact hallowed.elim
  · cases s with
    | backfill type =>
      simp only [Database.perform, Except.ok.injEq, Prod.mk.injEq] at hperform
      obtain ⟨-, rfl⟩ := hperform
      refine ⟨fun row hrow hrole => ?_, fun hcolumn => vacant_backfill (hvacant hcolumn) _,
        fun h => vacant_backfill (hadded h) _, hpresent⟩
      rcases mem_backfill hrow with hold | ⟨hprincipal, hnone⟩
      · exact (hrows row hold hrole).append _
      · exact (hentry row.1 hprincipal hnone).append _
    | addProtectedColumn =>
      simp only [Database.perform] at hperform
      split at hperform
      · cases hperform
      · next hcolumn =>
        simp only [Except.ok.injEq, Prod.mk.injEq] at hperform
        obtain ⟨-, rfl⟩ := hperform
        have hnow : Vacant db₀ := hvacant (by simpa using hcolumn)
        exact ⟨hrows.append _, fun _ => hnow, fun _ => hnow, fun _ => rfl⟩
    | protectBootstrap =>
      simp only [Database.perform, Except.ok.injEq, Prod.mk.injEq] at hperform
      obtain ⟨-, rfl⟩ := hperform
      -- the column was just added, so there is no one to mark
      have hempty : db₀.protectBootstrap.assignments = [] := by
        simp [Database.protectBootstrap, Table.updateWhere, (hadded hallowed).2.2]
      have hnow : Vacant db₀.protectBootstrap := ⟨(hadded hallowed).1, (hadded hallowed).2.1, hempty⟩
      refine ⟨fun row hrow => ?_, fun _ => hnow, fun _ => hnow, hpresent⟩
      rw [hempty] at hrow
      cases hrow
    | _ => exact hallowed.elim

/-- A start-up gives the role to no principal that is not entitled, and ends with the column
in place if it succeeds. -/
theorem started_confined {past : List Entry} {n : Nat} {h : List (Unit × Event Statements Database)}
    {started : Unit → SQL (Except GoError Unit)} {db db' : Database}
    (hrun : connection.PoolRuns (fun _ : Unit => migrate) db h started db')
    (hok : Machine.Throughout Assigned past (h.map (startUpEntry n))) (hrows : AdminRows past db)
    (hvacant : db.protectedColumn = false → Vacant db) :
    AdminRows (past ++ h.map (startUpEntry n)) db' ∧ (db'.protectedColumn = false → Vacant db') ∧
      (started () = .ret (.ok ()) → db'.protectedColumn = true) := by
  have hstart : Starting past n db (fun _ => {}) [] :=
    ⟨by simpa using hrows, hvacant, by simp, by simp⟩
  have hassigned : Machine.Throughout (fun before entry =>
      Assigned (past ++ before.map (startUpEntry n)) (startUpEntry n entry)) [] h :=
    throughout_map (by simpa using hok)
  obtain ⟨k', ⟨hrows', hvacant', -, hpresent⟩, hobeys⟩ := hrun.contracts
    (J := Starting past n) Starting.next hassigned (fun _ => migrate_obeys) hstart
  refine ⟨by simpa using hrows', hvacant', fun hready => hpresent ?_⟩
  have hend := hobeys ()
  rw [hready] at hend
  exact hend rfl

/-! ### Whole runs -/

/-- In every run without an overlooked assignment, an admin assignment is of an entitled
principal, and so is every access that an operation resolved as admin. -/
theorem Lived.confined {n : Nat} {past : List Entry} {outputs : List (Principal × AccessControl)}
    {db : Database} (h : Lived n past outputs db) (hok : Machine.Throughout Assigned [] past) :
    AdminRows past db ∧ (db.protectedColumn = false → Vacant db) ∧
      ∀ entry ∈ outputs, entry.2.role = .admin → Entitled past entry.1 := by
  induction h with
  | empty => exact ⟨by simp [AdminRows], fun _ => ⟨rfl, rfl, rfl⟩, by simp⟩
  | @stopped n past outputs db h pool' db' hpast hstart ih =>
    obtain ⟨hbefore, hlast⟩ := throughout_append.mp hok
    obtain ⟨hrows, hvacant, houtputs⟩ := ih hbefore
    obtain ⟨hrows', hvacant', -⟩ := started_confined hstart hlast hrows hvacant
    exact ⟨hrows', hvacant', fun entry hentry hrole => (houtputs entry hentry hrole).append _⟩
  | @served n past outputs db h started db₁ hist pool' db' ops results hpast hstart hready hserve
      hresults ih =>
    obtain ⟨hbefore, hserving⟩ := throughout_append.mp hok
    obtain ⟨hbefore, hstarting⟩ := throughout_append.mp hbefore
    obtain ⟨hrows, hvacant, houtputs⟩ := ih hbefore
    obtain ⟨hrows₁, -, hcolumn⟩ := started_confined hstart hstarting hrows hvacant
    obtain ⟨hrows', hsame, hresolved⟩ := served_confined hserve hserving hrows₁
    refine ⟨hrows', fun hmissing => ?_, fun entry hentry hrole => ?_⟩
    · rw [hsame, hcolumn hready] at hmissing
      cases hmissing
    · rcases List.mem_append.mp hentry with hold | hnew
      · exact ((houtputs entry hold hrole).append _).append _
      · obtain ⟨result, hresult, hmem⟩ := List.mem_flatten.mp hnew
        obtain ⟨i, hi⟩ := hresults result hresult
        exact hresolved i result hi entry hmem hrole

/-- No implicit administrator, where no assignment is overlooked. -/
theorem no_implicit_admin {n : Nat} {past : List Entry}
    {outputs : List (Principal × AccessControl)} {db : Database} (h : Lived n past outputs db)
    (hok : Machine.Throughout Assigned [] past) :
    (∀ p access, db.assignment p = some access → access.role = .admin → Entitled past p) ∧
      ∀ p access, (p, access) ∈ outputs → access.role = .admin → Entitled past p := by
  obtain ⟨hrows, -, houtputs⟩ := h.confined hok
  exact ⟨fun p access hp hrole => hrows _ (lookup_mem_assignments hp) hrole,
    fun p access hp hrole => houtputs _ hp hrole⟩

/-! ### Scripted processes -/

/-- The result of a program that has returned. -/
def returned {α : Type} : SQL α → Option α
  | .ret a => some a
  | .call _ _ => none

theorem returned_eq_some {α : Type} {p : SQL α} {a : α} (h : returned p = some a) : p = .ret a := by
  cases p with
  | ret b => rw [Option.some.inj h]
  | call op next => cases h

/-- The first start-up, undisturbed. -/
def firstStartUp := Machine.replay Database.exec (List.replicate 4 ((), none)) (fun _ : Unit => migrate) {}

/-- The statements of the first process, in a given order and with given faults. -/
def firstProcess (ops : List AccountOp) (turns : List (Nat × Option String)) :=
  Machine.replay Database.exec turns (fun i => (ops.getD i .listUsers).run) firstStartUp.2.2

def firstHistory (ops : List AccountOp) (turns : List (Nat × Option String)) : List Entry :=
  firstStartUp.1.map (startUpEntry 0) ++
    (firstProcess ops turns).1.map (operationEntry 0 fun i => ops.getD i .listUsers)

def firstResults (ops : List AccountOp) (turns : List (Nat × Option String)) :
    List (List (Principal × AccessControl)) :=
  (List.range ops.length).filterMap fun i => returned ((firstProcess ops turns).2.1 i)

theorem firstProcess_lived (ops : List AccountOp) (turns : List (Nat × Option String)) :
    Lived 1 (firstHistory ops turns) (firstResults ops turns).flatten (firstProcess ops turns).2.2 := by
  have hexec : ∀ db fault s, connection.step db s (db.exec fault s).1 (db.exec fault s).2 :=
    fun db fault s => ⟨fault, rfl⟩
  have hready : firstStartUp.2.1 () = .ret (.ok ()) := by rfl
  refine Lived.served .empty (Machine.replay_runs (fun _ => rfl) hexec _ _ _) hready
    (Machine.replay_runs (fun _ => rfl) hexec _ _ _) fun result hresult => ?_
  obtain ⟨i, -, hi⟩ := List.mem_filterMap.mp hresult
  exact ⟨i, returned_eq_some hi⟩

/-- An identity is provisioned with the role read and signs in again. -/
def provisioned : List AccountOp :=
  [.bootstrap "" "" (.ok "$2a$10$hash") 0, .getOrCreateOIDCUser "subject-eve" "eve" 1,
    .getOrCreateOIDCUser "subject-eve" "eve" 2]

/-- The statements of three operations, one after another. -/
def undisturbed : List (Nat × Option String) :=
  List.replicate 5 (0, none) ++ List.replicate 4 (1, none) ++ List.replicate 4 (2, none)

theorem no_implicit_admin_provisioned :
    ((.user, 2), { role := .read }) ∈ (firstResults provisioned undisturbed).flatten ∧
    ∀ p access, (p, access) ∈ (firstResults provisioned undisturbed).flatten →
      access.role = .admin → Entitled (firstHistory provisioned undisturbed) p :=
  ⟨by decide +kernel,
    (no_implicit_admin (firstProcess_lived provisioned undisturbed) (by decide +kernel)).2⟩

/-- The same operations, and the assignment of the identity fails: the account stays, and the
next sign-in finds no assignment and makes it an administrator. -/
def lockedAssignment : List (Nat × Option String) :=
  List.replicate 5 (0, none) ++ List.replicate 3 (1, none) ++ (1, some "database is locked") ::
    List.replicate 4 (2, none)

theorem admin_by_default : ∃ past outputs db access, Lived 1 past outputs db ∧
    ((.user, 2), access) ∈ outputs ∧ access.role = .admin ∧ ¬ Entitled past (.user, 2) :=
  ⟨_, _, _, { role := .admin }, firstProcess_lived provisioned lockedAssignment,
    by decide +kernel, rfl, by decide +kernel⟩

end Doupro.Accounts
