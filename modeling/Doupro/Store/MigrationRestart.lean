import Doupro.Store.MigrationScripts

/-!
# Starting again

What was created stays created, so a script that ran to its end is run again without effect. A script
whose first statement adds a column is not run again at all, and a crash inside it leaves it half
applied.
-/

namespace Doupro.Store.Migration

/-! ### What stays -/

namespace Relation

def principals (r : Relation) : List (Value × Value) :=
  r.rows.map fun row => (row.cell "principal_type", row.cell "principal_id")

/-- A table as it was, with more columns; only the assignments get rows. -/
structure Grown (name : String) (r r' : Relation) : Prop where
  columns : ∀ column, r.hasColumn column = true → r'.hasColumn column = true
  principals : r.principals ⊆ r'.principals
  rowids : name ≠ "rbac_assignments" → r'.rows.map Row.rowid = r.rows.map Row.rowid

variable {name : String} {r r' r'' : Relation}

theorem Grown.refl (name : String) (r : Relation) : Grown name r r :=
  ⟨fun _ h => h, List.Subset.refl _, fun _ => rfl⟩

theorem Grown.trans (h : Grown name r r') (h' : Grown name r' r'') : Grown name r r'' :=
  ⟨fun column hcolumn => h'.columns column (h.columns column hcolumn),
    List.Subset.trans h.principals h'.principals, fun hname => (h'.rowids hname).trans (h.rowids hname)⟩

theorem hasColumn_addColumn (r : Relation) (column : Column) (name : String) :
    (r.addColumn column).hasColumn name = (r.hasColumn name || decide (column.1 = name)) := by
  simp [addColumn, hasColumn]

theorem addColumn_grown (name : String) (r : Relation) {column : Column}
    (htype : column.1 ≠ "principal_type") (hid : column.1 ≠ "principal_id") :
    Grown name r (r.addColumn column) where
  columns other hother := by rw [hasColumn_addColumn, hother, Bool.true_or]
  principals := by
    have hsame : (r.addColumn column).principals = r.principals := by
      unfold principals addColumn
      rw [List.map_map]
      congr 1
      funext row
      simp [Function.update_of_ne (Ne.symm htype), Function.update_of_ne (Ne.symm hid)]
    rw [hsame]
    exact List.Subset.refl _
  rowids _ := by
    unfold addColumn
    rw [List.map_map]
    rfl

theorem insertAssignment_grown (r : Relation) (type : String) (id : Int) :
    Grown "rbac_assignments" r (r.insertAssignment type id) := by
  unfold insertAssignment
  split
  · exact .refl _ r
  · refine ⟨fun _ h => h, ?_, fun h => absurd rfl h⟩
    unfold principals
    rw [List.map_append]
    exact List.subset_append_left _ _

theorem protectBootstrap_grown (r users : Relation) :
    Grown "rbac_assignments" r (r.protectBootstrap users) := by
  refine ⟨fun _ h => h, ?_, fun h => absurd rfl h⟩
  have hsame : (r.protectBootstrap users).principals = r.principals := by
    unfold principals protectBootstrap
    exact Table.map_updateWhere (f := protect) _ (fun _ => rfl) r.rows
  rw [hsame]
  exact List.Subset.refl _

/-- A principal has an assignment exactly if its key is in the table. -/
theorem any_assigns (r : Relation) (type : String) (id : Int) :
    r.rows.any (assigns type id) = true ↔ (.text type, .integer id) ∈ r.principals := by
  unfold principals assigns
  simp [List.any_eq_true]

theorem insertAssignment_assigns (r : Relation) (type : String) (id : Int) :
    (.text type, .integer id) ∈ (r.insertAssignment type id).principals := by
  unfold insertAssignment
  split
  · rename_i hany
    exact (any_assigns r type id).mp hany
  · simp [principals, assignment]

/-- The assignments of all rows of a table. -/
def assignAll (type : String) (rows : List Row) (target : Relation) : Relation :=
  rows.foldl (fun target row => target.insertAssignment type row.rowid) target

theorem assignAll_grown (type : String) (rows : List Row) (target : Relation) :
    Grown "rbac_assignments" target (assignAll type rows target) := by
  induction rows generalizing target with
  | nil => exact .refl _ target
  | cons row rest ih => exact (insertAssignment_grown target type row.rowid).trans (ih _)

theorem assignAll_assigns (type : String) (rows : List Row) (target : Relation) :
    ∀ row ∈ rows, (.text type, .integer row.rowid) ∈ (assignAll type rows target).principals := by
  induction rows generalizing target with
  | nil => simp
  | cons first rest ih =>
    refine List.forall_mem_cons.mpr ⟨?_, ih _⟩
    exact (assignAll_grown type rest _).principals (insertAssignment_assigns target type first.rowid)

/-- Principals that all have an assignment are given none. -/
theorem assignAll_of_assigned {type : String} {rows : List Row} {target : Relation}
    (h : ∀ row ∈ rows, (.text type, .integer row.rowid) ∈ target.principals) :
    assignAll type rows target = target := by
  induction rows with
  | nil => rfl
  | cons first rest ih =>
    obtain ⟨hfirst, hrest⟩ := List.forall_mem_cons.mp h
    have hsame : target.insertAssignment type first.rowid = target :=
      if_pos ((any_assigns target type first.rowid).mpr hfirst)
    unfold assignAll
    rw [List.foldl_cons, hsame]
    exact ih hrest

/-- Only rows are added. -/
theorem assignAll_rows (type : String) (rows : List Row) (target : Relation) :
    ∃ new, assignAll type rows target = { target with rows := target.rows ++ new } := by
  induction rows generalizing target with
  | nil => exact ⟨[], by simp [assignAll]⟩
  | cons first rest ih =>
    obtain ⟨new, hnew⟩ := ih (target.insertAssignment type first.rowid)
    change ∃ new, assignAll type rest (target.insertAssignment type first.rowid) = _
    rw [hnew]
    unfold insertAssignment
    split
    · exact ⟨new, rfl⟩
    · exact ⟨target.assignment type first.rowid target.nextRowid :: new, by simp⟩

end Relation

namespace Database

variable {db db' db'' : Database} {name : String} {r : Relation}

@[simp] theorem set_relation_self (db : Database) (name : String) (r : Relation) :
    (db.set name r).relation name = some r :=
  Function.update_self ..

theorem set_relation_ne (db : Database) (r : Relation) {name other : String} (h : other ≠ name) :
    (db.set name r).relation other = db.relation other :=
  Function.update_of_ne h ..

theorem set_same (h : db.relation name = some r) : db.set name r = db := by
  unfold set
  rw [← h, Function.update_eq_self]

def hasColumn (db : Database) (table column : String) : Bool :=
  match db.relation table with
  | some r => r.hasColumn column
  | none => false

theorem hasColumn_iff {table column : String} :
    db.hasColumn table column = true ↔ ∃ r, db.relation table = some r ∧ r.hasColumn column = true := by
  unfold hasColumn
  cases db.relation table <;> simp

/-- Tables, columns and indexes stay, and so do assignments. -/
structure Grown (db db' : Database) : Prop where
  index : ∀ name, db.hasIndex name = true → db'.hasIndex name = true
  relation : ∀ name r, db.relation name = some r →
    ∃ r', db'.relation name = some r' ∧ Relation.Grown name r r'

theorem Grown.refl (db : Database) : db.Grown db :=
  ⟨fun _ h => h, fun name r h => ⟨r, h, .refl name r⟩⟩

theorem Grown.trans (h : db.Grown db') (h' : db'.Grown db'') : db.Grown db'' := by
  refine ⟨fun name hname => h'.index name (h.index name hname), fun name r hr => ?_⟩
  obtain ⟨r', hr', hgrown⟩ := h.relation name r hr
  obtain ⟨r'', hr'', hgrown'⟩ := h'.relation name r' hr'
  exact ⟨r'', hr'', hgrown.trans hgrown'⟩

theorem Grown.hasColumn (h : db.Grown db') {table column : String}
    (hcolumn : db.hasColumn table column = true) : db'.hasColumn table column = true := by
  obtain ⟨r, hr, hrcolumn⟩ := hasColumn_iff.mp hcolumn
  obtain ⟨r', hr', hgrown⟩ := h.relation table r hr
  exact hasColumn_iff.mpr ⟨r', hr', hgrown.columns column hrcolumn⟩

theorem set_grown (h : ∀ old, db.relation name = some old → Relation.Grown name old r) :
    db.Grown (db.set name r) := by
  refine ⟨fun _ h => h, fun other old hold => ?_⟩
  by_cases hother : other = name
  · subst hother
    exact ⟨r, set_relation_self .., h old hold⟩
  · exact ⟨old, (set_relation_ne db r hother).trans hold, .refl other old⟩

theorem addIndex_grown (db : Database) (name : String) : db.Grown (db.addIndex name) := by
  refine ⟨fun other h => ?_, fun other r hr => ⟨r, hr, .refl other r⟩⟩
  by_cases hother : other = name
  · rw [hother]
    exact Function.update_self ..
  · exact (Function.update_of_ne hother ..).trans h

end Database

namespace Statement

/-- A statement that says nothing of the columns that name a principal. -/
def Plain : Statement → Prop
  | .addColumn _ column => column.1 ≠ "principal_type" ∧ column.1 ≠ "principal_id"
  | .backfill _ source => source ≠ "rbac_assignments"
  | _ => True

/-- A statement that SQLite runs again without an error. -/
def Repeats : Statement → Prop
  | .createTable _ _ | .createIndex _ _ _ | .createUniqueIndex _ _ _ => True
  | .backfill _ source => source ≠ "rbac_assignments"
  | .addColumn _ _ | .protectBootstrap => False

instance (s : Statement) : Decidable s.Plain := by
  cases s <;> unfold Plain <;> infer_instance

instance (s : Statement) : Decidable s.Repeats := by
  cases s <;> unfold Repeats <;> infer_instance

end Statement

section Statements

variable {db db' db'' : Database} {s : Statement}

/-- What a statement sets up is there. -/
def Done (db : Database) : Statement → Prop
  | .createTable name _ => (db.relation name).isSome = true
  | .createIndex name _ _ | .createUniqueIndex name _ _ => db.hasIndex name = true
  | .addColumn table column => db.hasColumn table column.1 = true
  | .backfill type source => ∃ target r, db.relation "rbac_assignments" = some target ∧
      db.relation source = some r ∧
      ∀ row ∈ r.rows, (.text type, .integer row.rowid) ∈ target.principals
  | .protectBootstrap => True

/-- What a statement that succeeds does. -/
inductive Effect (db : Database) : Statement → Database → Prop
  | idle {s : Statement} (h : Done db s) : Effect db s db
  | table {name : String} {columns : List Column} (h : db.relation name = none) :
    Effect db (.createTable name columns) (db.set name { columns })
  | index {name table : String} {columns : List String} :
    Effect db (.createIndex name table columns) (db.addIndex name)
  | unique {name table column : String} :
    Effect db (.createUniqueIndex name table column) (db.addIndex name)
  | column {table : String} {column : Column} {r : Relation} (h : db.relation table = some r)
    (hnew : r.hasColumn column.1 = false) : Effect db (.addColumn table column) (db.set table (r.addColumn column))
  | assigned {type source : String} {target r : Relation} (h : db.relation "rbac_assignments" = some target)
    (hr : db.relation source = some r) : Effect db (.backfill type source)
      (db.set "rbac_assignments" (target.assignAll type r.rows))
  | protect {target users : Relation} (h : db.relation "rbac_assignments" = some target)
    (hr : db.relation "users" = some users) :
    Effect db .protectBootstrap (db.set "rbac_assignments" (target.protectBootstrap users))

theorem perform_addColumn {table : String} {column : Column}
    (h : db.perform (.addColumn table column) = .ok db') :
    ∃ r, db.relation table = some r ∧ r.hasColumn column.1 = false ∧
      db' = db.set table (r.addColumn column) := by
  simp only [Database.perform] at h
  cases htable : db.relation table with
  | none =>
    rw [htable] at h
    cases h
  | some r =>
    simp only [htable] at h
    split at h
    · cases h
    · rename_i hnew
      cases h
      exact ⟨r, rfl, Bool.eq_false_iff.mpr hnew, rfl⟩

theorem perform_effect (h : db.perform s = .ok db') : Effect db s db' := by
  cases s with
  | createTable name columns =>
    simp only [Database.perform] at h
    cases hname : db.relation name with
    | some r =>
      rw [hname] at h
      cases h
      exact .idle (Option.isSome_of_eq_some hname)
    | none =>
      rw [hname] at h
      cases h
      exact .table hname
  | createIndex name table columns =>
    simp only [Database.perform] at h
    split at h
    · rename_i hname
      cases h
      exact .idle hname
    split at h
    · cases h
    split at h
    · cases h
    · cases h
      exact .index
  | createUniqueIndex name table column =>
    simp only [Database.perform] at h
    split at h
    · rename_i hname
      cases h
      exact .idle hname
    split at h
    · cases h
    split at h
    · cases h
    split at h
    · cases h
      exact .unique
    · cases h
  | addColumn table column =>
    obtain ⟨r, htable, hnew, rfl⟩ := perform_addColumn h
    exact .column htable hnew
  | backfill type source =>
    simp only [Database.perform] at h
    split at h
    · cases h
    · cases h
    · rename_i target r htarget hr
      cases h
      exact .assigned htarget hr
  | protectBootstrap =>
    simp only [Database.perform] at h
    split at h
    · cases h
    · cases h
    · rename_i target users htarget husers
      split at h
      · cases h
      split at h
      · cases h
      · cases h
        exact .protect htarget husers

theorem Effect.grown (h : Effect db s db') (hplain : s.Plain) : db.Grown db' := by
  cases h with
  | idle => exact .refl db
  | table hnone => exact Database.set_grown fun old hold => by rw [hnone] at hold; cases hold
  | index | unique => exact Database.addIndex_grown db _
  | column htable =>
    refine Database.set_grown fun old hold => ?_
    obtain rfl : _ = old := Option.some.inj (htable.symm.trans hold)
    exact Relation.addColumn_grown _ _ hplain.1 hplain.2
  | assigned htarget =>
    refine Database.set_grown fun old hold => ?_
    obtain rfl : _ = old := Option.some.inj (htarget.symm.trans hold)
    exact Relation.assignAll_grown _ _ _
  | protect htarget =>
    refine Database.set_grown fun old hold => ?_
    obtain rfl : _ = old := Option.some.inj (htarget.symm.trans hold)
    exact Relation.protectBootstrap_grown _ _

/-- A statement that has succeeded is done. -/
theorem Effect.done (h : Effect db s db') (hplain : s.Plain) : Done db' s := by
  cases h with
  | idle hdone => exact hdone
  | table => exact Option.isSome_of_eq_some (Database.set_relation_self ..)
  | index | unique => exact Function.update_self ..
  | column =>
    refine Database.hasColumn_iff.mpr ⟨_, Database.set_relation_self .., ?_⟩
    rw [Relation.hasColumn_addColumn, decide_eq_true rfl, Bool.or_true]
  | assigned htarget hr =>
    exact ⟨_, _, Database.set_relation_self .., (Database.set_relation_ne _ _ hplain).trans hr,
      Relation.assignAll_assigns _ _ _⟩
  | protect => trivial

/-- What is done stays done. -/
theorem Done.grown (h : Done db s) (hplain : s.Plain) (hgrown : db.Grown db') : Done db' s := by
  cases s with
  | createTable name columns =>
    obtain ⟨r, hr⟩ := Option.isSome_iff_exists.mp h
    obtain ⟨r', hr', -⟩ := hgrown.relation name r hr
    exact Option.isSome_of_eq_some hr'
  | createIndex name table columns => exact hgrown.index name h
  | createUniqueIndex name table column => exact hgrown.index name h
  | addColumn table column => exact hgrown.hasColumn h
  | backfill type source =>
    obtain ⟨target, r, htarget, hr, hassigned⟩ := h
    obtain ⟨target', htarget', hmore⟩ := hgrown.relation _ target htarget
    obtain ⟨r', hr', hsame⟩ := hgrown.relation source r hr
    refine ⟨target', r', htarget', hr', fun row hrow => ?_⟩
    have hid : row.rowid ∈ r.rows.map Row.rowid := by
      rw [← hsame.rowids hplain]
      exact List.mem_map_of_mem hrow
    obtain ⟨old, hold, hrowid⟩ := List.mem_map.mp hid
    rw [← hrowid]
    exact hmore.principals (hassigned old hold)
  | protectBootstrap => trivial

/-- A statement that is done changes nothing when it runs again. -/
theorem perform_of_done (hrepeats : s.Repeats) (h : Done db s) : db.perform s = .ok db := by
  cases s with
  | createTable name columns =>
    obtain ⟨r, hr⟩ := Option.isSome_iff_exists.mp h
    simp only [Database.perform, hr]
  | createIndex name table columns => exact if_pos h
  | createUniqueIndex name table column => exact if_pos h
  | backfill type source =>
    obtain ⟨target, r, htarget, hr, hassigned⟩ := h
    simp only [Database.perform, htarget, hr]
    change Except.ok (db.set _ (target.assignAll type r.rows)) = _
    rw [Relation.assignAll_of_assigned hassigned, Database.set_same htarget]
  | addColumn table column => exact hrepeats.elim
  | protectBootstrap => exact hrepeats.elim

/-- A column that is there is reported. -/
theorem perform_duplicate {table : String} {column : Column}
    (h : db.hasColumn table column.1 = true) :
    db.perform (.addColumn table column) = .error (.duplicateColumn column.1) := by
  obtain ⟨r, hr, hcolumn⟩ := Database.hasColumn_iff.mp h
  simp only [Database.perform, hr, if_pos hcolumn]

theorem hasColumn_of_duplicate {table name : String} {column : Column}
    (h : db.perform (.addColumn table column) = .error (.duplicateColumn name)) :
    db.hasColumn table column.1 = true := by
  simp only [Database.perform] at h
  cases htable : db.relation table with
  | none =>
    rw [htable] at h
    cases h
  | some r =>
    simp only [htable] at h
    split at h
    · rename_i hcolumn
      exact Database.hasColumn_iff.mpr ⟨r, htable, hcolumn⟩
    · cases h

end Statements

/-! ### Scripts -/

/-- A script after which the loop goes on. -/
def Passed (r : Except MigrationError Unit) : Prop :=
  r = .ok () ∨ ∃ column, r = .error (.duplicateColumn column)

/-- A script begins with an added column, or it can be repeated as a whole. -/
inductive Fine : Script → Prop
  | leading (table : String) (column : Column) (rest : Script) : Fine (.addColumn table column :: rest)
  | repeats {script : Script} (h : ∀ s ∈ script, s.Repeats) : Fine script

/-- The added column is there, or all of the script is done. -/
inductive Settled (db : Database) : Script → Prop
  | leading {table : String} {column : Column} (rest : Script)
    (h : db.hasColumn table column.1 = true) : Settled db (.addColumn table column :: rest)
  | repeats {script : Script} (hrepeats : ∀ s ∈ script, s.Repeats) (h : ∀ s ∈ script, Done db s) :
    Settled db script

section Scripts

variable {db db' db'' : Database} {script first rest : Script} {r : Except MigrationError Unit}

theorem runScript_cons {s : Statement} (h : runScript (s :: rest) db = (db', .ok ())) :
    ∃ db₁, db.perform s = .ok db₁ ∧ runScript rest db₁ = (db', .ok ()) := by
  unfold runScript at h
  split at h
  · cases h
  · rename_i db₁ hperform
    exact ⟨db₁, hperform, h⟩

theorem runScript_append (h : runScript first db = (db', .ok ())) :
    runScript (first ++ rest) db = runScript rest db' := by
  induction first generalizing db with
  | nil =>
    obtain ⟨rfl, -⟩ := Prod.mk.inj h
    rfl
  | cons s first ih =>
    obtain ⟨db₁, hperform, hfirst⟩ := runScript_cons h
    rw [List.cons_append, runScript, hperform]
    exact ih hfirst

theorem runScript_grown (hplain : ∀ s ∈ script, s.Plain) (h : runScript script db = (db', r)) :
    db.Grown db' := by
  induction script generalizing db with
  | nil =>
    obtain ⟨rfl, -⟩ := Prod.mk.inj h
    exact .refl db
  | cons s rest ih =>
    obtain ⟨hs, hrest⟩ := List.forall_mem_cons.mp hplain
    unfold runScript at h
    split at h
    · obtain ⟨rfl, -⟩ := Prod.mk.inj h
      exact .refl db
    · rename_i db₁ hperform
      exact ((perform_effect hperform).grown hs).trans (ih hrest h)

/-- Statements that are done change nothing when they run again. -/
theorem runScript_of_done (hrepeats : ∀ s ∈ script, s.Repeats) (h : ∀ s ∈ script, Done db s) :
    runScript script db = (db, .ok ()) := by
  induction script with
  | nil => rfl
  | cons s rest ih =>
    obtain ⟨hs, hrest⟩ := List.forall_mem_cons.mp hrepeats
    obtain ⟨hdone, hrestDone⟩ := List.forall_mem_cons.mp h
    rw [runScript, perform_of_done hs hdone]
    exact ih hrest hrestDone

/-- The statements of a script that ran to its end are done. -/
theorem done_of_runScript (hplain : ∀ s ∈ script, s.Plain) (h : runScript script db = (db', .ok ())) :
    ∀ s ∈ script, Done db' s := by
  induction script generalizing db with
  | nil => simp
  | cons s rest ih =>
    obtain ⟨hs, hrest⟩ := List.forall_mem_cons.mp hplain
    obtain ⟨db₁, hperform, hlater⟩ := runScript_cons h
    refine List.forall_mem_cons.mpr ⟨?_, ih hrest hlater⟩
    exact ((perform_effect hperform).done hs).grown hs (runScript_grown hrest hlater)

/-- Only an added column can be a duplicate. -/
theorem not_duplicate {s : Statement} (hrepeats : s.Repeats) (column : String) :
    db.perform s ≠ .error (.duplicateColumn column) := by
  intro h
  cases s with
  | createTable name columns =>
    simp only [Database.perform] at h
    split at h <;> cases h
  | createIndex name table columns =>
    simp only [Database.perform] at h
    split at h
    · cases h
    split at h
    · cases h
    split at h <;> cases h
  | createUniqueIndex name table column =>
    simp only [Database.perform] at h
    split at h
    · cases h
    split at h
    · cases h
    split at h
    · cases h
    split at h <;> cases h
  | backfill type source =>
    simp only [Database.perform] at h
    split at h <;> cases h
  | addColumn table column => exact hrepeats
  | protectBootstrap => exact hrepeats

theorem ok_of_passed (hrepeats : ∀ s ∈ script, s.Repeats) (h : runScript script db = (db', r))
    (hpassed : Passed r) : r = .ok () := by
  induction script generalizing db with
  | nil => exact (Prod.mk.inj h).2.symm
  | cons s rest ih =>
    obtain ⟨hs, hrest⟩ := List.forall_mem_cons.mp hrepeats
    unfold runScript at h
    split at h
    · rename_i err hperform
      obtain ⟨-, rfl⟩ := Prod.mk.inj h
      rcases hpassed with hok | ⟨column, hduplicate⟩
      · cases hok
      · cases hduplicate
        exact absurd hperform (not_duplicate hs column)
    · exact ih hrest h

/-- A script that the loop has passed is settled from then on. -/
theorem settled_of_passed (hfine : Fine script) (hplain : ∀ s ∈ script, s.Plain)
    (h : runScript script db = (db', r)) (hpassed : Passed r) (hgrown : db'.Grown db'') :
    Settled db'' script := by
  cases hfine with
  | leading table column rest =>
    refine .leading rest (hgrown.hasColumn ?_)
    obtain ⟨hs, hrest⟩ := List.forall_mem_cons.mp hplain
    unfold runScript at h
    split at h
    · rename_i err hperform
      obtain ⟨rfl, rfl⟩ := Prod.mk.inj h
      rcases hpassed with hok | ⟨name, hduplicate⟩
      · cases hok
      · cases hduplicate
        exact hasColumn_of_duplicate hperform
    · rename_i db₁ hperform
      exact (runScript_grown hrest h).hasColumn ((perform_effect hperform).done hs)
  | repeats hrepeats =>
    obtain rfl := ok_of_passed hrepeats h hpassed
    exact .repeats hrepeats fun s hs => (done_of_runScript hplain h s hs).grown (hplain s hs) hgrown

/-- A settled script changes nothing when it runs again. -/
theorem Settled.runScript (h : Settled db script) : ∃ r, Passed r ∧ runScript script db = (db, r) := by
  cases h with
  | @leading table column rest hcolumn =>
    refine ⟨.error (.duplicateColumn column.1), .inr ⟨column.1, rfl⟩, ?_⟩
    rw [Migration.runScript, perform_duplicate hcolumn]
  | repeats hrepeats hdone => exact ⟨_, .inl rfl, runScript_of_done hrepeats hdone⟩

theorem Settled.column {table : String} {column : Column} (h : Settled db (.addColumn table column :: rest)) :
    db.hasColumn table column.1 = true := by
  cases h with
  | leading _ hcolumn => exact hcolumn
  | repeats hrepeats => exact (hrepeats _ List.mem_cons_self).elim

theorem Settled.done (h : Settled db script) (hrepeats : ∀ s ∈ script, s.Repeats) :
    ∀ s ∈ script, Done db s := by
  cases h with
  | leading => exact (hrepeats _ List.mem_cons_self).elim
  | repeats _ hdone => exact hdone

end Scripts

section Migrations

variable {db db' db'' : Database} {name : String} {script : Script}
  {before after scripts : List (String × Script)} {r : Except MigrationError Unit}

theorem applyMigrations_passed (h : runScript script db = (db', r)) (hpassed : Passed r) :
    applyMigrations ((name, script) :: after) db = applyMigrations after db' := by
  rcases hpassed with rfl | ⟨column, rfl⟩
  · simp only [applyMigrations, h]
  · simp only [applyMigrations, h]

theorem applyMigrations_settled (h : ∀ m ∈ before, Settled db m.2) :
    applyMigrations (before ++ after) db = applyMigrations after db := by
  induction before with
  | nil => rfl
  | cons first rest ih =>
    obtain ⟨hfirst, hrest⟩ := List.forall_mem_cons.mp h
    obtain ⟨r, hpassed, hrun⟩ := hfirst.runScript
    exact (applyMigrations_passed hrun hpassed).trans (ih hrest)

/-- A loop that came to its end passed its first script. -/
theorem passed_of_ok (h : applyMigrations ((name, script) :: after) db = (db', .ok ())) :
    ∃ db₁ r, runScript script db = (db₁, r) ∧ Passed r ∧ applyMigrations after db₁ = (db', .ok ()) := by
  unfold applyMigrations at h
  split at h
  · rename_i db₁ hrun
    exact ⟨db₁, _, hrun, .inl rfl, h⟩
  · rename_i db₁ column hrun
    exact ⟨db₁, _, hrun, .inr ⟨column, rfl⟩, h⟩
  · cases h

theorem applyMigrations_append (h : applyMigrations before db = (db', .ok ())) :
    applyMigrations (before ++ after) db = applyMigrations after db' := by
  induction before generalizing db with
  | nil =>
    obtain ⟨rfl, -⟩ := Prod.mk.inj h
    rfl
  | cons first rest ih =>
    obtain ⟨db₁, r, hrun, hpassed, hrest⟩ := passed_of_ok h
    exact (applyMigrations_passed hrun hpassed).trans (ih hrest)

/-- What every statement of the scripts keeps, the loop keeps. -/
theorem applyMigrations_keeps {P : Database → Prop}
    (hstep : ∀ m ∈ scripts, ∀ s ∈ m.2, ∀ db db', Effect db s db' → P db → P db') (h : P db) :
    P (applyMigrations scripts db).1 := by
  have hscript (script : Script) (hstep : ∀ s ∈ script, ∀ db db', Effect db s db' → P db → P db')
      (db : Database) (h : P db) : P (runScript script db).1 := by
    induction script generalizing db with
    | nil => exact h
    | cons s rest ih =>
      obtain ⟨hs, hrest⟩ := List.forall_mem_cons.mp hstep
      unfold runScript
      split
      · exact h
      · rename_i db' hperform
        exact ih hrest db' (hs db db' (perform_effect hperform) h)
  induction scripts generalizing db with
  | nil => exact h
  | cons first rest ih =>
    obtain ⟨hfirst, hrest⟩ := List.forall_mem_cons.mp hstep
    have hkept := hscript first.2 hfirst db h
    unfold applyMigrations
    split
    · rename_i db' hrun
      rw [hrun] at hkept
      exact ih hrest hkept
    · rename_i db' column hrun
      rw [hrun] at hkept
      exact ih hrest hkept
    · rename_i db' err hrun
      rw [hrun] at hkept
      exact hkept

theorem applyMigrations_grown (db : Database) (hplain : ∀ m ∈ scripts, ∀ s ∈ m.2, s.Plain) :
    db.Grown (applyMigrations scripts db).1 :=
  applyMigrations_keeps (fun m hm s hs _ _ heffect hgrown => hgrown.trans (heffect.grown (hplain m hm s hs)))
    (.refl db)

/-- The scripts that a loop has passed are settled from then on. -/
theorem settled_of_ok (hfine : ∀ m ∈ before, Fine m.2) (hplain : ∀ m ∈ before, ∀ s ∈ m.2, s.Plain)
    (h : applyMigrations before db = (db', .ok ())) (hgrown : db'.Grown db'') :
    ∀ m ∈ before, Settled db'' m.2 := by
  induction before generalizing db with
  | nil => simp
  | cons first rest ih =>
    obtain ⟨hfirst, hrest⟩ := List.forall_mem_cons.mp hfine
    obtain ⟨hfirstPlain, hrestPlain⟩ := List.forall_mem_cons.mp hplain
    obtain ⟨db₁, r, hrun, hpassed, hend⟩ := passed_of_ok h
    refine List.forall_mem_cons.mpr ⟨?_, ih hrest hrestPlain hend⟩
    have hlater : db₁.Grown db' := by
      have hloop := applyMigrations_grown db₁ hrestPlain
      rwa [hend] at hloop
    exact settled_of_passed hfirst hfirstPlain hrun hpassed (hlater.trans hgrown)

end Migrations

end Doupro.Store.Migration
