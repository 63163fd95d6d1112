import Doupro.Store.MigrationRestart

/-!
# Crashes between statements

A start may end between any two statements of the scripts. The next start ends where the first one
would have, unless the crash left something to do behind a column that it takes to be applied.
-/

namespace Doupro.Store.Migration

theorem migrations_fine : ∀ m ∈ migrations, Fine m.2 := by
  have hrepeats (script : Script) (h : ∀ s ∈ script, s.Repeats) : Fine script := .repeats h
  simp only [migrations, List.forall_mem_cons]
  exact ⟨hrepeats _ (by decide), hrepeats _ (by decide), .leading .., .leading .., .leading ..,
    hrepeats _ (by decide), .leading .., hrepeats _ (by decide), hrepeats _ (by decide), .leading ..,
    hrepeats _ (by decide), hrepeats _ (by decide), by simp⟩

theorem migrations_plain : ∀ m ∈ migrations, ∀ s ∈ m.2, s.Plain := by decide

theorem migrations_nodup : (migrations.map Prod.fst).Nodup := by decide

/-- A start that was cut off: it had run the scripts `before` and the statements `done` of another. -/
structure Crash (db : Database) where
  before : List (String × Script)
  name : String
  done : Script
  left : Script
  after : List (String × Script)
  split : migrations = before ++ (name, done ++ left) :: after
  started : Database
  crashed : Database
  ran : applyMigrations before db = (started, .ok ())
  partly : runScript done started = (crashed, .ok ())

def Database.hasLocalUser (db : Database) : Bool :=
  match db.relation "users" with
  | some users => users.rows.any fun row => row.cell "auth_provider" = .text "local"
  | none => false

/-- What a crash leaves undone for good: the second column or the index of 0004, the second column of
0005, or the protection of the first local user in 0007. -/
def Crash.Lost {db : Database} (c : Crash db) : Prop :=
  c.name = "0004_oidc_users.sql" ∧ c.done.length = 1 ∧
      c.crashed.hasColumn "users" "oidc_subject" = false ∨
    c.name = "0004_oidc_users.sql" ∧ c.done.length = 2 ∧
      c.crashed.hasIndex "idx_users_oidc_subject" = false ∨
    c.name = "0005_container_versions.sql" ∧ c.done.length = 1 ∧
      c.crashed.hasColumn "containers" "available_version" = false ∨
    c.name = "0007_protected_admin.sql" ∧ c.done.length = 1 ∧ c.crashed.hasLocalUser = true

/-! ### What a statement leaves alone -/

namespace Statement

/-- Whether a statement may bring a column into being. -/
def adds (table column : String) : Statement → Bool
  | .createTable name columns => name = table ∧ columns.any fun c => c.1 = column
  | .addColumn name c => name = table ∧ c.1 = column
  | _ => false

/-- Whether a statement creates an index. -/
def indexes (name : String) : Statement → Bool
  | .createIndex other _ _ | .createUniqueIndex other _ _ => other = name
  | _ => false

/-- Whether a statement writes to a table. -/
def writes (table : String) : Statement → Bool
  | .createTable name _ | .addColumn name _ => name = table
  | .backfill _ _ | .protectBootstrap => table = "rbac_assignments"
  | _ => false

end Statement

section Frames

variable {db db' : Database} {s : Statement}

theorem Effect.relation_eq (h : Effect db s db') {table : String} (hs : s.writes table = false) :
    db'.relation table = db.relation table := by
  have hset (name : String) (r : Relation) (hname : table ≠ name) :
      (db.set name r).relation table = db.relation table := Database.set_relation_ne db r hname
  cases h with
  | idle | index | unique => rfl
  | table => exact hset _ _ fun h => by simp [Statement.writes, h] at hs
  | column => exact hset _ _ fun h => by simp [Statement.writes, h] at hs
  | assigned => exact hset _ _ fun h => by simp [Statement.writes, h] at hs
  | protect => exact hset _ _ fun h => by simp [Statement.writes, h] at hs

theorem Effect.no_index (h : Effect db s db') {name : String} (hs : s.indexes name = false)
    (hname : db.hasIndex name = false) : db'.hasIndex name = false := by
  have hadd (other : String) (hother : name ≠ other) : (db.addIndex other).hasIndex name = false :=
    (Function.update_of_ne hother ..).trans hname
  cases h with
  | index => exact hadd _ fun h => by simp [Statement.indexes, h] at hs
  | unique => exact hadd _ fun h => by simp [Statement.indexes, h] at hs
  | _ => exact hname

/-- A table that is written anew has a column that it did not have only if the statement adds it. -/
theorem Effect.no_column (h : Effect db s db') {table column : String}
    (hs : s.adds table column = false) (hcolumn : db.hasColumn table column = false) :
    db'.hasColumn table column = false := by
  have hset (name : String) (r : Relation) (hname : name = table → r.hasColumn column = false) :
      (db.set name r).hasColumn table column = false := by
    by_cases htable : table = name
    · subst htable
      simp only [Database.hasColumn, Database.set_relation_self]
      exact hname rfl
    · unfold Database.hasColumn
      rw [Database.set_relation_ne db r htable]
      exact hcolumn
  have hold (name : String) (r : Relation) (hr : db.relation name = some r) (hname : name = table) :
      r.hasColumn column = false := by
    subst hname
    simpa only [Database.hasColumn, hr] using hcolumn
  cases h with
  | idle | index | unique => exact hcolumn
  | @table name columns hnone =>
    refine hset _ _ fun hname => ?_
    subst hname
    simpa [Statement.adds, Relation.hasColumn] using hs
  | @column name c r hr hnew =>
    refine hset _ _ fun hname => ?_
    rw [Relation.hasColumn_addColumn, hold _ _ hr hname, Bool.false_or, decide_eq_false_iff_not]
    intro hsame
    simp [Statement.adds, hname, hsame] at hs
  | @assigned type source target r htarget hr =>
    obtain ⟨new, hnew⟩ := Relation.assignAll_rows type r.rows target
    rw [hnew]
    exact hset _ _ fun hname => show target.hasColumn column = false from hold _ _ htarget hname
  | @protect target users htarget =>
    exact hset _ _ fun hname => show target.hasColumn column = false from hold _ _ htarget hname

end Frames

namespace Relation

variable (users : Relation)

theorem any_local : (users.rows.any fun row => row.cell "auth_provider" = .text "local") =
    users.bootstrapUser.isSome := by
  unfold bootstrapUser
  rw [Bool.eq_iff_iff, List.isSome_min?_iff, ne_eq, List.map_eq_nil_iff, List.filter_eq_nil_iff]
  simp

theorem bootstrapUser_mem {id : Int} (h : users.bootstrapUser = some id) :
    ∃ row ∈ users.rows, row.rowid = id := by
  obtain ⟨row, hrow, hid⟩ := List.mem_map.mp (List.min?_mem h)
  exact ⟨row, List.mem_of_mem_filter hrow, hid⟩

theorem protectBootstrap_none {r users : Relation} (h : users.bootstrapUser = none) :
    r.protectBootstrap users = r := by
  unfold protectBootstrap
  rw [h, Table.updateWhere_eq_self fun _ _ hwhere => absurd hwhere (by simp)]

end Relation

/-! ### The two ends -/

section Ends

variable {db : Database} {name : String} {s : Statement} {rest : Script}
  {after : List (String × Script)}

/-- What the first statement of a script leaves is there at the end. -/
theorem first_grown {db₁ : Database} (name : String) (h : db.perform s = .ok db₁) (hrest : ∀ s ∈ rest, s.Plain)
    (hafter : ∀ m ∈ after, ∀ s ∈ m.2, s.Plain) :
    db₁.Grown (applyMigrations ((name, s :: rest) :: after) db).1 := by
  have hsame : applyMigrations ((name, s :: rest) :: after) db =
      applyMigrations ((name, rest) :: after) db₁ := by
    have hrun : runScript (s :: rest) db = runScript rest db₁ := by rw [runScript, h]
    simp only [applyMigrations, hrun]
  rw [hsame]
  exact applyMigrations_grown _ (List.forall_mem_cons.mpr ⟨hrest, hafter⟩)

/-- A column that only the skipped rest of a script adds is missing at the end. -/
theorem column_lost {table : String} {column : Column} (htable : (db.relation table).isSome = true)
    (hcolumn : db.hasColumn table column.1 = false) (hrest : ∀ s ∈ rest, s.Plain)
    (hplain : ∀ m ∈ after, ∀ s ∈ m.2, s.Plain)
    (hafter : ∀ m ∈ after, ∀ s ∈ m.2, s.adds table column.1 = false) :
    applyMigrations after db ≠ applyMigrations ((name, .addColumn table column :: rest) :: after) db := by
  intro hsame
  have hmissing : (applyMigrations after db).1.hasColumn table column.1 = false :=
    applyMigrations_keeps (P := fun db => db.hasColumn table column.1 = false)
      (fun m hm s hs _ _ heffect hP => heffect.no_column (hafter m hm s hs) hP) hcolumn
  obtain ⟨r, hr⟩ := Option.isSome_iff_exists.mp htable
  have hnew : r.hasColumn column.1 = false := by simpa only [Database.hasColumn, hr] using hcolumn
  have hperform : db.perform (.addColumn table column) = .ok (db.set table (r.addColumn column)) := by
    simp only [Database.perform, hr, hnew, Bool.false_eq_true, if_false]
  have hthere := (first_grown name hperform hrest hplain).hasColumn
    (Database.hasColumn_iff.mpr ⟨_, Database.set_relation_self .., by
      rw [Relation.hasColumn_addColumn, decide_eq_true rfl, Bool.or_true]⟩)
  rw [← hsame, hmissing] at hthere
  cases hthere

/-- An index that only the skipped end of a script creates is missing at the end. -/
theorem index_lost {index table column : String} {r : Relation} (htable : db.relation table = some r)
    (hcolumn : r.hasColumn column = true) (hrows : ∀ row ∈ r.rows, row.cell column = .null)
    (hindex : db.hasIndex index = false) (hrest : ∀ s ∈ rest, s.Plain)
    (hplain : ∀ m ∈ after, ∀ s ∈ m.2, s.Plain)
    (hafter : ∀ m ∈ after, ∀ s ∈ m.2, s.indexes index = false) :
    applyMigrations after db ≠
      applyMigrations ((name, .createUniqueIndex index table column :: rest) :: after) db := by
  intro hsame
  have hmissing : (applyMigrations after db).1.hasIndex index = false :=
    applyMigrations_keeps (P := fun db => db.hasIndex index = false)
      (fun m hm s hs _ _ heffect hP => heffect.no_index (hafter m hm s hs) hP) hindex
  have hnone : (r.rows.map fun row => row.cell column).filter (fun v => v ≠ .null) = [] := by
    rw [List.filter_eq_nil_iff]
    intro v hv
    obtain ⟨row, hrow, rfl⟩ := List.mem_map.mp hv
    simp [hrows row hrow]
  have hperform : db.perform (.createUniqueIndex index table column) = .ok (db.addIndex index) := by
    simp only [Database.perform, hindex, htable, hcolumn, hnone, Bool.false_eq_true, Bool.not_true,
      if_false, List.nodup_nil, if_true]
  have hthere := (first_grown name hperform hrest hplain).index index
    (Function.update_self ..)
  rw [← hsame, hmissing] at hthere
  cases hthere

/-- The protection of the first local user, which only the skipped end of a script gives, is missing
at the end. -/
theorem protection_lost {target users : Relation} {id : Int}
    (htarget : db.relation "rbac_assignments" = some target) (husers : db.relation "users" = some users)
    (hprotected : target.hasColumn "protected" = true) (hprovider : users.hasColumn "auth_provider" = true)
    (hid : users.bootstrapUser = some id) (hassigned : (.text "user", .integer id) ∈ target.principals)
    (hrows : ∀ row ∈ target.rows, row.cell "protected" = zero)
    (hafter : ∀ m ∈ after, ∀ s ∈ m.2, s.writes "rbac_assignments" = false) :
    applyMigrations after db ≠ applyMigrations ((name, [.protectBootstrap]) :: after) db := by
  intro hsame
  have hkept (db : Database) : (applyMigrations after db).1.relation "rbac_assignments" =
      db.relation "rbac_assignments" :=
    applyMigrations_keeps (P := fun later => later.relation "rbac_assignments" =
        db.relation "rbac_assignments")
      (fun m hm s hs _ _ heffect hP => (heffect.relation_eq (hafter m hm s hs)).trans hP) rfl
  have hperform : db.perform .protectBootstrap =
      .ok (db.set "rbac_assignments" (target.protectBootstrap users)) := by
    simp only [Database.perform, htarget, husers, hprotected, hprovider, Bool.not_true,
      Bool.false_eq_true, if_false]
  have hstraight : applyMigrations ((name, [.protectBootstrap]) :: after) db =
      applyMigrations after (db.set "rbac_assignments" (target.protectBootstrap users)) :=
    applyMigrations_passed (r := .ok ()) (by simp only [runScript, hperform]) (.inl rfl)
  have hequal : target.protectBootstrap users = target := by
    have hends := congrArg (fun ends => ends.1.relation "rbac_assignments") hsame
    simp only [hstraight, hkept, htarget, Database.set_relation_self, Option.some.injEq] at hends
    exact hends.symm
  obtain ⟨row, hrow, hassigns⟩ := List.any_eq_true.mp ((Relation.any_assigns _ _ _).mpr hassigned)
  have hnew : Relation.protect row ∈ target.rows := by
    rw [← hequal]
    refine List.mem_map.mpr ⟨row, hrow, if_pos ?_⟩
    rw [hid]
    exact hassigns
  have hone := hrows _ hnew
  simp [Relation.protect, zero, Function.update] at hone

end Ends

/-! ### The next start -/

/-- Where an entry of a list with different names stands. -/
theorem split_at_name {l before after : List (String × Script)} {name : String} {script : Script}
    (hnodup : (l.map Prod.fst).Nodup) (h : l = before ++ (name, script) :: after) :
    before = l.take ((l.map Prod.fst).idxOf name) ∧ after = l.drop ((l.map Prod.fst).idxOf name + 1) := by
  have hnames : l.map Prod.fst = before.map Prod.fst ++ name :: after.map Prod.fst := by
    rw [h, List.map_append, List.map_cons]
  have hnew : name ∉ before.map Prod.fst := by
    rw [hnames] at hnodup
    exact fun hmem => (List.nodup_append.mp hnodup).2.2 name hmem name List.mem_cons_self rfl
  have hposition : (l.map Prod.fst).idxOf name = before.length := by
    rw [hnames, List.idxOf_append_of_notMem hnew, List.idxOf_cons_self, List.length_map, Nat.add_zero]
  rw [hposition, h]
  constructor
  · rw [List.take_left]
  · rw [← List.singleton_append, ← List.append_assoc, List.drop_left' (by simp)]

namespace Crash

variable {db : Database} (c : Crash db)

theorem mem : (c.name, c.done ++ c.left) ∈ migrations := by
  rw [c.split]
  exact List.mem_append_right _ List.mem_cons_self

theorem plain_parts : (∀ m ∈ c.before, ∀ s ∈ m.2, s.Plain) ∧ (∀ s ∈ c.done ++ c.left, s.Plain) ∧
    ∀ m ∈ c.after, ∀ s ∈ m.2, s.Plain := by
  have hplain := migrations_plain
  rw [c.split] at hplain
  refine ⟨fun m hm => hplain m (List.mem_append_left _ hm), hplain _ (List.mem_append_right _
    List.mem_cons_self), fun m hm => hplain m (List.mem_append_right _ (List.mem_cons_of_mem _ hm))⟩

theorem grown : c.started.Grown c.crashed :=
  runScript_grown (fun s hs => c.plain_parts.2.1 s (List.mem_append_left _ hs)) c.partly

/-- The scripts before the one under way are settled when the daemon starts again. -/
theorem settled : ∀ m ∈ c.before, Settled c.crashed m.2 := by
  refine settled_of_ok (fun m hm => migrations_fine m ?_) c.plain_parts.1 c.ran c.grown
  rw [c.split]
  exact List.mem_append_left _ hm

/-- The next start comes to the script under way. -/
theorem restart : migrate c.crashed = applyMigrations ((c.name, c.done ++ c.left) :: c.after) c.crashed := by
  unfold migrate
  rw [c.split]
  exact applyMigrations_settled c.settled

/-- The start that is not cut off goes on behind the statements it has run. -/
theorem straight : migrate db = applyMigrations ((c.name, c.left) :: c.after) c.crashed := by
  unfold migrate
  rw [c.split, applyMigrations_append c.ran]
  simp only [applyMigrations, runScript_append c.partly]

/-- Behind an added column the next start skips the script. -/
theorem restart_of_leading {table : String} {column : Column} {rest : Script}
    (h : c.done = .addColumn table column :: rest) :
    migrate c.crashed = applyMigrations c.after c.crashed := by
  have hcolumn : c.crashed.hasColumn table column.1 = true := by
    have hdone := done_of_runScript (fun s hs => c.plain_parts.2.1 s (List.mem_append_left _ hs))
      c.partly (.addColumn table column)
    rw [h] at hdone
    exact hdone List.mem_cons_self
  have hsettled : Settled c.crashed (c.done ++ c.left) := by
    rw [h]
    exact .leading _ hcolumn
  obtain ⟨r, hpassed, hrun⟩ := hsettled.runScript
  rw [c.restart, applyMigrations_passed hrun hpassed]

/-- A script that can be repeated is taken up where it was cut off. -/
theorem same_of_repeats (h : ∀ s ∈ c.done ++ c.left, s.Repeats) : migrate c.crashed = migrate db := by
  have hdone : runScript c.done c.crashed = (c.crashed, .ok ()) := by
    refine runScript_of_done (fun s hs => h s (List.mem_append_left _ hs)) ?_
    exact done_of_runScript (fun s hs => c.plain_parts.2.1 s (List.mem_append_left _ hs)) c.partly
  rw [c.restart, c.straight]
  simp only [applyMigrations, runScript_append hdone]

theorem same_of_begin (h : c.done = []) : migrate c.crashed = migrate db := by
  rw [c.restart, c.straight, h, List.nil_append]

/-- A rest that changes nothing is not missed. -/
theorem same_of_idle {table : String} {column : Column} {rest : Script}
    (hdone : c.done = .addColumn table column :: rest) {r : Except MigrationError Unit}
    (hpassed : Passed r) (h : runScript c.left c.crashed = (c.crashed, r)) :
    migrate c.crashed = migrate db := by
  rw [c.restart_of_leading hdone, c.straight, applyMigrations_passed h hpassed]

theorem positions : c.before = migrations.take ((migrations.map Prod.fst).idxOf c.name) ∧
    c.after = migrations.drop ((migrations.map Prod.fst).idxOf c.name + 1) :=
  split_at_name migrations_nodup c.split

theorem cut {script : Script} (h : c.done ++ c.left = script) :
    ∃ n ≤ script.length, c.done = script.take n ∧ c.left = script.drop n := by
  subst h
  exact ⟨c.done.length, by simp, List.take_left.symm, List.drop_left.symm⟩

theorem after_plain : ∀ m ∈ c.after, ∀ s ∈ m.2, s.Plain := c.plain_parts.2.2

theorem rest_plain {s : Statement} {rest : Script} (h : c.left = s :: rest) : ∀ s ∈ rest, s.Plain :=
  fun s hs => c.plain_parts.2.1 s (List.mem_append_right _ (h ▸ List.mem_cons_of_mem _ hs))

/-- A second column of a script is lost unless it is there already. -/
theorem second_column {table : String} {first second : Column} {rest : Script}
    (hdone : c.done = [.addColumn table first]) (hleft : c.left = .addColumn table second :: rest)
    (hafter : ∀ m ∈ c.after, ∀ s ∈ m.2, s.adds table second.1 = false) :
    migrate c.crashed = migrate db ↔ c.crashed.hasColumn table second.1 = true := by
  cases hcolumn : c.crashed.hasColumn table second.1 with
  | true =>
    obtain ⟨r, hpassed, hrun⟩ := (Settled.leading rest hcolumn).runScript
    exact iff_of_true (c.same_of_idle hdone hpassed (by rw [hleft, hrun])) rfl
  | false =>
    refine iff_of_false ?_ Bool.false_ne_true
    have hpartly := c.partly
    rw [hdone] at hpartly
    obtain ⟨db₁, hperform, hend⟩ := runScript_cons hpartly
    obtain ⟨r, hr, hnew, rfl⟩ := perform_addColumn hperform
    obtain ⟨hcrashed, -⟩ := Prod.mk.inj hend
    rw [c.restart_of_leading hdone, c.straight, hleft]
    refine column_lost ?_ hcolumn (c.rest_plain hleft) c.after_plain hafter
    rw [← hcrashed]
    exact Option.isSome_of_eq_some (Database.set_relation_self ..)

/-- The index of a column that the script has just added is lost unless it is there already. -/
theorem last_index {table index : String} {first : Column} {column : String}
    (hdone : c.done = [.addColumn table first, .addColumn table (column, .null)])
    (hleft : c.left = [.createUniqueIndex index table column])
    (hafter : ∀ m ∈ c.after, ∀ s ∈ m.2, s.indexes index = false) :
    migrate c.crashed = migrate db ↔ c.crashed.hasIndex index = true := by
  cases hindex : c.crashed.hasIndex index with
  | true =>
    have hsettled : Settled c.crashed c.left := by
      rw [hleft]
      exact .repeats (by simp [Statement.Repeats]) (by simpa [Done] using hindex)
    obtain ⟨r, hpassed, hrun⟩ := hsettled.runScript
    exact iff_of_true (c.same_of_idle hdone hpassed hrun) rfl
  | false =>
    refine iff_of_false ?_ Bool.false_ne_true
    have hpartly := c.partly
    rw [hdone] at hpartly
    obtain ⟨db₁, -, hrest⟩ := runScript_cons hpartly
    obtain ⟨db₂, hperform, hend⟩ := runScript_cons hrest
    obtain ⟨r, hr, -, rfl⟩ := perform_addColumn hperform
    obtain ⟨hcrashed, -⟩ := Prod.mk.inj hend
    have htable : c.crashed.relation table = some (r.addColumn (column, .null)) := by
      rw [← hcrashed]
      exact Database.set_relation_self ..
    have hcolumn : (r.addColumn (column, .null)).hasColumn column = true := by
      rw [Relation.hasColumn_addColumn, decide_eq_true rfl, Bool.or_true]
    have hrows : ∀ row ∈ (r.addColumn (column, .null)).rows, row.cell column = .null := by
      intro row hrow
      obtain ⟨old, -, rfl⟩ := List.mem_map.mp hrow
      exact Function.update_self ..
    rw [c.restart_of_leading hdone, c.straight, hleft]
    exact index_lost htable hcolumn hrows hindex (by simp) c.after_plain hafter

/-- The protection of the first local user is lost if there is one. -/
theorem last_protection (hdone : c.done = [.addColumn "rbac_assignments" ("protected", zero)])
    (hleft : c.left = [.protectBootstrap])
    (hprovider : ("0004_oidc_users.sql", [.addColumn "users" ("auth_provider", .text "local"),
      .addColumn "users" ("oidc_subject", absent),
      .createUniqueIndex "idx_users_oidc_subject" "users" "oidc_subject"]) ∈ c.before)
    (hassigned : ("0006_rbac.sql", rbacScript) ∈ c.before)
    (hafter : ∀ m ∈ c.after, ∀ s ∈ m.2, s.writes "rbac_assignments" = false) :
    migrate c.crashed = migrate db ↔ c.crashed.hasLocalUser = false := by
  have hpartly := c.partly
  rw [hdone] at hpartly
  obtain ⟨db₁, hperform, hend⟩ := runScript_cons hpartly
  obtain ⟨r, hr, -, rfl⟩ := perform_addColumn hperform
  obtain ⟨hcrashed, -⟩ := Prod.mk.inj hend
  have hrbac := (c.settled _ hassigned).done (by decide) (.backfill "user" "users") (by decide)
  obtain ⟨target, users, htarget, husers, hall⟩ := hrbac
  have hset : c.crashed.relation "rbac_assignments" = some (r.addColumn ("protected", zero)) := by
    rw [← hcrashed]
    exact Database.set_relation_self ..
  obtain rfl : target = r.addColumn ("protected", zero) := Option.some.inj (htarget.symm.trans hset)
  have hcolumn : (r.addColumn ("protected", zero)).hasColumn "protected" = true := by
    rw [Relation.hasColumn_addColumn, decide_eq_true rfl, Bool.or_true]
  have hauth : users.hasColumn "auth_provider" = true := by
    simpa only [Database.hasColumn, husers] using (c.settled _ hprovider).column
  have hrows : ∀ row ∈ (r.addColumn ("protected", zero)).rows, row.cell "protected" = zero := by
    intro row hrow
    obtain ⟨old, -, rfl⟩ := List.mem_map.mp hrow
    exact Function.update_self "protected" zero old.cell
  have hlocal : c.crashed.hasLocalUser = users.bootstrapUser.isSome := by
    simp only [Database.hasLocalUser, husers]
    exact users.any_local
  rw [hlocal]
  cases hid : users.bootstrapUser with
  | none =>
    have hperform : c.crashed.perform .protectBootstrap = .ok c.crashed := by
      simp only [Database.perform, htarget, husers, hcolumn, hauth, Bool.not_true, Bool.false_eq_true,
        if_false, Relation.protectBootstrap_none hid, Database.set_same htarget]
    exact iff_of_true (c.same_of_idle hdone (.inl rfl) (by rw [hleft, runScript, hperform]; rfl)) rfl
  | some id =>
    refine iff_of_false ?_ (by simp)
    rw [c.restart_of_leading hdone, c.straight, hleft]
    obtain ⟨row, hrow, rfl⟩ := users.bootstrapUser_mem hid
    exact protection_lost htarget husers hcolumn hauth hid (hall row hrow) hrows hafter

/-- The rest of 0004 is lost with a crash inside it. -/
theorem oidc_iff (hname : c.name = "0004_oidc_users.sql")
    (hscript : c.done ++ c.left = [.addColumn "users" ("auth_provider", .text "local"),
      .addColumn "users" ("oidc_subject", absent),
      .createUniqueIndex "idx_users_oidc_subject" "users" "oidc_subject"]) :
    migrate c.crashed = migrate db ↔ ¬ c.Lost := by
  have hafter : c.after = migrations.drop 4 := by
    rw [c.positions.2, hname]
    rfl
  obtain ⟨n, hn, hdone, hleft⟩ := c.cut hscript
  match n, hn with
  | 0, _ =>
    have hlost : ¬ c.Lost := by simp [Lost, hname, hdone]
    exact iff_of_true (c.same_of_begin hdone) hlost
  | 1, _ =>
    have hlost : c.Lost ↔ c.crashed.hasColumn "users" "oidc_subject" = false := by
      simp [Lost, hname, hdone]
    rw [hlost, Bool.not_eq_false]
    exact c.second_column hdone hleft (by rw [hafter]; decide)
  | 2, _ =>
    have hlost : c.Lost ↔ c.crashed.hasIndex "idx_users_oidc_subject" = false := by
      simp [Lost, hname, hdone]
    rw [hlost, Bool.not_eq_false]
    exact c.last_index hdone hleft (by rw [hafter]; decide)
  | 3, _ =>
    have hlost : ¬ c.Lost := by simp [Lost, hname, hdone]
    exact iff_of_true (c.same_of_idle hdone (.inl rfl) (by rw [hleft]; rfl)) hlost

/-- The second column of 0005 is lost with a crash before it. -/
theorem versions_iff (hname : c.name = "0005_container_versions.sql")
    (hscript : c.done ++ c.left = [.addColumn "containers" ("current_version", empty),
      .addColumn "containers" ("available_version", empty)]) :
    migrate c.crashed = migrate db ↔ ¬ c.Lost := by
  have hafter : c.after = migrations.drop 5 := by
    rw [c.positions.2, hname]
    rfl
  obtain ⟨n, hn, hdone, hleft⟩ := c.cut hscript
  match n, hn with
  | 0, _ =>
    have hlost : ¬ c.Lost := by simp [Lost, hname, hdone]
    exact iff_of_true (c.same_of_begin hdone) hlost
  | 1, _ =>
    have hlost : c.Lost ↔ c.crashed.hasColumn "containers" "available_version" = false := by
      simp [Lost, hname, hdone]
    rw [hlost, Bool.not_eq_false]
    exact c.second_column hdone hleft (by rw [hafter]; decide)
  | 2, _ =>
    have hlost : ¬ c.Lost := by simp [Lost, hname, hdone]
    exact iff_of_true (c.same_of_idle hdone (.inl rfl) (by rw [hleft]; rfl)) hlost

/-- The protection of 0007 is lost with a crash before it, if there is a local user. -/
theorem protected_iff (hname : c.name = "0007_protected_admin.sql")
    (hscript : c.done ++ c.left = [.addColumn "rbac_assignments" ("protected", zero), .protectBootstrap]) :
    migrate c.crashed = migrate db ↔ ¬ c.Lost := by
  have hbefore : c.before = migrations.take 6 := by
    rw [c.positions.1, hname]
    rfl
  have hafter : c.after = migrations.drop 7 := by
    rw [c.positions.2, hname]
    rfl
  obtain ⟨n, hn, hdone, hleft⟩ := c.cut hscript
  match n, hn with
  | 0, _ =>
    have hlost : ¬ c.Lost := by simp [Lost, hname, hdone]
    exact iff_of_true (c.same_of_begin hdone) hlost
  | 1, _ =>
    have hlost : c.Lost ↔ c.crashed.hasLocalUser = true := by simp [Lost, hname, hdone]
    rw [hlost, Bool.not_eq_true]
    exact c.last_protection hdone hleft (by rw [hbefore]; decide) (by rw [hbefore]; decide)
      (by rw [hafter]; decide)
  | 2, _ =>
    have hlost : ¬ c.Lost := by simp [Lost, hname, hdone]
    exact iff_of_true (c.same_of_idle hdone (.inl rfl) (by rw [hleft]; rfl)) hlost

/-- A script of one statement leaves nothing behind. -/
theorem single_same {table : String} {column : Column}
    (hscript : c.done ++ c.left = [.addColumn table column]) : migrate c.crashed = migrate db := by
  obtain ⟨n, hn, hdone, hleft⟩ := c.cut hscript
  match n, hn with
  | 0, _ => exact c.same_of_begin hdone
  | 1, _ => exact c.same_of_idle hdone (.inl rfl) (by rw [hleft]; rfl)

theorem same_iff : migrate c.crashed = migrate db ↔ ¬ c.Lost := by
  have hmem := c.mem
  simp only [migrations, List.mem_cons, Prod.mk.injEq, List.not_mem_nil, or_false] at hmem
  have hrepeats {script : Script} (hscript : c.done ++ c.left = script)
      (h : ∀ s ∈ script, s.Repeats) : migrate c.crashed = migrate db :=
    c.same_of_repeats (hscript ▸ h)
  rcases hmem with ⟨hname, hscript⟩ | ⟨hname, hscript⟩ | ⟨hname, hscript⟩ | ⟨hname, hscript⟩ |
    ⟨hname, hscript⟩ | ⟨hname, hscript⟩ | ⟨hname, hscript⟩ | ⟨hname, hscript⟩ | ⟨hname, hscript⟩ |
    ⟨hname, hscript⟩ | ⟨hname, hscript⟩ | ⟨hname, hscript⟩
  · exact iff_of_true (hrepeats hscript (by decide)) (by simp [Lost, hname])
  · exact iff_of_true (hrepeats hscript (by decide)) (by simp [Lost, hname])
  · exact iff_of_true (c.single_same hscript) (by simp [Lost, hname])
  · exact c.oidc_iff hname hscript
  · exact c.versions_iff hname hscript
  · exact iff_of_true (hrepeats hscript (by decide)) (by simp [Lost, hname])
  · exact c.protected_iff hname hscript
  · exact iff_of_true (hrepeats hscript (by decide)) (by simp [Lost, hname])
  · exact iff_of_true (hrepeats hscript (by decide)) (by simp [Lost, hname])
  · exact iff_of_true (c.single_same hscript) (by simp [Lost, hname])
  · exact iff_of_true (hrepeats hscript (by decide)) (by simp [Lost, hname])
  · exact iff_of_true (hrepeats hscript (by decide)) (by simp [Lost, hname])

end Crash

/-! ### A database that is up to date -/

/-- The same tables with the same columns, and the same indexes. -/
structure SameSchema (db db' : Database) : Prop where
  index : db'.hasIndex = db.hasIndex
  columns : ∀ name, (db'.relation name).map Relation.columns = (db.relation name).map Relation.columns

/-- Every row is there as it was; only assignments may have come in. -/
structure RowsKept (db db' : Database) : Prop extends SameSchema db db' where
  rows : ∀ name r, db.relation name = some r → ∃ new,
    db'.relation name = some { r with rows := r.rows ++ new } ∧ (name ≠ "rbac_assignments" → new = [])

/-- A start has come to its end, and since then rows were written. -/
def UpToDate (db : Database) : Prop :=
  ∃ first started, migrate first = (started, .ok ()) ∧ SameSchema started db

section Rerun

variable {db db' db'' : Database} {s : Statement} {script : Script} {scripts : List (String × Script)}

theorem SameSchema.refl (db : Database) : SameSchema db db := ⟨rfl, fun _ => rfl⟩

theorem SameSchema.trans (h : SameSchema db db') (h' : SameSchema db' db'') : SameSchema db db'' :=
  ⟨h'.index.trans h.index, fun name => (h'.columns name).trans (h.columns name)⟩

theorem RowsKept.refl (db : Database) : RowsKept db db where
  toSameSchema := .refl db
  rows _ r hr := ⟨[], by rw [List.append_nil, hr], fun _ => rfl⟩

theorem RowsKept.trans (h : RowsKept db db') (h' : RowsKept db' db'') : RowsKept db db'' where
  toSameSchema := h.toSameSchema.trans h'.toSameSchema
  rows name r hr := by
    obtain ⟨new, hnew, hnone⟩ := h.rows name r hr
    obtain ⟨newer, hnewer, hnone'⟩ := h'.rows name _ hnew
    refine ⟨new ++ newer, ?_, fun hname => by rw [hnone hname, hnone' hname]; rfl⟩
    rw [hnewer, List.append_assoc]

theorem SameSchema.relation (h : SameSchema db db') {name : String} {r : Relation}
    (hr : db.relation name = some r) : ∃ r', db'.relation name = some r' ∧ r'.columns = r.columns := by
  have hcolumns := h.columns name
  rw [hr] at hcolumns
  exact Option.map_eq_some_iff.mp hcolumns

theorem SameSchema.hasColumn (h : SameSchema db db') {table column : String}
    (hcolumn : db.hasColumn table column = true) : db'.hasColumn table column = true := by
  obtain ⟨r, hr, hhas⟩ := Database.hasColumn_iff.mp hcolumn
  obtain ⟨r', hr', hsame⟩ := h.relation hr
  refine Database.hasColumn_iff.mpr ⟨r', hr', ?_⟩
  unfold Relation.hasColumn at hhas ⊢
  rw [hsame]
  exact hhas

/-- What was done in a database of the same schema runs without an error and keeps the rows. -/
theorem perform_kept (hrepeats : s.Repeats) (hdone : Done db s) (hsame : SameSchema db db') :
    ∃ db'', db'.perform s = .ok db'' ∧ RowsKept db' db'' := by
  cases s with
  | createTable name columns =>
    obtain ⟨r, hr⟩ := Option.isSome_iff_exists.mp hdone
    obtain ⟨r', hr', -⟩ := hsame.relation hr
    exact ⟨db', perform_of_done trivial (Option.isSome_of_eq_some hr'), .refl db'⟩
  | createIndex name table columns =>
    exact ⟨db', perform_of_done trivial ((congrFun hsame.index name).trans hdone), .refl db'⟩
  | createUniqueIndex name table column =>
    exact ⟨db', perform_of_done trivial ((congrFun hsame.index name).trans hdone), .refl db'⟩
  | backfill type source =>
    obtain ⟨target, r, htarget, hr, -⟩ := hdone
    obtain ⟨target', htarget', -⟩ := hsame.relation htarget
    obtain ⟨r', hr', -⟩ := hsame.relation hr
    obtain ⟨new, hnew⟩ := Relation.assignAll_rows type r'.rows target'
    have hperform : db'.perform (.backfill type source) =
        .ok (db'.set "rbac_assignments" { target' with rows := target'.rows ++ new }) := by
      simp only [Database.perform, htarget', hr']
      exact congrArg (fun r => Except.ok (db'.set "rbac_assignments" r)) hnew
    refine ⟨_, hperform, ⟨rfl, fun name => ?_⟩, fun name old hold => ?_⟩
    · by_cases hname : name = "rbac_assignments"
      · rw [hname, Database.set_relation_self, htarget']
        rfl
      · rw [Database.set_relation_ne db' _ hname]
    · by_cases hname : name = "rbac_assignments"
      · subst hname
        obtain rfl : target' = old := Option.some.inj (htarget'.symm.trans hold)
        exact ⟨new, Database.set_relation_self .., fun h => absurd rfl h⟩
      · refine ⟨[], ?_, fun _ => rfl⟩
        rw [Database.set_relation_ne db' _ hname, hold, List.append_nil]
  | addColumn table column => exact hrepeats.elim
  | protectBootstrap => exact hrepeats.elim

theorem runScript_kept (hrepeats : ∀ s ∈ script, s.Repeats) (hdone : ∀ s ∈ script, Done db s)
    (hsame : SameSchema db db') : ∃ db'', runScript script db' = (db'', .ok ()) ∧ RowsKept db' db'' := by
  induction script generalizing db' with
  | nil => exact ⟨db', rfl, .refl db'⟩
  | cons s rest ih =>
    obtain ⟨hs, hrest⟩ := List.forall_mem_cons.mp hrepeats
    obtain ⟨hfirst, hothers⟩ := List.forall_mem_cons.mp hdone
    obtain ⟨db₁, hperform, hkept⟩ := perform_kept hs hfirst hsame
    obtain ⟨db₂, hrun, hlater⟩ := ih hrest hothers (hsame.trans hkept.toSameSchema)
    exact ⟨db₂, by rw [runScript, hperform]; exact hrun, hkept.trans hlater⟩

theorem applyMigrations_kept (hsettled : ∀ m ∈ scripts, Settled db m.2) (hsame : SameSchema db db') :
    ∃ db'', applyMigrations scripts db' = (db'', .ok ()) ∧ RowsKept db' db'' := by
  induction scripts generalizing db' with
  | nil => exact ⟨db', rfl, .refl db'⟩
  | cons first rest ih =>
    obtain ⟨hfirst, hrest⟩ := List.forall_mem_cons.mp hsettled
    have hscript : ∃ db₁ r, Passed r ∧ runScript first.2 db' = (db₁, r) ∧ RowsKept db' db₁ := by
      generalize first.2 = script at hfirst
      cases hfirst with
      | leading rest hcolumn =>
        obtain ⟨r, hpassed, hrun⟩ := (Settled.leading rest (hsame.hasColumn hcolumn)).runScript
        exact ⟨db', r, hpassed, hrun, .refl db'⟩
      | repeats hrepeats hdone =>
        obtain ⟨db₁, hrun, hkept⟩ := runScript_kept hrepeats hdone hsame
        exact ⟨db₁, .ok (), .inl rfl, hrun, hkept⟩
    obtain ⟨db₁, r, hpassed, hrun, hkept⟩ := hscript
    obtain ⟨db₂, hloop, hlater⟩ := ih hrest (hsame.trans hkept.toSameSchema)
    exact ⟨db₂, (applyMigrations_passed hrun hpassed).trans hloop, hkept.trans hlater⟩

/-- Another start on a database that is up to date succeeds and keeps every row. -/
theorem UpToDate.kept (h : UpToDate db) : ∃ db', migrate db = (db', .ok ()) ∧ RowsKept db db' := by
  obtain ⟨first, started, hrun, hsame⟩ := h
  exact applyMigrations_kept (settled_of_ok migrations_fine migrations_plain hrun (.refl started)) hsame

end Rerun

/-- The next start after a crash ends where the start that was cut off would have, in database and
result, exactly if nothing is lost; and a start on a database that is up to date keeps every row. -/
theorem restart_safe_iff (db later : Database) (c : Crash db) :
    (migrate c.crashed = migrate db ↔ ¬ c.Lost) ∧
      (UpToDate later → ∃ db', migrate later = (db', .ok ()) ∧ RowsKept later db') :=
  ⟨c.same_iff, fun h => h.kept⟩

/-- The first start of all, cut off behind its first statement. -/
def firstCrash : Crash {} where
  before := []
  name := "0001_init.sql"
  done := initScript.take 1
  left := initScript.drop 1
  after := migrations.drop 1
  split := rfl
  started := {}
  crashed := (runScript (initScript.take 1) {}).1
  ran := rfl
  partly := rfl

theorem restart_safe_first : migrate firstCrash.crashed = migrate {} ∧
    ∃ db, migrate (migrate {}).1 = (db, .ok ()) ∧ RowsKept (migrate {}).1 db :=
  ⟨(restart_safe_iff {} {} firstCrash).1.mpr (by simp [Crash.Lost, firstCrash]),
    (restart_safe_iff {} (migrate {}).1 firstCrash).2 ⟨{}, _, rfl, .refl _⟩⟩

/-- The first start of all, cut off between the two columns of 0004. -/
def oidcCrash : Crash {} where
  before := migrations.take 3
  name := "0004_oidc_users.sql"
  done := [.addColumn "users" ("auth_provider", .text "local")]
  left := [.addColumn "users" ("oidc_subject", absent),
    .createUniqueIndex "idx_users_oidc_subject" "users" "oidc_subject"]
  after := migrations.drop 4
  split := rfl
  started := (applyMigrations (migrations.take 3) {}).1
  crashed := (runScript [.addColumn "users" ("auth_provider", .text "local")]
    (applyMigrations (migrations.take 3) {}).1).1
  ran := rfl
  partly := rfl

/-- The column of the OIDC subject is never added. -/
theorem subject_column_lost : ¬ ∀ (db : Database) (c : Crash db), migrate c.crashed = migrate db := by
  intro h
  refine oidcCrash.same_iff.mp (h {} oidcCrash) (.inl ⟨rfl, rfl, ?_⟩)
  decide

end Doupro.Store.Migration
