import Doupro.Interaction.Transactions
import Doupro.Store.Secrets

/-!
# The secret migration, statement by statement

`migratePlaintextSecrets` is one transaction in which every statement, and every row of the queue,
may fail. It ends with the tables as they were, or with what the migration of a database that works
makes of them.
-/

namespace Doupro.SecretMigration

open Secrets Interaction

/-- What iterating over the queue comes to: each row as it is scanned, and the errors at the end. -/
structure Cursor where
  rows : List (Except GoError (Nat × Bytes))
  closeErr : Option GoError := none
  /-- `rows.Err`. -/
  err : Option GoError := none

inductive Statement where
  | selectSetting (key : String)
  | updateSetting (key : String) (value : Bytes)
  | selectQueue
  | updateQueue (id : Nat) (channelURL : Bytes)

@[reducible] def Statement.Result : Statement → Type
  | .selectSetting _ => Option Bytes
  | .updateSetting _ _ | .updateQueue _ _ => Unit
  | .selectQueue => Cursor

abbrev Statements : Signature := Fallible Statement.Result GoError

abbrev SQL (α : Type) := Program Statements α

variable (secrets : Option AEAD)

/-- The part of the migration about one setting. The two settings differ in the label of the error. -/
def migrateSetting (random : Random) (key label : String) : SQL (Except GoError Unit) := do
  match ← .request (S := Statements) (.selectSetting key) with
  | .error err => return .error err
  | .ok none => return .ok ()
  | .ok (some value) =>
    if isEncrypted value then
      match decryptSecret secrets value with
      | .error err => return .error (.wrap label err)
      | .ok _ => return .ok ()
    else match encryptSecret secrets random value with
      | .error err => return .error err
      | .ok stored => match ← .request (S := Statements) (.updateSetting key stored) with
        | .error err => return .error err
        | .ok () => return .ok ()

/-- The loop over the rows of the queue. -/
def queuedUpdates (random : Nat → Random) :
    List (Except GoError (Nat × Bytes)) → Except GoError (List (Nat × Bytes))
  | [] => .ok []
  | .error err :: _ => .error err
  | .ok (id, value) :: rest =>
    if isEncrypted value then
      match decryptSecret secrets value with
      | .error err => .error (.wrap ("validate encrypted notification job " ++ toString id) err)
      | .ok _ => queuedUpdates random rest
    else match encryptSecret secrets (random id) value with
      | .error err => .error err
      | .ok stored => match queuedUpdates random rest with
        | .error err => .error err
        | .ok updates => .ok ((id, stored) :: updates)

/-- The loop over the updates. -/
def storeURLs : List (Nat × Bytes) → SQL (Except GoError Unit)
  | [] => return .ok ()
  | (id, value) :: rest => do
    match ← .request (S := Statements) (.updateQueue id value) with
    | .error err => return .error err
    | .ok () => storeURLs rest

/-- The part of the migration about the queue. -/
def migrateQueue (random : Nat → Random) : SQL (Except GoError Unit) := do
  match ← .request (S := Statements) .selectQueue with
  | .error err => return .error (.wrap "list queued secrets" err)
  | .ok cursor => match queuedUpdates secrets random cursor.rows with
    | .error err => return .error err
    | .ok updates => match cursor.closeErr, cursor.err with
      | some err, _ => return .error err
      | none, some err => return .error (.wrap "iterate queued secrets" err)
      | none, none => storeURLs updates

/-- What the transaction does before its commit. -/
def migrate (random : Nat → Random) : SQL (Except GoError Unit) := do
  match ← (migrateSetting secrets (random 0) channelsSettingsKey
      "validate encrypted notification settings") with
  | .error err => return .error err
  | .ok () => match ← (migrateSetting secrets (random 1) registriesSettingsKey
      "validate encrypted registry settings") with
    | .error err => return .error err
    | .ok () => migrateQueue secrets fun id => random (id + 2)

/-- `Store.migratePlaintextSecrets`. -/
def migratePlaintextSecrets (random : Nat → Random) :
    Program (Transactional Statement.Result GoError) (Except GoError Unit) :=
  transaction (.wrap "begin secret migration") (migrate secrets random)

/-! ### The tables -/

/-- A row as `Scan` reads it. -/
def scanned (row : NotificationJob) : Nat × Bytes := (row.id, row.channelURL)

/-- An iteration yields the rows of the queue in their order. Only an error can make it end early. -/
structure Cursor.Over (cursor : Cursor) (table : List NotificationJob) : Prop where
  scans : ∀ (i : Nat) (x : Nat × Bytes), cursor.rows[i]? = some (.ok x) → (table.map scanned)[i]? = some x
  complete : cursor.err = none → cursor.rows.length = table.length

/-- `UPDATE settings SET value=? WHERE key=?`. -/
def updateSetting (s : SecretStore) (key : String) (value : Bytes) : SecretStore :=
  { s with
    settings := Table.updateWhere (fun row => decide (row.1 = key)) (fun row => (row.1, value)) s.settings }

/-- `UPDATE notification_queue SET channel_url=? WHERE id=?`. -/
def updateQueue (s : SecretStore) (id : Nat) (value : Bytes) : SecretStore :=
  { s with
    queue := { s.queue with
      rows := Table.updateWhere (fun row => decide (row.id = id))
        (fun row => { row with channelURL := value }) s.queue.rows } }

/-- The updates of the loop, one after another. -/
def withURLs (s : SecretStore) (updates : List (Nat × Bytes)) : SecretStore :=
  { s with queue := { s.queue with rows := SecretStore.storeURLs updates s.queue.rows } }

/-- What a statement does where it succeeds. -/
inductive Effect : SecretStore → (op : Statement) → op.Result → SecretStore → Prop
  | selectSetting (s : SecretStore) (key : String) :
    Effect s (.selectSetting key) (s.getSetting key) s
  | updateSetting (s : SecretStore) (key : String) (value : Bytes) :
    Effect s (.updateSetting key value) () (updateSetting s key value)
  | selectQueue {s : SecretStore} {cursor : Cursor} (h : cursor.Over s.queue.rows) :
    Effect s .selectQueue cursor s
  | updateQueue (s : SecretStore) (id : Nat) (value : Bytes) :
    Effect s (.updateQueue id value) () (updateQueue s id value)

abbrev tables : Machine Statements SecretStore := .fallible GoError Effect

/-- The database of the store. -/
def database : Machine (Transactional Statement.Result GoError) (Session SecretStore) :=
  .transactional GoError Effect

section Runs

variable {secrets : Option AEAD} {s s' : SecretStore} {trace : Trace Statements SecretStore}

/-- A setting that is migrated is migrated as in a database that works. -/
theorem migrateSetting_ok {random : Random} {key label : String}
    (hrun : tables.Runs (migrateSetting s.secrets random key label) s trace (.ok ()) s') :
    s.migrateSetting random key label = .ok s' := by
  unfold SecretStore.migrateSetting
  rcases Machine.fallible_request.mp hrun with
    ⟨err, rest, rfl, -, h, -⟩ | ⟨value, _, rest, rfl, heffect, hrest⟩
  · cases h
  cases heffect
  cases hvalue : s.getSetting key with
  | none =>
    rw [hvalue] at hrest
    rw [hrest.2.2]
  | some value =>
    rw [hvalue] at hrest
    dsimp only at hrest ⊢
    split at hrest
    · next henc =>
      rw [if_pos henc]
      cases hplain : decryptSecret s.secrets value with
      | error err =>
        rw [hplain] at hrest
        cases hrest.2.1
      | ok plain =>
        rw [hplain] at hrest
        rw [hrest.2.2]
    · next henc =>
      rw [if_neg henc]
      cases hstored : encryptSecret s.secrets random value with
      | error err =>
        rw [hstored] at hrest
        cases hrest.2.1
      | ok stored =>
        rw [hstored] at hrest
        rcases Machine.fallible_request.mp hrest with
          ⟨err, last, rfl, -, h, -⟩ | ⟨_, _, last, rfl, heffect, -, -, rfl⟩
        · cases h
        · cases heffect
          rfl

/-- Statements that work migrate a setting. -/
theorem migrateSetting_run {random : Random} {key label : String}
    (h : s.migrateSetting random key label = .ok s') :
    ∃ trace, tables.Runs (migrateSetting s.secrets random key label) s trace (.ok ()) s' := by
  refine Machine.fallible_succeeds (.selectSetting s key) ?_
  rcases SecretStore.migrateSetting_eq_ok.mp h with
    ⟨hvalue, rfl⟩ | ⟨value, hvalue, ⟨henc, ⟨plain, hplain⟩, rfl⟩ | ⟨henc, stored, hstored, rfl⟩⟩
  · rw [hvalue]
    exact ⟨[], rfl, rfl, rfl⟩
  · simp only [hvalue, henc, hplain]
    exact ⟨[], rfl, rfl, rfl⟩
  · simp only [hvalue, henc, hstored]
    exact Machine.fallible_succeeds (.updateSetting s key stored) ⟨[], rfl, rfl, rfl⟩

/-! ### The queue -/

/-- The loop comes to its end only over rows that could be scanned. -/
theorem queuedUpdates_scanned {random : Nat → Random} {rows : List (Except GoError (Nat × Bytes))}
    {updates : List (Nat × Bytes)} (h : queuedUpdates secrets random rows = .ok updates) :
    ∃ values : List (Nat × Bytes), rows = values.map .ok := by
  induction rows generalizing updates with
  | nil => exact ⟨[], rfl⟩
  | cons row rest ih =>
    cases row with
    | error err => cases h
    | ok x =>
      have hrest : ∃ later, queuedUpdates secrets random rest = .ok later := by
        obtain ⟨id, value⟩ := x
        unfold queuedUpdates at h
        split at h
        · cases hplain : decryptSecret secrets value with
          | error err =>
            rw [hplain] at h
            cases h
          | ok plain =>
            rw [hplain] at h
            exact ⟨updates, h⟩
        · cases hstored : encryptSecret secrets (random id) value with
          | error err =>
            rw [hstored] at h
            cases h
          | ok stored =>
            rw [hstored] at h
            cases hlater : queuedUpdates secrets random rest with
            | error err =>
              rw [hlater] at h
              cases h
            | ok later => exact ⟨later, rfl⟩
      obtain ⟨later, hlater⟩ := hrest
      obtain ⟨values, rfl⟩ := ih hlater
      exact ⟨x :: values, rfl⟩

/-- Over rows that are all scanned the loop is that of a database that works. -/
theorem queuedUpdates_eq (random : Nat → Random) (table : List NotificationJob) :
    queuedUpdates secrets random ((table.map scanned).map .ok) =
      SecretStore.queuedUpdates secrets random table := by
  induction table with
  | nil => rfl
  | cons row rest ih =>
    simp only [List.map_cons, scanned, queuedUpdates, SecretStore.queuedUpdates]
    exact ih ▸ rfl

/-- An iteration without an error has scanned the whole queue. -/
theorem Cursor.Over.rows_eq {cursor : Cursor} {table : List NotificationJob} (h : cursor.Over table)
    (hend : cursor.err = none) {values : List (Nat × Bytes)} (hvalues : cursor.rows = values.map .ok) :
    values = table.map scanned := by
  have hlength : values.length = (table.map scanned).length := by
    have hcomplete := h.complete hend
    rw [hvalues, List.length_map] at hcomplete
    rw [hcomplete, List.length_map]
  refine List.ext_getElem? fun i => ?_
  cases hvalue : values[i]? with
  | some x => exact (h.scans i x (by rw [hvalues, List.getElem?_map, hvalue]; rfl)).symm
  | none =>
    rw [List.getElem?_eq_none_iff] at hvalue
    exact (List.getElem?_eq_none_iff.mpr (hlength ▸ hvalue)).symm

theorem storeURLs_ok {updates : List (Nat × Bytes)}
    (hrun : tables.Runs (storeURLs updates) s trace (.ok ()) s') :
    s' = withURLs s updates := by
  induction updates generalizing s trace with
  | nil => exact hrun.2.2
  | cons u rest ih =>
    rcases Machine.fallible_request.mp hrun with
      ⟨err, last, rfl, -, h, -⟩ | ⟨_, _, last, rfl, heffect, hrest⟩
    · cases h
    · cases heffect
      exact ih hrest

theorem storeURLs_run (s : SecretStore) (updates : List (Nat × Bytes)) :
    ∃ trace, tables.Runs (storeURLs updates) s trace (.ok ())
      (withURLs s updates) := by
  induction updates generalizing s with
  | nil => exact ⟨[], rfl, rfl, rfl⟩
  | cons u rest ih => exact Machine.fallible_succeeds (.updateQueue s u.1 u.2) (ih _)

theorem migrateQueue_ok {random : Nat → Random}
    (hrun : tables.Runs (migrateQueue s.secrets random) s trace (.ok ()) s') :
    ∃ updates, SecretStore.queuedUpdates s.secrets random s.queue.rows = .ok updates ∧
      s' = withURLs s updates := by
  rcases Machine.fallible_request.mp hrun with
    ⟨err, rest, rfl, -, h, -⟩ | ⟨cursor, _, rest, rfl, heffect, hrest⟩
  · cases h
  cases heffect with
  | selectQueue hover =>
    dsimp only at hrest
    cases hupdates : queuedUpdates s.secrets random cursor.rows with
    | error err =>
      rw [hupdates] at hrest
      cases hrest.2.1
    | ok updates =>
      rw [hupdates] at hrest
      dsimp only at hrest
      split at hrest
      · cases hrest.2.1
      · cases hrest.2.1
      · next hend =>
        obtain ⟨values, hvalues⟩ := queuedUpdates_scanned hupdates
        rw [hvalues, hover.rows_eq hend hvalues, queuedUpdates_eq] at hupdates
        exact ⟨updates, hupdates, storeURLs_ok hrest⟩

theorem migrateQueue_run {random : Nat → Random} {updates : List (Nat × Bytes)}
    (h : SecretStore.queuedUpdates s.secrets random s.queue.rows = .ok updates) :
    ∃ trace, tables.Runs (migrateQueue s.secrets random) s trace (.ok ())
      (withURLs s updates) := by
  let cursor : Cursor := { rows := (s.queue.rows.map scanned).map .ok }
  have hover : cursor.Over s.queue.rows := by
    refine ⟨fun i x hx => ?_, fun _ => by simp [cursor]⟩
    simpa [cursor] using hx
  refine Machine.fallible_succeeds (.selectQueue hover) ?_
  dsimp only [cursor]
  rw [queuedUpdates_eq, h]
  exact storeURLs_run s updates

/-! ### The whole migration -/

theorem migrateSetting_frame {random : Random} {key label : String}
    (h : s.migrateSetting random key label = .ok s') : s'.secrets = s.secrets ∧ s'.queue = s.queue := by
  rcases SecretStore.migrateSetting_eq_ok.mp h with
    ⟨-, rfl⟩ | ⟨value, -, ⟨-, -, rfl⟩ | ⟨-, stored, -, rfl⟩⟩ <;> exact ⟨rfl, rfl⟩

/-- The statements of the transaction migrate what the migration of a database that works does. -/
theorem migrate_ok {random : Nat → Random}
    (hrun : tables.Runs (migrate s.secrets random) s trace (.ok ()) s') :
    s.migratePlaintextSecrets random = .ok s' := by
  obtain ⟨_, first, s₁, rest, hfirst, hrest, rfl⟩ := Machine.runs_bind.mp hrun
  cases first with
  | error err => cases hrest.2.1
  | ok done =>
    have h₁ := migrateSetting_ok hfirst
    obtain ⟨hsecrets₁, -⟩ := migrateSetting_frame h₁
    obtain ⟨_, second, s₂, last, hsecond, hlast, rfl⟩ := Machine.runs_bind.mp hrest
    cases second with
    | error err => cases hlast.2.1
    | ok done =>
      rw [← hsecrets₁] at hsecond hlast
      have h₂ := migrateSetting_ok hsecond
      obtain ⟨hsecrets₂, -⟩ := migrateSetting_frame h₂
      rw [← hsecrets₂] at hlast
      obtain ⟨updates, hupdates, rfl⟩ := migrateQueue_ok hlast
      exact SecretStore.migratePlaintextSecrets_eq_ok.mpr ⟨s₁, s₂, updates, h₁, h₂, hupdates, rfl⟩

theorem migrate_run {random : Nat → Random} (h : s.migratePlaintextSecrets random = .ok s') :
    ∃ trace, tables.Runs (migrate s.secrets random) s trace (.ok ()) s' := by
  obtain ⟨s₁, s₂, updates, h₁, h₂, hupdates, rfl⟩ := SecretStore.migratePlaintextSecrets_eq_ok.mp h
  obtain ⟨first, hfirst⟩ := migrateSetting_run h₁
  obtain ⟨second, hsecond⟩ := migrateSetting_run h₂
  obtain ⟨third, hthird⟩ := migrateQueue_run hupdates
  obtain ⟨hsecrets₁, -⟩ := migrateSetting_frame h₁
  obtain ⟨hsecrets₂, -⟩ := migrateSetting_frame h₂
  have hsecrets : s₂.secrets = s.secrets := hsecrets₂.trans hsecrets₁
  rw [hsecrets] at hthird
  rw [hsecrets₁] at hsecond
  exact ⟨_, Machine.runs_bind.mpr ⟨first, .ok (), s₁, _, hfirst,
    Machine.runs_bind.mpr ⟨second, .ok (), s₂, third, hsecond, hthird, rfl⟩, rfl⟩⟩

/-! ### What a migration makes of the secrets -/

/-- A secret that is encrypted and reads back as the one in its place did. -/
def Kept (secrets : Option AEAD) (old new : Bytes) : Prop :=
  isEncrypted new = true ∧ ∃ plain, decryptSecret secrets old = .ok plain ∧
    decryptSecret secrets new = .ok plain

theorem kept_of_encrypted {random : Random} {value stored : Bytes} (hvalue : isEncrypted value = false)
    (h : encryptSecret secrets random value = .ok stored) : Kept secrets value stored := by
  cases secrets with
  | none => cases h
  | some A =>
    obtain ⟨stored', hstored, henc, hread⟩ := encryptSecret_plain A random hvalue
    obtain rfl := Except.ok.inj (h.symm.trans hstored)
    refine ⟨henc, value, ?_, ?_⟩
    · rw [decryptSecret_eq, decrypt_of_plain hvalue]
    · rw [decryptSecret_eq, hread]

/-- What the tables are after a migration that succeeded. -/
structure Migrated (before after : SecretStore) : Prop where
  secrets : after.secrets = before.secrets
  settings : ∀ key ∈ SecretStore.secretKeys,
    Option.Rel (Kept before.secrets) (before.getSetting key) (after.getSetting key)
  others : ∀ key ∉ SecretStore.secretKeys, after.getSetting key = before.getSetting key
  queue : List.Forall₂ (fun old new => Kept before.secrets old.channelURL new.channelURL ∧
    new = { old with channelURL := new.channelURL }) before.queue.rows after.queue.rows
  sequence : after.queue.seq = before.queue.seq

/-- A setting that is migrated is kept, and no other has changed. -/
theorem migrateSetting_kept {random : Random} {key label : String}
    (h : s.migrateSetting random key label = .ok s') :
    Option.Rel (Kept s.secrets) (s.getSetting key) (s'.getSetting key) ∧
      ∀ k ≠ key, s'.getSetting k = s.getSetting k := by
  rcases SecretStore.migrateSetting_eq_ok.mp h with
    ⟨hvalue, rfl⟩ | ⟨value, hvalue, ⟨henc, ⟨plain, hplain⟩, rfl⟩ | ⟨henc, stored, hstored, rfl⟩⟩
  · rw [hvalue]
    exact ⟨.none, fun _ _ => rfl⟩
  · rw [hvalue]
    exact ⟨.some ⟨henc, plain, hplain, hplain⟩, fun _ _ => rfl⟩
  · have hread (k : String) : (updateSetting s key stored).getSetting k =
        (Table.lookup Prod.fst k s.settings).map fun row => if k = key then stored else row.2 :=
      SecretStore.getSetting_update s.settings key k stored
    change Option.Rel _ _ ((updateSetting s key stored).getSetting key) ∧
      ∀ k ≠ key, (updateSetting s key stored).getSetting k = s.getSetting k
    rw [hvalue]
    constructor
    · obtain ⟨row, hrow, -⟩ := Option.map_eq_some_iff.mp hvalue
      rw [hread, hrow, Option.map_some, if_pos rfl]
      exact .some (kept_of_encrypted henc hstored)
    · intro k hk
      rw [hread]
      simp [hk, SecretStore.getSetting]

/-- The updates of the loop are of rows of the queue. -/
theorem queuedUpdates_ids {random : Nat → Random} {rows : List NotificationJob}
    {updates : List (Nat × Bytes)}
    (h : SecretStore.queuedUpdates secrets random rows = .ok updates) :
    ∀ u ∈ updates, u.1 ∈ rows.map NotificationJob.id := by
  induction rows generalizing updates with
  | nil =>
    obtain rfl := Except.ok.inj h
    simp
  | cons row rest ih =>
    rcases SecretStore.queuedUpdates_cons_eq_ok.mp h with
      ⟨-, -, hrest⟩ | ⟨-, stored, -, later, hrest, rfl⟩
    · exact fun u hu => List.mem_cons_of_mem _ (ih hrest u hu)
    · refine List.forall_mem_cons.mpr ⟨List.mem_cons_self, fun u hu => ?_⟩
      exact List.mem_cons_of_mem _ (ih hrest u hu)

/-- Updates of other rows leave a row as it is. -/
theorem storeURLs_cons {updates : List (Nat × Bytes)} {row : NotificationJob}
    (rest : List NotificationJob) (h : ∀ u ∈ updates, u.1 ≠ row.id) :
    SecretStore.storeURLs updates (row :: rest) = row :: SecretStore.storeURLs updates rest := by
  induction updates generalizing rest with
  | nil => rfl
  | cons u later ih =>
    obtain ⟨hu, hlater⟩ := List.forall_mem_cons.mp h
    unfold SecretStore.storeURLs at ih ⊢
    rw [List.foldl_cons, Table.updateWhere_cons, if_neg (by simpa using hu.symm)]
    exact ih _ hlater

/-- An update of the first row leaves the others as they are. -/
theorem storeURLs_cons_self {row : NotificationJob} {rest : List NotificationJob} (value : Bytes)
    (later : List (Nat × Bytes)) (h : row.id ∉ rest.map NotificationJob.id) :
    SecretStore.storeURLs ((row.id, value) :: later) (row :: rest) =
      SecretStore.storeURLs later ({ row with channelURL := value } :: rest) := by
  have hothers : ∀ other ∈ rest, decide (other.id = row.id) = true →
      { other with channelURL := value } = other := fun other hother hwhere =>
    absurd (of_decide_eq_true hwhere ▸ List.mem_map_of_mem hother) h
  unfold SecretStore.storeURLs
  rw [List.foldl_cons, Table.updateWhere_cons, if_pos (by simp), Table.updateWhere_eq_self hothers]

/-- Every row of the queue is kept, and nothing but its destination has changed. -/
theorem storeURLs_kept {random : Nat → Random} {rows : List NotificationJob}
    {updates : List (Nat × Bytes)} (hids : (rows.map NotificationJob.id).Nodup)
    (h : SecretStore.queuedUpdates secrets random rows = .ok updates) :
    List.Forall₂ (fun old new => Kept secrets old.channelURL new.channelURL ∧
      new = { old with channelURL := new.channelURL }) rows (SecretStore.storeURLs updates rows) := by
  induction rows generalizing updates with
  | nil =>
    obtain rfl := Except.ok.inj h
    exact .nil
  | cons row rest ih =>
    obtain ⟨hrow, hrest⟩ := List.nodup_cons.mp hids
    have hother {updates : List (Nat × Bytes)}
        (h : SecretStore.queuedUpdates secrets random rest = .ok updates) :
        ∀ u ∈ updates, u.1 ≠ row.id :=
      fun u hu heq => hrow (heq ▸ queuedUpdates_ids h u hu)
    rcases SecretStore.queuedUpdates_cons_eq_ok.mp h with
      ⟨henc, ⟨plain, hplain⟩, hlater⟩ | ⟨henc, stored, hstored, later, hlater, rfl⟩
    · rw [storeURLs_cons rest (hother hlater)]
      exact .cons ⟨⟨henc, plain, hplain, hplain⟩, rfl⟩ (ih hrest hlater)
    · have hkeep : ∀ u ∈ later, u.1 ≠ ({ row with channelURL := stored } : NotificationJob).id :=
        hother hlater
      rw [storeURLs_cons_self stored later hrow, storeURLs_cons rest hkeep]
      exact .cons ⟨kept_of_encrypted henc hstored, rfl⟩ (ih hrest hlater)

/-- A migration that succeeds has migrated every secret. -/
theorem migrated {random : Nat → Random} (hids : (s.queue.rows.map NotificationJob.id).Nodup)
    (h : s.migratePlaintextSecrets random = .ok s') : Migrated s s' := by
  obtain ⟨s₁, s₂, updates, h₁, h₂, hupdates, rfl⟩ := SecretStore.migratePlaintextSecrets_eq_ok.mp h
  obtain ⟨hsecrets₁, hqueue₁⟩ := migrateSetting_frame h₁
  obtain ⟨hsecrets₂, hqueue₂⟩ := migrateSetting_frame h₂
  obtain ⟨hchannels, hothers₁⟩ := migrateSetting_kept h₁
  obtain ⟨hregistries, hothers₂⟩ := migrateSetting_kept h₂
  have hsecrets : s₂.secrets = s.secrets := hsecrets₂.trans hsecrets₁
  have hqueue : s₂.queue = s.queue := hqueue₂.trans hqueue₁
  rw [hsecrets₁, hothers₁ registriesSettingsKey (by decide)] at hregistries
  rw [← hothers₂ channelsSettingsKey (by decide)] at hchannels
  rw [hsecrets, hqueue] at hupdates
  refine ⟨hsecrets, fun key hkey => ?_, fun key hkey => ?_, ?_,
    by simp [hqueue]⟩
  · simp only [SecretStore.secretKeys, List.mem_cons, List.not_mem_nil, or_false] at hkey
    rcases hkey with rfl | rfl
    · exact hchannels
    · exact hregistries
  · simp only [SecretStore.secretKeys, List.mem_cons, List.not_mem_nil, or_false, not_or] at hkey
    exact (hothers₂ key hkey.2).trans (hothers₁ key hkey.1)
  · rw [hqueue]
    exact storeURLs_kept hids hupdates

/-! ### A second run -/

/-- Every secret is encrypted. -/
structure AllEncrypted (s : SecretStore) : Prop where
  settings : ∀ key ∈ SecretStore.secretKeys, ∀ value, s.getSetting key = some value →
    isEncrypted value = true
  queue : ∀ row ∈ s.queue.rows, isEncrypted row.channelURL = true

theorem Migrated.allEncrypted (h : Migrated s s') : AllEncrypted s' where
  settings := by
    intro key hkey value hvalue
    have hkept := h.settings key hkey
    rw [hvalue] at hkept
    generalize s.getSetting key = old at hkept
    cases hkept with
    | some hkept => exact hkept.1
  queue := by
    have hqueue := h.queue
    generalize s.queue.rows = old, s'.queue.rows = new at hqueue
    induction hqueue with
    | nil => simp
    | cons hkept _ ih => exact List.forall_mem_cons.mpr ⟨hkept.1.1, ih⟩

theorem migrateSetting_encrypted {random : Random} {key label : String}
    (henc : ∀ value, s.getSetting key = some value → isEncrypted value = true)
    (h : s.migrateSetting random key label = .ok s') : s' = s := by
  rcases SecretStore.migrateSetting_eq_ok.mp h with
    ⟨-, hsame⟩ | ⟨value, hvalue, ⟨-, -, hsame⟩ | ⟨hplain, -⟩⟩
  · exact hsame
  · exact hsame
  · exact absurd (henc value hvalue) (by simp [hplain])

theorem queuedUpdates_encrypted {random : Nat → Random} {rows : List NotificationJob}
    {updates : List (Nat × Bytes)} (henc : ∀ row ∈ rows, isEncrypted row.channelURL = true)
    (h : SecretStore.queuedUpdates secrets random rows = .ok updates) : updates = [] := by
  induction rows generalizing updates with
  | nil => exact (Except.ok.inj h).symm
  | cons row rest ih =>
    obtain ⟨hrow, hrest⟩ := List.forall_mem_cons.mp henc
    rcases SecretStore.queuedUpdates_cons_eq_ok.mp h with ⟨-, -, hlater⟩ | ⟨hplain, -⟩
    · exact ih hrest hlater
    · exact absurd hrow (by simp [hplain])

/-- A migration finds nothing to do where every secret is encrypted. -/
theorem migrate_encrypted {random : Nat → Random} (henc : AllEncrypted s)
    (h : s.migratePlaintextSecrets random = .ok s') : s' = s := by
  obtain ⟨s₁, s₂, updates, h₁, h₂, hupdates, rfl⟩ := SecretStore.migratePlaintextSecrets_eq_ok.mp h
  obtain rfl := migrateSetting_encrypted (henc.settings _ (by simp [SecretStore.secretKeys])) h₁
  obtain rfl := migrateSetting_encrypted (henc.settings _ (by simp [SecretStore.secretKeys])) h₂
  obtain rfl := queuedUpdates_encrypted henc.queue hupdates
  rfl

end Runs

/-! ### The transaction -/

/-- A run ends with an error and the tables it found, or with all secrets encrypted and reading back as
before; and no later run changes a row. -/
theorem migratePlaintextSecrets_atomic {s : SecretStore} {random : Nat → Random}
    {trace : Trace (Transactional Statement.Result GoError) (Session SecretStore)}
    {out : Except GoError Unit} {after : Session SecretStore}
    (hids : (s.queue.rows.map NotificationJob.id).Nodup)
    (hrun : database.Runs (migratePlaintextSecrets s.secrets random) ⟨s, none⟩ trace out after) :
    (∀ err, out = .error err → after = ⟨s, none⟩) ∧
      (out = .ok () → ∃ s', after = ⟨s', none⟩ ∧ Migrated s s' ∧
        ∀ (again : Nat → Random) (trace' : Trace (Transactional Statement.Result GoError)
          (Session SecretStore)) (out' : Except GoError Unit) (last : Session SecretStore),
          database.Runs (migratePlaintextSecrets s.secrets again) after trace' out' last →
            last = after) := by
  rcases Machine.transaction_cases hrun with ⟨err, rfl, rfl, -⟩ | ⟨_, s', inner, rfl, rfl, hbody⟩
  · exact ⟨fun _ _ => rfl, fun h => (by cases h)⟩
  have hmigrated := migrated hids (migrate_ok hbody)
  refine ⟨fun _ h => (by cases h), fun _ => ⟨s', rfl, hmigrated, fun again trace' out' last hagain => ?_⟩⟩
  rcases Machine.transaction_cases hagain with ⟨err, -, rfl, -⟩ | ⟨_, s'', inner', -, rfl, hbody'⟩
  · rfl
  · rw [← hmigrated.secrets] at hbody'
    rw [migrate_encrypted hmigrated.allEncrypted (migrate_ok hbody')]

/-- A database of an older release, which stores its secrets as they are. -/
def legacy : SecretStore where
  secrets := some tagged
  settings := [(channelsSettingsKey, bytesOf "[]")]
  queue := { rows := [{ id := 1, event := "test", channel := "ops", channelURL := bytesOf "a" }], seq := 1 }

theorem migratePlaintextSecrets_atomic_legacy : ∃ s' trace,
    database.Runs (migratePlaintextSecrets legacy.secrets fun _ => zeroNonces) ⟨legacy, none⟩ trace (.ok ())
      ⟨s', none⟩ ∧ Migrated legacy s' := by
  obtain ⟨s', hs'⟩ : ∃ s', legacy.migratePlaintextSecrets (fun _ => zeroNonces) = .ok s' := ⟨_, rfl⟩
  obtain ⟨inner, hinner⟩ := migrate_run hs'
  obtain ⟨trace, hrun⟩ := Machine.transaction_commits hinner
  obtain ⟨s'', hafter, hmigrated, -⟩ := (migratePlaintextSecrets_atomic (by decide) hrun).2 rfl
  exact ⟨s', trace, hrun, (Session.mk.inj hafter).1 ▸ hmigrated⟩

end Doupro.SecretMigration
