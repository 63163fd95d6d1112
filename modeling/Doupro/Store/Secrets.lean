import Doupro.Store.NotificationQueue
import Mathlib.Logic.Relation

/-!
# Secrets of the store

Two settings and the destinations of the queue are secrets. `ConfigureSecrets` encrypts those that
are not, and fails where one that looks encrypted does not open.
-/

namespace Doupro

open Secrets

structure SecretStore where
  secrets : Option AEAD := none
  settings : List (String × Bytes) := []
  queue : NotificationQueue := {}

/-- `channelsSettingsKey`. -/
def channelsSettingsKey : String := "notifications.channels"

/-- `registriesSettingsKey`. -/
def registriesSettingsKey : String := "registries.configs"

namespace SecretStore

/-- `GetSetting`. -/
def getSetting (s : SecretStore) (key : String) : Option Bytes :=
  (Table.lookup Prod.fst key s.settings).map Prod.snd

/-- `SetSetting`. -/
def setSetting (s : SecretStore) (key : String) (value : Bytes) : SecretStore :=
  { s with settings := Table.upsert Prod.fst (key, value) (fun row => (row.1, value)) s.settings }

/-- `GetSecretSetting`. -/
def getSecretSetting (s : SecretStore) (key : String) : Except GoError (Option Bytes) :=
  match s.getSetting key with
  | none => .ok none
  | some value => match decryptSecret s.secrets value with
    | .error err => .error (.wrap ("decrypt setting " ++ key) err)
    | .ok plain => .ok (some plain)

/-- `SetSecretSetting`. -/
def setSecretSetting (s : SecretStore) (random : Random) (key : String) (value : Bytes) :
    Except GoError Unit × SecretStore :=
  match encryptSecret s.secrets random value with
  | .error err => (.error (.wrap ("encrypt setting " ++ key) err), s)
  | .ok stored => (.ok (), s.setSetting key stored)

/-- `EnqueueNotification`. -/
def enqueueNotification (s : SecretStore) (random : Random) (now : Time) (job : NotificationJob) :
    Except GoError Nat × SecretStore :=
  let out := s.queue.enqueue s.secrets random now job
  (out.1, { s with queue := out.2 })

/-! ### The start-up migration -/

/-- The two settings differ in the label of the error. -/
def migrateSetting (s : SecretStore) (random : Random) (key label : String) :
    Except GoError SecretStore :=
  match s.getSetting key with
  | none => .ok s
  | some value =>
    if isEncrypted value then
      match decryptSecret s.secrets value with
      | .error err => .error (.wrap label err)
      | .ok _ => .ok s
    else match encryptSecret s.secrets random value with
      | .error err => .error err
      | .ok stored => .ok { s with
          settings := Table.updateWhere (fun row => decide (row.1 = key)) (fun row => (row.1, stored))
            s.settings }

/-- The loop over the queue: the rows to be updated. Every one takes a nonce of its own. -/
def queuedUpdates (secrets : Option AEAD) (random : Nat → Random) :
    List NotificationJob → Except GoError (List (Nat × Bytes))
  | [] => .ok []
  | row :: rest =>
    if isEncrypted row.channelURL then
      match decryptSecret secrets row.channelURL with
      | .error err => .error (.wrap ("validate encrypted notification job " ++ toString row.id) err)
      | .ok _ => queuedUpdates secrets random rest
    else match encryptSecret secrets (random row.id) row.channelURL with
      | .error err => .error err
      | .ok stored => match queuedUpdates secrets random rest with
        | .error err => .error err
        | .ok updates => .ok ((row.id, stored) :: updates)

/-- `UPDATE notification_queue SET channel_url=? WHERE id=?` for every update. -/
def storeURLs (updates : List (Nat × Bytes)) (rows : List NotificationJob) : List NotificationJob :=
  updates.foldl (fun rows u => Table.updateWhere (fun row => decide (row.id = u.1))
    (fun row => { row with channelURL := u.2 }) rows) rows

/-- `migratePlaintextSecrets`, one transaction on a database that works. -/
def migratePlaintextSecrets (s : SecretStore) (random : Nat → Random) : Except GoError SecretStore := do
  let s ← s.migrateSetting (random 0) channelsSettingsKey "validate encrypted notification settings"
  let s ← s.migrateSetting (random 1) registriesSettingsKey "validate encrypted registry settings"
  let updates ← queuedUpdates s.secrets (fun id => random (id + 2)) s.queue.rows
  return { s with queue := { s.queue with rows := storeURLs updates s.queue.rows } }

/-- `ConfigureSecrets`. -/
def configureSecrets (s : SecretStore) (A : AEAD) (random : Nat → Random) :
    Except GoError Unit × SecretStore :=
  match { s with secrets := some A }.migratePlaintextSecrets random with
  | .error err => (.error err, { s with secrets := some A })
  | .ok s => (.ok (), s)

/-! ### Readable stores -/

def secretKeys : List String := [channelsSettingsKey, registriesSettingsKey]

/-- A store with its key, all of whose secrets are plaintext or open with it. -/
structure AllReadable (A : AEAD) (s : SecretStore) : Prop where
  configured : s.secrets = some A
  settings : ∀ key ∈ secretKeys, ∀ value, s.getSetting key = some value → Readable A value
  queue : ∀ row ∈ s.queue.rows, Readable A row.channelURL

variable {A : AEAD} {s s' : SecretStore}

@[simp] theorem getSetting_setSetting (s : SecretStore) (key k : String) (value : Bytes) :
    (s.setSetting key value).getSetting k = if k = key then some value else s.getSetting k := by
  unfold getSetting setSetting
  dsimp only
  rw [Table.lookup_upsert Prod.fst (key, value) (fun row => (row.1, value)) fun _ => rfl]
  by_cases hk : k = key
  · subst hk
    cases h : Table.lookup Prod.fst k s.settings <;> simp
  · simp [hk]

theorem getSetting_update (settings : List (String × Bytes)) (key k : String) (stored : Bytes) :
    (Table.lookup Prod.fst k (Table.updateWhere (fun row => decide (row.1 = key))
      (fun row => (row.1, stored)) settings)).map Prod.snd =
        (Table.lookup Prod.fst k settings).map fun row => if k = key then stored else row.2 := by
  rw [Table.lookup_updateWhere Prod.fst _ (fun row => (row.1, stored)) fun _ => rfl, Option.map_map]
  cases h : Table.lookup Prod.fst k settings with
  | none => rfl
  | some row =>
    have hkey : row.1 = k := Table.lookup_key h
    by_cases hk : k = key
    · simp [hkey, hk]
    · simp [hkey, hk]

/-! ### What the migration does where it succeeds -/

/-- There is no such setting, or it is encrypted and can be read, or it has been encrypted. -/
theorem migrateSetting_eq_ok {random : Random} {key label : String} :
    s.migrateSetting random key label = .ok s' ↔
      (s.getSetting key = none ∧ s' = s) ∨ ∃ value, s.getSetting key = some value ∧
        ((isEncrypted value = true ∧ (∃ plain, decryptSecret s.secrets value = .ok plain) ∧ s' = s) ∨
          (isEncrypted value = false ∧ ∃ stored, encryptSecret s.secrets random value = .ok stored ∧
            s' = { s with
              settings := Table.updateWhere (fun row => decide (row.1 = key))
                (fun row => (row.1, stored)) s.settings })) := by
  unfold migrateSetting
  cases s.getSetting key with
  | none => simpa using eq_comm
  | some value =>
    cases henc : isEncrypted value with
    | true =>
      cases hplain : decryptSecret s.secrets value with
      | error err => simp [henc, hplain]
      | ok plain => simpa [henc, hplain] using eq_comm
    | false =>
      cases hstored : encryptSecret s.secrets random value with
      | error err => simp [henc, hstored]
      | ok stored => simpa [henc, hstored] using eq_comm

/-- What the loop does at its first row. -/
theorem queuedUpdates_cons_eq_ok {secrets : Option AEAD} {random : Nat → Random} {row : NotificationJob}
    {rest : List NotificationJob} {updates : List (Nat × Bytes)} :
    queuedUpdates secrets random (row :: rest) = .ok updates ↔
      (isEncrypted row.channelURL = true ∧ (∃ plain, decryptSecret secrets row.channelURL = .ok plain) ∧
        queuedUpdates secrets random rest = .ok updates) ∨
      (isEncrypted row.channelURL = false ∧ ∃ stored,
        encryptSecret secrets (random row.id) row.channelURL = .ok stored ∧ ∃ later,
          queuedUpdates secrets random rest = .ok later ∧ updates = (row.id, stored) :: later) := by
  rw [queuedUpdates]
  cases henc : isEncrypted row.channelURL with
  | true => cases hplain : decryptSecret secrets row.channelURL <;> simp
  | false =>
    cases hstored : encryptSecret secrets (random row.id) row.channelURL with
    | error err => simp
    | ok stored =>
      cases hlater : queuedUpdates secrets random rest with
      | error err => simp
      | ok later => simpa using eq_comm

theorem bind_eq_ok {α β : Type} {x : Except GoError α} {f : α → Except GoError β} {b : β} :
    (x >>= f) = .ok b ↔ ∃ a, x = .ok a ∧ f a = .ok b := by
  cases x with
  | error err => simp [bind, Except.bind]
  | ok a => simp [bind, Except.bind]

/-- The migration is that of the two settings and of the queue in turn. -/
theorem migratePlaintextSecrets_eq_ok {random : Nat → Random} :
    s.migratePlaintextSecrets random = .ok s' ↔ ∃ s₁ s₂ updates,
      s.migrateSetting (random 0) channelsSettingsKey "validate encrypted notification settings" = .ok s₁ ∧
      s₁.migrateSetting (random 1) registriesSettingsKey "validate encrypted registry settings" = .ok s₂ ∧
      queuedUpdates s₂.secrets (fun id => random (id + 2)) s₂.queue.rows = .ok updates ∧
      s' = { s₂ with queue := { s₂.queue with rows := storeURLs updates s₂.queue.rows } } := by
  unfold migratePlaintextSecrets
  constructor
  · intro h
    obtain ⟨s₁, h₁, h⟩ := bind_eq_ok.mp h
    obtain ⟨s₂, h₂, h⟩ := bind_eq_ok.mp h
    obtain ⟨updates, hupdates, h⟩ := bind_eq_ok.mp h
    exact ⟨s₁, s₂, updates, h₁, h₂, hupdates, (Except.ok.inj h).symm⟩
  · rintro ⟨s₁, s₂, updates, h₁, h₂, hupdates, rfl⟩
    exact bind_eq_ok.mpr ⟨s₁, h₁, bind_eq_ok.mpr ⟨s₂, h₂, bind_eq_ok.mpr ⟨updates, hupdates, rfl⟩⟩⟩

/-! ### The migration and readable secrets -/

/-- A migrated setting can be read, and nothing else has changed. -/
theorem migrateSetting_ok {random : Random} {key label : String} (hs : s.secrets = some A)
    (h : s.migrateSetting random key label = .ok s') :
    s'.secrets = some A ∧ s'.queue = s.queue ∧ (∀ k ≠ key, s'.getSetting k = s.getSetting k) ∧
      ∀ value, s'.getSetting key = some value → Readable A value := by
  rcases migrateSetting_eq_ok.mp h with
    ⟨hvalue, rfl⟩ | ⟨value, hvalue, ⟨-, ⟨plain, hplain⟩, rfl⟩ | ⟨hplain, stored, hstored, rfl⟩⟩
  · exact ⟨hs, rfl, fun _ _ => rfl, fun value h => by simp [hvalue] at h⟩
  · rw [hs, decryptSecret_eq] at hplain
    refine ⟨hs, rfl, fun _ _ => rfl, fun other hother => ?_⟩
    rw [hvalue, Option.some.injEq] at hother
    exact hother ▸ ⟨plain, hplain⟩
  · obtain ⟨stored', hstored', -, hread⟩ := encryptSecret_plain A random hplain
    rw [hs, hstored', Except.ok.injEq] at hstored
    subst hstored
    refine ⟨hs, rfl, fun k hk => ?_, fun other hother => ?_⟩
    · unfold getSetting
      rw [getSetting_update]
      simp [hk]
    · unfold getSetting at hother
      rw [getSetting_update] at hother
      simp only [if_true, Option.map_eq_some_iff] at hother
      obtain ⟨-, -, rfl⟩ := hother
      exact ⟨value, hread⟩

/-- A readable setting is migrated. -/
theorem migrateSetting_isOk (random : Random) {key : String} (label : String) (hs : s.secrets = some A)
    (hread : ∀ value, s.getSetting key = some value → Readable A value) :
    ∃ s', s.migrateSetting random key label = .ok s' := by
  cases hvalue : s.getSetting key with
  | none => exact ⟨s, migrateSetting_eq_ok.mpr (.inl ⟨hvalue, rfl⟩)⟩
  | some value =>
    cases henc : isEncrypted value with
    | true =>
      have hplain : ∃ plain, decryptSecret s.secrets value = .ok plain := by
        rw [hs, decryptSecret_eq]
        exact hread value hvalue
      exact ⟨s, migrateSetting_eq_ok.mpr (.inr ⟨value, hvalue, .inl ⟨henc, hplain, rfl⟩⟩)⟩
    | false =>
      obtain ⟨stored, hstored, -⟩ := encryptSecret_plain A random henc
      rw [← hs] at hstored
      exact ⟨_, migrateSetting_eq_ok.mpr (.inr ⟨value, hvalue, .inr ⟨henc, stored, hstored, rfl⟩⟩)⟩

theorem queuedUpdates_isOk (random : Nat → Random) {rows : List NotificationJob}
    (hread : ∀ row ∈ rows, Readable A row.channelURL) :
    ∃ updates, queuedUpdates (some A) random rows = .ok updates := by
  induction rows with
  | nil => exact ⟨[], rfl⟩
  | cons row rest ih =>
    obtain ⟨hrow, hrest⟩ := List.forall_mem_cons.mp hread
    obtain ⟨updates, hupdates⟩ := ih hrest
    cases henc : isEncrypted row.channelURL with
    | true =>
      rw [Readable, ← decryptSecret_eq] at hrow
      exact ⟨updates, queuedUpdates_cons_eq_ok.mpr (.inl ⟨henc, hrow, hupdates⟩)⟩
    | false =>
      obtain ⟨stored, hstored, -⟩ := encryptSecret_plain A (random row.id) henc
      exact ⟨_, queuedUpdates_cons_eq_ok.mpr (.inr ⟨henc, stored, hstored, updates, hupdates, rfl⟩)⟩

/-- Where the loop comes to its end every row can be read, and so can what it will be updated to. -/
theorem queuedUpdates_ok {random : Nat → Random} {rows : List NotificationJob}
    {updates : List (Nat × Bytes)} (h : queuedUpdates (some A) random rows = .ok updates) :
    (∀ row ∈ rows, Readable A row.channelURL) ∧ ∀ u ∈ updates, Readable A u.2 := by
  induction rows generalizing updates with
  | nil =>
    injection h with h
    subst h
    simp
  | cons row rest ih =>
    rcases queuedUpdates_cons_eq_ok.mp h with
      ⟨-, hplain, hrest⟩ | ⟨hplain, stored, hstored, later, hrest, rfl⟩
    · rw [decryptSecret_eq] at hplain
      obtain ⟨hrows, hupdates⟩ := ih hrest
      exact ⟨List.forall_mem_cons.mpr ⟨hplain, hrows⟩, hupdates⟩
    · obtain ⟨hrows, hupdates⟩ := ih hrest
      obtain ⟨stored', hstored', -, hread⟩ := encryptSecret_plain A (random row.id) hplain
      rw [hstored', Except.ok.injEq] at hstored
      subst hstored
      exact ⟨List.forall_mem_cons.mpr ⟨readable_of_plain hplain, hrows⟩,
        List.forall_mem_cons.mpr ⟨⟨_, hread⟩, hupdates⟩⟩

theorem storeURLs_readable {updates : List (Nat × Bytes)} {rows : List NotificationJob}
    (hupdates : ∀ u ∈ updates, Readable A u.2) (hrows : ∀ row ∈ rows, Readable A row.channelURL) :
    ∀ row ∈ storeURLs updates rows, Readable A row.channelURL := by
  induction updates generalizing rows with
  | nil => exact hrows
  | cons u updates ih =>
    obtain ⟨hu, hupdates⟩ := List.forall_mem_cons.mp hupdates
    refine ih hupdates fun row hrow => ?_
    obtain ⟨old, hold, rfl⟩ := Table.mem_updateWhere.mp hrow
    split
    · exact hu
    · exact hrows old hold

theorem storeURLs_ids (updates : List (Nat × Bytes)) (rows : List NotificationJob) :
    (storeURLs updates rows).map NotificationJob.id = rows.map NotificationJob.id := by
  induction updates generalizing rows with
  | nil => rfl
  | cons u updates ih =>
    refine (ih _).trans (Table.map_updateWhere _ (fun row => ?_) rows)
    rfl

/-- A start with the key succeeds on every store whose secrets can be read. -/
theorem configureSecrets_isOk (random : Nat → Random) (h : s.AllReadable A) :
    (s.configureSecrets A random).1 = .ok () := by
  have hkey : { s with secrets := some A } = s := by
    rw [← h.configured]
  obtain ⟨s₁, h₁⟩ := migrateSetting_isOk (random 0) "validate encrypted notification settings"
    h.configured (h.settings channelsSettingsKey (by simp [secretKeys]))
  obtain ⟨hs₁, hq₁, hsame₁, -⟩ := migrateSetting_ok h.configured h₁
  have hregistries : ∀ value, s₁.getSetting registriesSettingsKey = some value → Readable A value := by
    rw [hsame₁ _ (by decide)]
    exact h.settings registriesSettingsKey (by simp [secretKeys])
  obtain ⟨s₂, h₂⟩ := migrateSetting_isOk (random 1) "validate encrypted registry settings" hs₁ hregistries
  obtain ⟨hs₂, hq₂, -⟩ := migrateSetting_ok hs₁ h₂
  obtain ⟨updates, hupdates⟩ := queuedUpdates_isOk (fun id => random (id + 2)) h.queue
  rw [← hq₁, ← hq₂, ← hs₂] at hupdates
  unfold configureSecrets
  rw [hkey, migratePlaintextSecrets_eq_ok.mpr ⟨s₁, s₂, updates, h₁, h₂, hupdates, rfl⟩]

/-- After a start that succeeded every secret can be read. -/
theorem configureSecrets_ok {random : Nat → Random} (h : s.configureSecrets A random = (.ok (), s')) :
    s'.AllReadable A ∧ s'.queue.rows.map NotificationJob.id = s.queue.rows.map NotificationJob.id ∧
      s'.queue.seq = s.queue.seq := by
  unfold configureSecrets at h
  cases hmigrate : { s with secrets := some A }.migratePlaintextSecrets random with
  | error err =>
    rw [hmigrate] at h
    cases h
  | ok out =>
    simp only [hmigrate, Prod.mk.injEq, true_and] at h
    subst h
    obtain ⟨s₁, s₂, updates, h₁, h₂, hupdates, rfl⟩ := migratePlaintextSecrets_eq_ok.mp hmigrate
    obtain ⟨hs₁, hq₁, -, hread₁⟩ := migrateSetting_ok rfl h₁
    obtain ⟨hs₂, hq₂, hsame₂, hread₂⟩ := migrateSetting_ok hs₁ h₂
    rw [hs₂] at hupdates
    obtain ⟨hrows, hnew⟩ := queuedUpdates_ok hupdates
    refine ⟨⟨hs₂, ?_, storeURLs_readable hnew hrows⟩, ?_, by simp [hq₂, hq₁]⟩
    · intro key hkey value hvalue
      simp only [secretKeys, List.mem_cons, List.not_mem_nil, or_false] at hkey
      rcases hkey with rfl | rfl
      · exact hread₁ value (hsame₂ channelsSettingsKey (by decide) ▸ hvalue)
      · exact hread₂ value hvalue
    · rw [storeURLs_ids, hq₂, hq₁]

/-! ### Runs of a store -/

/-- What the daemon does to the tables that hold secrets. -/
inductive Op where
  | enqueue (now : Time) (job : NotificationJob)
  | setSecretSetting (key : String) (value : Bytes)
  | setSetting (key : String) (value : Bytes)
  | claim (now : Time) (lease : Duration)
  | complete (id : Nat) (sentAt : Time)
  | fail (id : Nat) (retryAt : Time) (lastError : String) (dead : Bool)
  | retry (id : Nat) (now : Time)
  | restart (nonces : Nat → Random)

def Op.run (A : AEAD) (s : SecretStore) (random : Random) : Op → SecretStore
  | .enqueue now job => (s.enqueueNotification random now job).2
  | .setSecretSetting key value => (s.setSecretSetting random key value).2
  | .setSetting key value => s.setSetting key value
  | .claim now lease => { s with queue := (s.queue.claim s.secrets now lease).2 }
  | .complete id sentAt => { s with queue := (s.queue.complete id sentAt).2 }
  | .fail id retryAt lastError dead => { s with queue := (s.queue.fail id retryAt lastError dead).2 }
  | .retry id now => { s with queue := (s.queue.retry id now).2 }
  | .restart nonces => (s.configureSecrets A nonces).2

/-- Nothing it stores as a secret looks encrypted. -/
def Op.Plain : Op → Prop
  | .enqueue _ job => isEncrypted job.channelURL = false
  | .setSecretSetting _ value => isEncrypted value = false
  | .setSetting key value => key ∈ secretKeys → isEncrypted value = false
  | .claim _ _ | .complete _ _ | .fail _ _ _ _ | .retry _ _ | .restart _ => True

def Step (A : AEAD) (s s' : SecretStore) : Prop :=
  ∃ (op : Op) (random : Random), op.Plain ∧ s' = op.run A s random

/-- A store that a start with the key accepted, after further steps. -/
def InService (A : AEAD) (s : SecretStore) : Prop :=
  ∃ (s₀ s₁ : SecretStore) (nonces : Nat → Random), s₀.queue.Numbered ∧ s₀.configureSecrets A nonces = (.ok (), s₁) ∧
    Relation.ReflTransGen (Step A) s₁ s

theorem AllReadable.setSetting (h : s.AllReadable A) {key : String} {value : Bytes}
    (hvalue : key ∈ secretKeys → Readable A value) : (s.setSetting key value).AllReadable A where
  configured := h.configured
  settings := by
    intro k hk other hother
    rw [getSetting_setSetting] at hother
    split at hother
    · next hsame =>
      injection hother with hother
      exact hother ▸ hvalue (hsame ▸ hk)
    · exact h.settings k hk other hother
  queue := h.queue

/-- Rows that keep their destinations. -/
theorem AllReadable.updateWhere (h : s.AllReadable A) (p : NotificationJob → Bool)
    {f : NotificationJob → NotificationJob} (hf : ∀ job, (f job).channelURL = job.channelURL) :
    { s with queue := { s.queue with rows := Table.updateWhere p f s.queue.rows } }.AllReadable A where
  configured := h.configured
  settings := h.settings
  queue := by
    intro row hrow
    obtain ⟨old, hold, rfl⟩ := Table.mem_updateWhere.mp hrow
    split
    · exact hf old ▸ h.queue old hold
    · exact h.queue old hold

theorem AllReadable.insert (h : s.AllReadable A) (row : NotificationJob) (seq : Nat)
    (hrow : Readable A row.channelURL) :
    { s with queue := { rows := s.queue.rows ++ [row], seq } }.AllReadable A where
  configured := h.configured
  settings := h.settings
  queue := by
    intro other hother
    rcases List.mem_append.mp hother with hold | hnew
    · exact h.queue other hold
    · exact List.mem_singleton.mp hnew ▸ hrow

theorem AllReadable.run (h : s.AllReadable A) {op : Op} (hop : op.Plain) (random : Random) :
    (op.run A s random).AllReadable A := by
  cases op with
  | enqueue now job =>
    obtain ⟨stored, hstored, -, hread⟩ := encryptSecret_plain A random hop
    have hrow := h.insert (job.inserted (s.queue.seq + 1) stored now) (s.queue.seq + 1) ⟨_, hread⟩
    simpa [Op.run, enqueueNotification, NotificationQueue.enqueue, h.configured, hstored] using hrow
  | setSecretSetting key value =>
    obtain ⟨stored, hstored, -, hread⟩ := encryptSecret_plain A random hop
    simp only [Op.run, SecretStore.setSecretSetting, h.configured, hstored]
    exact h.setSetting fun _ => ⟨value, hread⟩
  | setSetting key value => exact h.setSetting fun hkey => readable_of_plain (hop hkey)
  | claim now lease =>
    simp only [Op.run, NotificationQueue.claim]
    cases s.queue.next now with
    | none => exact h
    | some row =>
      dsimp only
      split
      · exact h.updateWhere _ fun _ => rfl
      · exact h.updateWhere _ fun _ => rfl
  | complete id sentAt => exact h.updateWhere _ fun _ => rfl
  | fail id retryAt lastError dead => exact h.updateWhere _ fun _ => rfl
  | retry id now => exact h.updateWhere _ fun _ => rfl
  | restart nonces =>
    have hok := configureSecrets_isOk nonces h
    exact (configureSecrets_ok (Prod.ext hok rfl)).1

theorem numbered_of_ids {q q' : NotificationQueue} (h : q.Numbered)
    (hids : q'.rows.map NotificationJob.id = q.rows.map NotificationJob.id) (hseq : q'.seq = q.seq) :
    q'.Numbered where
  unique := hids ▸ h.unique
  bounded := by
    intro job hjob
    have hmem : job.id ∈ q.rows.map NotificationJob.id := hids ▸ List.mem_map_of_mem hjob
    obtain ⟨old, hold, hsame⟩ := List.mem_map.mp hmem
    rw [← hsame, hseq]
    exact h.bounded old hold

theorem numbered_run (h : s.AllReadable A) (hnumbered : s.queue.Numbered) {op : Op} (random : Random) :
    (op.run A s random).queue.Numbered := by
  cases op with
  | enqueue now job => exact hnumbered.enqueue s.secrets random now job
  | setSecretSetting key value =>
    simp only [Op.run, SecretStore.setSecretSetting]
    split
    · exact hnumbered
    · exact hnumbered
  | setSetting key value => exact hnumbered
  | claim now lease => exact hnumbered.claim s.secrets now lease
  | complete id sentAt => exact hnumbered.updateWhere _ fun _ => rfl
  | fail id retryAt lastError dead => exact hnumbered.updateWhere _ fun _ => rfl
  | retry id now => exact hnumbered.updateWhere _ fun _ => rfl
  | restart nonces =>
    have hok := configureSecrets_isOk nonces h
    obtain ⟨-, hids, hseq⟩ := configureSecrets_ok (Prod.ext hok rfl)
    exact numbered_of_ids hnumbered hids hseq

/-- Steps that store no secret that looks encrypted keep every secret readable. -/
theorem AllReadable.steps (h : s.AllReadable A) (hnumbered : s.queue.Numbered)
    (hsteps : Relation.ReflTransGen (Step A) s s') : s'.AllReadable A ∧ s'.queue.Numbered := by
  induction hsteps with
  | refl => exact ⟨h, hnumbered⟩
  | tail _ hstep ih =>
    obtain ⟨op, random, hop, rfl⟩ := hstep
    exact ⟨ih.1.run hop random, numbered_run ih.1 ih.2 random⟩

theorem InService.readable (h : s.InService A) : s.AllReadable A ∧ s.queue.Numbered := by
  obtain ⟨s₀, s₁, nonces, hnumbered, hstart, hsteps⟩ := h
  obtain ⟨hread, hids, hseq⟩ := configureSecrets_ok hstart
  exact hread.steps (numbered_of_ids hnumbered hids hseq) hsteps

/-! ### The round trip of a secret -/

/-- The two calls that receive a secret. -/
inductive Write where
  | destination (now : Time) (job : NotificationJob)
  | setting (key : String) (value : Bytes)

/-- The plaintext a call receives. -/
def Write.received : Write → Bytes
  | .destination _ job => job.channelURL
  | .setting _ value => value

def Write.perform (s : SecretStore) (random : Random) : Write → Except GoError Unit × SecretStore
  | .destination now job =>
    let out := s.enqueueNotification random now job
    (out.1.map fun _ => (), out.2)
  | .setting key value => s.setSecretSetting random key value

/-- The text a call has left in its column. -/
def Write.stored (s : SecretStore) : Write → Option Bytes
  | .destination _ _ =>
    (Table.lookup NotificationJob.id s.queue.seq s.queue.rows).map NotificationJob.channelURL
  | .setting key _ => s.getSetting key

/-- What the store reads back of it. -/
def Write.readBack (s : SecretStore) : Write → Except GoError (Option Bytes)
  | .destination _ _ => match Table.lookup NotificationJob.id s.queue.seq s.queue.rows with
    | none => .ok none
    | some row => (NotificationQueue.scan s.secrets row).map fun job => some job.channelURL
  | .setting key _ => s.getSecretSetting key

/-- The call succeeds and leaves another text, which reads back as what it received; and however the
store goes on, every later start with the key succeeds. -/
structure Write.RoundTrip (A : AEAD) (s : SecretStore) (random : Random) (w : Write) : Prop where
  succeeds : (w.perform s random).1 = .ok ()
  differs : ∃ stored, w.stored (w.perform s random).2 = some stored ∧ stored ≠ w.received
  reads : w.readBack (w.perform s random).2 = .ok (some w.received)
  starts : ∀ later, Relation.ReflTransGen (Step A) (w.perform s random).2 later →
    ∀ nonces, (later.configureSecrets A nonces).1 = .ok ()

/-- The step a call is. -/
def Write.op : Write → Op
  | .destination now job => .enqueue now job
  | .setting key value => .setSecretSetting key value

theorem Write.perform_snd (w : Write) (s : SecretStore) (A : AEAD) (random : Random) :
    (w.perform s random).2 = w.op.run A s random := by
  cases w <;> rfl

/-- What a call leaves in its column is what the store makes of what it received. -/
theorem Write.performed (w : Write) {random : Random} {stored : Bytes} (h : s.AllReadable A)
    (hnumbered : s.queue.Numbered) (hstored : encryptSecret (some A) random w.received = .ok stored) :
    (w.perform s random).1 = .ok () ∧ w.stored (w.perform s random).2 = some stored := by
  cases w with
  | destination now job =>
    have hlookup := NotificationQueue.lookup_inserted hnumbered
      (job.inserted (s.queue.seq + 1) stored now) rfl
    simp only [received] at hstored
    simp only [perform, Write.stored, enqueueNotification, NotificationQueue.enqueue, h.configured,
      hstored, hlookup]
    exact ⟨rfl, rfl⟩
  | setting key value =>
    simp only [received] at hstored
    simp [perform, Write.stored, setSecretSetting, h.configured, hstored]

theorem Write.readBack_stored (w : Write) {stored plain : Bytes} (h : s.secrets = some A)
    (hstored : w.stored s = some stored) (hplain : decrypt A stored = .ok plain) :
    w.readBack s = .ok (some plain) := by
  cases w with
  | destination now job =>
    obtain ⟨row, hrow, rfl⟩ := Option.map_eq_some_iff.mp hstored
    simp [readBack, hrow, NotificationQueue.scan, h, decryptSecret_eq, hplain, Except.map]
  | setting key value =>
    have hstored : s.getSetting key = some stored := hstored
    simp [readBack, getSecretSetting, hstored, h, decryptSecret_eq, hplain]

/-- A secret makes the round trip exactly when it does not start with the marker. -/
theorem secret_round_trip (h : s.InService A) (random : Random) (w : Write) :
    w.RoundTrip A s random ↔ isEncrypted w.received = false := by
  obtain ⟨hread, hnumbered⟩ := h.readable
  constructor
  · intro htrip
    by_contra hmarked
    have hmarked : isEncrypted w.received = true := by simpa using hmarked
    obtain ⟨-, hsame⟩ := w.performed hread hnumbered
      (encrypt_of_isEncrypted (A := A) (.ok (random A)) hmarked)
    obtain ⟨stored, hstored, hdiffers⟩ := htrip.differs
    rw [hsame] at hstored
    exact hdiffers (Option.some.inj hstored).symm
  · intro hplain
    obtain ⟨stored, hencrypted, hmarked, hopens⟩ := encryptSecret_plain A random hplain
    obtain ⟨hok, hstored⟩ := w.performed hread hnumbered hencrypted
    have hop : w.op.Plain := by
      cases w with
      | destination now job => exact hplain
      | setting key value => exact hplain
    have hafter : (w.perform s random).2.AllReadable A := by
      rw [w.perform_snd s A]
      exact hread.run hop random
    have hnumbered' : (w.perform s random).2.queue.Numbered := by
      rw [w.perform_snd s A]
      exact numbered_run hread hnumbered random
    refine ⟨hok, ⟨stored, hstored, ?_⟩, w.readBack_stored hafter.configured hstored hopens, ?_⟩
    · rintro rfl
      rw [hplain] at hmarked
      cases hmarked
    · intro later hlater nonces
      exact configureSecrets_isOk nonces (hafter.steps hnumbered' hlater).1

/-- A new database after its first start. -/
def opened : SecretStore := { secrets := some tagged }

theorem inService_opened : opened.InService tagged :=
  ⟨{}, opened, fun _ => zeroNonces, NotificationQueue.numbered_empty, rfl, .refl⟩

theorem secret_round_trip_channels :
    (Write.setting channelsSettingsKey (bytesOf "[]")).RoundTrip tagged opened zeroNonces ↔
      isEncrypted (bytesOf "[]") = false :=
  secret_round_trip inService_opened zeroNonces _

/-- A destination that only looks encrypted: the row cannot be read, and the daemon does not start
again. -/
def lookalike : Write := .destination 0 { event := "", channel := "ops", channelURL := bytesOf "enc:v1:x" }

theorem lookalike_stored_as_it_is : ¬ lookalike.RoundTrip tagged opened zeroNonces ∧
    lookalike.stored (lookalike.perform opened zeroNonces).2 = some lookalike.received ∧
      ((lookalike.perform opened zeroNonces).2.configureSecrets tagged fun _ => zeroNonces).1.isOk = false := by
  have hstored : lookalike.stored (lookalike.perform opened zeroNonces).2 = some lookalike.received := by
    decide
  refine ⟨fun htrip => ?_, hstored, by decide⟩
  obtain ⟨stored, hsame, hdiffers⟩ := htrip.differs
  rw [hstored] at hsame
  exact hdiffers (Option.some.inj hsame).symm

end SecretStore
end Doupro
