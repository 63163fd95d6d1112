import Doupro.Go.Timestamp
import Doupro.Secrets.Cipher
import Doupro.Table.Keyed

/-!
# The notification queue

The rows of `notification_queue` and the statements on them. Each is one statement of SQLite. The
destination of a row is a secret: a claim leases its row before it reads the destination.
-/

namespace Doupro

open Secrets

/-- The values the `status` column of `notification_queue` takes. -/
inductive JobStatus where
  | pending
  | processing
  | sent
  | deadLetter
  deriving DecidableEq

/-- `store.NotificationJob`, which also stands for a row; a row carries the stored destination. -/
structure NotificationJob where
  id : Nat := 0
  event : String
  target : String := ""
  stack : String := ""
  channel : String
  channelURL : Bytes
  message : String := ""
  status : JobStatus := .pending
  attempts : Nat := 0
  maxAttempts : Int := 0
  /-- `none` is the zero time, which only a job to be enqueued has. -/
  nextAttemptAt : Option Time := none
  leaseUntil : Option Time := none
  lastError : String := ""
  sentAt : Option Time := none
  deriving DecidableEq

structure NotificationQueue where
  rows : List NotificationJob := []
  /-- The row of `sqlite_sequence`. -/
  seq : Nat := 0
  deriving DecidableEq

/-- `DefaultNotificationMaxAttempts`. -/
def defaultMaxAttempts : Int := 6

namespace NotificationJob

/-- The condition a claim selects by. -/
def ready (now : Time) (job : NotificationJob) : Bool :=
  (job.status = .pending && job.nextAttemptAt.any fun next => Time.columnLE next now) ||
    (job.status = .processing && job.leaseUntil.any fun lease => Time.columnLE lease now)

/-- `ORDER BY next_attempt_at, id`. -/
def ahead (a b : NotificationJob) : Bool :=
  match a.nextAttemptAt, b.nextAttemptAt with
  | some first, some second => !Time.columnLE second first || (Time.columnLE first second && a.id ≤ b.id)
  | _, _ => a.id ≤ b.id

/-- The row an `INSERT` of `EnqueueNotification` makes of a job. -/
def inserted (job : NotificationJob) (id : Nat) (storedURL : Bytes) (now : Time) : NotificationJob where
  id
  event := job.event
  target := job.target
  stack := job.stack
  channel := job.channel
  channelURL := storedURL
  message := job.message
  maxAttempts := if job.maxAttempts ≤ 0 then defaultMaxAttempts else job.maxAttempts
  nextAttemptAt := some (job.nextAttemptAt.getD now)

/-- What a claim sets. -/
def leased (leaseUntil : Time) (job : NotificationJob) : NotificationJob :=
  { job with status := .processing, attempts := job.attempts + 1, leaseUntil := some leaseUntil }

/-- What `CompleteNotification` sets. -/
def completed (sentAt : Time) (job : NotificationJob) : NotificationJob :=
  { job with status := .sent, sentAt := some sentAt, leaseUntil := none, lastError := "" }

/-- What `FailNotification` sets. -/
def failed (retryAt : Time) (lastError : String) (dead : Bool) (job : NotificationJob) :
    NotificationJob :=
  { job with
    status := if dead then .deadLetter else .pending
    nextAttemptAt := some retryAt
    leaseUntil := none
    lastError }

/-- What `RetryNotification` sets. -/
def retried (now : Time) (job : NotificationJob) : NotificationJob :=
  { job with status := .pending, attempts := 0, nextAttemptAt := some now, leaseUntil := none, lastError := "" }

end NotificationJob

/-- The row that comes first in the order of the claims. -/
def foremost : List NotificationJob → Option NotificationJob
  | [] => none
  | job :: rest => match foremost rest with
    | none => some job
    | some best => if job.ahead best then some job else some best

theorem foremost_mem {rows : List NotificationJob} {job : NotificationJob}
    (h : foremost rows = some job) : job ∈ rows := by
  induction rows generalizing job with
  | nil => cases h
  | cons first rest ih =>
    unfold foremost at h
    cases hrest : foremost rest with
    | none =>
      simp only [hrest, Option.some.injEq] at h
      simp [h]
    | some best =>
      simp only [hrest] at h
      split at h
      · simp only [Option.some.injEq] at h
        simp [h]
      · simp only [Option.some.injEq] at h
        subst h
        exact List.mem_cons_of_mem _ (ih hrest)

namespace NotificationQueue

/-- The row the next claim leases. -/
def next (q : NotificationQueue) (now : Time) : Option NotificationJob :=
  foremost (q.rows.filter (NotificationJob.ready now))

/-- `UPDATE ... SET f WHERE id = ? AND status = ?`. -/
def update (q : NotificationQueue) (id : Nat) (status : JobStatus) (f : NotificationJob → NotificationJob) :
    NotificationQueue :=
  { q with rows := Table.updateWhere (fun job => decide (job.id = id ∧ job.status = status)) f q.rows }

/-- Whether an update of the row finds it in the required state. -/
def inState (q : NotificationQueue) (id : Nat) (status : JobStatus) : Bool :=
  q.rows.countP (fun job => decide (job.id = id ∧ job.status = status)) = 1

/-- `EnqueueNotification`, on a database that works. -/
def enqueue (q : NotificationQueue) (secrets : Option AEAD) (random : Random) (now : Time)
    (job : NotificationJob) : Except GoError Nat × NotificationQueue :=
  match encryptSecret secrets random job.channelURL with
  | .error err => (.error (.wrap "encrypt notification destination" err), q)
  | .ok storedURL =>
    let id := q.seq + 1
    (.ok id, { q with rows := q.rows ++ [job.inserted id storedURL now], seq := id })

/-- `scanNotificationJob`. -/
def scan (secrets : Option AEAD) (row : NotificationJob) : Except GoError NotificationJob :=
  match decryptSecret secrets row.channelURL with
  | .error err => .error (.wrap "decrypt notification destination" err)
  | .ok url => .ok { row with channelURL := url }

/-- `ClaimNotification`, on a database that works. The row stays leased when it cannot be read. -/
def claim (q : NotificationQueue) (secrets : Option AEAD) (now : Time) (lease : Duration) :
    Except GoError (Option NotificationJob) × NotificationQueue :=
  match q.next now with
  | none => (.ok none, q)
  | some row =>
    let q' := { q with
      rows := Table.updateWhere (fun job => decide (job.id = row.id))
        (NotificationJob.leased (now + lease)) q.rows }
    match scan secrets (row.leased (now + lease)) with
    | .error err => (.error (.wrap "claim notification" err), q')
    | .ok job => (.ok (some job), q')

/-- An update of one row in a state, and the error of the one that finds none. -/
def transition (q : NotificationQueue) (action : String) (id : Nat) (status : JobStatus)
    (f : NotificationJob → NotificationJob) : Except GoError Unit × NotificationQueue :=
  (if q.inState id status then .ok ()
    else .error (.new (action ++ ": notification job is not in the required state")),
    q.update id status f)

/-- `CompleteNotification`, on a database that works. -/
def complete (q : NotificationQueue) (id : Nat) (sentAt : Time) : Except GoError Unit × NotificationQueue :=
  q.transition "complete notification" id .processing (NotificationJob.completed sentAt)

/-- `FailNotification`, on a database that works. -/
def fail (q : NotificationQueue) (id : Nat) (retryAt : Time) (lastError : String) (dead : Bool) :
    Except GoError Unit × NotificationQueue :=
  q.transition "fail notification" id .processing (NotificationJob.failed retryAt lastError dead)

/-- `RetryNotification`, on a database that works. -/
def retry (q : NotificationQueue) (id : Nat) (now : Time) : Except GoError Unit × NotificationQueue :=
  q.transition "retry dead-letter notification" id .deadLetter (NotificationJob.retried now)

/-! ### Rows -/

theorem mem_update {q : NotificationQueue} {id : Nat} {status : JobStatus}
    {f : NotificationJob → NotificationJob} {job : NotificationJob} (h : job ∈ (q.update id status f).rows) :
    (job ∈ q.rows ∧ ¬ (job.id = id ∧ job.status = status)) ∨
      ∃ old ∈ q.rows, old.id = id ∧ old.status = status ∧ job = f old := by
  obtain ⟨old, hold, hjob⟩ := Table.mem_updateWhere.mp h
  by_cases hwhere : old.id = id ∧ old.status = status
  · rw [if_pos (by simp [hwhere])] at hjob
    exact .inr ⟨old, hold, hwhere.1, hwhere.2, hjob.symm⟩
  · rw [if_neg (by simpa using hwhere)] at hjob
    subst hjob
    exact .inl ⟨hold, hwhere⟩

/-- Every id was handed out once. -/
structure Numbered (q : NotificationQueue) : Prop where
  unique : (q.rows.map NotificationJob.id).Nodup
  bounded : ∀ job ∈ q.rows, job.id ≤ q.seq

theorem numbered_empty : Numbered {} := ⟨List.nodup_nil, by simp⟩

theorem Numbered.updateWhere {q : NotificationQueue} (h : Numbered q) (p : NotificationJob → Bool)
    {f : NotificationJob → NotificationJob} (hf : ∀ job, (f job).id = job.id) :
    Numbered { q with rows := Table.updateWhere p f q.rows } where
  unique := Table.unique_updateWhere _ p f hf h.unique
  bounded := by
    intro job hjob
    obtain ⟨old, hold, rfl⟩ := Table.mem_updateWhere.mp hjob
    split
    · exact hf old ▸ h.bounded old hold
    · exact h.bounded old hold

theorem Numbered.insert {q : NotificationQueue} (h : Numbered q) (job : NotificationJob)
    (hid : job.id = q.seq + 1) : Numbered { rows := q.rows ++ [job], seq := q.seq + 1 } where
  unique := by
    have hfresh : job.id ∉ q.rows.map NotificationJob.id := by
      intro hmem
      obtain ⟨old, hold, hsame⟩ := List.mem_map.mp hmem
      have := h.bounded old hold
      omega
    simpa using (List.nodup_concat _ _).mpr ⟨hfresh, h.unique⟩
  bounded := by
    intro old hold
    rcases List.mem_append.mp hold with hold | hold
    · exact (h.bounded old hold).trans (Nat.le_succ _)
    · rw [List.mem_singleton.mp hold, hid]

theorem Numbered.enqueue {q : NotificationQueue} (h : Numbered q) (secrets : Option AEAD) (random : Random)
    (now : Time) (job : NotificationJob) : Numbered (q.enqueue secrets random now job).2 := by
  unfold NotificationQueue.enqueue
  split
  · exact h
  · exact h.insert _ rfl

theorem Numbered.claim {q : NotificationQueue} (h : Numbered q) (secrets : Option AEAD) (now : Time)
    (lease : Duration) : Numbered (q.claim secrets now lease).2 := by
  unfold NotificationQueue.claim
  split
  · exact h
  · dsimp only
    split
    · exact h.updateWhere _ fun _ => rfl
    · exact h.updateWhere _ fun _ => rfl

/-- A row that is not in the required state is the only one of its id, so nothing is updated. -/
theorem Numbered.update_of_not_inState {q : NotificationQueue} (h : Numbered q) {id : Nat}
    {status : JobStatus} (f : NotificationJob → NotificationJob) (hstate : q.inState id status = false) :
    q.update id status f = q := by
  have hle : q.rows.countP (fun job => decide (job.id = id ∧ job.status = status)) ≤ 1 := by
    have hsub : q.rows.countP (fun job => decide (job.id = id ∧ job.status = status)) ≤
        (q.rows.map NotificationJob.id).count id := by
      rw [List.count, List.countP_map]
      refine List.countP_mono_left fun job _ hjob => ?_
      simp only [decide_eq_true_eq] at hjob
      simp [hjob.1]
    exact hsub.trans (List.nodup_iff_count_le_one.mp h.unique id)
  have hzero : q.rows.countP (fun job => decide (job.id = id ∧ job.status = status)) = 0 := by
    have hne : q.rows.countP (fun job => decide (job.id = id ∧ job.status = status)) ≠ 1 := by
      simpa [inState] using hstate
    omega
  have hnone := List.countP_eq_zero.mp hzero
  unfold update
  rw [Table.updateWhere_eq_self fun job hjob hwhere => absurd hwhere (hnone job hjob)]

theorem inState_row {q : NotificationQueue} {id : Nat} {status : JobStatus}
    (h : q.inState id status = true) : ∃ row ∈ q.rows, row.id = id ∧ row.status = status := by
  have hcount : q.rows.countP (fun job => decide (job.id = id ∧ job.status = status)) = 1 := by
    simpa [inState] using h
  have hpos : 0 < q.rows.countP (fun job => decide (job.id = id ∧ job.status = status)) := by omega
  obtain ⟨row, hrow, hwhere⟩ := List.countP_pos_iff.mp hpos
  exact ⟨row, hrow, by simpa using hwhere⟩

theorem next_ready {q : NotificationQueue} {now : Time} {row : NotificationJob}
    (h : q.next now = some row) : row ∈ q.rows ∧ row.ready now = true :=
  List.mem_filter.mp (foremost_mem h)

/-- The row of the job that was enqueued last. -/
theorem lookup_inserted {q : NotificationQueue} (h : Numbered q) (job : NotificationJob)
    (hid : job.id = q.seq + 1) :
    Table.lookup NotificationJob.id (q.seq + 1) (q.rows ++ [job]) = some job := by
  have hfresh : Table.lookup NotificationJob.id (q.seq + 1) q.rows = none := by
    rw [Table.lookup_eq_none]
    intro old hold
    have := h.bounded old hold
    omega
  rw [Table.lookup_append_fresh, hfresh, hid]
  simp

end NotificationQueue
end Doupro
