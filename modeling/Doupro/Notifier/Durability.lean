import Doupro.Go.TimestampOrder
import Doupro.Notifier.Delivery

/-!
# The queue loses nothing

What holds of the queue after any interleaving of the functions that use it, each of which may have
stopped after any call.
-/

namespace Doupro.Notifier

open Interaction Secrets

/-- One call of a goroutine on the queue. -/
abbrev QueueEvent := Event QueueCalls NotificationQueue

/-- What of a row never changes. -/
def payload (row : NotificationJob) : Nat × String × String × String × String × Bytes × String × Int :=
  (row.id, row.event, row.target, row.stack, row.channel, row.channelURL, row.message, row.maxAttempts)

/-- A job as a claim returns it: the row with its destination in plaintext. -/
structure ReadFrom (A : AEAD) (row job : NotificationJob) : Prop where
  fields : payload { job with channelURL := row.channelURL } = payload row
  url : decryptSecret (some A) row.channelURL = .ok job.channelURL

/-- A goroutine claimed the job of the row, and a send of what it had read succeeded. -/
def Delivered (A : AEAD) (row : NotificationJob) (trace : Trace QueueCalls NotificationQueue) : Prop :=
  ∃ job q q' now lease, ReadFrom A row job ∧
    List.Sublist [(⟨q, .claim now lease, .ok (some job)⟩ : QueueEvent),
      ⟨q', .send job.channelURL job.message, none⟩] trace

/-- When a row is due: the next attempt of a pending job, the end of the lease of one that is being
processed. -/
def due (row : NotificationJob) : Option Time :=
  match row.status with
  | .pending => row.nextAttemptAt
  | .processing => row.leaseUntil
  | .sent | .deadLetter => none

/-! ### What the goroutines call -/

/-- What a goroutine may do with what it has done so far: it reports the outcome of a send for a job
that it has claimed. -/
def reports (trace : Trace QueueCalls NotificationQueue) : QueueCall → Prop
  | .complete id _ => ∃ job q q' now lease, job.id = id ∧
      List.Sublist [(⟨q, .claim now lease, .ok (some job)⟩ : QueueEvent),
        ⟨q', .send job.channelURL job.message, none⟩] trace
  | .fail id _ _ dead => ∃ job q now lease, job.id = id ∧
      (⟨q, .claim now lease, .ok (some job)⟩ : QueueEvent) ∈ trace ∧
        dead = decide (job.maxAttempts ≤ (job.attempts : Int))
  | _ => True

/-- Calls that report nothing. -/
def Plain : QueueCall → Prop
  | .complete _ _ | .fail _ _ _ _ => False
  | _ => True

theorem reports_plain (trace : Trace QueueCalls NotificationQueue) (op : QueueCall) (h : Plain op) :
    reports trace op := by
  cases op with
  | complete | fail => exact h.elim
  | _ => trivial

theorem uses_enqueueNotification (job : NotificationJob) : (enqueueNotification job).Uses Plain :=
  ⟨trivial, fun _ => ⟨trivial, fun _ => trivial⟩⟩

theorem uses_emitQueue (level : Level) (kind target stack channel : String) (id : Nat) (message : String) :
    (emitQueue level kind target stack channel id message).Uses Plain :=
  ⟨trivial, fun _ => trivial⟩

theorem uses_conclude (job : NotificationJob) (level : Level) (kind message status errText : String) :
    (conclude job level kind message status errText).Uses Plain :=
  ⟨trivial, fun _ => ⟨trivial, fun _ => trivial⟩⟩

theorem uses_notifyChannels (notice : Notification) (channels : List Channel) :
    (notifyChannels notice channels).Uses Plain := by
  induction channels with
  | nil => trivial
  | cons ch rest ih =>
    unfold notifyChannels
    split
    · refine Program.uses_bind (uses_enqueueNotification _) fun r => ?_
      cases r with
      | error err => exact Program.uses_bind (uses_emitQueue ..) fun _ => ih
      | ok id => exact Program.uses_bind (uses_emitQueue ..) fun _ => ih
    · exact ih

variable {A : AEAD} {M : Machine QueueCalls NotificationQueue}

theorem obeys_plain {α : Type} {p : Delivery α} (hp : p.Uses Plain)
    (trace : Trace QueueCalls NotificationQueue) :
    M.obeys (Contract.ofHistory reports) p trace fun _ _ => True :=
  Machine.obeys_of_uses_always (fun k op => reports_plain k op) hp trace

/-- The outcome of a send is reported for the job that was claimed. -/
theorem settle_reports (n : Timing) (job : NotificationJob) (sendErr : Option GoError)
    {trace : Trace QueueCalls NotificationQueue} {q q' : NotificationQueue} {now : Time} {lease : Duration}
    (h : List.Sublist [(⟨q, .claim now lease, .ok (some job)⟩ : QueueEvent),
      ⟨q', .send job.channelURL job.message, sendErr⟩] trace) :
    M.obeys (Contract.ofHistory reports) (settle n job sendErr) trace fun _ _ => True := by
  have hclaimed : (⟨q, .claim now lease, .ok (some job)⟩ : QueueEvent) ∈ trace := h.subset (by simp)
  refine ⟨trivial, fun w t w' _ _ => ?_⟩
  cases sendErr with
  | none =>
    refine ⟨⟨job, q, q', now, lease, rfl, h.trans (List.sublist_append_left _ _)⟩, fun _ r _ _ _ => ?_⟩
    cases r with
    | error err => trivial
    | ok => exact obeys_plain (uses_conclude ..) _
  | some err =>
    refine ⟨⟨job, q, now, lease, rfl, List.mem_append_left _ hclaimed, rfl⟩, fun _ r _ _ _ => ?_⟩
    cases r with
    | error err => trivial
    | ok =>
      change M.obeys _ (if _ then _ else _) _ _
      split
      · exact obeys_plain (uses_conclude ..) _
      · exact obeys_plain (uses_conclude ..) _

theorem deliverOne_reports (n : Timing) :
    M.obeys (Contract.ofHistory reports) (deliverOne n) [] fun _ _ => True := by
  refine ⟨trivial, fun q₀ now _ _ _ => ⟨trivial, fun q r _ _ _ => ?_⟩⟩
  cases r with
  | error err => trivial
  | ok claimed =>
    cases claimed with
    | none => trivial
    | some job =>
      refine ⟨trivial, fun q' sendErr _ _ _ => ?_⟩
      change M.obeys _ (settle n job sendErr >>= _) _ _
      rw [Machine.obeys_bind]
      have hsub : List.Sublist [(⟨q, .claim now n.lease, .ok (some job)⟩ : QueueEvent),
          ⟨q', .send job.channelURL job.message, sendErr⟩] [⟨q₀, .now, now⟩,
            ⟨q, .claim now n.lease, .ok (some job)⟩, ⟨q', .send job.channelURL job.message, sendErr⟩] :=
        List.Sublist.cons _ (List.Sublist.refl _)
      exact Machine.obeys_mono (settle_reports n job sendErr hsub) fun _ _ _ => trivial

theorem task_reports (task : Task) : M.obeys (Contract.ofHistory reports) task.program [] fun _ _ => True := by
  cases task with
  | enqueue job =>
    have huses : (Task.enqueue job).program.Uses Plain := ⟨trivial, fun _ => ⟨trivial, fun _ => trivial⟩⟩
    exact obeys_plain huses _
  | notify notice =>
    have huses : (Task.notify notice).program.Uses Plain := by
      refine ⟨trivial, fun r => ?_⟩
      cases r with
      | error err => trivial
      | ok channels => exact uses_notifyChannels notice channels
    exact obeys_plain huses _
  | deliver n =>
    change M.obeys _ (deliverOne n >>= _) _ _
    rw [Machine.obeys_bind]
    exact Machine.obeys_mono (deliverOne_reports n) fun _ _ _ => trivial
  | retry id =>
    have huses : (Task.retry id).program.Uses Plain := ⟨trivial, fun _ => ⟨trivial, fun _ => trivial⟩⟩
    exact obeys_plain huses _

/-! ### Rows -/

@[simp] theorem payload_leased (leaseUntil : Time) (row : NotificationJob) :
    payload (row.leased leaseUntil) = payload row := rfl

@[simp] theorem payload_completed (sentAt : Time) (row : NotificationJob) :
    payload (row.completed sentAt) = payload row := rfl

@[simp] theorem payload_failed (retryAt : Time) (lastError : String) (dead : Bool) (row : NotificationJob) :
    payload (row.failed retryAt lastError dead) = payload row := rfl

@[simp] theorem payload_retried (now : Time) (row : NotificationJob) :
    payload (row.retried now) = payload row := rfl

theorem kept_updateWhere {rows : List NotificationJob} (p : NotificationJob → Bool)
    {f : NotificationJob → NotificationJob} (hf : ∀ row, payload (f row) = payload row)
    {row : NotificationJob} (hrow : row ∈ rows) :
    ∃ row' ∈ Table.updateWhere p f rows, payload row' = payload row := by
  refine ⟨_, Table.mem_updateWhere.mpr ⟨row, hrow, rfl⟩, ?_⟩
  split
  · exact hf row
  · rfl

/-- No call removes a row or changes what was accepted with it. -/
theorem Effect.kept {q q' : NotificationQueue} {op : QueueCall} {r : op.Reply} (h : Effect A q op r q')
    {row : NotificationJob} (hrow : row ∈ q.rows) : ∃ row' ∈ q'.rows, payload row' = payload row := by
  cases h with
  | idle => exact ⟨row, hrow, rfl⟩
  | inserted => exact ⟨row, List.mem_append_left _ hrow, rfl⟩
  | leased => exact kept_updateWhere _ (payload_leased _) hrow
  | completed => exact kept_updateWhere _ (payload_completed _) hrow
  | failed => exact kept_updateWhere _ (payload_failed _ _ _) hrow
  | retried => exact kept_updateWhere _ (payload_retried _) hrow

/-- A pending row has a next attempt, a row being processed a lease. -/
def Timed (row : NotificationJob) : Prop :=
  (row.status = .pending → row.nextAttemptAt.isSome) ∧ (row.status = .processing → row.leaseUntil.isSome)

theorem timed_updateWhere {rows : List NotificationJob} (p : NotificationJob → Bool)
    {f : NotificationJob → NotificationJob} (hf : ∀ row, Timed (f row)) (h : ∀ row ∈ rows, Timed row) :
    ∀ row ∈ Table.updateWhere p f rows, Timed row := by
  intro row hrow
  obtain ⟨old, hold, rfl⟩ := Table.mem_updateWhere.mp hrow
  split
  · exact hf old
  · exact h old hold

theorem Effect.timed {q q' : NotificationQueue} {op : QueueCall} {r : op.Reply} (h : Effect A q op r q')
    (hq : ∀ row ∈ q.rows, Timed row) : ∀ row ∈ q'.rows, Timed row := by
  cases h with
  | idle => exact hq
  | inserted h =>
    intro row hrow
    rcases List.mem_append.mp hrow with hold | hnew
    · exact hq row hold
    · rw [List.mem_singleton.mp hnew]
      exact ⟨fun _ => rfl, nofun⟩
  | leased => exact timed_updateWhere _ (fun _ => ⟨nofun, fun _ => rfl⟩) hq
  | completed => exact timed_updateWhere _ (fun _ => ⟨nofun, nofun⟩) hq
  | @failed id retryAt lastError dead =>
    refine timed_updateWhere _ (fun row => ⟨fun _ => rfl, fun h => ?_⟩) hq
    cases dead <;> cases h
  | retried => exact timed_updateWhere _ (fun _ => ⟨fun _ => rfl, nofun⟩) hq

/-- A row that a call leaves sent was sent before, unless the call completed it. -/
theorem Effect.sent {q q' : NotificationQueue} {op : QueueCall} {r : op.Reply} (h : Effect A q op r q')
    {row : NotificationJob} (hrow : row ∈ q'.rows) (hsent : row.status = .sent) :
    row ∈ q.rows ∨ ∃ sentAt, op = .complete row.id sentAt ∧ ∃ old ∈ q.rows, payload old = payload row := by
  cases h with
  | idle => exact .inl hrow
  | inserted =>
    rcases List.mem_append.mp hrow with hold | hnew
    · exact .inl hold
    · rw [List.mem_singleton.mp hnew] at hsent
      cases hsent
  | leased =>
    obtain ⟨old, hold, rfl⟩ := Table.mem_updateWhere.mp hrow
    split at hsent
    · cases hsent
    · next hwhere => exact .inl (by rwa [if_neg hwhere])
  | completed =>
    rcases NotificationQueue.mem_update hrow with ⟨hold, -⟩ | ⟨old, hold, hid, -, rfl⟩
    · exact .inl hold
    · exact .inr ⟨_, congrArg (QueueCall.complete · _) hid.symm, old, hold, rfl⟩
  | @failed id retryAt lastError dead =>
    rcases NotificationQueue.mem_update hrow with ⟨hold, -⟩ | ⟨old, hold, -, -, rfl⟩
    · exact .inl hold
    · cases dead <;> cases hsent
  | retried =>
    rcases NotificationQueue.mem_update hrow with ⟨hold, -⟩ | ⟨old, hold, -, -, rfl⟩
    · exact .inl hold
    · cases hsent

/-- What a claim returns it has read from a row. -/
theorem claim_reads {q q' : NotificationQueue} {now : Time} {lease : Duration} {job : NotificationJob}
    (h : Effect A q (.claim now lease) (.ok (some job)) q') : ∃ row ∈ q.rows, ReadFrom A row job := by
  cases h with
  | idle h => cases h
  | @leased _ _ row _ hnext hread hid =>
    obtain ⟨url, hurl, rfl⟩ := hread job rfl
    exact ⟨row, (NotificationQueue.next_ready hnext).1, rfl, hurl⟩

theorem payload_channelURL {row row' : NotificationJob} (h : payload row' = payload row) :
    row'.channelURL = row.channelURL := congrArg (fun p => p.2.2.2.2.2.1) h

theorem payload_id {row row' : NotificationJob} (h : payload row' = payload row) : row'.id = row.id :=
  congrArg Prod.fst h

theorem ReadFrom.congr {row row' job : NotificationJob} (h : ReadFrom A row job)
    (hrow : payload row' = payload row) : ReadFrom A row' job where
  fields := by rw [payload_channelURL hrow, h.fields, hrow]
  url := payload_channelURL hrow ▸ h.url

theorem Delivered.congr {row row' : NotificationJob} {trace : Trace QueueCalls NotificationQueue}
    (h : Delivered A row trace) (hrow : payload row' = payload row) : Delivered A row' trace := by
  obtain ⟨job, q, q', now, lease, hread, hsub⟩ := h
  exact ⟨job, q, q', now, lease, hread.congr hrow, hsub⟩

theorem ReadFrom.id {row job : NotificationJob} (h : ReadFrom A row job) : job.id = row.id :=
  congrArg Prod.fst h.fields

/-- The row of a job that was accepted under an id. -/
def AcceptedAs (job : NotificationJob) (id : Nat) (row : NotificationJob) : Prop :=
  ∃ stored now, payload row = payload (job.inserted id stored now)

/-! ### Runs -/

variable {ι : Type} [DecidableEq ι]

/-- What holds of the queue and the history of every run. -/
structure Ledger (A : AEAD) (q : NotificationQueue) (history : List (ι × QueueEvent)) : Prop where
  numbered : q.Numbered
  timed : ∀ row ∈ q.rows, Timed row
  kept : ∀ i q₀ now job id, (i, (⟨q₀, .enqueue now job, .ok id⟩ : QueueEvent)) ∈ history →
    ∃ row ∈ q.rows, AcceptedAs job id row
  read : ∀ i q₀ now lease job, (i, (⟨q₀, .claim now lease, .ok (some job)⟩ : QueueEvent)) ∈ history →
    ∃ row ∈ q.rows, ReadFrom A row job
  sent : ∀ row ∈ q.rows, row.status = .sent → ∃ i, Delivered A row (memberTrace i history)

/-- A row of an id that was claimed is the one the claim has read. -/
theorem Ledger.readFrom {q : NotificationQueue} {past : List (ι × QueueEvent)} (h : Ledger A q past)
    {row job : NotificationJob} (hrow : row ∈ q.rows) {i : ι} {q₀ : NotificationQueue} {now : Time}
    {lease : Duration} (hclaim : (i, (⟨q₀, .claim now lease, .ok (some job)⟩ : QueueEvent)) ∈ past)
    (hid : job.id = row.id) : ReadFrom A row job := by
  obtain ⟨other, hother, hread⟩ := h.read i q₀ now lease job hclaim
  have hsame : other = row :=
    List.inj_on_of_nodup_map h.numbered.unique hother hrow (hread.id.symm.trans hid)
  exact hsame ▸ hread

/-- One call keeps the ledger. -/
theorem Ledger.step {q q' : NotificationQueue} {past : List (ι × QueueEvent)} (h : Ledger A q past) (i : ι)
    {op : QueueCall} {r : op.Reply} (hcall : (database A).step q op r q')
    (hreports : reports (memberTrace i past) op) : Ledger A q' (past ++ [(i, ⟨q, op, r⟩)]) := by
  have heffect := database_effect h.numbered hcall
  refine ⟨heffect.numbered h.numbered, heffect.timed h.timed, ?_, ?_, ?_⟩
  · intro j q₀ now job id hmem
    rcases List.mem_append.mp hmem with hold | hnew
    · obtain ⟨row, hrow, stored, start, haccepted⟩ := h.kept j q₀ now job id hold
      obtain ⟨row', hrow', hsame⟩ := heffect.kept hrow
      exact ⟨row', hrow', stored, start, hsame.trans haccepted⟩
    · cases List.mem_singleton.mp hnew
      cases heffect with
      | idle hidle => exact absurd rfl (hidle id)
      | inserted hstored => exact ⟨_, List.mem_append_right _ (List.mem_singleton.mpr rfl), _, _, rfl⟩
  · intro j q₀ now lease job hmem
    rcases List.mem_append.mp hmem with hold | hnew
    · obtain ⟨row, hrow, hread⟩ := h.read j q₀ now lease job hold
      obtain ⟨row', hrow', hsame⟩ := heffect.kept hrow
      exact ⟨row', hrow', hread.congr hsame⟩
    · cases List.mem_singleton.mp hnew
      obtain ⟨row, hrow, hread⟩ := claim_reads heffect
      obtain ⟨row', hrow', hsame⟩ := heffect.kept hrow
      exact ⟨row', hrow', hread.congr hsame⟩
  · intro row hrow hsent
    rcases heffect.sent hrow hsent with hold | ⟨sentAt, rfl, old, hold, hsame⟩
    · obtain ⟨j, hdelivered⟩ := h.sent row hold hsent
      obtain ⟨job, q₁, q₂, now, lease, hread, hsub⟩ := hdelivered
      exact ⟨j, job, q₁, q₂, now, lease, hread, hsub.trans (memberTrace_grows j past _)⟩
    · obtain ⟨job, q₁, q₂, now, lease, hid, hsub⟩ := hreports
      have hclaim := mem_of_memberTrace (hsub.subset List.mem_cons_self)
      have hread := h.readFrom hold hclaim (hid.trans (payload_id hsame).symm)
      exact ⟨i, job, q₁, q₂, now, lease, hread.congr hsame.symm, hsub.trans (memberTrace_grows i past _)⟩

theorem ledger_empty : Ledger A ({} : NotificationQueue) ([] : List (ι × QueueEvent)) where
  numbered := NotificationQueue.numbered_empty
  timed := by simp
  kept := by simp
  read := by simp
  sent := by simp

/-- The goroutines of a daemon and of those that ran before it. -/
def pool (tasks : ι → Task) : ι → Delivery Unit := fun i => (tasks i).program

theorem run_ledger {tasks : ι → Task} {pool' : ι → Delivery Unit} {q : NotificationQueue}
    {history : List (ι × QueueEvent)} (h : (database A).PoolRuns (pool tasks) {} history pool' q) :
    Ledger A q history :=
  h.informed (A := fun _ _ => True)
    (fun i _ _ hinv hrely hcall _ hreports => by
      subst hrely
      exact hinv.step i hcall hreports)
    (Machine.throughout_trivial _ _) (fun i => task_reports (tasks i)) ledger_empty

/-- From a second after it is due on a row is eligible. -/
theorem ready_of_due {row : NotificationJob} {start : Time} (h : due row = some start) {now : Time}
    (hnow : 0 ≤ now.year ∧ now.year ≤ 9999) (hlate : start + second ≤ now) : row.ready now = true := by
  have hcolumn : Time.columnLE start now = true := Time.columnLE_of_second_le hnow hlate
  unfold due at h
  unfold NotificationJob.ready
  cases hstatus : row.status with
  | pending =>
    rw [hstatus] at h
    dsimp only at h
    simp [h, hcolumn]
  | processing =>
    rw [hstatus] at h
    dsimp only at h
    simp [h, hcolumn]
  | sent | deadLetter =>
    rw [hstatus] at h
    cases h

/-- Nothing that was accepted is lost, and what is not finished comes up again. -/
structure Durable (A : AEAD) (q : NotificationQueue) (history : List (ι × QueueEvent)) : Prop where
  kept : ∀ i q₀ now job id, (i, (⟨q₀, .enqueue now job, .ok id⟩ : QueueEvent)) ∈ history →
    ∃ row ∈ q.rows, AcceptedAs job id row
  leased : ∀ row ∈ q.rows, row.status = .processing → row.leaseUntil.isSome
  sent : ∀ row ∈ q.rows, row.status = .sent → ∃ i, Delivered A row (memberTrace i history)
  eligible : ∀ row ∈ q.rows, row.status = .pending ∨ row.status = .processing →
    ∃ start, due row = some start ∧ ∀ now : Time, 0 ≤ now.year ∧ now.year ≤ 9999 → start + second ≤ now →
      row.ready now = true

/-- The queue loses nothing, whatever the goroutines do and wherever they stop. -/
theorem queue_durable {tasks : ι → Task} {pool' : ι → Delivery Unit} {q : NotificationQueue}
    {history : List (ι × QueueEvent)} (h : (database A).PoolRuns (pool tasks) {} history pool' q) :
    Durable A q history := by
  have hledger := run_ledger h
  refine ⟨hledger.kept, fun row hrow => (hledger.timed row hrow).2, hledger.sent, fun row hrow hopen => ?_⟩
  have hdue : ∃ start, due row = some start := by
    obtain ⟨hpending, hprocessing⟩ := hledger.timed row hrow
    unfold due
    rcases hopen with hstatus | hstatus
    · rw [hstatus]
      exact Option.isSome_iff_exists.mp (hpending hstatus)
    · rw [hstatus]
      exact Option.isSome_iff_exists.mp (hprocessing hstatus)
  obtain ⟨start, hat⟩ := hdue
  exact ⟨start, hat, fun now hnow hlate => ready_of_due hat hnow hlate⟩

/-! ### Runs by script -/

/-- The goroutines `0`, `1`, … of a script, and what the world contributes to their calls. -/
def played (tasks : List Task) (turns : List (Nat × Share)) :
    List (Nat × QueueEvent) × (Nat → Delivery Unit) × NotificationQueue :=
  Machine.replay (exec tagged) turns (pool fun i => tasks.getD i (.retry 0)) {}

theorem played_runs (tasks : List Task) (turns : List (Nat × Share)) :
    (database tagged).PoolRuns (pool fun i => tasks.getD i (.retry 0)) {} (played tasks turns).1
      (played tasks turns).2.1 (played tasks turns).2.2 := by
  have hexec : ∀ q share op, (database tagged).step q op (exec tagged q share op).1
      (exec tagged q share op).2 := fun _ share _ => ⟨share, rfl⟩
  exact Machine.replay_runs (fun _ => rfl) hexec turns _ _

/-- November 14th of 2023. -/
def someDay : Time := 1700000000 * second

def webJob : NotificationJob := { event := "update.failed", channel := "ops", channelURL := bytesOf "ntfy://x" }

/-- A job is accepted and delivered. -/
def deliveredRun : List (Nat × QueueEvent) × (Nat → Delivery Unit) × NotificationQueue :=
  played [.enqueue webJob, .deliver {}]
    ((0, { now := someDay }) :: (0, {}) :: List.replicate 5 (1, { now := someDay }))

theorem queue_durable_sent : deliveredRun.2.2.rows.map NotificationJob.status = [.sent] ∧
    Durable tagged deliveredRun.2.2 deliveredRun.1 :=
  ⟨by decide +kernel, queue_durable (played_runs ..)⟩

/-- However late, there is a time at which a pending job is not eligible. -/
theorem not_eligible_for_ever : ¬ ∀ (A : AEAD) (tasks : Nat → Task) (pool' : Nat → Delivery Unit)
    (q : NotificationQueue) (history : List (Nat × QueueEvent)),
    (database A).PoolRuns (pool tasks) {} history pool' q →
      ∀ row ∈ q.rows, row.status = .pending ∨ row.status = .processing →
        ∃ start : Time, ∀ now : Time, start ≤ now → row.ready now = true := by
  intro h
  have hrun := played_runs [.enqueue webJob] [(0, { now := someDay }), (0, {})]
  obtain ⟨row, hrow, hpending, hnext⟩ : ∃ row ∈ (played [.enqueue webJob]
      [(0, { now := someDay }), (0, {})]).2.2.rows, row.status = .pending ∧
        row.nextAttemptAt = some someDay := ⟨_, List.mem_cons_self, rfl, rfl⟩
  obtain ⟨start, hready⟩ := h tagged _ _ _ _ hrun row hrow (.inl hpending)
  have hready := hready _ (Time.le_distant start)
  have hlate : Time.columnLE someDay (Time.distant start.toNat) = false :=
    Time.columnLE_distant (c := '2') rfl (by decide) _
  simp [NotificationJob.ready, hpending, hnext, hlate] at hready

end Doupro.Notifier
