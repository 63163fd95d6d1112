import Doupro.Notifier.Durability

/-!
# Attempts

A claim counts an attempt, and only a failure that is reported looks at the bound. A job whose last
lease ends unreported is claimed again.
-/

namespace Doupro.Notifier

open Interaction Secrets

variable {ι : Type} [DecidableEq ι] {A : AEAD}

/-- The job a claim returned. -/
def claimedJob : QueueEvent → Option NotificationJob
  | ⟨_, .claim _ _, .ok job⟩ => job
  | _ => none

/-- A manual retry starts the count again. -/
def countCall (id n : Nat) : QueueEvent → Nat
  | ⟨q, .claim now _, r⟩ => if leasedID q now r = some id then n + 1 else n
  | ⟨_, .retry i _, .ok ()⟩ => if i = id then 0 else n
  | _ => n

/-- How often a job was claimed since the last manual retry of it. -/
def claimsSince (id : Nat) (history : List (ι × QueueEvent)) : Nat :=
  history.foldl (fun n entry => countCall id n entry.2) 0

/-- No job is still being processed, its lease over, when a claim finds it on its last attempt; and no
failure is reported for a job on its last attempt but by the goroutine that has claimed it last. -/
def Timely (past : List (ι × QueueEvent)) (entry : ι × QueueEvent) : Prop :=
  match entry.2.op with
  | .claim now _ => ∀ row ∈ entry.2.world.rows, row.status = .processing →
      row.maxAttempts ≤ (row.attempts : Int) → row.ready now = false
  | .fail id _ _ _ => ∀ row ∈ entry.2.world.rows, row.id = id → row.status = .processing →
      row.maxAttempts ≤ (row.attempts : Int) →
        ∀ job ∈ (memberTrace entry.1 past).filterMap claimedJob, job.id = id → job.attempts = row.attempts
  | _ => True

instance (past : List (ι × QueueEvent)) : (entry : ι × QueueEvent) → Decidable (Timely past entry)
  | (_, ⟨q, .claim now _, _⟩) => inferInstanceAs (Decidable (∀ row ∈ q.rows, row.status = .processing →
      row.maxAttempts ≤ (row.attempts : Int) → row.ready now = false))
  | (i, ⟨q, .fail id _ _ _, _⟩) => inferInstanceAs (Decidable (∀ row ∈ q.rows, row.id = id →
      row.status = .processing → row.maxAttempts ≤ (row.attempts : Int) →
        ∀ job ∈ (memberTrace i past).filterMap claimedJob, job.id = id → job.attempts = row.attempts))
  | (_, ⟨_, .now, _⟩) | (_, ⟨_, .channels, _⟩) | (_, ⟨_, .enqueue _ _, _⟩) | (_, ⟨_, .complete _ _, _⟩)
  | (_, ⟨_, .retry _ _, _⟩) | (_, ⟨_, .send _ _, _⟩) | (_, ⟨_, .insertNotification _, _⟩)
  | (_, ⟨_, .emit _, _⟩) => inferInstanceAs (Decidable True)

omit [DecidableEq ι] in
theorem claimsSince_concat (id : Nat) (past : List (ι × QueueEvent)) (entry : ι × QueueEvent) :
    claimsSince id (past ++ [entry]) = countCall id (claimsSince id past) entry.2 := by
  unfold claimsSince
  rw [List.foldl_append]
  rfl

theorem countCall_idle {q : NotificationQueue} {op : QueueCall} {r : op.Reply} (h : Idle q op r)
    (id n : Nat) : countCall id n ⟨q, op, r⟩ = n := by
  cases op with
  | claim now lease =>
    have h : leasedID q now r = none := h
    simp [countCall, h]
  | retry i now =>
    have h : r ≠ .ok () := h
    cases r with
    | error err => rfl
    | ok => exact absurd rfl h
  | _ => rfl

/-- A row counts the claims since the last retry, and a pending one has an attempt left. -/
structure Fits (row : NotificationJob) (claims : Nat) : Prop where
  counted : claims = row.attempts
  positive : 1 ≤ row.maxAttempts
  limit : (row.attempts : Int) ≤ row.maxAttempts
  pending : row.status = .pending → (row.attempts : Int) < row.maxAttempts

variable {row : NotificationJob} {claims : Nat}

theorem Fits.inserted (job : NotificationJob) (id : Nat) (stored : Bytes) (now : Time) :
    Fits (job.inserted id stored now) 0 := by
  have hpositive : 1 ≤ (job.inserted id stored now).maxAttempts := by
    unfold NotificationJob.inserted defaultMaxAttempts
    dsimp only
    split <;> omega
  have hnone : ((job.inserted id stored now).attempts : Int) = 0 := rfl
  exact ⟨rfl, hpositive, by omega, fun _ => by omega⟩

theorem Fits.leased (h : Fits row claims) (hleft : (row.attempts : Int) < row.maxAttempts) (leaseUntil : Time) :
    Fits (row.leased leaseUntil) (claims + 1) where
  counted := congrArg (· + 1) h.counted
  positive := h.positive
  limit := by
    change ((row.attempts + 1 : Nat) : Int) ≤ row.maxAttempts
    omega
  pending := nofun

theorem Fits.completed (h : Fits row claims) (sentAt : Time) : Fits (row.completed sentAt) claims where
  counted := h.counted
  positive := h.positive
  limit := h.limit
  pending := nofun

theorem Fits.failed (h : Fits row claims) {dead : Bool}
    (hdead : row.maxAttempts ≤ (row.attempts : Int) → dead = true) (retryAt : Time) (lastError : String) :
    Fits (row.failed retryAt lastError dead) claims where
  counted := h.counted
  positive := h.positive
  limit := h.limit
  pending := by
    intro hpending
    change (row.attempts : Int) < row.maxAttempts
    by_contra hlast
    rw [hdead (by omega)] at hpending
    cases hpending

theorem Fits.retried (h : Fits row claims) (now : Time) : Fits (row.retried now) 0 where
  counted := rfl
  positive := h.positive
  limit := Int.le_trans (show ((0 : Nat) : Int) ≤ 1 by decide) h.positive
  pending := fun _ => Int.lt_of_lt_of_le (show ((0 : Nat) : Int) < 1 by decide) h.positive

/-- A row that a claim finds has an attempt left, if it is not one on its last attempt. -/
theorem Fits.left (h : Fits row claims) {now : Time} (htimely : row.status = .processing →
      row.maxAttempts ≤ (row.attempts : Int) → row.ready now = false)
    (hready : row.ready now = true) : (row.attempts : Int) < row.maxAttempts := by
  cases hstatus : row.status with
  | pending => exact h.pending hstatus
  | processing =>
    by_contra hlast
    rw [htimely hstatus (by omega)] at hready
    cases hready
  | sent | deadLetter => simp [NotificationJob.ready, hstatus] at hready

/-! ### Runs -/

/-- Every row fits the history, and no id was claimed before it was given. -/
structure Metered (q : NotificationQueue) (past : List (ι × QueueEvent)) : Prop where
  fresh : ∀ id, q.seq < id → claimsSince id past = 0
  rows : ∀ row ∈ q.rows, Fits row (claimsSince row.id past)

/-- A failure that is reported in time is final if the job was on its last attempt. -/
theorem dead_of_timely {q : NotificationQueue} {past : List (ι × QueueEvent)} (h : Ledger A q past) {i : ι}
    {id : Nat} {retryAt : Time} {lastError : String} {dead : Bool} {r : Except GoError Unit}
    (htimely : Timely past (i, ⟨q, .fail id retryAt lastError dead, r⟩))
    (hreports : reports (memberTrace i past) (.fail id retryAt lastError dead)) (hrow : row ∈ q.rows)
    (hid : row.id = id) (hstatus : row.status = .processing)
    (hlast : row.maxAttempts ≤ (row.attempts : Int)) : dead = true := by
  obtain ⟨job, q₀, now, lease, hjob, hclaim, rfl⟩ := hreports
  have hread := h.readFrom hrow (mem_of_memberTrace hclaim) (hjob.trans hid.symm)
  have hmax : job.maxAttempts = row.maxAttempts := congrArg (fun p => p.2.2.2.2.2.2.2) hread.fields
  have hattempts : job.attempts = row.attempts :=
    htimely row hrow hid hstatus hlast job (List.mem_filterMap.mpr ⟨_, hclaim, rfl⟩) hjob
  rw [decide_eq_true_eq, hmax, hattempts]
  exact hlast

theorem Metered.step {q q' : NotificationQueue} {past : List (ι × QueueEvent)} (h : Metered q past)
    (hledger : Ledger A q past) (i : ι) {op : QueueCall} {r : op.Reply} (heffect : Effect A q op r q')
    (htimely : Timely past (i, ⟨q, op, r⟩)) (hreports : reports (memberTrace i past) op) :
    Metered q' (past ++ [(i, ⟨q, op, r⟩)]) := by
  have hconcat (id : Nat) := claimsSince_concat id past (i, (⟨q, op, r⟩ : QueueEvent))
  cases heffect with
  | idle hidle =>
    refine ⟨fun id hid => ?_, fun row hrow => ?_⟩
    · rw [hconcat, countCall_idle hidle, h.fresh id hid]
    · rw [hconcat, countCall_idle hidle]
      exact h.rows row hrow
  | @inserted random now job stored hstored =>
    refine ⟨fun id hid => ?_, fun row hrow => ?_⟩
    · rw [hconcat]
      exact h.fresh id (Nat.lt_of_succ_lt hid)
    · rw [hconcat]
      rcases List.mem_append.mp hrow with hold | hnew
      · exact h.rows row hold
      · have hnone : claimsSince (q.seq + 1) past = 0 := h.fresh _ (Nat.lt_succ_self _)
        rw [List.mem_singleton.mp hnew]
        change Fits _ (claimsSince (q.seq + 1) past)
        rw [hnone]
        exact .inserted ..
  | @leased now lease row r hnext hread hid =>
    obtain ⟨hrow, hready⟩ := NotificationQueue.next_ready hnext
    have hcount (id n : Nat) : countCall id n ⟨q, .claim now lease, r⟩ = if row.id = id then n + 1 else n := by
      simp [countCall, hid]
    refine ⟨fun id hlater => ?_, fun row' hrow' => ?_⟩
    · have hle := hledger.numbered.bounded row hrow
      rw [hconcat, hcount, if_neg (fun hsame => by simp only at hlater; omega)]
      exact h.fresh id hlater
    · obtain ⟨old, hold, rfl⟩ := Table.mem_updateWhere.mp hrow'
      rw [hconcat, hcount]
      by_cases hsame : old.id = row.id
      · have hequal : old = row := List.inj_on_of_nodup_map hledger.numbered.unique hold hrow hsame
        subst hequal
        rw [if_pos (by simp), if_pos (show old.id = (old.leased _).id from rfl)]
        exact (h.rows old hold).leased ((h.rows old hold).left (htimely old hold) hready) _
      · rw [if_neg (by simpa using hsame), if_neg (Ne.symm hsame)]
        exact h.rows old hold
  | @completed id sentAt hstate =>
    refine ⟨fun id hid => by rw [hconcat]; exact h.fresh id hid, fun row hrow => ?_⟩
    rw [hconcat]
    rcases NotificationQueue.mem_update hrow with ⟨hold, -⟩ | ⟨old, hold, -, -, rfl⟩
    · exact h.rows row hold
    · exact (h.rows old hold).completed _
  | @failed id retryAt lastError dead hstate =>
    refine ⟨fun id hid => by rw [hconcat]; exact h.fresh id hid, fun row hrow => ?_⟩
    rw [hconcat]
    rcases NotificationQueue.mem_update hrow with ⟨hold, -⟩ | ⟨old, hold, hid, hstatus, rfl⟩
    · exact h.rows row hold
    · exact (h.rows old hold).failed (dead_of_timely hledger htimely hreports hold hid hstatus) _ _
  | @retried id now hstate =>
    have hcount (k n : Nat) : countCall k n ⟨q, .retry id now, .ok ()⟩ = if id = k then 0 else n := rfl
    refine ⟨fun k hk => ?_, fun row hrow => ?_⟩
    · rw [hconcat, hcount, h.fresh k hk]
      split <;> rfl
    · rw [hconcat, hcount]
      rcases NotificationQueue.mem_update hrow with ⟨hold, hother⟩ | ⟨old, hold, rfl, -, rfl⟩
      · obtain ⟨retried, hretried, hid, hstatus⟩ := NotificationQueue.inState_row hstate
        have hne : id ≠ row.id := by
          rintro rfl
          have hsame : retried = row :=
            List.inj_on_of_nodup_map hledger.numbered.unique hretried hold hid
          exact hother ⟨rfl, hsame ▸ hstatus⟩
        rw [if_neg hne]
        exact h.rows row hold
      · rw [if_pos (show old.id = (old.retried now).id from rfl)]
        exact (h.rows old hold).retried now

/-- The provider is down: six attempts, an hour apart. -/
def failedRun : List (Nat × QueueEvent) × (Nat → Delivery Unit) × NotificationQueue :=
  played (.enqueue webJob :: List.replicate 6 (.deliver {})) ((0, { now := someDay }) :: (0, {}) ::
    (List.range 6).flatMap fun i => List.replicate 7
      (i + 1, { now := someDay + i * (60 * minute), sent := some (.external "connection refused") }))

/-- Seven processes end after their claim, each three minutes after the one before. -/
def crashedRun : List (Nat × QueueEvent) × (Nat → Delivery Unit) × NotificationQueue :=
  played (.enqueue webJob :: List.replicate 7 (.deliver {})) ((0, { now := someDay }) :: (0, {}) ::
    (List.range 7).flatMap fun i => List.replicate 2 (i + 1, { now := someDay + i * (3 * minute) }))

end Doupro.Notifier
