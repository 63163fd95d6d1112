import Doupro.Store.RollbackWatches

/-!
# One watch between two armings

Five writers share the row of a watch. Every one of them acts on the row alone,
so a run of calls on the store is a run on that row, and the lifecycle facts are
inductions over the row's run.
-/

namespace Doupro

/-- A status a caller closes a watch with. No call site passes `active`. -/
structure Completion where
  status : WatchStatus
  closed : status ≠ .active

/-- The calls that reach the row of a watch between two armings. Reopening runs the
migrations again, whose `CREATE TABLE IF NOT EXISTS` changes no row. -/
inductive WatchCall where
  | recordCrash (fault : Option Store.TxFault) (name containerID : String) (eventNano : Int)
    (crashedAt : Time)
  | expire (now : Time)
  | complete (name : String) (completion : Completion)
  | setRestartCount (name : String) (count : Nat)
  | reopen

namespace WatchCall

def apply (s : Store) : WatchCall → Store
  | .recordCrash fault name id nano crashedAt => (s.recordCrash fault name id nano crashedAt).2
  | .expire now => s.expireRollbackWatches now
  | .complete name completion => s.completeRollbackWatch name completion.status
  | .setRestartCount name count => s.setRollbackWatchRestartCount name count
  | .reopen => s

/-- The store after a sequence of calls, whoever made them. -/
def applyAll (s : Store) (calls : List WatchCall) : Store := calls.foldl apply s

/-- A `RecordCrash` for `name` that returned without an error and counted the crash. -/
def counted (name : String) (s : Store) : WatchCall → Bool
  | .recordCrash fault n id nano crashedAt =>
    let reply := (s.recordCrash fault n id nano crashedAt).1
    decide (n = name) && reply.counted && reply.err.isNone
  | _ => false

/-- A `RecordCrash` for `name` that returned `triggered = true` without an error. -/
def triggered (name : String) (s : Store) : WatchCall → Bool
  | .recordCrash fault n id nano crashedAt =>
    let reply := (s.recordCrash fault n id nano crashedAt).1
    decide (n = name) && reply.triggered && reply.err.isNone
  | _ => false

/-- The number of calls of a run that returned `triggered = true`. -/
def triggerCount (name : String) : Store → List WatchCall → Nat
  | _, [] => 0
  | s, call :: calls =>
    (if call.triggered name s then 1 else 0) + triggerCount name (call.apply s) calls

/-- `last_event_nano` as each counted crash of a run leaves it, in order. -/
def countedNanos (name : String) : Store → List WatchCall → List Int
  | _, [] => []
  | s, call :: calls =>
    let after := call.apply s
    let rest := countedNanos name after calls
    if call.counted name s then
      ((after.getRollbackWatch name).map RollbackWatch.lastEventNano).toList ++ rest
    else rest

/-! ### The same run on the row -/

/-- The crash a call counts on the row it meets. -/
def countsOn (w : RollbackWatch) : WatchCall → Prop
  | .recordCrash none name id nano crashedAt => name = w.containerName ∧ w.Counts id nano crashedAt
  | _ => False

def onRow (w : RollbackWatch) : WatchCall → RollbackWatch
  | .recordCrash none name id nano crashedAt =>
    if name = w.containerName ∧ w.Counts id nano crashedAt then w.countCrash nano crashedAt else w
  | .recordCrash (some _) _ _ _ _ => w
  | .expire now => if Store.windowOver now w then { w with status := .expired } else w
  | .complete name completion =>
    if name = w.containerName then { w with status := completion.status } else w
  | .setRestartCount name count =>
    if name = w.containerName then { w with observedRestartCount := count } else w
  | .reopen => w

@[simp] theorem onRow_containerName (w : RollbackWatch) (call : WatchCall) :
    (call.onRow w).containerName = w.containerName := by
  cases call with
  | recordCrash fault =>
    cases fault with
    | some fault => rfl
    | none => simp only [onRow]; split <;> simp
  | expire | complete | setRestartCount => simp only [onRow]; split <;> rfl
  | reopen => rfl

@[simp] theorem onRow_threshold (w : RollbackWatch) (call : WatchCall) :
    (call.onRow w).threshold = w.threshold := by
  cases call with
  | recordCrash fault =>
    cases fault with
    | some fault => rfl
    | none => simp only [onRow]; split <;> simp
  | expire | complete | setRestartCount => simp only [onRow]; split <;> rfl
  | reopen => rfl

/-- Every call acts on the row of a watch by `onRow`, whatever the rest of the store is. -/
theorem getRollbackWatch_apply {s : Store} {name : String} {w : RollbackWatch}
    (hw : s.getRollbackWatch name = some w) (call : WatchCall) :
    (call.apply s).getRollbackWatch name = some (call.onRow w) := by
  have hn := Store.getRollbackWatch_containerName hw
  subst hn
  cases call with
  | recordCrash fault n id nano crashedAt =>
    by_cases hname : n = w.containerName
    · subst hname
      cases fault with
      | none => simpa [apply, onRow] using Store.getRollbackWatch_recordCrash hw id nano crashedAt
      | some fault => simp [apply, onRow, Store.recordCrash_fault, hw]
    · have hrow : onRow w (.recordCrash fault n id nano crashedAt) = w := by
        cases fault <;> simp [onRow, hname]
      rw [hrow, ← hw]
      exact Store.getRollbackWatch_recordCrash_ne s fault hname id nano crashedAt
  | expire now => simp [apply, onRow, Store.getRollbackWatch_expire, hw]
  | complete n completion =>
    by_cases hname : n = w.containerName
    · subst hname
      have h := Store.getRollbackWatch_updateWatch s w.containerName
        (fun v => { v with status := completion.status }) (fun _ => rfl)
      simpa [apply, onRow, Store.completeRollbackWatch, hw] using h
    · simp only [apply, onRow, if_neg hname, ← hw]
      exact Store.getRollbackWatch_updateWatch_ne s
        (fun v => { v with status := completion.status }) (fun _ => rfl) hname
  | setRestartCount n count =>
    by_cases hname : n = w.containerName
    · subst hname
      have h := Store.getRollbackWatch_updateWatch s w.containerName
        (fun v => { v with observedRestartCount := count }) (fun _ => rfl)
      simpa [apply, onRow, Store.setRollbackWatchRestartCount, hw] using h
    · simp only [apply, onRow, if_neg hname, ← hw]
      exact Store.getRollbackWatch_updateWatch_ne s
        (fun v => { v with observedRestartCount := count }) (fun _ => rfl) hname
  | reopen => exact hw

theorem getRollbackWatch_applyAll {s : Store} {name : String} {w : RollbackWatch}
    (hw : s.getRollbackWatch name = some w) (calls : List WatchCall) :
    (applyAll s calls).getRollbackWatch name = some (calls.foldl onRow w) := by
  induction calls generalizing s w with
  | nil => exact hw
  | cons call calls ih => exact ih (getRollbackWatch_apply hw call)

theorem counted_iff {s : Store} {name : String} {w : RollbackWatch}
    (hw : s.getRollbackWatch name = some w) (call : WatchCall) :
    call.counted name s = true ↔ call.countsOn w := by
  have hn := Store.getRollbackWatch_containerName hw
  subst hn
  cases call with
  | recordCrash fault n id nano crashedAt =>
    by_cases hname : n = w.containerName
    · subst hname
      by_cases hc : w.Counts id nano crashedAt <;>
        rcases fault with _ | (_ | _ | _ | _) <;>
          simp [counted, countsOn, Store.recordCrash, hw, hc]
    · cases fault <;> simp [counted, countsOn, hname]
  | expire | complete | setRestartCount | reopen => simp [counted, countsOn]

theorem triggered_iff {s : Store} {name : String} {w : RollbackWatch}
    (hw : s.getRollbackWatch name = some w) (call : WatchCall) :
    call.triggered name s = true ↔ call.countsOn w ∧ w.threshold ≤ w.crashCount + 1 := by
  have hn := Store.getRollbackWatch_containerName hw
  subst hn
  cases call with
  | recordCrash fault n id nano crashedAt =>
    by_cases hname : n = w.containerName
    · subst hname
      by_cases hc : w.Counts id nano crashedAt <;>
        rcases fault with _ | (_ | _ | _ | _) <;>
          simp [triggered, countsOn, Store.recordCrash, hw, hc]
    · cases fault <;> simp [triggered, countsOn, hname]
  | expire | complete | setRestartCount | reopen => simp [triggered, countsOn]

/-- Only a counted crash moves the counters; the other calls keep or close the status. -/
theorem onRow_cases (w : RollbackWatch) (call : WatchCall) :
    (∃ nano crashedAt, call.countsOn w ∧ w.status = .active ∧ w.lastEventNano < nano ∧
      call.onRow w = w.countCrash nano crashedAt) ∨
    (¬ call.countsOn w ∧ (call.onRow w).crashCount = w.crashCount ∧
      (call.onRow w).lastEventNano = w.lastEventNano ∧
      ((call.onRow w).status = w.status ∨ (call.onRow w).status ≠ .active)) := by
  cases call with
  | recordCrash fault n id nano crashedAt =>
    cases fault with
    | some fault => right; simp [onRow, countsOn]
    | none =>
      by_cases h : n = w.containerName ∧ w.Counts id nano crashedAt
      · left
        exact ⟨nano, crashedAt, h, h.2.1, h.2.2.2.2, by simp [onRow, h]⟩
      · right
        simp [onRow, countsOn, h]
  | expire now => right; simp only [onRow, countsOn]; split <;> simp
  | complete n completion =>
    right
    simp only [onRow, countsOn]
    split
    · exact ⟨id, rfl, rfl, .inr completion.closed⟩
    · simp
  | setRestartCount n count => right; simp only [onRow, countsOn]; split <;> simp
  | reopen => right; simp [onRow, countsOn]

/-- A closed watch stays closed and counts nothing. -/
theorem onRow_closed {w : RollbackWatch} (h : w.status ≠ .active) (call : WatchCall) :
    ¬ call.countsOn w ∧ (call.onRow w).status ≠ .active := by
  obtain ⟨nano, crashedAt, -, hactive, -⟩ | ⟨hn, -, -, hs⟩ := onRow_cases w call
  · exact absurd hactive h
  · refine ⟨hn, ?_⟩
    rcases hs with hs | hs
    · rwa [hs]
    · exact hs

theorem foldl_onRow_closed {w : RollbackWatch} (h : w.status ≠ .active) (calls : List WatchCall) :
    (calls.foldl onRow w).status ≠ .active := by
  induction calls generalizing w with
  | nil => exact h
  | cons call calls ih => exact ih (onRow_closed h call).2

/-- The step lemma of the counting invariant. -/
theorem onRow_below {w : RollbackWatch} (h : w.status = .active → w.crashCount < w.threshold)
    (call : WatchCall) :
    (call.onRow w).status = .active → (call.onRow w).crashCount < (call.onRow w).threshold := by
  intro hactive
  rw [onRow_threshold]
  obtain ⟨nano, crashedAt, -, -, -, he⟩ | ⟨-, hcount, -, hs⟩ := onRow_cases w call
  · rw [he, RollbackWatch.countCrash_status] at hactive
    rw [he, RollbackWatch.countCrash_crashCount]
    split at hactive
    · cases hactive
    · omega
  · rcases hs with hs | hs
    · rw [hcount]
      exact h (hs ▸ hactive)
    · exact absurd hactive hs

theorem foldl_onRow_below {w : RollbackWatch} (h : w.status = .active → w.crashCount < w.threshold)
    (calls : List WatchCall) : (calls.foldl onRow w).status = .active →
      (calls.foldl onRow w).crashCount < (calls.foldl onRow w).threshold := by
  induction calls generalizing w with
  | nil => exact h
  | cons call calls ih => exact ih (onRow_below h call)

theorem triggerCount_closed {s : Store} {name : String} {w : RollbackWatch}
    (hw : s.getRollbackWatch name = some w) (h : w.status ≠ .active) (calls : List WatchCall) :
    triggerCount name s calls = 0 := by
  induction calls generalizing s w with
  | nil => rfl
  | cons call calls ih =>
    obtain ⟨hn, hclosed⟩ := onRow_closed h call
    have hf : ¬ call.triggered name s = true := fun ht => hn ((triggered_iff hw call).mp ht).1
    rw [triggerCount, if_neg hf, ih (getRollbackWatch_apply hw call) hclosed]

/-- The call that claims the trigger closes the row, so no later call claims it again. -/
theorem triggerCount_le_one {s : Store} {name : String} {w : RollbackWatch}
    (hw : s.getRollbackWatch name = some w) (calls : List WatchCall) :
    triggerCount name s calls ≤ 1 := by
  induction calls generalizing s w with
  | nil => exact Nat.zero_le 1
  | cons call calls ih =>
    have hnext := getRollbackWatch_apply hw call
    rw [triggerCount]
    by_cases ht : call.triggered name s = true
    · have hclaim := (triggered_iff hw call).mp ht
      have hclosed : (call.onRow w).status ≠ .active := by
        obtain ⟨nano, crashedAt, -, -, -, he⟩ | ⟨hn, -⟩ := onRow_cases w call
        · rw [he, RollbackWatch.countCrash_status, if_pos hclaim.2]
          decide
        · exact absurd hclaim.1 hn
      rw [if_pos ht, triggerCount_closed hnext hclosed]
    · rw [if_neg ht, Nat.zero_add]
      exact ih hnext

/-- From any row on, each counted crash carries a later nano than all before it. -/
theorem countedNanos_increasing {s : Store} {name : String} {w : RollbackWatch}
    (hw : s.getRollbackWatch name = some w) (calls : List WatchCall) :
    (w.lastEventNano :: countedNanos name s calls).Pairwise (· < ·) := by
  induction calls generalizing s w with
  | nil => simp [countedNanos]
  | cons call calls ih =>
    have hnext := getRollbackWatch_apply hw call
    have hrest := ih hnext
    obtain ⟨nano, crashedAt, hc, -, hlt, he⟩ | ⟨hn, -, hnano, -⟩ := onRow_cases w call
    · have hcounted := (counted_iff hw call).mpr hc
      rw [he, RollbackWatch.countCrash_lastEventNano] at hrest
      simp only [countedNanos, if_pos hcounted, hnext, he, Option.map_some, Option.toList_some,
        RollbackWatch.countCrash_lastEventNano, List.cons_append, List.nil_append]
      refine List.pairwise_cons.mpr ⟨?_, hrest⟩
      intro later hmem
      rcases List.mem_cons.mp hmem with rfl | hmem
      · exact hlt
      · exact hlt.trans ((List.pairwise_cons.mp hrest).1 later hmem)
    · have hcounted : ¬ call.counted name s = true := fun h => hn ((counted_iff hw call).mp h)
      rw [hnano] at hrest
      simpa only [countedNanos, if_neg hcounted] using hrest

end WatchCall

open WatchCall

/-- Between an arming with a threshold of at least one and the next, whatever calls
arrive in whatever order: the trigger is claimed at most once, an active watch is below
its threshold, counted crashes carry strictly increasing nanos, a closed watch stays
closed, and a `RecordCrash` that is stale, late or replayed leaves the row alone. -/
theorem rollbackWatch_lifecycle (s : Store) (oldID : String) (rec : ContainerRecord)
    (appliedAt : Time) (window : Duration) (threshold restartCount : Nat)
    (hthreshold : 1 ≤ threshold) (calls : List WatchCall) :
    let start := s.replaceContainerAndArmRollback oldID rec appliedAt window threshold restartCount
    triggerCount rec.name start calls ≤ 1 ∧
    (0 :: countedNanos rec.name start calls).Pairwise (· < ·) ∧
    ∃ w, (applyAll start calls).getRollbackWatch rec.name = some w ∧
      (w.status = .active → w.crashCount < w.threshold) ∧
      (w.status ≠ .active → ∀ later : List WatchCall, ∃ w',
        (applyAll start (calls ++ later)).getRollbackWatch rec.name = some w' ∧
          w'.status ≠ .active) ∧
      (∀ fault id nano crashedAt,
        w.containerID ≠ id ∨ w.windowExpiresAt ≤ crashedAt ∨ nano ≤ w.lastEventNano →
          ((applyAll start calls).recordCrash fault rec.name id nano crashedAt).2.getRollbackWatch
            rec.name = some w) := by
  intro start
  have hstart : start.getRollbackWatch rec.name =
      some (Store.armedWatch rec.name rec.id appliedAt window threshold restartCount) :=
    Store.getRollbackWatch_armRollbackWatch _ _ _ _ _ _ _
  have hrow := getRollbackWatch_applyAll hstart calls
  refine ⟨triggerCount_le_one hstart calls, countedNanos_increasing hstart calls, _, hrow, ?_, ?_, ?_⟩
  · have hbelow : (Store.armedWatch rec.name rec.id appliedAt window threshold restartCount).crashCount
        < threshold := hthreshold
    exact foldl_onRow_below (fun _ => hbelow) calls
  · intro hclosed later
    refine ⟨_, ?_, foldl_onRow_closed hclosed later⟩
    rw [← List.foldl_append]
    exact getRollbackWatch_applyAll hstart (calls ++ later)
  · intro fault id nano crashedAt hstale
    have h := getRollbackWatch_apply hrow (.recordCrash fault rec.name id nano crashedAt)
    refine h.trans (congrArg some ?_)
    cases fault with
    | some fault => rfl
    | none =>
      refine if_neg ?_
      rintro ⟨-, -, hid, hwindow, hnano⟩
      rcases hstale with hstale | hstale | hstale
      · exact hstale hid
      · exact absurd hwindow (not_lt.mpr hstale)
      · exact absurd hnano (not_lt.mpr hstale)

/-- Three crashes and a replay on a threshold of two. -/
theorem rollbackWatch_lifecycle_demo :
    1 ≤ 2 ∧ triggerCount "demo"
      (({} : Store).replaceContainerAndArmRollback "old" { id := "new", name := "demo" } 0 600 2 0)
      [.recordCrash none "demo" "new" 1 10, .recordCrash none "demo" "new" 1 10,
        .recordCrash none "demo" "new" 2 20, .recordCrash none "demo" "new" 3 30] ≤ 1 :=
  ⟨by decide, (rollbackWatch_lifecycle {} "old" { id := "new", name := "demo" } 0 600 2 0
    (by decide) _).1⟩

end Doupro
