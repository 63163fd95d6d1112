import Doupro.Store.Containers
import Mathlib.Data.List.Sort

/-!
# Statements on the `rollback_watches` table

Each exported method is one statement or one transaction on the single
connection, so it acts on the whole store at once.
-/

namespace Doupro

def defaultCrashLoopThreshold : Nat := 3
def defaultCrashLoopWindowMinutes : Nat := 10

namespace Store

/-- A stored positive integer, or the default when it is absent or unusable. -/
def positiveSetting (s : Store) (key : String) (fallback : Nat) : Nat :=
  match s.getSetting key with
  | none => fallback
  | some raw => match atoi raw with
    | some value => if 0 < value then value.toNat else fallback
    | none => fallback

/-- `GetCrashLoopSettings`: the threshold and the window in minutes. -/
def getCrashLoopSettings (s : Store) : Nat × Nat :=
  (s.positiveSetting "updates.crash_loop_threshold" defaultCrashLoopThreshold,
    s.positiveSetting "updates.crash_loop_window_minutes" defaultCrashLoopWindowMinutes)

theorem positiveSetting_pos (s : Store) (key : String) {fallback : Nat} (h : 0 < fallback) :
    0 < s.positiveSetting key fallback := by
  unfold positiveSetting
  split
  · exact h
  · split
    · split
      · omega
      · exact h
    · exact h

/-- The row both arming statements insert, or overwrite an existing row with. -/
def armedWatch (name id : String) (appliedAt : Time) (window : Duration)
    (threshold restartCount : Nat) : RollbackWatch where
  containerName := name
  containerID := id
  updateAppliedAt := appliedAt
  windowExpiresAt := appliedAt + window
  crashCount := 0
  threshold := threshold
  observedRestartCount := restartCount
  lastEventNano := 0
  lastCrashAt := none
  triggeredAt := none
  status := .active

/-- `ArmRollbackWatch`. -/
def armRollbackWatch (s : Store) (name id : String) (appliedAt : Time) (window : Duration)
    (threshold restartCount : Nat) : Store :=
  let armed := armedWatch name id appliedAt window threshold restartCount
  let overwrite := fun old : RollbackWatch => { armed with containerName := old.containerName }
  { s with watches := Table.upsert RollbackWatch.containerName armed overwrite s.watches }

/-- `ReplaceContainerAndArmRollback`, one transaction. -/
def replaceContainerAndArmRollback (s : Store) (oldID : String) (rec : ContainerRecord)
    (appliedAt : Time) (window : Duration) (threshold restartCount : Nat) : Store :=
  (s.replaceContainer oldID rec).armRollbackWatch rec.name rec.id appliedAt window threshold
    restartCount

/-- `UPDATE rollback_watches SET ... WHERE container_name = name`. -/
def updateWatch (s : Store) (name : String) (f : RollbackWatch → RollbackWatch) : Store :=
  { s with watches := Table.updateWhere (fun w => decide (w.containerName = name)) f s.watches }

/-- `CompleteRollbackWatch`. -/
def completeRollbackWatch (s : Store) (name : String) (status : WatchStatus) : Store :=
  s.updateWatch name fun w => { w with status := status }

/-- `ReplaceContainerAndCompleteRollback`, one transaction. -/
def replaceContainerAndCompleteRollback (s : Store) (oldID : String) (rec : ContainerRecord)
    (status : WatchStatus) : Store :=
  (s.replaceContainer oldID rec).completeRollbackWatch rec.name status

/-- `SetRollbackWatchRestartCount`. -/
def setRollbackWatchRestartCount (s : Store) (name : String) (count : Nat) : Store :=
  s.updateWatch name fun w => { w with observedRestartCount := count }

/-- The WHERE clause of `ExpireRollbackWatches`; the two instants are compared as texts. -/
def windowOver (now : Time) (w : RollbackWatch) : Bool :=
  decide (w.status = .active) && Time.columnLE w.windowExpiresAt now

/-- `ExpireRollbackWatches`. -/
def expireRollbackWatches (s : Store) (now : Time) : Store :=
  let expire := fun w : RollbackWatch => { w with status := .expired }
  { s with watches := Table.updateWhere (windowOver now) expire s.watches }

/-- The rows `ExpireRollbackWatches` reports as affected. -/
def expiredCount (s : Store) (now : Time) : Nat := (s.watches.filter (windowOver now)).length

/-- `listRollbackWatches`: the rows in one status, `ORDER BY update_applied_at`. -/
def listRollbackWatches (s : Store) (status : WatchStatus) : List RollbackWatch :=
  (s.watches.filter fun w => decide (w.status = status)).insertionSort
    fun a b => Time.columnLE a.updateAppliedAt b.updateAppliedAt = true

/-- Where a `RecordCrash` transaction can fail; a failed one changes nothing. -/
inductive TxFault where
  | begin
  | read
  | write
  | commit
  deriving DecidableEq

/-- The four results of `RecordCrash`. -/
structure CrashReply where
  watch : Option RollbackWatch
  counted : Bool
  triggered : Bool
  err : Option GoError
  deriving DecidableEq

end Store

namespace RollbackWatch

/-- The conditions under which `RecordCrash` counts a crash. -/
def Counts (w : RollbackWatch) (containerID : String) (eventNano : Int) (crashedAt : Time) : Prop :=
  w.status = .active ∧ w.containerID = containerID ∧ crashedAt < w.windowExpiresAt ∧
    w.lastEventNano < eventNano

instance (w : RollbackWatch) (containerID : String) (eventNano : Int) (crashedAt : Time) :
    Decidable (w.Counts containerID eventNano crashedAt) := by
  unfold Counts; infer_instance

/-- The row after a counted crash; reaching the threshold claims the trigger. -/
def countCrash (w : RollbackWatch) (eventNano : Int) (crashedAt : Time) : RollbackWatch :=
  let counted := { w with
    crashCount := w.crashCount + 1
    observedRestartCount := w.observedRestartCount + 1
    lastEventNano := eventNano
    lastCrashAt := some crashedAt }
  if w.threshold ≤ w.crashCount + 1 then
    { counted with status := .triggered, triggeredAt := some crashedAt }
  else { counted with status := .active, triggeredAt := none }

/-- The SET list of `RecordCrash`, with the values of a counted row. -/
def writeCounters (counted w : RollbackWatch) : RollbackWatch :=
  { w with
    crashCount := counted.crashCount
    observedRestartCount := counted.observedRestartCount
    lastEventNano := counted.lastEventNano
    lastCrashAt := counted.lastCrashAt
    triggeredAt := counted.triggeredAt
    status := counted.status }

theorem writeCounters_containerName (counted w : RollbackWatch) :
    (counted.writeCounters w).containerName = w.containerName := rfl

theorem writeCounters_countCrash (w : RollbackWatch) (eventNano : Int) (crashedAt : Time) :
    writeCounters (w.countCrash eventNano crashedAt) w = w.countCrash eventNano crashedAt := by
  unfold countCrash writeCounters
  split <;> rfl

@[simp] theorem countCrash_containerName (w : RollbackWatch) (eventNano : Int) (crashedAt : Time) :
    (w.countCrash eventNano crashedAt).containerName = w.containerName := by
  unfold countCrash; split <;> rfl

@[simp] theorem countCrash_containerID (w : RollbackWatch) (eventNano : Int) (crashedAt : Time) :
    (w.countCrash eventNano crashedAt).containerID = w.containerID := by
  unfold countCrash; split <;> rfl

@[simp] theorem countCrash_updateAppliedAt (w : RollbackWatch) (eventNano : Int)
    (crashedAt : Time) : (w.countCrash eventNano crashedAt).updateAppliedAt = w.updateAppliedAt := by
  unfold countCrash; split <;> rfl

@[simp] theorem countCrash_windowExpiresAt (w : RollbackWatch) (eventNano : Int)
    (crashedAt : Time) : (w.countCrash eventNano crashedAt).windowExpiresAt = w.windowExpiresAt := by
  unfold countCrash; split <;> rfl

@[simp] theorem countCrash_threshold (w : RollbackWatch) (eventNano : Int) (crashedAt : Time) :
    (w.countCrash eventNano crashedAt).threshold = w.threshold := by
  unfold countCrash; split <;> rfl

@[simp] theorem countCrash_crashCount (w : RollbackWatch) (eventNano : Int) (crashedAt : Time) :
    (w.countCrash eventNano crashedAt).crashCount = w.crashCount + 1 := by
  unfold countCrash; split <;> rfl

@[simp] theorem countCrash_observedRestartCount (w : RollbackWatch) (eventNano : Int)
    (crashedAt : Time) :
    (w.countCrash eventNano crashedAt).observedRestartCount = w.observedRestartCount + 1 := by
  unfold countCrash; split <;> rfl

@[simp] theorem countCrash_lastEventNano (w : RollbackWatch) (eventNano : Int) (crashedAt : Time) :
    (w.countCrash eventNano crashedAt).lastEventNano = eventNano := by
  unfold countCrash; split <;> rfl

theorem countCrash_status (w : RollbackWatch) (eventNano : Int) (crashedAt : Time) :
    (w.countCrash eventNano crashedAt).status =
      if w.threshold ≤ w.crashCount + 1 then .triggered else .active := by
  unfold countCrash; split <;> rfl

end RollbackWatch

namespace Store

/-- `RecordCrash`, one transaction. The row is read, checked, counted and written
under the store's only connection. -/
def recordCrash (s : Store) (fault : Option TxFault) (name containerID : String)
    (eventNano : Int) (crashedAt : Time) : CrashReply × Store :=
  match fault, s.getRollbackWatch name with
  | some .begin, _ => (⟨none, false, false, some (.external "begin")⟩, s)
  | some .read, _ => (⟨none, false, false, some (.external "scan rollback watch")⟩, s)
  | _, none => (⟨none, false, false, some .notFound⟩, s)
  | fault, some w =>
    if w.Counts containerID eventNano crashedAt then
      let counted := w.countCrash eventNano crashedAt
      let triggered := decide (w.threshold ≤ w.crashCount + 1)
      match fault with
      | some .write => (⟨some counted, false, false, some (.external "update")⟩, s)
      | some .commit => (⟨some counted, true, triggered, some (.external "commit")⟩, s)
      | _ => (⟨some counted, true, triggered, none⟩, s.updateWatch name counted.writeCounters)
    else (⟨some w, false, false, if fault = some .commit then some (.external "commit") else none⟩, s)

/-! ### What a lookup of a watch sees after each statement -/

theorem getRollbackWatch_containerName {s : Store} {name : String} {w : RollbackWatch}
    (h : s.getRollbackWatch name = some w) : w.containerName = name :=
  Table.lookup_key h

theorem getRollbackWatch_updateWatch (s : Store) (name : String) (f : RollbackWatch → RollbackWatch)
    (hf : ∀ w, (f w).containerName = w.containerName) :
    (s.updateWatch name f).getRollbackWatch name = (s.getRollbackWatch name).map f := by
  unfold getRollbackWatch updateWatch
  rw [Table.lookup_updateWhere _ _ f hf]
  cases hw : Table.lookup RollbackWatch.containerName name s.watches with
  | none => rfl
  | some w => simp [Table.lookup_key hw]

theorem getRollbackWatch_completeRollbackWatch (s : Store) (name : String) (status : WatchStatus) :
    (s.completeRollbackWatch name status).getRollbackWatch name =
      (s.getRollbackWatch name).map fun w => { w with status := status } :=
  getRollbackWatch_updateWatch s name (fun w => { w with status := status }) fun _ => rfl

theorem getRollbackWatch_updateWatch_ne (s : Store) (f : RollbackWatch → RollbackWatch)
    (hf : ∀ w, (f w).containerName = w.containerName) {name other : String} (hne : name ≠ other) :
    (s.updateWatch name f).getRollbackWatch other = s.getRollbackWatch other := by
  unfold getRollbackWatch updateWatch
  rw [Table.lookup_updateWhere _ _ f hf]
  cases hw : Table.lookup RollbackWatch.containerName other s.watches with
  | none => rfl
  | some w => simp [Table.lookup_key hw, Ne.symm hne]

theorem getRollbackWatch_expire (s : Store) (now : Time) (name : String) :
    (s.expireRollbackWatches now).getRollbackWatch name =
      (s.getRollbackWatch name).map fun w =>
        if windowOver now w then { w with status := .expired } else w :=
  Table.lookup_updateWhere _ (windowOver now) (fun w => { w with status := .expired })
    (fun _ => rfl) name s.watches

theorem getRollbackWatch_armRollbackWatch (s : Store) (name id : String) (appliedAt : Time)
    (window : Duration) (threshold restartCount : Nat) :
    (s.armRollbackWatch name id appliedAt window threshold restartCount).getRollbackWatch name =
      some (armedWatch name id appliedAt window threshold restartCount) := by
  let armed := armedWatch name id appliedAt window threshold restartCount
  let overwrite := fun old : RollbackWatch => { armed with containerName := old.containerName }
  have h : Table.lookup RollbackWatch.containerName name
      (Table.upsert RollbackWatch.containerName armed overwrite s.watches) =
      some (((s.getRollbackWatch name).map overwrite).getD armed) :=
    Table.lookup_upsert_self _ armed overwrite (fun _ => rfl) s.watches
  change Table.lookup RollbackWatch.containerName name _ = _
  refine h.trans ?_
  cases hw : s.getRollbackWatch name with
  | none => rfl
  | some w =>
    have hn := getRollbackWatch_containerName hw
    subst hn
    rfl

theorem getRollbackWatch_armRollbackWatch_ne (s : Store) {name other : String} (hne : name ≠ other)
    (id : String) (appliedAt : Time) (window : Duration) (threshold restartCount : Nat) :
    (s.armRollbackWatch name id appliedAt window threshold restartCount).getRollbackWatch other =
      s.getRollbackWatch other :=
  let armed := armedWatch name id appliedAt window threshold restartCount
  Table.lookup_upsert_ne RollbackWatch.containerName armed
    (fun old => { armed with containerName := old.containerName }) (fun _ => rfl) hne s.watches

/-- The one row a `RecordCrash` can change, when its transaction goes through. -/
theorem recordCrash_spec {s : Store} {name : String} {w : RollbackWatch}
    (hw : s.getRollbackWatch name = some w) (containerID : String) (eventNano : Int)
    (crashedAt : Time) :
    (w.Counts containerID eventNano crashedAt ∧
      s.recordCrash none name containerID eventNano crashedAt =
        (⟨some (w.countCrash eventNano crashedAt), true,
          decide (w.threshold ≤ w.crashCount + 1), none⟩,
        s.updateWatch name (w.countCrash eventNano crashedAt).writeCounters)) ∨
    (¬ w.Counts containerID eventNano crashedAt ∧
      s.recordCrash none name containerID eventNano crashedAt =
        (⟨some w, false, false, none⟩, s)) := by
  by_cases h : w.Counts containerID eventNano crashedAt
  · exact .inl ⟨h, by simp [recordCrash, hw, h]⟩
  · exact .inr ⟨h, by simp [recordCrash, hw, h]⟩

theorem getRollbackWatch_recordCrash {s : Store} {name : String} {w : RollbackWatch}
    (hw : s.getRollbackWatch name = some w) (containerID : String) (eventNano : Int)
    (crashedAt : Time) :
    (s.recordCrash none name containerID eventNano crashedAt).2.getRollbackWatch name =
      some (if w.Counts containerID eventNano crashedAt then w.countCrash eventNano crashedAt
        else w) := by
  obtain ⟨h, he⟩ | ⟨h, he⟩ := recordCrash_spec hw containerID eventNano crashedAt
  · rw [he, if_pos h]
    change (s.updateWatch name _).getRollbackWatch name = _
    rw [getRollbackWatch_updateWatch s name _ (RollbackWatch.writeCounters_containerName _), hw]
    simp [RollbackWatch.writeCounters_countCrash]
  · rw [he, if_neg h, hw]

/-- A transaction that fails leaves the store as it was. -/
theorem recordCrash_fault (s : Store) (fault : TxFault) (name containerID : String)
    (eventNano : Int) (crashedAt : Time) :
    (s.recordCrash (some fault) name containerID eventNano crashedAt).2 = s := by
  unfold recordCrash
  cases fault <;> cases s.getRollbackWatch name <;> simp <;> split <;> rfl

/-- Any `RecordCrash`, failed or not, touches at most the row under its name. -/
theorem getRollbackWatch_recordCrash_ne (s : Store) (fault : Option TxFault) {name other : String}
    (hne : name ≠ other) (containerID : String) (eventNano : Int) (crashedAt : Time) :
    (s.recordCrash fault name containerID eventNano crashedAt).2.getRollbackWatch other =
      s.getRollbackWatch other := by
  cases fault with
  | some fault => rw [recordCrash_fault]
  | none =>
    cases hw : s.getRollbackWatch name with
    | none => simp [recordCrash, hw]
    | some w =>
      obtain ⟨-, he⟩ | ⟨-, he⟩ := recordCrash_spec hw containerID eventNano crashedAt
      · rw [he]
        exact getRollbackWatch_updateWatch_ne s _ (RollbackWatch.writeCounters_containerName _) hne
      · rw [he]

end Store
end Doupro
