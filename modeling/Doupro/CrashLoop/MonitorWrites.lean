import Doupro.CrashLoop.Monitor
import Doupro.System.Scripts
import Doupro.System.Steps
import Doupro.Updater.Update

/-!
# The monitor's writes to a watch it read earlier

A pass of the monitor acts on a snapshot of a watch. Between the read and a write an
update may arm the watch again for another container. The store checks the container ID
in one of the three writes only; the main result says which writes then spare the row.
-/

namespace Doupro

open Interaction

/-- A goroutine of the monitor that acts for one watch it read, or for one event. -/
inductive MonitorParty where
  | reconcile (ctx : Context) (now : Time) (watch : RollbackWatch)
  | crash (ctx : Context) (name containerID : String) (eventNano : Int) (crashedAt : Time)
    (source : String)
  | rollback (watch : RollbackWatch)

namespace MonitorParty

def program : MonitorParty → Go Unit
  | .reconcile ctx now watch => Monitor.reconcileWatch ctx now watch
  | .crash ctx name id eventNano crashedAt source =>
    Monitor.recordCrash ctx name id eventNano crashedAt source
  | .rollback watch => Monitor.rollback watch

def containerName : MonitorParty → String
  | .reconcile _ _ watch | .rollback watch => watch.containerName
  | .crash _ name _ _ _ _ => name

/-- The container the party's watch was read with. -/
def containerID : MonitorParty → String
  | .reconcile _ _ watch | .rollback watch => watch.containerID
  | .crash _ _ id _ _ _ => id

end MonitorParty

/-- The monitor's three writes to a watch. -/
def Call.WritesWatch : Call → Prop
  | .store _ (.recordCrash _ _ _ _) | .store _ (.setRollbackWatchRestartCount _ _)
  | .store _ (.completeRollbackWatch _ _) => True
  | _ => False

instance (call : Call) : Decidable call.WritesWatch := by
  unfold Call.WritesWatch; split <;> infer_instance

/-- The writes a party makes: for its name, and a crash for its container only. -/
def Call.WritesFor (name id : String) : Call → Prop
  | .store _ (.recordCrash n c _ _) => n = name ∧ c = id
  | .store _ (.setRollbackWatchRestartCount n _) => n = name
  | .store _ (.completeRollbackWatch n status) => n = name ∧ status = .rollbackFailed
  | _ => True

/-- A write that changes nothing in a row armed for another container. -/
def SparesRow (row : RollbackWatch) (e : Event Calls World) : Prop :=
  match e with
  | ⟨_, .store _ (.setRollbackWatchRestartCount _ count), reply⟩ =>
    (∃ err, reply = .error err) ∨ count = row.observedRestartCount
  | ⟨_, .store _ (.completeRollbackWatch _ _), reply⟩ =>
    (∃ err, reply = .error err) ∨ row.status = .rollbackFailed
  | _ => True

namespace MonitorParty

/-! ### What a party writes -/

theorem rollback_writesFor (name id : String) (req : Updater.RollbackRequest) :
    (Updater.rollback req).Uses (Call.WritesFor name id) := by
  refine Program.uses_mono (fun call h => ?_) (Updater.rollback_calls req)
  unfold Updater.OfRollback at h
  split at h <;> trivial

theorem recordCrash_writesFor (ctx : Context) (name id : String) (eventNano : Int)
    (crashedAt : Time) (source : String) :
    (Monitor.recordCrash ctx name id eventNano crashedAt source).Uses (Call.WritesFor name id) := by
  refine Program.uses_bind ((Program.uses_request _).mpr ⟨rfl, rfl⟩) fun reply => ?_
  cases reply with
  | error err =>
    simp only []
    split
    · trivial
    · exact ⟨trivial, fun _ => trivial⟩
  | ok reply =>
    simp only []
    split
    · trivial
    split
    · trivial
    refine Program.uses_bind ((Program.uses_request _).mpr trivial) fun _ => ?_
    split
    · exact ⟨trivial, fun _ => ⟨trivial, fun _ => trivial⟩⟩
    · trivial

theorem reconcileWatch_writesFor (ctx : Context) (now : Time) (watch : RollbackWatch) :
    (Monitor.reconcileWatch ctx now watch).Uses
      (Call.WritesFor watch.containerName watch.containerID) := by
  refine Program.uses_bind ((Program.uses_request _).mpr trivial) fun reply => ?_
  cases reply with
  | error err => trivial
  | ok info =>
    refine Program.uses_bind ?_ fun _ => ⟨rfl, fun _ => trivial⟩
    generalize info.restartCount - watch.observedRestartCount = delta
    generalize 0 = first
    induction delta generalizing first with
    | zero => trivial
    | succ delta ih =>
      exact Program.uses_bind (recordCrash_writesFor _ _ _ _ _ _) fun _ => ih _

theorem monitorRollback_writesFor (watch : RollbackWatch) :
    (Monitor.rollback watch).Uses (Call.WritesFor watch.containerName watch.containerID) := by
  have hconclude : ∀ err, (Monitor.concludeRollback watch err).Uses
      (Call.WritesFor watch.containerName watch.containerID) := by
    intro err
    unfold Monitor.concludeRollback
    split
    · trivial
    · trivial
    · split
      · trivial
      · exact ⟨⟨rfl, rfl⟩, fun _ => ⟨trivial, fun _ => trivial⟩⟩
  have hlookup : (Monitor.getContainerByName .background watch.containerName).Uses
      (Call.WritesFor watch.containerName watch.containerID) := by
    refine Program.uses_bind ((Program.uses_request _).mpr trivial) fun reply => ?_
    cases reply with
    | error err => trivial
    | ok id => exact ⟨trivial, fun _ => trivial⟩
  refine Program.uses_bind hlookup fun found => ?_
  cases found with
  | error err => exact hconclude _
  | ok rec => exact Program.uses_bind (rollback_writesFor _ _ _) hconclude

theorem program_writesFor (party : MonitorParty) :
    party.program.Uses (Call.WritesFor party.containerName party.containerID) := by
  cases party with
  | reconcile ctx now watch => exact reconcileWatch_writesFor ctx now watch
  | crash ctx name id nano crashedAt source =>
    exact recordCrash_writesFor ctx name id nano crashedAt source
  | rollback watch => exact monitorRollback_writesFor watch

end MonitorParty

/-! ### What a write does to a row armed for another container -/

section Stale

variable {w w₁ : World} {ctx : Context} {name : String} {row : RollbackWatch}

theorem recordCrash_spares {id : String} {eventNano : Int} {crashedAt : Time}
    {reply : Except GoError Store.CrashReply} (hrow : w.store.getRollbackWatch name = some row)
    (hstale : row.containerID ≠ id)
    (hstep : openSystem.step w (.store ctx (.recordCrash name id eventNano crashedAt)) reply w₁) :
    w₁.store.getRollbackWatch name = some row := by
  rcases step_store hstep with ⟨err, -, rfl⟩ | ⟨result, store, -, hperform, -, rfl⟩
  · exact hrow
  · have hkeep := Store.getRollbackWatch_recordCrash hrow id eventNano crashedAt
    rw [if_neg fun hcounts => hstale hcounts.2.1] at hkeep
    rw [Store.perform_recordCrash hperform]
    exact hkeep

theorem setRestartCount_spares {count : Nat} {reply : Except GoError Unit}
    (hrow : w.store.getRollbackWatch name = some row)
    (hstep : openSystem.step w (.store ctx (.setRollbackWatchRestartCount name count)) reply w₁) :
    w₁.store.getRollbackWatch name = some row ↔
      (∃ err, reply = .error err) ∨ count = row.observedRestartCount := by
  rcases step_store hstep with ⟨err, rfl, rfl⟩ | ⟨result, store, -, hperform, rfl, rfl⟩
  · exact ⟨fun _ => .inl ⟨err, rfl⟩, fun _ => hrow⟩
  · obtain ⟨-, rfl⟩ := Prod.mk.inj (Except.ok.inj hperform)
    have hset : (w.store.setRollbackWatchRestartCount name count).getRollbackWatch name =
        some { row with observedRestartCount := count } := by
      have h := Store.getRollbackWatch_updateWatch w.store name
        (fun v => { v with observedRestartCount := count }) (fun _ => rfl)
      rw [hrow] at h
      exact h
    rw [show ({ w with store := w.store.setRollbackWatchRestartCount name count } : World).store =
      w.store.setRollbackWatchRestartCount name count from rfl, hset]
    constructor
    · intro h
      exact .inr (congrArg RollbackWatch.observedRestartCount (Option.some.inj h))
    · rintro (⟨err, h⟩ | rfl)
      · cases h
      · rfl

theorem complete_spares {status : WatchStatus} {reply : Except GoError Unit}
    (hrow : w.store.getRollbackWatch name = some row)
    (hstep : openSystem.step w (.store ctx (.completeRollbackWatch name status)) reply w₁) :
    w₁.store.getRollbackWatch name = some row ↔
      (∃ err, reply = .error err) ∨ row.status = status := by
  rcases step_store hstep with ⟨err, rfl, rfl⟩ | ⟨result, store, -, hperform, rfl, rfl⟩
  · exact ⟨fun _ => .inl ⟨err, rfl⟩, fun _ => hrow⟩
  · obtain ⟨-, rfl⟩ := Prod.mk.inj (Except.ok.inj hperform)
    have hset : (w.store.completeRollbackWatch name status).getRollbackWatch name =
        some { row with status := status } := by
      have h := Store.getRollbackWatch_updateWatch w.store name
        (fun v => { v with status := status }) (fun _ => rfl)
      rw [hrow] at h
      exact h
    rw [show ({ w with store := w.store.completeRollbackWatch name status } : World).store =
      w.store.completeRollbackWatch name status from rfl, hset]
    constructor
    · intro h
      exact .inr (congrArg RollbackWatch.status (Option.some.inj h)).symm
    · rintro (⟨err, h⟩ | rfl)
      · cases h
      · rfl

theorem write_spares {id : String} {e : Event Calls World} (hfor : e.op.WritesFor name id)
    (hwrite : e.op.WritesWatch) (hrow : e.world.store.getRollbackWatch name = some row)
    (hstale : row.containerID ≠ id) (hstep : openSystem.step e.world e.op e.reply w₁) :
    w₁.store.getRollbackWatch name = some row ↔ SparesRow row e := by
  obtain ⟨world, call, reply⟩ := e
  change call.WritesWatch at hwrite
  unfold Call.WritesWatch at hwrite
  split at hwrite
  · obtain ⟨rfl, rfl⟩ := hfor
    exact ⟨fun _ => trivial, fun _ => recordCrash_spares hrow hstale hstep⟩
  · obtain rfl := hfor
    exact setRestartCount_spares hrow hstep
  · obtain ⟨rfl, rfl⟩ := hfor
    exact complete_spares hrow hstep
  · exact hwrite.elim

end Stale

/-- In any interleaving: a write that a goroutine of the monitor makes for a watch it read
with one container ID leaves the row, armed meanwhile for another one, exactly as it was
if and only if the write is a `RecordCrash`, fails, or writes what the row already says. -/
theorem monitorWrite_spares_rearmed {ι : Type} [DecidableEq ι] {pool pool' : ι → Go Unit}
    {w w' : World} {history : List (ι × Event Calls World)}
    (hrun : openSystem.PoolRuns pool w history pool' w') {i : ι} {party : MonitorParty}
    (hi : pool i = party.program) {e : Event Calls World} (he : e ∈ memberTrace i history)
    (hwrite : e.op.WritesWatch) {row : RollbackWatch}
    (hrow : e.world.store.getRollbackWatch party.containerName = some row)
    (hstale : row.containerID ≠ party.containerID) {w₁ : World}
    (hstep : openSystem.step e.world e.op e.reply w₁) :
    w₁.store.getRollbackWatch party.containerName = some row ↔ SparesRow row e := by
  have hadmits := hrun.admits i
  rw [hi] at hadmits
  exact write_spares (Machine.admits_uses party.program_writesFor hadmits e he) hwrite hrow hstale
    hstep

/-! ### A rollback refused while an update runs -/

/-- The automatic rollback of a watch, and an update a user asked for. -/
def rollbackAndUpdate : Bool → Go Unit
  | true => Monitor.rollback triggeredWatch
  | false => do
    let _ ← Updater.update ⟨.request 0, "c0", "web:2", ⟨.user, "admin"⟩⟩

/-- The update takes the operation, the rollback is refused, the update commits, and the
rollback closes the watch it was started for. -/
def refusedRollback : List (Bool × Turn) :=
  List.replicate 2 (false, .undisturbed) ++ List.replicate 5 (true, .undisturbed) ++
    List.replicate 6 (false, .undisturbed) ++ (false, .creating "c1") ::
    List.replicate 17 (false, .undisturbed) ++ [(true, .undisturbed)]

/-- The monitor's last write closes the fresh watch of the updated container. -/
theorem monitorWrite_closes_rearmed :
    ∃ (pool' : Bool → Go Unit) (w' : World) (history : List (Bool × Event Calls World))
      (e : Event Calls World) (row : RollbackWatch),
      openSystem.PoolRuns rollbackAndUpdate triggeredWorld history pool' w' ∧
      rollbackAndUpdate true = (MonitorParty.rollback triggeredWatch).program ∧
      history.getLast? = some (true, e) ∧ e.op.WritesWatch ∧
      e.world.store.getRollbackWatch "web" = some row ∧
      row.containerID ≠ triggeredWatch.containerID ∧ row.status = .active ∧
      w'.store.getRollbackWatch "web" = some { row with status := .rollbackFailed } := by
  obtain ⟨pool', hrun⟩ := playPool_runs refusedRollback rollbackAndUpdate triggeredWorld
  let played := playPool refusedRollback rollbackAndUpdate triggeredWorld
  have hlast : (played.1.getLast?.any fun (i, e) => i && decide e.op.WritesWatch &&
      (e.world.store.getRollbackWatch "web").any fun row =>
        decide (row.containerID ≠ triggeredWatch.containerID) && decide (row.status = .active) &&
        decide (played.2.store.getRollbackWatch "web" =
          some { row with status := .rollbackFailed })) = true := by decide +kernel
  obtain ⟨⟨i, e⟩, hmem, he⟩ := (Option.any_eq_true _ _).mp hlast
  simp only [Bool.and_eq_true, decide_eq_true_eq, Option.any_eq_true] at he
  obtain ⟨⟨rfl, hwrite⟩, row, hrow, ⟨hstale, hactive⟩, hclosed⟩ := he
  exact ⟨pool', _, _, e, row, hrun, rfl, hmem, hwrite, hrow, hstale, hactive, hclosed⟩

/-- A crash of the old container spares the row of the new one. -/
theorem monitorWrite_spares_crash :
    let row := Store.armedWatch "web" "c1" 0 (10 * minute) 3 0
    let w : World := { webWorld with store := { watches := [row] } }
    let party := MonitorParty.crash .background "web" "c0" 1 1 "docker_event"
    let call := Call.store .background (.recordCrash "web" "c0" 1 1)
    ∃ (pool' : Unit → Go Unit) (w' : World) (e : Event Calls World),
      openSystem.PoolRuns (fun _ => party.program) w [((), e)] pool' w' ∧ e.op = call ∧
      (w'.store.getRollbackWatch "web" = some row ↔ SparesRow row e) := by
  intro row w party call
  have hstep : openSystem.step w call (w.exec {} call).1 (w.exec {} call).2 := ⟨{}, rfl⟩
  have hrun : openSystem.PoolRuns (fun _ : Unit => party.program) w
      [((), ⟨w, call, (w.exec {} call).1⟩)] _ (w.exec {} call).2 :=
    .call () rfl Relation.ReflTransGen.refl hstep (.refl _ _)
  have hi : (fun _ : Unit => party.program) () = party.program := rfl
  let e : Event Calls World := ⟨w, call, (w.exec {} call).1⟩
  have he : e ∈ memberTrace () [((), e)] := by simp [memberTrace]
  have hwrite : e.op.WritesWatch := trivial
  have hstale : row.containerID ≠ party.containerID := show "c1" ≠ "c0" by decide
  exact ⟨_, _, e, hrun, rfl, monitorWrite_spares_rearmed hrun hi he hwrite rfl hstale hstep⟩

end Doupro
