import Doupro.Updater.GuardProtocol
import Doupro.Updater.Services

/-!
# Operations at a closed gate

An operation that meets the gate of a self-update does nothing and says so, in an error its
callers recognise.
-/

namespace Doupro

open Go Interaction

/-- A begin that finds the gate closed. -/
def MeetsGate : Event Calls World → Prop
  | ⟨w, .beginOperation _ _, _⟩ => w.guard.maintenance = true
  | _ => False

instance (e : Event Calls World) : Decidable (MeetsGate e) :=
  decidable_of_iff ((match e with
    | ⟨w, .beginOperation _ _, _⟩ => w.guard.maintenance
    | _ => false : Bool) = true) (by unfold MeetsGate; split <;> simp)

/-- An update that met the closed gate. -/
def RefusedByGate (M : Machine Calls World) : Event Services World → Prop
  | ⟨w, .update req, reply⟩ => ∃ trace w', M.Runs (Updater.update req) w trace reply w' ∧
      ∃ e ∈ trace, MeetsGate e
  | _ => False

theorem not_meetsGate_of_offGuard {e : Event Calls World} (h : Updater.OffGuard e.op) :
    ¬ MeetsGate e := by
  unfold MeetsGate
  split
  · exact h.elim
  · exact id

namespace Updater

variable {M : Machine Calls World} {w w' : World} {trace : Trace Calls World}
  {result : Option GoError}

theorem begin_closed {g : OperationGuard} (h : g.maintenance = true) (name kind : String)
    (now : Time) : (g.begin name kind now).1 = some { kind := "self-update", startedAt := now } := by
  unfold OperationGuard.begin
  rw [if_pos h]

theorem beginOperation_refused (hM : M.step = openSystem.step) {name kind : String} {actor : Actor}
    {actorID : String} (h : M.Runs (beginOperation name kind actor actorID) w trace result w')
    (hgate : ∃ e ∈ trace, MeetsGate e) : result = some .maintenanceInProgress := by
  obtain ⟨w₀, current, w₁, rest, -, hstep, rfl, hrest⟩ := Machine.runs_request_bind.mp h
  rw [hM] at hstep
  obtain ⟨rfl, -⟩ := step_beginOperation hstep
  cases hbegin : (w₀.guard.begin name kind w₀.clock).1 with
  | none =>
    rw [hbegin] at hrest
    obtain ⟨rfl, -, -⟩ := hrest
    obtain ⟨e, he, hgate⟩ := hgate
    obtain rfl := List.mem_singleton.mp he
    exact absurd hgate (by simp [MeetsGate, (begin_granted hbegin).1])
  | some current =>
    rw [hbegin] at hrest
    obtain ⟨w₂, _, w₃, last, -, -, rfl, hlast⟩ := Machine.runs_request_bind.mp hrest
    have hnone : last = [] := by
      split at hlast <;> exact hlast.1
    subst hnone
    obtain ⟨e, he, hgate⟩ := hgate
    rcases List.mem_cons.mp he with rfl | he
    · rw [begin_closed hgate] at hbegin
      obtain rfl := Option.some.inj hbegin
      exact hlast.2.1
    · obtain rfl := List.mem_singleton.mp he
      exact hgate.elim

/-- An operation that met the closed gate reports the maintenance. -/
theorem withOperation_refused (hM : M.step = openSystem.step) {name kind : String} {actor : Actor}
    {actorID : String} {operation : Go (Option GoError)} (hop : operation.Uses OffGuard)
    (h : M.Runs (withOperation name kind actor actorID operation) w trace result w')
    (hgate : ∃ e ∈ trace, MeetsGate e) : result = some .maintenanceInProgress := by
  obtain ⟨opening, turned, w₁, rest, hbegin, hrest, rfl⟩ := Machine.runs_bind.mp h
  obtain ⟨e, he, hgate⟩ := hgate
  have hopening : e ∈ opening := by
    rcases List.mem_append.mp he with hfirst | hlater
    · exact hfirst
    · refine absurd hgate ?_
      cases turned with
      | some err =>
        obtain ⟨rfl, -⟩ := hrest
        cases hlater
      | none =>
        obtain ⟨body, _, _, last, hbody, hlast, rfl⟩ := Machine.runs_bind.mp hrest
        rcases List.mem_append.mp hlater with hin | hend
        · exact not_meetsGate_of_offGuard (Machine.runs_uses hop hbody e hin)
        · obtain ⟨_, _, _, _, -, -, rfl, rfl, -⟩ := Machine.runs_request_bind.mp hlast
          obtain rfl := List.mem_singleton.mp hend
          exact id
  obtain rfl := beginOperation_refused hM hbegin ⟨e, hopening, hgate⟩
  exact hrest.2.1

theorem update_refused (hM : M.step = openSystem.step) {req : UpdateRequest}
    (h : M.Runs (update req) w trace result w') (hgate : ∃ e ∈ trace, MeetsGate e) :
    result = some .maintenanceInProgress := by
  obtain ⟨w₀, _, w₁, rest, -, -, rfl, hrest⟩ := Machine.runs_request_bind.mp h
  refine withOperation_refused hM (updateGuarded_offGuard req) hrest ?_
  obtain ⟨e, he, hgate⟩ := hgate
  rcases List.mem_cons.mp he with rfl | hlater
  · exact hgate.elim
  · exact ⟨e, hlater, hgate⟩

end Updater

end Doupro
