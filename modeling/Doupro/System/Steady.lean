import Doupro.System.Frames

/-!
# Containers that do not stop on their own

An environment in which the containers made during a run change their status by calls
only, and what such a container's status is along a path.
-/

namespace Doupro

open Interaction

/-- A container whose ID was not issued before changes its status by calls only. -/
def EnvEvent.SparesNew (issued : List String) (w : World) : EnvEvent → Prop
  | .settle id state => id ∈ issued ∨ state.status = (w.engine.states id).status
  | .exit id _ _ | .restart id => id ∈ issued
  | .tick _ | .contextEnds _ | .publish _ _ => True

/-- The calls on a host that keeps the containers made since running. -/
abbrev steadySystem (issued : List String) : Machine Calls World :=
  system (EnvEvent.SparesNew issued)

/-- The container is there, in a status. -/
structure World.Holds (spec : ContainerSpec) (status : ContainerStatus) (w : World) : Prop where
  mem : spec ∈ w.engine.specs
  status : (w.engine.states spec.id).status = status

/-- A call that starts, stops, adds and removes no container and pulls nothing. -/
def Call.KeepsStates : Call → Prop
  | .docker _ (.inspect _) => True
  | .docker _ _ => False
  | _ => True

theorem Call.keepsStates_of_observes {call : Call} (h : call.Observes) : call.KeepsStates := by
  unfold Call.Observes at h
  split at h <;> trivial

theorem Call.keepsStates_of_offDocker {call : Call} (h : call.OffDocker) : call.KeepsStates := by
  unfold Call.KeepsStates
  split <;> trivial

theorem step_keepsStates {w w' : World} {call : Call} {reply : call.Reply}
    (hcall : call.KeepsStates) (h : openSystem.step w call reply w') : w'.engine = w.engine := by
  cases call with
  | docker ctx call =>
    cases call with
    | inspect id => rw [(step_inspect h).1]
    | _ => exact hcall.elim
  | store ctx call => rcases step_store h with ⟨err, -, rfl⟩ | ⟨result, store, -, -, -, rfl⟩ <;> rfl
  | lookup => rw [step_lookup h]
  | beginOperation name kind => rw [(step_beginOperation h).2]
  | endOperation name kind => rw [step_endOperation h]
  | beginMaintenance => rcases step_beginMaintenance h with ⟨-, rfl⟩ | ⟨-, -, -, rfl⟩ <;> rfl
  | endMaintenance => rw [step_endMaintenance h]
  | maintenanceActive => rw [(step_maintenanceActive h).2]
  | now => rw [(step_now h).2]
  | sleepUntil ctx deadline => rcases step_sleepUntil h with ⟨-, -, rfl⟩ | ⟨-, rfl⟩ <;> rfl
  | emit event => rw [step_emit h]
  | notify notification => rw [step_notify h]
  | goRollback watch => rw [step_goRollback h]
  | goShutdown => rw [step_goShutdown h]
  | receive ctx => rw [(step_receive h).1]

/-- A rename gives a container another name. -/
def Call.Renames : Call → Prop
  | .docker _ (.rename _ _) => True
  | _ => False

def Call.Creates : Call → Prop
  | .docker _ (.create _ _ _ _) => True
  | _ => False

/-- Every other call leaves the containers as they are, or removes some. -/
theorem step_sheds {w w' : World} {call : Call} {reply : call.Reply} (hrename : ¬ call.Renames)
    (hcreate : ¬ call.Creates) (h : openSystem.step w call reply w') :
    w'.engine.specs ⊆ w.engine.specs ∧ w'.engine.issued = w.engine.issued := by
  have hsame : ∀ {e : Engine}, e = w.engine → e.specs ⊆ w.engine.specs ∧ e.issued = w.engine.issued :=
    fun heq => heq ▸ ⟨List.Subset.refl _, rfl⟩
  cases call with
  | docker ctx call =>
    cases call with
    | inspect id => exact hsame (by rw [(step_inspect h).1])
    | pull imageRef =>
      rcases step_pull h with ⟨err, -, rfl⟩ | ⟨image, -, -, -, rfl⟩
      · exact hsame rfl
      · exact ⟨List.Subset.refl _, rfl⟩
    | stop id timeout => exact ⟨(step_stop h).1.specs.1.subset, (step_stop h).1.issued⟩
    | remove id force =>
      rcases step_remove h with ⟨err, -, rfl⟩ | ⟨-, -, -, hspecs, -, hissued, -⟩
      · exact hsame rfl
      · refine ⟨fun spec hspec => ?_, hissued⟩
        rw [hspecs] at hspec
        exact (Engine.mem_specsWithout.mp hspec).1
    | create => exact absurd trivial hcreate
    | start id =>
      rcases step_start h with ⟨err, -, rfl⟩ | ⟨-, rfl⟩
      · exact hsame rfl
      · exact ⟨List.Subset.refl _, rfl⟩
    | rename => exact absurd trivial hrename
    | list => exact hsame (by rw [(step_list h).1])
  | _ => exact hsame (step_keepsStates (by trivial) h)

/-- Every call but a rename leaves the containers as they are, or adds or removes some. -/
theorem step_grows {w w' : World} {call : Call} {reply : call.Reply} (hcall : ¬ call.Renames)
    (h : openSystem.step w call reply w') : World.Grows w w' := by
  by_cases hcreate : call.Creates
  · obtain ⟨ctx, config, hostConfig, networks, name, rfl⟩ : ∃ ctx config hostConfig networks name,
        call = .docker ctx (.create config hostConfig networks name) := by
      unfold Call.Creates at hcreate
      split at hcreate
      · exact ⟨_, _, _, _, _, rfl⟩
      · exact hcreate.elim
    rcases step_create h with ⟨err, -, rfl⟩ | ⟨spec, -, -, hmade⟩
    · exact .of_engine rfl
    · exact .of_creates hmade
  · obtain ⟨hspecs, hissued⟩ := step_sheds hcall hcreate h
    exact ⟨fun spec hspec => .inl (hspecs hspec), hissued ▸ List.Subset.refl _⟩

namespace World.Holds

variable {issued : List String} {spec : ContainerSpec} {status : ContainerStatus} {w w' : World}
  {trace : Trace Calls World}

theorem congr (h : World.Holds spec status w) (hengine : w'.engine = w.engine) :
    World.Holds spec status w' :=
  ⟨hengine ▸ h.mem, hengine ▸ h.status⟩

theorem exits (h : World.Holds spec status w) {other : ContainerSpec} (hne : spec.id ≠ other.id)
    (nano code : Int) (policyRestarts : Bool) :
    spec ∈ (w.engine.processExits other nano code policyRestarts).specs ∧
      ((w.engine.processExits other nano code policyRestarts).states spec.id).status = status := by
  have hstate : ∀ state : ContainerState,
      (Function.update w.engine.states other.id state spec.id).status = status := by
    intro state
    rw [Function.update_of_ne hne]
    exact h.status
  unfold Engine.processExits
  split
  · exact ⟨h.mem, hstate _⟩
  · refine ⟨?_, ?_⟩
    · rw [Engine.exited_specs]
      split
      · exact Engine.mem_specsWithout.mpr ⟨h.mem, hne⟩
      · exact h.mem
    · unfold Engine.exited
      split <;> exact hstate _

/-- No event of the environment stops a container made since. -/
theorem applies (hfresh : spec.id ∉ issued) {event : EnvEvent} (hallowed : event.SparesNew issued w)
    (h : World.Holds spec status w) : World.Holds spec status (event.apply w) := by
  cases event with
  | tick elapsed => exact ⟨h.mem, h.status⟩
  | contextEnds id => exact ⟨h.mem, h.status⟩
  | publish imageRef image => exact ⟨h.mem, h.status⟩
  | settle id state =>
    refine ⟨h.mem, ?_⟩
    change (Function.update w.engine.states id state spec.id).status = status
    by_cases hid : spec.id = id
    · subst hid
      rw [Function.update_self]
      rcases hallowed with hold | hsame
      · exact absurd hold hfresh
      · exact hsame.trans h.status
    · rw [Function.update_of_ne hid]
      exact h.status
  | exit id code policyRestarts =>
    have hid : spec.id ≠ id := fun hid => hfresh (hid ▸ hallowed)
    simp only [EnvEvent.apply]
    split
    · exact h
    · next other hfind =>
      have hother := ((w.engine.find_eq_some).mp hfind).2
      obtain ⟨hmem, hstatus⟩ := h.exits (hother ▸ hid) (w.clock + 1) code policyRestarts
      exact ⟨hmem, hstatus⟩
  | restart id =>
    have hid : spec.id ≠ id := fun hid => hfresh (hid ▸ hallowed)
    simp only [EnvEvent.apply]
    split
    · exact h
    · refine ⟨h.mem, ?_⟩
      change (Function.update w.engine.states id _ spec.id).status = status
      rw [Function.update_of_ne hid]
      exact h.status

theorem rely (hfresh : spec.id ∉ issued) (hrely : (steadySystem issued).rely w w')
    (h : World.Holds spec status w) : World.Holds spec status w' := by
  induction hrely with
  | refl => exact h
  | tail _ hstep ih =>
    obtain ⟨event, hallowed, rfl⟩ := hstep
    exact ih.applies hfresh hallowed

theorem path (hfresh : spec.id ∉ issued) (hpath : (steadySystem issued).Path w trace w')
    (hcalls : ∀ e ∈ trace, e.op.KeepsStates) (h : World.Holds spec status w) :
    World.Holds spec status w' := by
  refine Machine.path_invariant (I := World.Holds spec status)
    (P := fun e : Event Calls World => e.op.KeepsStates) ?_ ?_ hpath hcalls h
  · exact fun w w' h hrely => h.rely hfresh hrely
  · exact fun w call reply w' hcall h hstep => h.congr (step_keepsStates hcall hstep)

theorem start (h : World.Holds spec status w) {ctx : Context}
    (hstep : openSystem.step w (.docker ctx (.start spec.id)) (.ok ()) w') :
    World.Holds spec .running w' := by
  rcases step_start hstep with ⟨err, herr, -⟩ | ⟨-, rfl⟩
  · cases herr
  · refine ⟨h.mem, ?_⟩
    change (Function.update w.engine.states spec.id _ spec.id).status = .running
    rw [Function.update_self]

/-- What Docker reports of a container that runs. -/
theorem inspected (h : World.Holds spec .running w) {ctx : Context} {info : InspectResponse}
    (hstep : openSystem.step w (.docker ctx (.inspect spec.id)) (.ok info) w') :
    info.running = true := by
  obtain ⟨-, ⟨err, herr⟩ | ⟨found, -, hid, -, hreply⟩⟩ := step_inspect hstep
  · cases herr
  · obtain rfl := Except.ok.inj hreply
    change ((w.engine.states found.id).status).isRunning = true
    rw [hid, h.status]
    rfl

end World.Holds

/-- The inspect calls on a container that runs all report it running. -/
theorem inspectedBy_running {issued : List String} {spec : ContainerSpec} {w w' : World}
    {trace : Trace Calls World} (hfresh : spec.id ∉ issued)
    (hpath : (steadySystem issued).Path w trace w') (hcalls : ∀ e ∈ trace, e.op.Watches spec.id)
    (h : World.Holds spec .running w) {e : Event Calls World} (he : e ∈ trace)
    {info : InspectResponse} (hinfo : inspectedBy e = some info) : info.running = true := by
  obtain ⟨before, after, rfl⟩ := List.append_of_mem he
  obtain ⟨w₁, hbefore, w₂, hrely, hstep, -⟩ := Machine.path_append.mp hpath
  have hquiet : ∀ x ∈ before, x.op.KeepsStates := fun x hx =>
    Call.keepsStates_of_observes (Call.observes_of_watches (hcalls x (List.mem_append_left _ hx)))
  have hholds := (h.path hfresh hbefore hquiet).rely hfresh hrely
  have hwatches := hcalls e he
  obtain ⟨w₀, call, reply⟩ := e
  unfold inspectedBy at hinfo
  split at hinfo
  · next w₃ ctx id reply heq =>
    obtain ⟨rfl, rfl, hreply⟩ := Event.mk.inj heq
    obtain rfl : id = spec.id := hwatches
    obtain rfl := eq_of_heq hreply
    cases reply with
    | error err => cases hinfo
    | ok reported =>
      obtain rfl := Option.some.inj hinfo
      exact hholds.inspected hstep
  · cases hinfo

end Doupro
