import Doupro.Interaction.Contracts
import Doupro.Interaction.Layers
import Doupro.System.Crowd
import Doupro.Updater.Rollback
import Doupro.Updater.SelfUpdate
import Doupro.Updater.Update

/-!
# The updater as its callers see it

The entry points of the package next to the external calls. A goroutine of the daemon is a
program over both, and its expansion is what it does outside the process.
-/

namespace Doupro

open Interaction

inductive Service where
  | call (call : Call)
  | update (req : Updater.UpdateRequest)
  | rollback (req : Updater.RollbackRequest)
  | startSelfUpdate (updater : Updater.SelfUpdater) (ctx : Context)
    (containerID targetImage actorID : String)

@[reducible] def Service.Reply : Service → Type
  | .call external => external.Reply
  | .update _ | .rollback _ | .startSelfUpdate _ _ _ _ _ => Option GoError

abbrev Services : Signature := ⟨Service, Service.Reply⟩

/-- A Go function of the packages that use the updater. -/
abbrev Daemon (α : Type) := Program Services α

def Service.run : Implementation Services Calls
  | .call external => Program.request (S := Calls) external
  | .update req => Updater.update req
  | .rollback req => Updater.rollback req
  | .startSelfUpdate updater ctx containerID targetImage actorID =>
    Updater.startSelfUpdate updater ctx containerID targetImage actorID

namespace Daemon

variable {α : Type}

/-- A function that does not use the updater. -/
def ofGo : Go α → Daemon α
  | .ret a => .ret a
  | .call op next => .call (.call op) fun r => ofGo (next r)

instance : MonadLift Go Daemon := ⟨ofGo⟩

abbrev update (req : Updater.UpdateRequest) : Daemon (Option GoError) :=
  .request (S := Services) (.update req)

abbrev rollback (req : Updater.RollbackRequest) : Daemon (Option GoError) :=
  .request (S := Services) (.rollback req)

abbrev startSelfUpdate (updater : Updater.SelfUpdater) (ctx : Context)
    (containerID targetImage actorID : String) : Daemon (Option GoError) :=
  .request (S := Services) (.startSelfUpdate updater ctx containerID targetImage actorID)

@[simp] theorem ofGo_pure (a : α) : ofGo (pure a) = pure a := rfl

theorem ofGo_bind {β : Type} (p : Go α) (f : α → Go β) :
    ofGo (p >>= f) = ofGo p >>= fun a => ofGo (f a) := by
  change ofGo (p.bind f) = (ofGo p).bind _
  induction p with
  | ret a => rfl
  | call op next ih => simp only [Program.bind, ofGo, ih]

/-- A function that does not use the updater does what it always did. -/
theorem expand_ofGo (p : Go α) : (ofGo p).expand Service.run = p := by
  induction p with
  | ret a => rfl
  | call op next ih =>
    change (Program.request op >>= fun r => (ofGo (next r)).expand Service.run) = _
    simp only [ih]
    rfl

/-- A call of a function that does not use the updater is a call of its program. -/
theorem uses_ofGo {P : Service → Prop} {p : Go α} (h : p.Uses fun call => P (.call call)) :
    (ofGo p).Uses P := by
  induction p with
  | ret a => trivial
  | call op next ih => exact ⟨h.1, fun r => ih r (h.2 r)⟩

/-- A contract on what a function that does not use the updater calls. -/
def onCalls {κ : Type} (C : Contract Services World κ) : Contract Calls World κ where
  allowed k call := C.allowed k (.call call)
  expects k e := C.expects k ⟨e.world, .call e.op, e.reply⟩
  next k e := C.next k ⟨e.world, .call e.op, e.reply⟩

theorem obeys_ofGo {κ : Type} {M : Machine Services World} {N : Machine Calls World}
    {C : Contract Services World κ} (hstep : ∀ w call r w', M.step w (.call call) r w' → N.step w call r w')
    {p : Go α} {k : κ} {Q : κ → α → Prop} (h : N.obeys (onCalls C) p k Q) : M.obeys C (ofGo p) k Q := by
  induction p generalizing k with
  | ret a => exact h
  | call op next ih => exact ⟨h.1, fun w r w' hcall hexp => ih r (h.2 w r w' (hstep _ _ _ _ hcall) hexp)⟩

end Daemon

/-! ### Scripted runs -/

namespace Daemon

variable {α : Type}

/-- A scripted run of a goroutine: for each service the turns of its calls. -/
def play : Daemon α → World → (Nat → Nat → Turn) → Trace Services World × α × World
  | .ret a, w, _ => ([], a, w)
  | .call op next, w, turns =>
    let inner := Go.play (Service.run op) w (turns 0)
    let rest := play (next inner.value) inner.world fun n => turns (n + 1)
    (⟨w, op, inner.value⟩ :: rest.1, rest.2)

/-- A scripted run is a run where the environment may do what the script does. -/
theorem play_runs_in {allows : World → EnvEvent → Prop} (p : Daemon α) (w : World)
    {turns : Nat → Nat → Turn} (h : ∀ m n, ∀ event ∈ (turns m n).events, ∀ w, allows w event) :
    ((system allows).layered Service.run).Runs p w (p.play w turns).1 (p.play w turns).2.1
      (p.play w turns).2.2 := by
  induction p generalizing w turns with
  | ret a => exact ⟨rfl, rfl, rfl⟩
  | call op next ih =>
    exact ⟨w, _, _, _, rfl, ⟨_, Go.play_runs_in (Service.run op) w (h 0)⟩, rfl,
      ih _ _ fun m => h (m + 1)⟩

theorem play_runs (p : Daemon α) (w : World) (turns : Nat → Nat → Turn) :
    (openSystem.layered Service.run).Runs p w (p.play w turns).1 (p.play w turns).2.1
      (p.play w turns).2.2 :=
  p.play_runs_in w fun _ _ _ _ _ => trivial

end Daemon

namespace Service

/-- A service among others, who may close the gate before its first call. -/
def played (w : World) (closing : Bool) (op : Service) : Played op.Reply :=
  Go.play (run op) (if closing then w.closing else w) fun _ => .undisturbed

theorem played_runs {β : Type} {kept : Store → β} (w : World) (closing : Bool) (op : Service) :
    (crowd kept).Runs (run op) w (played w closing op).trace (played w closing op).value
      (played w closing op).world := by
  have hmet : World.Bustles kept w (if closing then w.closing else w) := by
    split
    · exact w.bustles_closing
    · exact .refl
  cases op <;> exact crowd_runs hmet (Go.play_runs _ _ _)

/-- A run of a goroutine in which the gate may close before each service. -/
def script {α : Type} (turns : List Bool) (p : Daemon α) (w : World) :
    List (Unit × Event Services World) × (Unit → Daemon α) × World :=
  Machine.replay (fun w closing op => ((played w closing op).value, (played w closing op).world))
    (turns.map fun closing => ((), closing)) (fun _ => p) w

theorem script_runs {α β : Type} {kept : Store → β} (turns : List Bool) (p : Daemon α) (w : World) :
    ((crowd kept).layered run).PoolRuns (fun _ => p) w (script turns p w).1 (script turns p w).2.1
      (script turns p w).2.2 :=
  Machine.replay_runs (M := (crowd kept).layered run) (fun _ => rfl)
    (fun w closing op => ⟨_, played_runs w closing op⟩) _ _ _

/-- The update a goroutine asks for next. -/
def awaited {α : Type} : Daemon α → Option Updater.UpdateRequest
  | .call (.update req) _ => some req
  | _ => none

/-- The update a goroutine asks for after part of a script. -/
theorem mem_script {α : Type} (first rest : List Bool) (closing : Bool) {p : Daemon α} {w : World}
    {req : Updater.UpdateRequest} (h : awaited ((script first p w).2.1 ()) = some req) :
    ((), ⟨(script first p w).2.2, .update req,
      (played (script first p w).2.2 closing (.update req)).value⟩) ∈
      (script (first ++ closing :: rest) p w).1 := by
  have hnext : ∃ next, (script first p w).2.1 () = .call (.update req) next := by
    unfold awaited at h
    split at h
    · next next heq => exact ⟨next, Option.some.inj h ▸ heq⟩
    · cases h
  obtain ⟨next, hnext⟩ := hnext
  unfold script at hnext ⊢
  rw [List.map_append, Machine.replay_append]
  refine List.mem_append_right _ ?_
  simp only [List.map_cons, Machine.replay, hnext]
  exact List.mem_cons_self

end Service
end Doupro
