import Doupro.System.World
import Doupro.Interaction.Threads
import Doupro.Table.Associations

/-!
# Scripted runs

The world's share of a run, written down call by call, makes a program compute. What it
computes is one of its runs.
-/

namespace Doupro

open Interaction

/-- What the environment does before one call, and how the call goes. -/
structure Turn where
  events : List EnvEvent := []
  choice : Choice := {}

/-- Nothing happens before the call, and it goes through. -/
def Turn.undisturbed : Turn where

/-- The call creates a container. -/
def Turn.creating (id : String) : Turn where
  choice := { newID := id }

/-- The turns of a run by call number; the calls not listed go through undisturbed. -/
def script (turns : List (Nat × Turn)) (n : Nat) : Turn := (turns.lookup n).getD .undisturbed

/-- Every event of a script is an event of one of its listed turns. -/
theorem script_events {turns : List (Nat × Turn)} {P : EnvEvent → Prop}
    (h : ∀ entry ∈ turns, ∀ event ∈ entry.2.events, P event) (n : Nat) :
    ∀ event ∈ (script turns n).events, P event := by
  intro event hevent
  unfold script at hevent
  cases hfound : turns.lookup n with
  | none =>
    rw [hfound] at hevent
    cases hevent
  | some turn =>
    rw [hfound] at hevent
    exact h (n, turn) (Table.mem_of_lookup hfound) event hevent

/-- The calls in an environment that may do anything an environment can do. -/
abbrev openSystem : Machine Calls World := system fun _ _ => True

structure Played (α : Type) where
  trace : Trace Calls World
  value : α
  world : World

namespace Turn

/-- The world a call meets. -/
def meet (turn : Turn) (w : World) : World := turn.events.foldl EnvEvent.apply w

theorem drifts_meet {allows : World → EnvEvent → Prop} {turn : Turn}
    (h : ∀ event ∈ turn.events, ∀ w, allows w event) (w : World) :
    World.Drifts allows w (turn.meet w) := by
  unfold meet
  generalize turn.events = events at h
  induction events generalizing w with
  | nil => exact .refl
  | cons event events ih =>
    obtain ⟨hfirst, hrest⟩ := List.forall_mem_cons.mp h
    exact .head ⟨event, hfirst w, rfl⟩ (ih _ hrest)

end Turn

namespace Go

variable {α : Type}

def play : Go α → World → (Nat → Turn) → Played α
  | .ret a, w, _ => ⟨[], a, w⟩
  | .call op next, w, turns =>
    let met := (turns 0).meet w
    let out := met.exec (turns 0).choice op
    let rest := play (next out.1) out.2 fun n => turns (n + 1)
    ⟨⟨met, op, out.1⟩ :: rest.trace, rest.value, rest.world⟩

/-- A scripted run is a run where the environment may do what the script does. -/
theorem play_runs_in {allows : World → EnvEvent → Prop} (p : Go α) (w : World) {turns : Nat → Turn}
    (h : ∀ n, ∀ event ∈ (turns n).events, ∀ w, allows w event) :
    (system allows).Runs p w (p.play w turns).trace (p.play w turns).value
      (p.play w turns).world := by
  induction p generalizing w turns with
  | ret a => exact ⟨rfl, rfl, rfl⟩
  | call op next ih =>
    exact ⟨_, _, _, _, Turn.drifts_meet (h 0) w, ⟨(turns 0).choice, rfl⟩, rfl,
      ih _ _ fun n => h (n + 1)⟩

theorem play_runs (p : Go α) (w : World) (turns : Nat → Turn) :
    openSystem.Runs p w (p.play w turns).trace (p.play w turns).value (p.play w turns).world :=
  p.play_runs_in w fun _ _ _ _ => trivial

end Go

/-- A scripted run of a pool: which member makes the next call, and its turn. -/
def playPool {ι : Type} [DecidableEq ι] :
    List (ι × Turn) → (ι → Go Unit) → World → List (ι × Event Calls World) × World
  | [], _, w => ([], w)
  | (i, turn) :: rest, pool, w => match pool i with
    | .ret _ => playPool rest pool w
    | .call op next =>
      let met := turn.meet w
      let out := met.exec turn.choice op
      let played := playPool rest (Function.update pool i (next out.1)) out.2
      ((i, ⟨met, op, out.1⟩) :: played.1, played.2)

theorem playPool_runs {ι : Type} [DecidableEq ι] (turns : List (ι × Turn)) (pool : ι → Go Unit)
    (w : World) : ∃ pool', openSystem.PoolRuns pool w (playPool turns pool w).1 pool'
      (playPool turns pool w).2 := by
  induction turns generalizing pool w with
  | nil => exact ⟨pool, .refl pool w⟩
  | cons first rest ih =>
    obtain ⟨i, turn⟩ := first
    unfold playPool
    cases hi : pool i with
    | ret a => exact ih pool w
    | call op next =>
      obtain ⟨pool', hrest⟩ := ih (Function.update pool i (next _)) _
      exact ⟨pool', .call i hi (Turn.drifts_meet (fun _ _ _ => trivial) w) ⟨turn.choice, rfl⟩ hrest⟩

/-- A scripted run in which nothing but the members of the pool acts. -/
def playCalls {ι α : Type} [DecidableEq ι] (turns : List (ι × Choice)) (pool : ι → Go α) (w : World) :
    List (ι × Event Calls World) × (ι → Go α) × World :=
  Machine.replay (fun w choice op => World.exec choice w op) turns pool w

theorem playCalls_runs {ι α : Type} [DecidableEq ι] {M : Machine Calls World}
    (hrely : ∀ w, M.rely w w) (hstep : M.step = openSystem.step) (turns : List (ι × Choice))
    (pool : ι → Go α) (w : World) : M.PoolRuns pool w (playCalls turns pool w).1
      (playCalls turns pool w).2.1 (playCalls turns pool w).2.2 :=
  Machine.replay_runs hrely (fun _ choice _ => hstep ▸ ⟨choice, rfl⟩) turns pool w

/-- A host that runs one container. -/
def Engine.ofContainer (spec : ContainerSpec) (state : ContainerState)
    (tags registry : List (String × String)) : Engine where
  specs := [spec]
  states := fun _ => state
  tags := fun imageRef => tags.lookup imageRef
  registry := fun imageRef => registry.lookup imageRef
  issued := [spec.id]

/-- A container created from a tag that has not moved since. -/
def webSpec : ContainerSpec where
  id := "c0"
  name := "web"
  image := "sha256:0"
  config := { image := "web:1" }
  hostConfig := {}

/-- The tracked row of `webSpec`. -/
def webRecord : ContainerRecord where
  id := "c0"
  name := "web"
  state := "running"
  currentImage := "web:1"

def webWorld : World where
  engine := Engine.ofContainer webSpec { status := .running } [("web:1", "sha256:0")]
    [("web:1", "sha256:0"), ("web:2", "sha256:2")]
  store := { containers := [webRecord] }

/-- The watch of `webSpec`, whose third crash was just counted. -/
def triggeredWatch : RollbackWatch :=
  { Store.armedWatch "web" "c0" 0 (10 * minute) 3 0 with crashCount := 3, status := .triggered }

def triggeredWorld : World :=
  { webWorld with
    store :=
      { containers := [{ webRecord with previousImage := "sha256:p" }]
        watches := [triggeredWatch] } }

end Doupro
