import Doupro.System.Frames

/-!
# Among other goroutines

One goroutine's calls with everybody else in between: the host lives on, and other
goroutines make whatever calls leave some part of the store as it is.
-/

namespace Doupro

open Interaction

variable {β : Type} {kept : Store → β}

/-- What the host and the other goroutines may do. -/
def World.Bustles (kept : Store → β) : World → World → Prop :=
  Relation.ReflTransGen fun w w' => (∃ event : EnvEvent, w' = event.apply w) ∨
    (∃ call reply, openSystem.step w call reply w') ∧ kept w'.store = kept w.store

/-- The calls of one goroutine among others, which leave a part of the store alone. -/
def crowd (kept : Store → β) : Machine Calls World where
  rely := World.Bustles kept
  step := openSystem.step

theorem World.Bustles.store {w w' : World} (h : World.Bustles kept w w') :
    kept w'.store = kept w.store := by
  induction h with
  | refl => rfl
  | tail _ hstep ih =>
    rcases hstep with ⟨event, rfl⟩ | ⟨-, hkept⟩
    · rw [(EnvEvent.apply_frame _ event).store]
      exact ih
    · exact hkept.trans ih

/-- An environment without other goroutines is a crowd. -/
theorem World.Drifts.bustles {allows : World → EnvEvent → Prop} {w w' : World}
    (h : World.Drifts allows w w') : World.Bustles kept w w' := by
  induction h with
  | refl => exact .refl
  | tail _ hstep ih =>
    obtain ⟨event, -, rfl⟩ := hstep
    exact .tail ih (.inl ⟨event, rfl⟩)

/-- What was done without other goroutines could have been done among them, after they did
something of their own. -/
theorem crowd_runs {α : Type} {op : Call} {next : op.Reply → Go α} {w met w' : World}
    {trace : Trace Calls World} {a : α} (hmet : World.Bustles kept w met)
    (h : openSystem.Runs (.call op next) met trace a w') :
    (crowd kept).Runs (.call op next) w trace a w' := by
  obtain ⟨w₀, r, w₁, rest, hrely, hstep, rfl, hrest⟩ := h
  refine ⟨w₀, r, w₁, rest, hmet.trans hrely.bustles, hstep, rfl, ?_⟩
  clear hstep hmet hrely
  generalize next r = p at hrest
  induction p generalizing w₁ rest with
  | ret b => exact hrest
  | call op next ih =>
    obtain ⟨w₂, r, w₃, last, hrely, hstep, rfl, hlast⟩ := hrest
    exact ⟨w₂, r, w₃, last, hrely.bustles, hstep, rfl, ih r _ _ hlast⟩

/-- What happens before a program makes its first call may be left to the environment. -/
theorem runs_of_drifts {α : Type} {allows : World → EnvEvent → Prop} {op : Call}
    {next : op.Reply → Go α} {w met w' : World} {trace : Trace Calls World} {a : α}
    (hmet : World.Drifts allows w met) (h : (system allows).Runs (.call op next) met trace a w') :
    (system allows).Runs (.call op next) w trace a w' := by
  obtain ⟨w₀, r, w₁, rest, hrely, hstep, rfl, hrest⟩ := h
  exact ⟨w₀, r, w₁, rest, hmet.trans hrely, hstep, rfl, hrest⟩

/-- A program whose calls all leave the world as it is lets it drift. -/
theorem drifts_of_uses {α : Type} {allows : World → EnvEvent → Prop} {P : Call → Prop}
    (hP : ∀ {w w' call} {reply : call.Reply}, P call → (system allows).step w call reply w' → w' = w)
    {p : Go α} (hp : p.Uses P) {w w' : World} {trace : Trace Calls World} {a : α}
    (h : (system allows).Runs p w trace a w') : World.Drifts allows w w' := by
  refine Machine.path_invariant (M := system allows) (I := World.Drifts allows w) (P := fun e => P e.op)
    ?_ ?_ (Machine.runs_path h) (Machine.runs_uses hp h) .refl
  · exact fun _ _ hI hrely => hI.trans hrely
  · intro w₁ call reply w₂ hcall hI hstep
    rw [hP hcall hstep]
    exact hI

/-- Somebody else asks for a self-update. -/
def World.closing (w : World) : World := (w.exec {} .beginMaintenance).2

theorem World.bustles_closing (w : World) : World.Bustles kept w w.closing := by
  refine .single (.inr ⟨⟨.beginMaintenance, _, {}, rfl⟩, ?_⟩)
  unfold closing
  simp only [World.exec]
  split <;> rfl

/-- A call that leaves a part of the store alone, whatever the store holds. -/
def Call.Keeps (kept : Store → β) : Call → Prop
  | .store _ call => ∀ s now result s', Store.perform s now call = .ok (result, s') → kept s' = kept s
  | _ => True

theorem step_keeps {w w' : World} {call : Call} {reply : call.Reply} (hcall : call.Keeps kept)
    (h : openSystem.step w call reply w') : kept w'.store = kept w.store := by
  cases call with
  | docker ctx call => rcases step_docker h with ⟨err, -, rfl⟩ | ⟨_, _, _, -, -, -, rfl⟩ <;> rfl
  | store ctx call =>
    rcases step_store h with ⟨err, -, rfl⟩ | ⟨result, store, -, hperform, -, rfl⟩
    · rfl
    · exact hcall _ _ _ _ hperform
  | lookup => rw [step_lookup h]
  | beginOperation => rw [(step_beginOperation h).2]
  | endOperation => rw [step_endOperation h]
  | beginMaintenance =>
    rcases step_beginMaintenance h with ⟨⟨active, rfl⟩, rfl⟩ | ⟨rfl, -, -, rfl⟩ <;> rfl
  | endMaintenance => rw [step_endMaintenance h]
  | maintenanceActive => rw [(step_maintenanceActive h).2]
  | now => rw [(step_now h).2]
  | sleepUntil => rcases step_sleepUntil h with ⟨-, -, rfl⟩ | ⟨-, rfl⟩ <;> rfl
  | emit => rw [step_emit h]
  | notify => rw [step_notify h]
  | goRollback => rw [step_goRollback h]
  | goShutdown => rw [step_goShutdown h]
  | receive => rw [(step_receive h).1]

/-- Only a statement writes the store. -/
theorem step_unstored {w w' : World} {call : Call} {reply : call.Reply}
    (hcall : ∀ ctx statement, call ≠ .store ctx statement) (h : openSystem.step w call reply w') :
    w'.store = w.store := by
  refine @step_keeps Store id w w' call reply ?_ h
  cases call with
  | store ctx statement => exact absurd rfl (hcall ctx statement)
  | _ => trivial

theorem step_uniqueIDs {w w' : World} {call : Call} {reply : call.Reply}
    (h : openSystem.step w call reply w') (hw : w.store.UniqueIDs) : w'.store.UniqueIDs := by
  cases call with
  | store ctx call =>
    rcases step_store h with ⟨err, -, rfl⟩ | ⟨result, store, -, hperform, -, rfl⟩
    · exact hw
    · exact Store.perform_uniqueIDs hw hperform
  | _ =>
    rw [step_unstored (by simp) h]
    exact hw

/-! ### Time goes on -/

theorem step_clock {w w' : World} {call : Call} {reply : call.Reply}
    (h : openSystem.step w call reply w') : w.clock ≤ w'.clock := by
  cases call with
  | docker ctx call => rcases step_docker h with ⟨err, -, rfl⟩ | ⟨_, _, _, -, -, -, rfl⟩ <;> rfl
  | store ctx call => rcases step_store h with ⟨err, -, rfl⟩ | ⟨_, _, -, -, -, rfl⟩ <;> rfl
  | lookup => rw [step_lookup h]
  | beginOperation => rw [(step_beginOperation h).2]
  | endOperation => rw [step_endOperation h]
  | beginMaintenance =>
    rcases step_beginMaintenance h with ⟨⟨active, rfl⟩, rfl⟩ | ⟨rfl, -, -, rfl⟩ <;> rfl
  | endMaintenance => rw [step_endMaintenance h]
  | maintenanceActive => rw [(step_maintenanceActive h).2]
  | now => rw [(step_now h).2]
  | sleepUntil =>
    rcases step_sleepUntil h with ⟨-, -, rfl⟩ | ⟨-, rfl⟩
    · rfl
    · exact le_max_left _ _
  | emit => rw [step_emit h]
  | notify => rw [step_notify h]
  | goRollback => rw [step_goRollback h]
  | goShutdown => rw [step_goShutdown h]
  | receive => rw [(step_receive h).1]

theorem World.Bustles.clock {w w' : World} (h : World.Bustles kept w w') : w.clock ≤ w'.clock := by
  induction h with
  | refl => rfl
  | tail _ hstep ih =>
    rcases hstep with ⟨event, rfl⟩ | ⟨⟨_, _, hcall⟩, -⟩
    · exact ih.trans (EnvEvent.apply_frame _ event).clock
    · exact ih.trans (step_clock hcall)

theorem crowd_clock {α : Type} {p : Go α} {w w' : World} {trace : Trace Calls World} {a : α}
    (h : (crowd kept).Runs p w trace a w') : w.clock ≤ w'.clock :=
  (Machine.path_events (M := crowd kept) (I := fun _ => True) (P := fun _ => True) (R := fun w w' => w.clock ≤ w'.clock)
    (fun _ => le_refl _) le_trans (fun _ _ hrely => ⟨World.Bustles.clock hrely, fun _ => trivial⟩)
    (fun _ _ _ _ hstep => ⟨step_clock hstep, fun _ _ => trivial⟩) (Machine.runs_path h)
    (fun _ _ => trivial) trivial).1.1

/-! ### A goroutine that leaves a part of the store alone -/

/-- A goroutine whose calls leave a part of the store alone, among others who do. -/
theorem crowd_keeps {α : Type} {p : Go α} (hp : p.Uses (Call.Keeps kept)) {w w' : World}
    {trace : Trace Calls World} {a : α} (h : (crowd kept).Runs p w trace a w') :
    kept w'.store = kept w.store := by
  have hrely : ∀ world world', kept world.store = kept w.store → (crowd kept).rely world world' →
      kept world'.store = kept w.store := fun _ _ hI h => (World.Bustles.store h).trans hI
  have hstep : ∀ world op r world', Call.Keeps kept op → kept world.store = kept w.store →
      (crowd kept).step world op r world' → kept world'.store = kept w.store :=
    fun _ _ _ _ hcall hI h => (step_keeps hcall h).trans hI
  exact Machine.path_invariant (P := fun e => Call.Keeps kept e.op) hrely hstep
    (Machine.runs_path h) (Machine.runs_uses hp h) rfl

end Doupro
