import Mathlib.Data.List.Basic
import Mathlib.Logic.Function.Basic

/-!
# Families of machines

A machine answers a list of inputs. A family has one machine for each key: a call moves the
machine of its key and leaves the others as they are, so the answers under one key are those of
its own machine.
-/

namespace Doupro.Table

variable {κ σ τ ι ο α : Type}

/-- The answers of a machine to its inputs. -/
def answers (step : σ → ι → σ × ο) : σ → List ι → List ο
  | _, [] => []
  | s, i :: inputs => (step s i).2 :: answers step (step s i).1 inputs

/-- The state a machine is in after its inputs. -/
def after (step : σ → ι → σ × ο) (s : σ) (inputs : List ι) : σ :=
  inputs.foldl (fun s i => (step s i).1) s

variable {step : σ → ι → σ × ο} {step' : τ → ι → τ × ο}

@[simp] theorem answers_nil (s : σ) : answers step s [] = [] := rfl

theorem answers_cons (s : σ) (i : ι) (inputs : List ι) :
    answers step s (i :: inputs) = (step s i).2 :: answers step (step s i).1 inputs := rfl

/-- A part of the answers was given to a part of the inputs. -/
theorem answers_eq_append {s : σ} {inputs : List ι} {first rest : List ο}
    (h : answers step s inputs = first ++ rest) : ∃ before later, inputs = before ++ later ∧
      first = answers step s before ∧ rest = answers step (after step s before) later := by
  induction first generalizing s inputs with
  | nil => exact ⟨[], inputs, rfl, rfl, h.symm⟩
  | cons o first ih =>
    cases inputs with
    | nil => simp at h
    | cons i inputs =>
      rw [answers_cons, List.cons_append] at h
      obtain ⟨rfl, hrest⟩ := List.cons.inj h
      obtain ⟨before, later, rfl, rfl, rfl⟩ := ih hrest
      exact ⟨i :: before, later, rfl, rfl, rfl⟩

/-- Machines that go along with each other give the same answers. -/
theorem answers_simulation {R : σ → τ → Prop}
    (hstep : ∀ s t, R s t → ∀ i, R (step s i).1 (step' t i).1 ∧ (step s i).2 = (step' t i).2)
    {s : σ} {t : τ} (h : R s t) (inputs : List ι) :
    answers step s inputs = answers step' t inputs := by
  induction inputs generalizing s t with
  | nil => rfl
  | cons i inputs ih =>
    obtain ⟨hnext, hanswer⟩ := hstep s t h i
    rw [answers_cons, answers_cons, hanswer, ih hnext]

variable [DecidableEq κ]

/-- A call of a family, answered under its key. -/
def familyStep (step : σ → ι → σ × ο) (states : κ → σ) (call : κ × ι) : (κ → σ) × (κ × ο) :=
  (Function.update states call.1 (step (states call.1) call.2).1,
    (call.1, (step (states call.1) call.2).2))

/-- The entries under a key. -/
def under (k : κ) (entries : List (κ × α)) : List α :=
  entries.filterMap fun entry => if entry.1 = k then some entry.2 else none

theorem under_cons (k : κ) (entry : κ × α) (entries : List (κ × α)) :
    under k (entry :: entries) =
      if entry.1 = k then entry.2 :: under k entries else under k entries := by
  unfold under
  by_cases h : entry.1 = k
  · simp [h]
  · simp [h]

theorem under_append (k : κ) (first rest : List (κ × α)) :
    under k (first ++ rest) = under k first ++ under k rest := List.filterMap_append

theorem under_sublist_map (k : κ) (entries : List (κ × α)) :
    (under k entries).Sublist (entries.map Prod.snd) := by
  induction entries with
  | nil => exact .slnil
  | cons entry entries ih =>
    rw [under_cons, List.map_cons]
    split
    · exact ih.cons_cons entry.2
    · exact ih.cons entry.2

/-- The answers under a key are those of its machine to the inputs under the key. -/
theorem under_answers (states : κ → σ) (calls : List (κ × ι)) (k : κ) :
    under k (answers (familyStep step) states calls) = answers step (states k) (under k calls) := by
  induction calls generalizing states with
  | nil => rfl
  | cons call calls ih =>
    rw [answers_cons, under_cons, under_cons, ih]
    by_cases h : call.1 = k
    · simp [familyStep, h, answers_cons]
    · simp [familyStep, h, Function.update_of_ne (Ne.symm h)]

end Doupro.Table
