import Doupro.Interaction.Semantics

/-!
# Programs over programs

An interface may be implemented over another one. A program over the upper interface then
runs on the machine of the lower one: each of its calls is a whole run of what implements it.
-/

namespace Doupro.Interaction

variable {S T : Signature} {W α β : Type}

/-- The calls of one interface as programs over another. -/
abbrev Implementation (T S : Signature) := (op : T.Op) → Program S (T.Reply op)

namespace Program

/-- Every call replaced by the program that implements it. -/
def expand (impl : Implementation T S) : Program T α → Program S α
  | .ret a => .ret a
  | .call op next => impl op >>= fun r => (next r).expand impl

variable {impl : Implementation T S}

@[simp] theorem expand_pure (a : α) : (pure a : Program T α).expand impl = pure a := rfl

theorem expand_bind (p : Program T α) (f : α → Program T β) :
    (p >>= f).expand impl = p.expand impl >>= fun a => (f a).expand impl := by
  change (p.bind f).expand impl = _
  induction p with
  | ret a => rfl
  | call op next ih =>
    simp only [bind, expand, ih]
    exact (bind_assoc_eq _ _ _).symm

/-- What an implementation calls, if the calls it implements meet a condition. -/
theorem uses_expand {P : T.Op → Prop} {Q : S.Op → Prop} (himpl : ∀ op, P op → (impl op).Uses Q)
    {p : Program T α} (hp : p.Uses P) : (p.expand impl).Uses Q := by
  induction p with
  | ret a => trivial
  | call op next ih => exact uses_bind (himpl op hp.1) fun r => ih r (hp.2 r)

end Program

namespace Machine

/-- The upper interface on the machine of the lower one. What happens between two calls
happens before the first call of the next implementation. -/
def layered (M : Machine S W) (impl : Implementation T S) : Machine T W where
  rely w w' := w' = w
  step w op r w' := ∃ trace, M.Runs (impl op) w trace r w'

/-- A program does over the upper interface what its expansion does over the lower one. -/
theorem runs_expand {M : Machine S W} {impl : Implementation T S} {p : Program T α} {w w' : W}
    {a : α} : (∃ trace, M.Runs (p.expand impl) w trace a w') ↔
      ∃ trace, (M.layered impl).Runs p w trace a w' := by
  induction p generalizing w with
  | ret b =>
    constructor
    · rintro ⟨-, rfl, rfl, rfl⟩
      exact ⟨[], rfl, rfl, rfl⟩
    · rintro ⟨-, rfl, rfl, rfl⟩
      exact ⟨[], rfl, rfl, rfl⟩
  | call op next ih =>
    constructor
    · rintro ⟨trace, hrun⟩
      obtain ⟨first, r, w₁, rest, hfirst, hrest, -⟩ := runs_bind.mp hrun
      obtain ⟨outer, houter⟩ := (ih r).mp ⟨rest, hrest⟩
      exact ⟨⟨w, op, r⟩ :: outer, w, r, w₁, outer, rfl, ⟨first, hfirst⟩, rfl, houter⟩
    · rintro ⟨outer, w₀, r, w₁, rest, rfl, ⟨first, hfirst⟩, -, hrest⟩
      obtain ⟨trace, htrace⟩ := (ih r).mpr ⟨rest, hrest⟩
      exact ⟨first ++ trace, runs_bind.mpr ⟨first, r, w₁, trace, hfirst, htrace, rfl⟩⟩

/-- An invariant that the lower machine keeps holds wherever an upper run gets to. -/
theorem layered_invariant {M : Machine S W} {impl : Implementation T S} {I : W → Prop}
    (hrely : ∀ w w', I w → M.rely w w' → I w')
    (hstep : ∀ w op r w', I w → M.step w op r w' → I w') {p : Program T α} {w w' : W}
    {trace : Trace T W} {a : α} (h : (M.layered impl).Runs p w trace a w') (hw : I w) :
    I w' ∧ ∀ e ∈ trace, I e.world := by
  have hinner : ∀ w op r w', (M.layered impl).step w op r w' → I w → I w' := by
    rintro w op r w' ⟨trace, hrun⟩ hI
    exact path_invariant (P := fun _ => True) hrely (fun _ _ _ _ _ hI hs => hstep _ _ _ _ hI hs)
      (runs_path hrun) (fun _ _ => trivial) hI
  obtain ⟨⟨-, hend⟩, hevents⟩ := path_events (M := M.layered impl) (I := I) (R := fun _ _ => True)
    (P := fun _ => True) (fun _ => trivial) (fun _ _ => trivial)
    (fun w w' h => ⟨trivial, fun hI => h ▸ hI⟩)
    (fun _ _ _ _ hs => ⟨trivial, fun _ => hinner _ _ _ _ hs⟩) (runs_path h) (fun _ _ => trivial) hw
  exact ⟨hend, fun e he => (hevents e he).1.1⟩

end Machine
end Doupro.Interaction
