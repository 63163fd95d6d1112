/-!
# Programs of external calls

A program is a tree: it returns a value, or issues one call and continues with the
reply. Nothing is said here about what a call does; a machine gives that meaning.
-/

namespace Doupro.Interaction

/-- The calls of an interface and the type of the reply to each. -/
structure Signature where
  Op : Type
  Reply : Op → Type

inductive Program (S : Signature) (α : Type) : Type where
  | ret (a : α)
  | call (op : S.Op) (next : S.Reply op → Program S α)

namespace Program

variable {S : Signature} {α β γ : Type}

def bind : Program S α → (α → Program S β) → Program S β
  | .ret a, f => f a
  | .call op next, f => .call op fun r => (next r).bind f

/-- One call, returning its reply. -/
def request (op : S.Op) : Program S (S.Reply op) := .call op .ret

instance : Monad (Program S) where
  pure := .ret
  bind := .bind

@[simp] theorem pure_bind_eq (a : α) (f : α → Program S β) : (pure a >>= f) = f a := rfl

theorem bind_pure_eq (p : Program S α) : (p >>= pure) = p := by
  change p.bind .ret = p
  induction p with
  | ret a => rfl
  | call op next ih => simp only [bind, ih]

theorem bind_assoc_eq (p : Program S α) (f : α → Program S β) (g : β → Program S γ) :
    ((p >>= f) >>= g) = p >>= fun a => f a >>= g := by
  change (p.bind f).bind g = p.bind fun a => (f a).bind g
  induction p with
  | ret a => rfl
  | call op next ih => simp only [bind, ih]

instance : LawfulMonad (Program S) := LawfulMonad.mk' (Program S)
  (fun p => bind_pure_eq p) (fun _ _ => rfl) bind_assoc_eq

/-- The value of a program that makes no further call. -/
def returned : Program S α → Option α
  | .ret a => some a
  | .call _ _ => none

theorem eq_pure_of_returned {p : Program S α} {a : α} (h : p.returned = some a) : p = pure a := by
  cases p with
  | ret b => exact congrArg Program.ret (Option.some.inj h)
  | call op next => cases h

/-- Every call a program can make satisfies a condition, whatever is replied. -/
def Uses (P : S.Op → Prop) : Program S α → Prop
  | .ret _ => True
  | .call op next => P op ∧ ∀ r, Uses P (next r)

variable {P : S.Op → Prop}

@[simp] theorem uses_pure (a : α) : Uses P (pure a : Program S α) := trivial

@[simp] theorem uses_request (op : S.Op) : Uses P (request op) ↔ P op :=
  ⟨fun h => h.1, fun h => ⟨h, fun _ => trivial⟩⟩

theorem uses_mono {Q : S.Op → Prop} (h : ∀ op, P op → Q op) {p : Program S α} (hp : Uses P p) :
    Uses Q p := by
  induction p with
  | ret a => trivial
  | call op next ih => exact ⟨h op hp.1, fun r => ih r (hp.2 r)⟩

theorem uses_of_forall (h : ∀ op, P op) (p : Program S α) : Uses P p := by
  induction p with
  | ret a => trivial
  | call op next ih => exact ⟨h op, ih⟩

theorem uses_bind {p : Program S α} {f : α → Program S β} (hp : Uses P p)
    (hf : ∀ a, Uses P (f a)) : Uses P (p >>= f) := by
  change Uses P (p.bind f)
  induction p with
  | ret a => exact hf a
  | call op next ih => exact ⟨hp.1, fun r => ih r (hp.2 r)⟩

theorem uses_request_bind {op : S.Op} {f : S.Reply op → Program S β} (hop : P op)
    (hf : ∀ r, Uses P (f r)) : Uses P (request op >>= f) := ⟨hop, hf⟩

theorem uses_ite {c : Prop} [Decidable c] {p q : Program S α} (hp : Uses P p) (hq : Uses P q) :
    Uses P (if c then p else q) := by
  split
  · exact hp
  · exact hq

/-- A conditional inside a program continues alike after either branch. -/
theorem uses_ite_bind {c : Prop} [Decidable c] {p q : Program S α} {f : α → Program S β}
    (hp : Uses P p) (hq : Uses P q) (hf : ∀ a, Uses P (f a)) :
    Uses P (if c then p >>= f else q >>= f) := by
  split
  · exact uses_bind hp hf
  · exact uses_bind hq hf

end Program
end Doupro.Interaction
