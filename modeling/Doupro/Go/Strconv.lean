import Doupro.Go.Strings

/-!
# Decimal integers

What `strconv.Itoa` writes, `strconv.Atoi` reads back.
-/

namespace Doupro

theorem digitValue_of_isDigit {c : Char} (h : c.isDigit = true) :
    digitValue c = some (c.toNat - 48) := by
  have hrange : '0' ≤ c ∧ c ≤ '9' := by simpa [Char.isDigit, Char.le_def] using h
  rw [digitValue, if_pos hrange]

theorem digitsValue_of_isDigit {digits : List Char} (h : ∀ c ∈ digits, c.isDigit = true)
    (acc : Nat) : digitsValue acc digits = some (Nat.ofDigitChars 10 digits acc) := by
  induction digits generalizing acc with
  | nil => rfl
  | cons c digits ih =>
    obtain ⟨hc, hdigits⟩ := List.forall_mem_cons.mp h
    rw [digitsValue, digitValue_of_isDigit hc, Option.bind_some, ih hdigits, Nat.ofDigitChars_cons,
      Nat.mul_comm acc 10]
    rfl

theorem unsignedValue_toDigits (n : Nat) : unsignedValue (Nat.toDigits 10 n) = some n := by
  have hdecimal : ∀ c ∈ Nat.toDigits 10 n, c.isDigit = true :=
    fun c hc => Nat.isDigit_of_mem_toDigits (by decide) (by decide) hc
  have hvalue := digitsValue_of_isDigit hdecimal 0
  rw [Nat.ofDigitChars_ten_toDigits] at hvalue
  cases hdigits : Nat.toDigits 10 n with
  | nil => exact absurd hdigits Nat.toDigits_ne_nil
  | cons c digits =>
    rw [hdigits] at hvalue
    exact hvalue

theorem toDigits_head {n : Nat} {c : Char} {digits : List Char} (h : Nat.toDigits 10 n = c :: digits) :
    c ≠ '-' ∧ c ≠ '+' := by
  have hdigit : c.isDigit = true :=
    Nat.isDigit_of_mem_toDigits (by decide) (by decide) (h ▸ List.mem_cons_self)
  constructor <;>
  · rintro rfl
    exact absurd hdigit (by decide)

/-- A 64-bit integer is read back from its decimal text. -/
theorem atoi_toString {n : Int} (hlow : -2 ^ 63 ≤ n) (hhigh : n < 2 ^ 63) :
    atoi (toString n) = some n := by
  have hrange : Option.filter (fun n : Int => decide (-2 ^ 63 ≤ n ∧ n < 2 ^ 63)) (some n) = some n := by
    rw [Option.filter_some, if_pos (decide_eq_true ⟨hlow, hhigh⟩)]
  unfold atoi
  cases n with
  | ofNat n =>
    have htext : (toString (Int.ofNat n)).toList = Nat.toDigits 10 n := Nat.toList_repr
    rw [htext]
    cases hdigits : Nat.toDigits 10 n with
    | nil => exact absurd hdigits Nat.toDigits_ne_nil
    | cons c digits =>
      obtain ⟨hminus, hplus⟩ := toDigits_head hdigits
      have hvalue := unsignedValue_toDigits n
      rw [hdigits] at hvalue
      split
      · next heq => exact absurd (List.cons.inj heq).1 hminus
      · next heq => exact absurd (List.cons.inj heq).1 hplus
      · simp only [hvalue]
        exact hrange
  | negSucc n =>
    have htext : (toString (Int.negSucc n)).toList = '-' :: Nat.toDigits 10 (n + 1) := by
      change ("-" ++ Nat.repr (n + 1)).toList = _
      rw [String.toList_append, Nat.toList_repr]
      rfl
    simp only [htext, unsignedValue_toDigits]
    exact hrange

/-- What is read is a 64-bit integer. -/
theorem atoi_range {s : String} {n : Int} (h : atoi s = some n) : -2 ^ 63 ≤ n ∧ n < 2 ^ 63 := by
  unfold atoi at h
  obtain ⟨-, hrange⟩ := Option.filter_eq_some_iff.mp h
  exact of_decide_eq_true hrange

end Doupro
