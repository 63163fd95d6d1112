import Doupro.Go.Json

/-!
# Equal and contained JSON values

Two values are the same up to a relation of their numbers, and one is within another if every
field of its objects occurs there. `reflect.DeepEqual` and `compareJSONSubset` see numbers as
float64.
-/

namespace Doupro.Json

/-- Two values with the same structure and related numbers. Objects are maps. -/
inductive Same (eq : Int → Int → Prop) : Json → Json → Prop
  | null : Same eq .null .null
  | bool (b : Bool) : Same eq (.bool b) (.bool b)
  | number {m n : Int} (h : eq m n) : Same eq (.number m) (.number n)
  | string (s : String) : Same eq (.string s) (.string s)
  | nil : Same eq (.array []) (.array [])
  | cons {a b : Json} {as bs : List Json} (head : Same eq a b)
      (tail : Same eq (.array as) (.array bs)) : Same eq (.array (a :: as)) (.array (b :: bs))
  | object {as bs : List (String × Json)} (counterpart : String → Json)
      (length : as.length = bs.length)
      (found : ∀ field ∈ as, bs.lookup field.1 = some (counterpart field.1))
      (same : ∀ field ∈ as, Same eq field.2 (counterpart field.1)) :
      Same eq (.object as) (.object bs)

def IsObject : Json → Prop
  | .object _ => True
  | _ => False

/-- Every field of the objects of a value occurs in another; what is no object is the same. -/
inductive Within (eq : Int → Int → Prop) : Json → Json → Prop
  | object {as bs : List (String × Json)} (counterpart : String → Json)
      (found : ∀ field ∈ as, bs.lookup field.1 = some (counterpart field.1))
      (within : ∀ field ∈ as, Within eq field.2 (counterpart field.1)) :
      Within eq (.object as) (.object bs)
  | value {a b : Json} (plain : ¬ a.IsObject) (same : Same eq a b) : Within eq a b

variable {eq eq' : Int → Int → Prop}

theorem Same.mono (h : ∀ m n, eq m n → eq' m n) {a b : Json} (hsame : Same eq a b) :
    Same eq' a b := by
  induction hsame with
  | null => exact .null
  | bool b => exact .bool b
  | number hmn => exact .number (h _ _ hmn)
  | string s => exact .string s
  | nil => exact .nil
  | cons _ _ ihead itail => exact .cons ihead itail
  | object counterpart length found _ ih => exact .object counterpart length found ih

theorem Within.mono (h : ∀ m n, eq m n → eq' m n) {a b : Json} (hwithin : Within eq a b) :
    Within eq' a b := by
  induction hwithin with
  | object counterpart found _ ih => exact .object counterpart found ih
  | value plain same => exact .value plain (same.mono h)

theorem same_object_iff {as bs : List (String × Json)} :
    Same eq (.object as) (.object bs) ↔ as.length = bs.length ∧
      ∀ field ∈ as, ∃ b, bs.lookup field.1 = some b ∧ Same eq field.2 b := by
  constructor
  · intro h
    cases h with
    | object counterpart length found same =>
      exact ⟨length, fun field hfield =>
        ⟨counterpart field.1, found field hfield, same field hfield⟩⟩
  · rintro ⟨length, h⟩
    refine .object (fun key => (bs.lookup key).getD .null) length ?_ ?_
    · intro field hfield
      obtain ⟨b, hb, -⟩ := h field hfield
      rw [hb, Option.getD_some]
    · intro field hfield
      obtain ⟨b, hb, hsame⟩ := h field hfield
      rwa [hb, Option.getD_some]

theorem within_object_iff {as : List (String × Json)} {got : Json} :
    Within eq (.object as) got ↔ ∃ bs, got = .object bs ∧
      ∀ field ∈ as, ∃ b, bs.lookup field.1 = some b ∧ Within eq field.2 b := by
  constructor
  · intro h
    cases h with
    | object counterpart found within =>
      exact ⟨_, rfl, fun field hfield =>
        ⟨counterpart field.1, found field hfield, within field hfield⟩⟩
    | value plain same => exact absurd trivial plain
  · rintro ⟨bs, rfl, h⟩
    refine .object (fun key => (bs.lookup key).getD .null) ?_ ?_
    · intro field hfield
      obtain ⟨b, hb, -⟩ := h field hfield
      rw [hb, Option.getD_some]
    · intro field hfield
      obtain ⟨b, hb, hwithin⟩ := h field hfield
      rwa [hb, Option.getD_some]

theorem within_value_iff {a b : Json} (h : ¬ a.IsObject) : Within eq a b ↔ Same eq a b := by
  constructor
  · intro hwithin
    cases hwithin with
    | object => exact absurd trivial h
    | value _ same => exact same
  · exact fun hsame => .value h hsame

/-! ### The comparisons of the code -/

/-- Two numbers one float64 stands for. -/
def Near (m n : Int) : Prop := float64 m = float64 n

mutual

theorem deepEqual_iff : (a b : Json) → (deepEqual a b = true ↔ Same Near a b)
  | .null, b => by
    cases b <;> simp only [deepEqual]
    case null => exact iff_of_true trivial .null
    all_goals exact iff_of_false (by simp) fun h => nomatch h
  | .bool a, b => by
    cases b <;> simp only [deepEqual]
    case bool b =>
      rw [beq_iff_eq]
      constructor
      · rintro rfl
        exact .bool a
      · intro h
        cases h
        rfl
    all_goals exact iff_of_false (by simp) fun h => nomatch h
  | .number m, b => by
    cases b <;> simp only [deepEqual]
    case number n =>
      rw [beq_iff_eq]
      constructor
      · exact fun h => .number h
      · intro h
        cases h with
        | number h => exact h
    all_goals exact iff_of_false (by simp) fun h => nomatch h
  | .string a, b => by
    cases b <;> simp only [deepEqual]
    case string b =>
      rw [beq_iff_eq]
      constructor
      · rintro rfl
        exact .string a
      · intro h
        cases h
        rfl
    all_goals exact iff_of_false (by simp) fun h => nomatch h
  | .array as, b => by
    cases b <;> simp only [deepEqual]
    case array bs => exact deepEqualItems_iff as bs
    all_goals exact iff_of_false (by simp) fun h => nomatch h
  | .object as, b => by
    cases b <;> simp only [deepEqual]
    case object bs =>
      rw [Bool.and_eq_true, beq_iff_eq, deepEqualFields_iff as bs, same_object_iff]
    all_goals exact iff_of_false (by simp) fun h => nomatch h

theorem deepEqualItems_iff : (as bs : List Json) →
    (deepEqualItems as bs = true ↔ Same Near (.array as) (.array bs))
  | [], [] => iff_of_true rfl .nil
  | [], _ :: _ => iff_of_false (by simp [deepEqualItems]) fun h => nomatch h
  | _ :: _, [] => iff_of_false (by simp [deepEqualItems]) fun h => nomatch h
  | a :: as, b :: bs => by
    rw [deepEqualItems, Bool.and_eq_true, deepEqual_iff a b, deepEqualItems_iff as bs]
    constructor
    · exact fun h => .cons h.1 h.2
    · intro h
      cases h with
      | cons head tail => exact ⟨head, tail⟩

theorem deepEqualFields_iff : (as bs : List (String × Json)) →
    (deepEqualFields as bs = true ↔
      ∀ field ∈ as, ∃ b, bs.lookup field.1 = some b ∧ Same Near field.2 b)
  | [], _ => by simp [deepEqualFields]
  | (key, a) :: as, bs => by
    rw [deepEqualFields, Bool.and_eq_true, deepEqualFields_iff as bs, List.forall_mem_cons]
    cases hlookup : bs.lookup key with
    | none => simp
    | some b => simp [deepEqual_iff a b]

end

mutual

theorem compareSubset_iff : (want got : Json) → (path : String) →
    (compareSubset want got path = none ↔ Within Near want got)
  | .object as, got, path => by
    rw [within_object_iff]
    cases got <;> simp only [compareSubset]
    case object bs =>
      rw [compareSubsetFields_iff as bs path]
      simp
    all_goals exact iff_of_false (by simp) fun ⟨bs, h, _⟩ => nomatch h
  | .array as, got, path => by
    rw [within_value_iff (a := .array as) (fun h => h)]
    cases got <;> simp only [compareSubset]
    case array bs =>
      rw [← deepEqualItems_iff as bs]
      cases deepEqualItems as bs <;> simp
    all_goals exact iff_of_false (by simp) fun h => nomatch h
  | .null, got, path => by
    rw [within_value_iff (a := .null) (fun h => h), ← deepEqual_iff]
    cases got <;> simp [compareSubset, deepEqual]
  | .bool a, got, path => by
    rw [within_value_iff (a := .bool a) (fun h => h), ← deepEqual_iff]
    cases got <;> simp [compareSubset, deepEqual]
  | .number a, got, path => by
    rw [within_value_iff (a := .number a) (fun h => h), ← deepEqual_iff]
    cases got <;> simp [compareSubset, deepEqual]
  | .string a, got, path => by
    rw [within_value_iff (a := .string a) (fun h => h), ← deepEqual_iff]
    cases got <;> simp [compareSubset, deepEqual]

theorem compareSubsetFields_iff : (as bs : List (String × Json)) → (path : String) →
    (compareSubsetFields as bs path = none ↔
      ∀ field ∈ as, ∃ b, bs.lookup field.1 = some b ∧ Within Near field.2 b)
  | [], _, _ => by simp [compareSubsetFields]
  | (key, a) :: as, bs, path => by
    rw [compareSubsetFields, List.forall_mem_cons]
    cases hlookup : bs.lookup key with
    | none => simp
    | some b =>
      simp only [Option.or_eq_none_iff, compareSubset_iff a b, compareSubsetFields_iff as bs path]
      simp

end

end Doupro.Json
