import Doupro.Secrets.KeyFile

/-!
# Which texts hold a key

A key has a text of its own, whose end of line may be missing. Every shorter part of it holds no
key at all, so whoever reads the file while it is written cannot take a wrong one.
-/

namespace Doupro.Secrets

open Base64

/-- The key that the contents of a file stand for. -/
def keyOf (data : Bytes) : Option Key := (decodePadded (trimSpace data)).bind fun key =>
  (newCipher key).toOption

theorem trimStart_length_le (runes : List Bytes) (n : Nat) (text : Bytes) :
    (trimStart runes n text).length ≤ text.length := by
  induction n generalizing text with
  | zero => exact le_refl _
  | succ n ih =>
    unfold trimStart
    split
    · exact le_refl _
    · exact (ih _).trans (by simp)

theorem trimSpace_length_le (text : Bytes) : (trimSpace text).length ≤ text.length := by
  unfold trimSpace
  rw [List.length_reverse]
  exact (trimStart_length_le _ _ _).trans ((List.length_reverse).trans_le (trimStart_length_le _ _ _))

/-- A byte of a text that has no spaces. -/
abbrev Solid (c : UInt8) : Prop := 33 ≤ c ∧ c < 127

theorem trimStart_solid {runes : List Bytes} (hrunes : ∀ rune ∈ runes, ∃ c ∈ rune.head?, ¬ Solid c)
    (n : Nat) {text : Bytes} (htext : ∀ c ∈ text.head?, Solid c) : trimStart runes n text = text := by
  cases n with
  | zero => rfl
  | succ n =>
    have hnone : runes.find? (·.isPrefixOf text) = none := by
      rw [List.find?_eq_none]
      intro rune hrune hprefix
      obtain ⟨c, hc, hspace⟩ := hrunes rune hrune
      obtain ⟨tail, rfl⟩ := List.isPrefixOf_iff_prefix.mp hprefix
      apply hspace (htext c _)
      cases rune with
      | nil => cases hc
      | cons first rest => exact hc
    rw [trimStart, hnone]

theorem spaces_start : ∀ rune ∈ spaces, ∃ c ∈ rune.head?, ¬ Solid c := by decide

theorem spaces_end : ∀ rune ∈ spaces.map List.reverse, ∃ c ∈ rune.head?, ¬ Solid c := by decide

theorem trimSpace_solid {text : Bytes} (h : ∀ c ∈ text, Solid c) : trimSpace text = text := by
  have hstart : ∀ c ∈ text.head?, Solid c := fun c hc => h c (List.mem_of_mem_head? hc)
  have hend : ∀ c ∈ text.reverse.head?, Solid c :=
    fun c hc => h c (List.mem_reverse.mp (List.mem_of_mem_head? hc))
  rw [trimSpace, trimStart_solid spaces_start _ hstart, trimStart_solid spaces_end _ hend,
    List.reverse_reverse]

/-- A line end is taken off. -/
theorem trimSpace_line {text : Bytes} (h : ∀ c ∈ text, Solid c) : trimSpace (text ++ [10]) = text := by
  cases text with
  | nil => decide
  | cons c rest =>
    have hstart : ∀ x ∈ (c :: rest ++ [10]).head?, Solid x := by
      intro x hx
      cases hx
      exact h c List.mem_cons_self
    have hend : ∀ x ∈ (c :: rest).reverse.head?, Solid x :=
      fun x hx => h x (List.mem_reverse.mp (List.mem_of_mem_head? hx))
    have hline : (c :: rest ++ [10]).reverse = 10 :: (c :: rest).reverse := List.reverse_append
    rw [trimSpace, trimStart_solid spaces_start _ hstart, hline, List.length_append,
      List.length_singleton, trimStart]
    have hfound : (spaces.map List.reverse).find? (·.isPrefixOf (10 :: (c :: rest).reverse)) =
        some [10] := by
      simp [spaces]
    rw [hfound]
    change (trimStart _ _ (c :: rest).reverse).reverse = _
    rw [trimStart_solid spaces_end _ hend, List.reverse_reverse]

theorem length_fileText (key : Key) : (fileText key).length = 45 := by
  rw [fileText, List.length_append, length_encodePadded, key.property]
  rfl

/-- The text of a key holds it, with or without its line end. -/
theorem keyOf_take {key : Key} {n : Nat} (h : 44 ≤ n) : keyOf ((fileText key).take n) = some key := by
  have hlength : (encodePadded key.val).length = 44 := by
    rw [length_encodePadded, key.property]
  have hsolid := encodePadded_range key.val
  have htrim : trimSpace ((fileText key).take n) = encodePadded key.val := by
    by_cases hline : n = 44
    · rw [fileText, List.take_left' (hline ▸ hlength), trimSpace_solid hsolid]
    · rw [List.take_of_length_le (by rw [length_fileText]; omega), fileText, trimSpace_line hsolid]
  rw [keyOf, htrim, decodePadded_encodePadded, Option.bind_some, newCipher, dif_pos key.property]
  rfl

theorem length_of_keyOf {data : Bytes} {key : Key} (h : keyOf data = some key) : 44 ≤ data.length := by
  obtain ⟨bytes, hbytes, hnew⟩ := Option.bind_eq_some_iff.mp h
  have hlength : bytes.length = 32 := by
    unfold newCipher at hnew
    split at hnew
    · assumption
    · cases hnew
  have := length_decodePadded hbytes
  have := trimSpace_length_le data
  omega

/-- A part of the text of a key holds that key or none. -/
theorem keyOf_take_iff {key found : Key} {n : Nat} :
    keyOf ((fileText key).take n) = some found ↔ 44 ≤ n ∧ found = key := by
  constructor
  · intro h
    have hlength := length_of_keyOf h
    rw [List.length_take] at hlength
    have hn : 44 ≤ n := by omega
    rw [keyOf_take hn] at h
    exact ⟨hn, (Option.some.inj h).symm⟩
  · rintro ⟨hn, rfl⟩
    exact keyOf_take hn

end Doupro.Secrets
