import Doupro.Registry.Reference
import Doupro.Store.Containers
import Mathlib.Data.List.TakeWhile

/-!
# References of the tracked containers

`current_image` is the reference updates are looked up under. The updater and the statements
that write the column each have a test that tells a digest from a tag.
-/

namespace Doupro

/-! ### The two tests -/

namespace Registry

/-- The references Docker reports for a container: the ID of an image, a name with an optional
tag, a name with a digest. A name is tried as a digest first. -/
inductive Reported : List Char → Prop
  | identified {text : List Char} (hdigest : isDigest text = true)
    (hsha : "sha256:".toList.isPrefixOf text = true) : Reported text
  | named {text : List Char} (hspace : ∀ c ∈ text, isSpace c = false) (hat : '@' ∉ text)
    (hdigest : isDigest text = false) : Reported text
  | canonical {name digest : List Char} (hspace : ∀ c ∈ name, isSpace c = false) (hat : '@' ∉ name)
    (hdigest : isDigest digest = true) : Reported (name ++ '@' :: digest)

/-- A reference that starts like an image ID and is none: a shortened ID, or a name on a host
called `sha256`. -/
def LooksPinned (text : List Char) : Prop :=
  "sha256:".toList.isPrefixOf (text.map lowerRune) = true ∧ '@' ∉ text ∧ isDigest text = false

instance (text : List Char) : Decidable (LooksPinned text) :=
  inferInstanceAs (Decidable (_ ∧ _ ∧ _))

theorem digestLength_some {algorithm : List Char} {length : Nat}
    (h : digestLength algorithm = some length) :
    0 < length ∧ (algorithm = "sha256".toList ∨ algorithm = "sha384".toList ∨
      algorithm = "sha512".toList) := by
  unfold digestLength at h
  split at h
  · next halg => cases h; exact ⟨by decide, .inl halg⟩
  split at h
  · next halg => cases h; exact ⟨by decide, .inr (.inl halg)⟩
  split at h
  · next halg => cases h; exact ⟨by decide, .inr (.inr halg)⟩
  · cases h

theorem isDigest_split {text : List Char} (h : isDigest text = true) :
    ∃ algorithm encoded, text = algorithm ++ ':' :: encoded ∧
      (algorithm = "sha256".toList ∨ algorithm = "sha384".toList ∨
        algorithm = "sha512".toList) ∧ ∀ c ∈ encoded, isLowerHex c = true := by
  unfold isDigest at h
  dsimp only at h
  cases hlength : digestLength (text.takeWhile (· != ':')) with
  | none =>
    rw [hlength] at h
    cases h
  | some length =>
    rw [hlength] at h
    simp only [Bool.and_eq_true, decide_eq_true_eq, List.all_eq_true] at h
    obtain ⟨hlen, hhex⟩ := h
    obtain ⟨hpos, halg⟩ := digestLength_some hlength
    cases hrest : text.dropWhile (· != ':') with
    | nil =>
      rw [hrest] at hlen
      rw [← hlen] at hpos
      exact absurd hpos (by simp)
    | cons c rest =>
      have hc : c = ':' := by
        have hhead := List.head_dropWhile_not (p := (· != ':')) (l := text) (by simp [hrest])
        simpa [hrest] using hhead
      subst hc
      rw [hrest] at hhex
      have htext := List.takeWhile_append_dropWhile (p := (· != ':')) (l := text)
      rw [hrest] at htext
      exact ⟨_, rest, htext.symm, halg, hhex⟩

/-- A digest has no blanks and no `@`, and a colon after its algorithm. -/
theorem isDigest_plain {text : List Char} (h : isDigest text = true) :
    (∀ c ∈ text, isSpace c = false ∧ c ≠ '@') ∧ ':' ∈ text := by
  obtain ⟨algorithm, encoded, rfl, halg, hhex⟩ := isDigest_split h
  have hhex' : ∀ c : Char, isLowerHex c = true → isSpace c = false ∧ c ≠ '@' := by
    intro c hc
    have hrange : (48 ≤ c.toNat ∧ c.toNat ≤ 57) ∨ (97 ≤ c.toNat ∧ c.toNat ≤ 102) := by
      simpa [isLowerHex, Char.le_def, UInt32.le_iff_toNat_le] using hc
    constructor
    · unfold isSpace
      simp
      omega
    · rintro rfl
      simp at hrange
  have hletters : ∀ c ∈ algorithm ++ [':'], isSpace c = false ∧ c ≠ '@' := by
    have hall : (algorithm ++ [':']).all (fun c => !isSpace c && c != '@') = true := by
      rcases halg with rfl | rfl | rfl <;> decide
    intro c hc
    simpa using List.all_eq_true.mp hall c hc
  refine ⟨fun c hc => ?_, by simp⟩
  rcases List.mem_append.mp hc with hc | hc
  · exact hletters c (List.mem_append_left _ hc)
  · rcases List.mem_cons.mp hc with rfl | hc
    · exact hletters _ (List.mem_append_right _ List.mem_cons_self)
    · exact hhex' c (hhex c hc)

theorem isDigestReference_bare {text : List Char} (hspace : ∀ c ∈ text, isSpace c = false)
    (hat : '@' ∉ text) : isDigestReference (String.ofList text) = isDigest text := by
  have hwhole : text.reverse.takeWhile (· != '@') = text.reverse := by
    rw [List.takeWhile_eq_self_iff]
    intro c hc
    have hne : c ≠ '@' := fun h => hat (h ▸ List.mem_reverse.mp hc)
    simpa using hne
  simp [isDigestReference, trimSpace_eq hspace, hwhole]

theorem isDigestReference_canonical {name digest : List Char}
    (hspace : ∀ c ∈ name, isSpace c = false) (hdigest : isDigest digest = true) :
    isDigestReference (String.ofList (name ++ '@' :: digest)) = true := by
  obtain ⟨hplain, -⟩ := isDigest_plain hdigest
  have hall : ∀ c ∈ name ++ '@' :: digest, isSpace c = false := by
    intro c hc
    rcases List.mem_append.mp hc with hc | hc
    · exact hspace c hc
    · rcases List.mem_cons.mp hc with rfl | hc
      · decide
      · exact (hplain c hc).1
  have hlast : (name ++ '@' :: digest).reverse.takeWhile (· != '@') = digest.reverse := by
    rw [List.reverse_append, List.reverse_cons, List.append_assoc, List.takeWhile_append_of_pos]
    · simp
    · intro c hc
      simpa using (hplain c (List.mem_reverse.mp hc)).2
  simp only [isDigestReference, String.toList_ofList, trimSpace_eq hall, hlast, List.reverse_reverse,
    hdigest]

theorem lowerRune_eq_at {c : Char} (h : lowerRune c = '@') : c = '@' := by
  unfold lowerRune at h
  split at h
  · next hupper =>
    have hrange : 65 ≤ c.toNat ∧ c.toNat ≤ 90 := by
      simpa [Char.le_def, UInt32.le_iff_toNat_le] using hupper
    have hletters : ∀ n < 26, Char.ofNat (65 + n + 32) ≠ '@' := by decide
    refine absurd h ?_
    have hsum : c.toNat + 32 = 65 + (c.toNat - 65) + 32 := by omega
    rw [hsum]
    exact hletters _ (by omega)
  split at h
  · cases h
  split at h
  · cases h
  · exact h

end Registry

namespace Store

open Registry

theorem isDigestColumn_bare {text : List Char} (hat : '@' ∉ text) :
    isDigestColumn (String.ofList text) =
      "sha256:".toList.isPrefixOf (text.map lowerRune) := by
  have hnone : (text.map lowerRune).dropWhile (· ≠ '@') = [] := by
    rw [List.dropWhile_eq_nil_iff]
    intro c hc
    obtain ⟨d, hd, rfl⟩ := List.mem_map.mp hc
    have hne : lowerRune d ≠ '@' := fun h => hat (lowerRune_eq_at h ▸ hd)
    simpa using hne
  simp only [isDigestColumn, toLower, String.toList_ofList, hnone, List.contains_nil,
    Bool.or_false]

theorem isDigestColumn_canonical {name digest : List Char} (hcolon : ':' ∈ digest) :
    isDigestColumn (String.ofList (name ++ '@' :: digest)) = true := by
  have hmem : ':' ∈ ((name ++ '@' :: digest).map lowerRune).dropWhile (· ≠ '@') := by
    have hat : lowerRune '@' = '@' := by decide
    have hcol : lowerRune ':' = ':' := by decide
    rw [List.map_append, List.map_cons, hat]
    induction name with
    | nil =>
      rw [List.map_nil, List.nil_append, List.dropWhile_cons_of_neg (by simp)]
      exact List.mem_cons_of_mem _ (List.mem_map.mpr ⟨':', hcolon, hcol⟩)
    | cons c name ih =>
      by_cases hc : lowerRune c = '@'
      · rw [List.map_cons, hc, List.cons_append, List.dropWhile_cons_of_neg (by simp)]
        refine List.mem_cons_of_mem _ (List.mem_append_right _ (List.mem_cons_of_mem _ ?_))
        exact List.mem_map.mpr ⟨':', hcolon, hcol⟩
      · rw [List.map_cons, List.cons_append, List.dropWhile_cons_of_pos (by simpa using hc)]
        exact ih
  simp only [isDigestColumn, toLower, String.toList_ofList, Bool.or_eq_true]
  right
  simpa using hmem

/-- Both tests see a reported reference alike, unless it only starts like an image ID. -/
theorem tests_agree {text : List Char} (h : Reported text) :
    isDigestColumn (String.ofList text) = isDigestReference (String.ofList text) ↔
      ¬ LooksPinned text := by
  cases h with
  | identified hdigest hsha =>
    obtain ⟨hplain, -⟩ := isDigest_plain hdigest
    have hat : '@' ∉ text := fun hc => (hplain _ hc).2 rfl
    have hlower : "sha256:".toList.isPrefixOf (text.map lowerRune) = true := by
      rw [List.isPrefixOf_iff_prefix] at hsha ⊢
      obtain ⟨rest, rfl⟩ := hsha
      rw [List.map_append]
      exact ⟨rest.map lowerRune, rfl⟩
    rw [isDigestReference_bare (fun c hc => (hplain c hc).1) hat, isDigestColumn_bare hat, hlower,
      hdigest]
    simp [LooksPinned, hdigest]
  | named hspace hat hdigest =>
    rw [isDigestReference_bare hspace hat, isDigestColumn_bare hat, hdigest]
    simp only [LooksPinned, hat, hdigest, not_false_eq_true, and_true, Bool.not_eq_true]
  | @canonical name digest hspace hat hdigest =>
    rw [isDigestReference_canonical hspace hdigest,
      isDigestColumn_canonical (isDigest_plain hdigest).2]
    simp [LooksPinned]

/-! ### The stored reference -/

/-- The row a commit leaves under its new key, given the row that was there. -/
def committedRow (rec : ContainerRecord) : Option ContainerRecord → ContainerRecord
  | none => insertedRow rec
  | some old => replacedRow rec old

theorem getContainer_replaceContainer (s : Store) (oldID : String) (rec : ContainerRecord)
    (id : String) : (s.replaceContainer oldID rec).getContainer id =
      if id = rec.id then some (committedRow rec (s.getContainer id))
      else if id = oldID ∧ oldID ≠ "" then none else s.getContainer id := by
  have hkept : Table.lookup ContainerRecord.id id (keptRows s oldID rec) =
      if id = oldID ∧ oldID ≠ "" ∧ oldID ≠ rec.id then none else s.getContainer id := by
    unfold keptRows getContainer
    by_cases hold : oldID ≠ "" ∧ oldID ≠ rec.id
    · rw [if_pos hold, Table.lookup_deleteWhere]
      exact if_congr ⟨fun h => ⟨h, hold⟩, And.left⟩ rfl rfl
    · rw [if_neg hold, if_neg fun h => hold h.2]
  have hrow := Table.lookup_upsert ContainerRecord.id (insertedRow rec) (replacedRow rec)
    (fun _ => rfl) id (keptRows s oldID rec)
  refine hrow.trans ?_
  rw [hkept]
  by_cases hid : id = rec.id
  · have hno : ¬ (id = oldID ∧ oldID ≠ "" ∧ oldID ≠ rec.id) := fun h => h.2.2 (h.1.symm.trans hid)
    rw [if_pos hid, if_neg hno]
    change (if id = rec.id then _ else _) = _
    rw [if_pos hid]
    cases s.getContainer id <;> rfl
  · change (if id = rec.id then _ else _) = _
    rw [if_neg hid, if_neg hid]
    exact if_congr ⟨fun h => ⟨h.1, h.2.1⟩, fun h => ⟨h.1, h.2, fun hold => hid (h.1.trans hold)⟩⟩
      rfl rfl

theorem getContainer_upsertSeen (s : Store) (c : ContainerRecord) (id : String) :
    (s.upsertSeen c).getContainer id =
      if id = c.id then some ((s.getContainer id).elim (discoveredRow c) (seenRow c))
      else s.getContainer id :=
  Table.lookup_upsert ContainerRecord.id (discoveredRow c) (seenRow c) (fun _ => rfl) id s.containers

/-- The reference stored for a container. -/
def referenceOf (s : Store) (id : String) : Option String :=
  (s.getContainer id).map ContainerRecord.currentImage

theorem referenceOf_replaceContainer (s : Store) (oldID : String) (rec : ContainerRecord)
    (id : String) : (s.replaceContainer oldID rec).referenceOf id =
      if id = rec.id then some rec.currentImage
      else if id = oldID ∧ oldID ≠ "" then none else s.referenceOf id := by
  unfold referenceOf
  rw [getContainer_replaceContainer]
  split
  · cases s.getContainer id <;> rfl
  · split <;> rfl

/-- What discovery stores for a container that is tracked under a reference. -/
theorem referenceOf_upsertSeen {s : Store} {c : ContainerRecord} {stored : String}
    (h : s.referenceOf c.id = some stored) : (s.upsertSeen c).referenceOf c.id =
      if isDigestColumn c.currentImage ∧ stored ≠ "" ∧ ¬ isDigestColumn stored then some stored
      else some c.currentImage := by
  obtain ⟨old, hold, rfl⟩ := Option.map_eq_some_iff.mp h
  unfold referenceOf
  rw [getContainer_upsertSeen, if_pos rfl, hold]
  simp only [Option.elim_some, Option.map_some, seenRow]
  split <;> rfl

theorem referenceOf_upsertSeen_ne (s : Store) {c : ContainerRecord} {id : String} (h : id ≠ c.id) :
    (s.upsertSeen c).referenceOf id = s.referenceOf id := by
  unfold referenceOf
  rw [getContainer_upsertSeen, if_neg h]

end Store
end Doupro
