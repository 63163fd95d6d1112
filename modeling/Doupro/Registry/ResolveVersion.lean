import Doupro.Registry.SemverCandidates

/-!
# The version of a digest

`ResolveVersion` keeps the most specific plain version tag of a digest: the one with the most
components and, among those, the shortest. Two tags may be equally specific; then the order of the
map decides.
-/

namespace Doupro.Registry

open Text

/-- A tag of plain version shape that is no floating alias. -/
def isPlainVersion (name : String) : Bool := !floating name.toList && versionTagPattern name.toList

/-- The dot-separated components of a tag. -/
def components (name : String) : Nat := name.toList.count '.' + 1

/-- The plain version tags of a digest, in the order of the map. -/
def versionsOf (tags : List (String × String)) (target : String) : List String :=
  (tags.filter fun entry => entry.2 = target && isPlainVersion entry.1).map Prod.fst

theorem mem_versionsOf {tags : List (String × String)} {target name : String} :
    name ∈ versionsOf tags target ↔ (name, target) ∈ tags ∧ isPlainVersion name = true := by
  simp only [versionsOf, List.mem_map, List.mem_filter, Bool.and_eq_true, decide_eq_true_eq,
    Prod.exists, exists_and_right, exists_eq_right]
  constructor
  · rintro ⟨digest, hmem, rfl, hplain⟩
    exact ⟨hmem, hplain⟩
  · rintro ⟨hmem, hplain⟩
    exact ⟨target, hmem, rfl, hplain⟩

/-- More components come first, then fewer characters. -/
def specificity (name : String) : ℕ ×ₗ ℕᵒᵈ := toLex (components name, OrderDual.toDual name.length)

theorem specificity_lt {a b : String} : specificity a < specificity b ↔
    components a < components b ∨ (components a = components b ∧ b.length < a.length) := by
  simp [specificity, Prod.Lex.toLex_lt_toLex]

theorem specificity_le {a b : String} : specificity a ≤ specificity b ↔
    components a < components b ∨ (components a = components b ∧ b.length ≤ a.length) := by
  simp [specificity, Prod.Lex.toLex_le_toLex]

/-- The loop finds the first of the most specific tags. -/
theorem resolveVersion_eq {tags : List (String × String)} {target : String} (htarget : target ≠ "") :
    resolveVersion tags target = (versionsOf tags target).argmax specificity := by
  unfold resolveVersion
  rw [if_neg htarget]
  induction tags using List.reverseRecOn with
  | nil => rfl
  | append_singleton tags entry ih =>
    obtain ⟨name, digest⟩ := entry
    have hsplit : versionsOf (tags ++ [(name, digest)]) target =
        versionsOf tags target ++ versionsOf [(name, digest)] target := by
      simp [versionsOf]
    rw [List.foldl_append, ih, hsplit, List.foldl_cons, List.foldl_nil]
    dsimp only
    by_cases hok : (digest = target && isPlainVersion name) = true
    · have hkept : ¬ (digest ≠ target ∨ floating name.toList = true ∨
          ¬ versionTagPattern name.toList = true) := by
        simpa [isPlainVersion] using hok
      have hone : versionsOf [(name, digest)] target = [name] := by simp [versionsOf, hok]
      rw [hone, List.argmax_concat, if_neg hkept]
      cases hbest : (versionsOf tags target).argmax specificity with
      | none => rfl
      | some best =>
        dsimp only
        refine if_congr ?_ rfl rfl
        rw [specificity_lt, components, components]
        omega
    · have hskipped : digest ≠ target ∨ floating name.toList = true ∨
          ¬ versionTagPattern name.toList = true := by
        by_contra hnot
        exact hok (by simpa [isPlainVersion] using hnot)
      have hnone : versionsOf [(name, digest)] target = [] := by simp [versionsOf, hok]
      rw [hnone, List.append_nil, if_pos hskipped]

@[simp] theorem resolveVersion_empty (tags : List (String × String)) : resolveVersion tags "" = none :=
  rfl

/-- A match is reported exactly for a digest with a plain version tag. -/
theorem isSome_resolveVersion {tags : List (String × String)} {target : String} :
    (resolveVersion tags target).isSome = true ↔
      target ≠ "" ∧ ∃ name, (name, target) ∈ tags ∧ isPlainVersion name = true := by
  by_cases htarget : target = ""
  · simp [htarget]
  · have hnonempty : versionsOf tags target ≠ [] ↔ ∃ name, name ∈ versionsOf tags target :=
      ⟨List.exists_mem_of_ne_nil _, fun h => List.ne_nil_of_mem h.choose_spec⟩
    rw [resolveVersion_eq htarget, Option.isSome_iff_ne_none, ne_eq, List.argmax_eq_none, ← ne_eq,
      hnonempty]
    simp [mem_versionsOf, htarget]

/-- A tag of a digest with the largest number of components and, among those, the smallest length. -/
def MostSpecific (tags : List (String × String)) (target name : String) : Prop :=
  ((name, target) ∈ tags ∧ isPlainVersion name = true) ∧
    ∀ other, (other, target) ∈ tags → isPlainVersion other = true →
      components other < components name ∨
        (components other = components name ∧ name.length ≤ other.length)

theorem mostSpecific_iff {tags : List (String × String)} {target name : String} :
    MostSpecific tags target name ↔ name ∈ versionsOf tags target ∧
      ∀ other ∈ versionsOf tags target, specificity other ≤ specificity name := by
  unfold MostSpecific
  simp only [mem_versionsOf, specificity_le, and_imp]

theorem resolveVersion_mostSpecific {tags : List (String × String)} {target name : String}
    (h : resolveVersion tags target = some name) : MostSpecific tags target name := by
  have htarget : target ≠ "" := by
    rintro rfl
    cases h
  rw [resolveVersion_eq htarget] at h
  exact mostSpecific_iff.mpr ⟨List.argmax_mem h, fun other hother => List.le_of_mem_argmax hother h⟩

/-- Two tags of a digest that nothing is more specific than. -/
def Tied (tags : List (String × String)) (target : String) : Prop :=
  ∃ a b, a ≠ b ∧ MostSpecific tags target a ∧ MostSpecific tags target b

/-- In every order of a map: a match is a plain version tag of the digest, there is one if the
digest has such a tag, it is a most specific one, and it is the same one. -/
def WellDefined (tags : List (String × String)) (target : String) : Prop :=
  ∀ order : List (String × String), order.Perm tags →
    ((resolveVersion order target).isSome = true ↔
      target ≠ "" ∧ ∃ name, (name, target) ∈ tags ∧ isPlainVersion name = true) ∧
    (∀ name, resolveVersion order target = some name → MostSpecific tags target name) ∧
    resolveVersion order target = resolveVersion tags target

theorem versionsOf_perm {order tags : List (String × String)} (h : order.Perm tags) (target : String) :
    (versionsOf order target).Perm (versionsOf tags target) :=
  (h.filter _).map _

theorem mostSpecific_perm {order tags : List (String × String)} (h : order.Perm tags)
    {target name : String} : MostSpecific order target name ↔ MostSpecific tags target name := by
  simp only [MostSpecific, h.mem_iff]

/-- A most specific tag that the map yields first is the one found. -/
theorem resolveVersion_first {tags : List (String × String)} {target name : String}
    (htarget : target ≠ "") (h : MostSpecific tags target name) :
    resolveVersion ((name, target) :: tags.erase (name, target)) target = some name := by
  have hperm : ((name, target) :: tags.erase (name, target)).Perm tags :=
    (List.perm_cons_erase h.1.1).symm
  have hgreatest := (mostSpecific_iff.mp ((mostSpecific_perm hperm).mpr h)).2
  rw [resolveVersion_eq htarget]
  have hcons : versionsOf ((name, target) :: tags.erase (name, target)) target =
      name :: versionsOf (tags.erase (name, target)) target := by
    simp [versionsOf, h.1.2]
  rw [hcons] at hgreatest ⊢
  exact argmax_cons_greatest fun other hother => hgreatest other (List.mem_cons_of_mem name hother)

/-- The version of a digest is well defined exactly if no two of its tags are tied. -/
theorem resolveVersion_wellDefined_iff (tags : List (String × String)) (target : String) :
    WellDefined tags target ↔ target = "" ∨ ¬ Tied tags target := by
  constructor
  · intro h
    by_cases htarget : target = ""
    · exact .inl htarget
    refine .inr ?_
    rintro ⟨a, b, hne, ha, hb⟩
    have hfirst := (h _ (List.perm_cons_erase ha.1.1).symm).2.2
    have hsecond := (h _ (List.perm_cons_erase hb.1.1).symm).2.2
    rw [resolveVersion_first htarget ha] at hfirst
    rw [resolveVersion_first htarget hb, ← hfirst] at hsecond
    exact hne (Option.some.inj hsecond).symm
  · intro h order hperm
    refine ⟨?_, fun name hname => ?_, ?_⟩
    · rw [isSome_resolveVersion]
      simp only [hperm.mem_iff]
    · exact (mostSpecific_perm hperm).mp (resolveVersion_mostSpecific hname)
    · rcases h with rfl | htied
      · rfl
      by_cases htarget : target = ""
      · rw [htarget]
        rfl
      rw [resolveVersion_eq htarget, resolveVersion_eq htarget]
      apply argmax_perm (versionsOf_perm hperm target)
      intro a ha b hb hgreatest hsame
      by_contra hne
      exact htied ⟨a, b, hne, mostSpecific_iff.mpr ⟨ha, hgreatest⟩,
        mostSpecific_iff.mpr ⟨hb, hsame ▸ hgreatest⟩⟩

/-- A build published as 1.2.3 and as 1.2.4 is either, as the map happens to be walked. -/
theorem resolveVersion_flips :
    ¬ WellDefined [("1.2.3", "sha256:a"), ("1.2.4", "sha256:a")] "sha256:a" := by
  intro h
  have hsame := (h [("1.2.4", "sha256:a"), ("1.2.3", "sha256:a")] (.swap _ _ _)).2.2
  revert hsame
  decide

end Doupro.Registry
