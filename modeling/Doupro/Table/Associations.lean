import Mathlib.Data.List.Induction
import Mathlib.Data.List.Nodup

/-!
# Association lists

A map as the list of its entries, and what is found under a key after entries were put into it.
-/

namespace Doupro.Table

section Puts

variable {κ α : Type} [DecidableEq κ]

/-- An entry of a map set. -/
def put (k : κ) (v : α) (m : List (κ × α)) : List (κ × α) :=
  m.filter (fun entry => entry.1 ≠ k) ++ [(k, v)]

/-- The map of a list of entries, put into it one after the other. -/
def putAll (entries : List (κ × α)) : List (κ × α) :=
  entries.foldl (fun m entry => put entry.1 entry.2 m) []

end Puts

variable {κ α : Type} [BEq κ] [LawfulBEq κ]

/-! ### Lookups -/

theorem mem_of_lookup {k : κ} {v : α} {m : List (κ × α)} (h : m.lookup k = some v) :
    (k, v) ∈ m := by
  obtain ⟨before, behind, hm, -⟩ := List.lookup_eq_some_iff.mp h
  simp [hm]

theorem lookup_ne_none {k : κ} {v : α} {m : List (κ × α)} (h : (k, v) ∈ m) : m.lookup k ≠ none := by
  intro hnone
  have hne := List.lookup_eq_none_iff.mp hnone (k, v) h
  simp at hne

/-- Under distinct keys a lookup finds every entry. -/
theorem lookup_eq_some_of_nodup {m : List (κ × α)} (h : (m.map Prod.fst).Nodup) {k : κ} {v : α} :
    m.lookup k = some v ↔ (k, v) ∈ m := by
  refine ⟨mem_of_lookup, fun hmem => ?_⟩
  obtain ⟨other, hother⟩ := Option.ne_none_iff_exists'.mp (lookup_ne_none hmem)
  have heq := List.inj_on_of_nodup_map h (mem_of_lookup hother) hmem rfl
  rw [hother, (Prod.mk.inj heq).2]

/-! ### Maps -/

variable [DecidableEq κ]

/-- A lookup does not see that other keys are removed. -/
theorem lookup_filter_ne {k old : κ} (h : k ≠ old) (m : List (κ × α)) :
    (m.filter fun entry => entry.1 ≠ old).lookup k = m.lookup k := by
  induction m with
  | nil => rfl
  | cons entry m ih =>
    obtain ⟨held, v⟩ := entry
    by_cases hheld : held = old
    · have hk : (k == held) = false := by simpa [hheld] using h
      rw [List.filter_cons_of_neg (by simpa using hheld), List.lookup_cons, hk]
      exact ih
    · rw [List.filter_cons_of_pos (by simpa using hheld), List.lookup_cons, List.lookup_cons, ih]

theorem lookup_filter_self (k : κ) (m : List (κ × α)) :
    (m.filter fun entry => entry.1 ≠ k).lookup k = none := by
  rw [List.lookup_eq_none_iff]
  intro entry hentry
  have hne : entry.1 ≠ k := by simpa using (List.mem_filter.mp hentry).2
  simpa using Ne.symm hne

theorem lookup_put (k held : κ) (v : α) (m : List (κ × α)) :
    (put held v m).lookup k = if k = held then some v else m.lookup k := by
  unfold put
  rw [List.lookup_append]
  by_cases h : k = held
  · subst h
    rw [lookup_filter_self, if_pos rfl, List.lookup_cons, beq_self_eq_true]
    rfl
  · have hk : (k == held) = false := by simpa using h
    rw [lookup_filter_ne h, if_neg h, List.lookup_cons, hk]
    exact Option.or_none

/-- Of the entries with a key the last one stays. -/
theorem lookup_putAll (k : κ) (entries : List (κ × α)) :
    (putAll entries).lookup k = entries.reverse.lookup k := by
  induction entries using List.reverseRecOn with
  | nil => rfl
  | append_singleton entries entry ih =>
    rw [putAll, List.foldl_concat, List.reverse_concat, List.lookup_cons]
    refine (lookup_put k entry.1 entry.2 _).trans ?_
    by_cases h : k = entry.1
    · simp [h]
    · have hk : (k == entry.1) = false := by simpa using h
      rw [if_neg h, hk]
      exact ih

/-- Entries with distinct keys are their own map. -/
theorem lookup_putAll_of_nodup {entries : List (κ × α)} (h : (entries.map Prod.fst).Nodup) (k : κ) :
    (putAll entries).lookup k = entries.lookup k := by
  have hreverse : (entries.reverse.map Prod.fst).Nodup := by
    rw [List.map_reverse]
    exact List.nodup_reverse.mpr h
  rw [lookup_putAll]
  refine Option.ext fun v => ?_
  rw [lookup_eq_some_of_nodup hreverse, lookup_eq_some_of_nodup h, List.mem_reverse]

/-- A key that was put has a value, and every value was put under its key. -/
theorem lookup_putAll_of_mem {entries : List (κ × α)} {k : κ} {v : α} (h : (k, v) ∈ entries) :
    (putAll entries).lookup k ≠ none := by
  rw [lookup_putAll]
  exact lookup_ne_none (List.mem_reverse.mpr h)

theorem mem_of_lookup_putAll {entries : List (κ × α)} {k : κ} {v : α}
    (h : (putAll entries).lookup k = some v) : (k, v) ∈ entries := by
  rw [lookup_putAll] at h
  exact List.mem_reverse.mp (mem_of_lookup h)

end Doupro.Table
