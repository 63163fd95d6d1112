import Mathlib.Data.List.Nodup

/-!
# Keyed tables

A table is a list of rows with a key. Statements of a single-writer database
act on it as plain list functions; the lemmas say what a lookup by key sees
after each of them.
-/

namespace Doupro.Table

variable {ρ κ : Type} [DecidableEq κ] (key : ρ → κ)

/-- The first row stored under a key. -/
def lookup (k : κ) (rows : List ρ) : Option ρ := rows.find? fun r => decide (key r = k)

/-- `UPDATE ... SET f WHERE p`. -/
def updateWhere (p : ρ → Bool) (f : ρ → ρ) (rows : List ρ) : List ρ :=
  rows.map fun r => if p r then f r else r

/-- `DELETE ... WHERE p`. -/
def deleteWhere (p : ρ → Bool) (rows : List ρ) : List ρ := rows.filter fun r => !p r

/-- `INSERT fresh ON CONFLICT(key) DO UPDATE SET f`. -/
def upsert (fresh : ρ) (f : ρ → ρ) (rows : List ρ) : List ρ :=
  if (lookup key (key fresh) rows).isSome then
    updateWhere (fun r => decide (key r = key fresh)) f rows
  else rows ++ [fresh]

variable {key} in
theorem lookup_key {k : κ} {rows : List ρ} {r : ρ} (h : lookup key k rows = some r) : key r = k := by
  have hp := List.find?_some h
  simpa using hp

variable {key} in
theorem lookup_mem {k : κ} {rows : List ρ} {r : ρ} (h : lookup key k rows = some r) : r ∈ rows :=
  List.mem_of_find?_eq_some h

variable {key} in
theorem lookup_eq_none {k : κ} {rows : List ρ} :
    lookup key k rows = none ↔ ∀ r ∈ rows, key r ≠ k := by
  simp [lookup, List.find?_eq_none]

theorem mem_updateWhere {p : ρ → Bool} {f : ρ → ρ} {rows : List ρ} {r : ρ} :
    r ∈ updateWhere p f rows ↔ ∃ old ∈ rows, (if p old then f old else old) = r :=
  List.mem_map

theorem updateWhere_cons (p : ρ → Bool) (f : ρ → ρ) (r : ρ) (rows : List ρ) :
    updateWhere p f (r :: rows) = (if p r then f r else r) :: updateWhere p f rows := rfl

/-- An update that changes none of the rows it is about changes nothing. -/
theorem updateWhere_eq_self {p : ρ → Bool} {f : ρ → ρ} {rows : List ρ}
    (h : ∀ r ∈ rows, p r = true → f r = r) : updateWhere p f rows = rows := by
  have hsame : ∀ r ∈ rows, (if p r then f r else r) = r := by
    intro r hr
    split
    · next hp => exact h r hr hp
    · rfl
  exact (List.map_congr_left hsame).trans (List.map_id' rows)

/-- A column that an update does not set is as before. -/
theorem map_updateWhere {σ : Type} {g : ρ → σ} (p : ρ → Bool) {f : ρ → ρ} (hf : ∀ r, g (f r) = g r)
    (rows : List ρ) : (updateWhere p f rows).map g = rows.map g := by
  unfold updateWhere
  rw [List.map_map]
  refine List.map_congr_left fun r _ => ?_
  rw [Function.comp_apply, apply_ite g, hf, ite_self]

theorem mem_deleteWhere {p : ρ → Bool} {rows : List ρ} {r : ρ} :
    r ∈ deleteWhere p rows ↔ r ∈ rows ∧ p r = false := by
  simp [deleteWhere]

/-- An update that keeps the keys of the rows it changes acts on the row a lookup finds. -/
theorem lookup_updateWhere_of {p : ρ → Bool} {f : ρ → ρ} (hf : ∀ r, p r = true → key (f r) = key r)
    (k : κ) (rows : List ρ) :
    lookup key k (updateWhere p f rows) =
      (lookup key k rows).map fun r => if p r then f r else r := by
  induction rows with
  | nil => rfl
  | cons r rows ih =>
    have hkey : key (if p r then f r else r) = key r := by
      split
      · next hp => exact hf r hp
      · rfl
    simp only [lookup, updateWhere, List.map_cons, List.find?_cons, hkey] at ih ⊢
    by_cases h : key r = k
    · simp [h]
    · simp [h, ih]

theorem lookup_updateWhere (p : ρ → Bool) (f : ρ → ρ) (hf : ∀ r, key (f r) = key r) (k : κ)
    (rows : List ρ) :
    lookup key k (updateWhere p f rows) =
      (lookup key k rows).map fun r => if p r then f r else r :=
  lookup_updateWhere_of key (fun r _ => hf r) k rows

/-- A lookup finds nothing under a key whose rows are all deleted, and what it found under one
whose rows all stay. -/
theorem lookup_deleteWhere_of {p : ρ → Bool} {k : κ} {gone : Bool} (hp : ∀ r, key r = k → p r = gone)
    (rows : List ρ) :
    lookup key k (deleteWhere p rows) = if gone then none else lookup key k rows := by
  induction rows with
  | nil => simp [lookup, deleteWhere]
  | cons r rows ih =>
    simp only [lookup, deleteWhere] at ih ⊢
    by_cases hkey : key r = k
    · have hr := hp r hkey
      cases gone with
      | true => simpa [hr] using ih
      | false => simp [hr, hkey]
    · by_cases hr : p r = true
      · simp [hr, hkey, ih]
      · simp [hr, hkey, ih]

/-- A lookup does not find the rows of a deleted key. -/
theorem lookup_deleteWhere (old k : κ) (rows : List ρ) :
    lookup key k (deleteWhere (fun r => decide (key r = old)) rows) =
      if k = old then none else lookup key k rows := by
  have hgone : ∀ r, key r = k → decide (key r = old) = decide (k = old) := by
    rintro r rfl
    rfl
  rw [lookup_deleteWhere_of key hgone rows]
  simp

variable {key} in
theorem lookup_append_fresh {k : κ} {rows : List ρ} {fresh : ρ} :
    lookup key k (rows ++ [fresh]) =
      (lookup key k rows).or (if key fresh = k then some fresh else none) := by
  simp only [lookup, List.find?_append, List.find?_cons, List.find?_nil]
  by_cases h : key fresh = k <;> simp [h]

theorem upsert_fresh {fresh : ρ} {rows : List ρ} (h : ∀ r ∈ rows, key r ≠ key fresh) (f : ρ → ρ) :
    upsert key fresh f rows = rows ++ [fresh] := by
  unfold upsert
  rw [lookup_eq_none.mpr h]
  rfl

theorem mem_upsert {fresh : ρ} {f : ρ → ρ} {rows : List ρ} {r : ρ}
    (h : r ∈ upsert key fresh f rows) :
    r = fresh ∨ (∃ old ∈ rows, key old = key fresh ∧ r = f old) ∨ (r ∈ rows ∧ key r ≠ key fresh) := by
  unfold upsert at h
  split at h
  · obtain ⟨old, hold, rfl⟩ := mem_updateWhere.mp h
    by_cases hkey : key old = key fresh
    · exact .inr (.inl ⟨old, hold, hkey, by simp [hkey]⟩)
    · exact .inr (.inr ⟨by simpa [hkey] using hold, by simp [hkey]⟩)
  · next hnone =>
    have hnone : lookup key (key fresh) rows = none := by simpa using hnone
    rcases List.mem_append.mp h with hold | hnew
    · exact .inr (.inr ⟨hold, lookup_eq_none.mp hnone r hold⟩)
    · exact .inl (List.mem_singleton.mp hnew)

/-- The row under a key after an upsert that keeps it. -/
theorem lookup_upsert_of {fresh : ρ} {f : ρ → ρ} (hf : ∀ r, key r = key fresh → key (f r) = key fresh)
    (k : κ) (rows : List ρ) : lookup key k (upsert key fresh f rows) =
      if k = key fresh then some ((lookup key k rows).elim fresh f) else lookup key k rows := by
  have hkeeps : ∀ r, decide (key r = key fresh) = true → key (f r) = key r := by
    intro r hr
    have hr : key r = key fresh := by simpa using hr
    rw [hf r hr, hr]
  unfold upsert
  split
  · next h =>
    rw [lookup_updateWhere_of key hkeeps]
    cases hr : lookup key k rows with
    | none =>
      have hk : k ≠ key fresh := by
        rintro rfl
        rw [hr] at h
        cases h
      simp [hk]
    | some r =>
      have hkey := lookup_key hr
      by_cases hk : k = key fresh <;> simp [hkey, hk]
  · next h =>
    have hn : lookup key (key fresh) rows = none := by simpa using h
    rw [lookup_append_fresh]
    by_cases hk : k = key fresh
    · subst hk
      simp [hn]
    · simp [hk, Ne.symm hk]

theorem lookup_upsert (fresh : ρ) (f : ρ → ρ) (hf : ∀ r, key (f r) = key r) (k : κ)
    (rows : List ρ) : lookup key k (upsert key fresh f rows) =
      if k = key fresh then some ((lookup key k rows).elim fresh f) else lookup key k rows :=
  lookup_upsert_of key (fun r hr => (hf r).trans hr) k rows

theorem lookup_upsert_self (fresh : ρ) (f : ρ → ρ) (hf : ∀ r, key (f r) = key r)
    (rows : List ρ) :
    lookup key (key fresh) (upsert key fresh f rows) =
      some (((lookup key (key fresh) rows).map f).getD fresh) := by
  rw [lookup_upsert key fresh f hf, if_pos rfl]
  cases lookup key (key fresh) rows <;> rfl

theorem lookup_upsert_ne (fresh : ρ) (f : ρ → ρ) (hf : ∀ r, key (f r) = key r) {k : κ}
    (hk : key fresh ≠ k) (rows : List ρ) :
    lookup key k (upsert key fresh f rows) = lookup key k rows := by
  rw [lookup_upsert key fresh f hf, if_neg (Ne.symm hk)]

/-! ### Primary keys -/

variable {key} in
/-- Under a primary key a lookup finds every row. -/
theorem lookup_of_mem {rows : List ρ} (h : (rows.map key).Nodup) {r : ρ} (hr : r ∈ rows) :
    lookup key (key r) rows = some r := by
  cases hfound : lookup key (key r) rows with
  | none => exact absurd rfl (lookup_eq_none.mp hfound r hr)
  | some other =>
    rw [List.inj_on_of_nodup_map h (lookup_mem hfound) hr (lookup_key hfound)]

omit [DecidableEq κ] in
theorem unique_updateWhere (p : ρ → Bool) (f : ρ → ρ) (hf : ∀ r, key (f r) = key r) {rows : List ρ}
    (h : (rows.map key).Nodup) : ((updateWhere p f rows).map key).Nodup := by
  rw [map_updateWhere p hf]
  exact h

omit [DecidableEq κ] in
theorem unique_deleteWhere (p : ρ → Bool) {rows : List ρ} (h : (rows.map key).Nodup) :
    ((deleteWhere p rows).map key).Nodup :=
  h.sublist (List.filter_sublist.map _)

theorem unique_upsert (fresh : ρ) (f : ρ → ρ) (hf : ∀ r, key (f r) = key r) {rows : List ρ}
    (h : (rows.map key).Nodup) : ((upsert key fresh f rows).map key).Nodup := by
  unfold upsert
  split
  · exact unique_updateWhere key _ f hf h
  · next hnone =>
    have hnone : lookup key (key fresh) rows = none := by simpa using hnone
    have hfresh : key fresh ∉ rows.map key := by
      intro hmem
      obtain ⟨r, hr, heq⟩ := List.mem_map.mp hmem
      exact lookup_eq_none.mp hnone r hr heq
    simpa using (List.nodup_concat _ _).mpr ⟨hfresh, h⟩

omit [DecidableEq κ] in
/-- Two tables have as many marked rows if the same keys are marked in them. -/
theorem countP_eq_countP {σ : Type} {key : ρ → κ} {key' : σ → κ} {rows : List ρ} {rows' : List σ}
    (h : (rows.map key).Nodup) (h' : (rows'.map key').Nodup) {p : ρ → Bool} {q : σ → Bool}
    (hsame : ∀ k, (∃ r ∈ rows, p r = true ∧ key r = k) ↔ ∃ r ∈ rows', q r = true ∧ key' r = k) :
    rows.countP p = rows'.countP q := by
  have hperm : ((rows.filter p).map key).Perm ((rows'.filter q).map key') := by
    apply (List.perm_ext_iff_of_nodup (h.sublist (List.filter_sublist.map _))
      (h'.sublist (List.filter_sublist.map _))).mpr
    intro k
    simpa [and_assoc] using hsame k
  have hlength := hperm.length_eq
  rwa [List.length_map, List.length_map, ← List.countP_eq_length_filter,
    ← List.countP_eq_length_filter] at hlength

/-! ### Rows that a statement does not touch -/

section Untouched

variable {q : ρ → Bool}

omit [DecidableEq κ] in
theorem filter_updateWhere {p : ρ → Bool} {f : ρ → ρ}
    (h : ∀ r, p r = true → q r = false ∧ q (f r) = false) (rows : List ρ) :
    (updateWhere p f rows).filter q = rows.filter q := by
  induction rows with
  | nil => rfl
  | cons r rows ih =>
    rw [updateWhere_cons, List.filter_cons, List.filter_cons, ih]
    by_cases hp : p r = true
    · simp [hp, h r hp]
    · simp [hp]

omit [DecidableEq κ] in
theorem filter_deleteWhere {p : ρ → Bool} (h : ∀ r, p r = true → q r = false) (rows : List ρ) :
    (deleteWhere p rows).filter q = rows.filter q := by
  unfold deleteWhere
  rw [List.filter_filter]
  refine List.filter_congr fun r _ => ?_
  by_cases hp : p r = true
  · simp [h r hp]
  · simp [hp]

variable {key} in
theorem filter_upsert {fresh : ρ} {f : ρ → ρ} (hfresh : q fresh = false)
    (h : ∀ r, key r = key fresh → q r = false ∧ q (f r) = false) (rows : List ρ) :
    (upsert key fresh f rows).filter q = rows.filter q := by
  unfold upsert
  split
  · exact filter_updateWhere (fun r hr => h r (of_decide_eq_true hr)) rows
  · simp [hfresh]

end Untouched

end Doupro.Table
