import Doupro.Registry.SemverCandidates
import Doupro.Scheduler.Check

/-!
# Stability of the candidates

Two checks of an unchanged registry store the same candidates, with the instants at which they
were detected, if the tags of the repository come to the same selection in every order.
-/

namespace Doupro.Table

variable {ρ κ : Type} [DecidableEq κ] {key : ρ → κ}

/-- An upsert that leaves every row of its key as it is changes nothing. -/
theorem upsert_eq_self {fresh : ρ} {f : ρ → ρ} {rows : List ρ}
    (hfound : ∃ r ∈ rows, key r = key fresh) (hsame : ∀ r ∈ rows, key r = key fresh → f r = r) :
    upsert key fresh f rows = rows := by
  have hsome : (lookup key (key fresh) rows).isSome = true := by
    rw [Option.isSome_iff_ne_none]
    intro hnone
    obtain ⟨r, hr, hkey⟩ := hfound
    exact lookup_eq_none.mp hnone r hr hkey
  rw [upsert, if_pos hsome]
  exact updateWhere_eq_self fun r hr hkey => hsame r hr (of_decide_eq_true hkey)

/-- After an upsert its key has a row. -/
theorem exists_upsert {fresh : ρ} {f : ρ → ρ} (hf : ∀ r, key (f r) = key fresh) (rows : List ρ) :
    ∃ r ∈ upsert key fresh f rows, key r = key fresh := by
  unfold upsert
  split
  · next hfound =>
    obtain ⟨r, hr⟩ := Option.isSome_iff_exists.mp hfound
    exact ⟨f r, mem_updateWhere.mpr ⟨r, lookup_mem hr, by simp [lookup_key hr]⟩, hf r⟩
  · exact ⟨fresh, by simp, rfl⟩

theorem upsert_kept {fresh : ρ} {f : ρ → ρ} {rows : List ρ} {r : ρ} (hr : r ∈ rows)
    (hkey : key r ≠ key fresh) : r ∈ upsert key fresh f rows := by
  unfold upsert
  split
  · exact mem_updateWhere.mpr ⟨r, hr, by simp [hkey]⟩
  · exact List.mem_append_left _ hr

end Doupro.Table

namespace Doupro.Store

variable {containerID : String}

/-- The rows hold a candidate, whenever it was detected, and no other under its key. -/
def Holds (containerID : String) (c : UpdateCandidate) (rows : List UpdateCandidate) : Prop :=
  (∃ r ∈ rows, candidateKey r = (containerID, c.scope)) ∧
    ∀ r ∈ rows, candidateKey r = (containerID, c.scope) →
      r = { c with containerID := containerID, detectedAt := r.detectedAt }

def upsertCandidate (containerID : String) (now : Time) (rows : List UpdateCandidate)
    (c : UpdateCandidate) : List UpdateCandidate :=
  Table.upsert candidateKey (detectedRow containerID now c) (redetectedRow containerID now c) rows

theorem candidateKey_detectedRow {now : Time} {c : UpdateCandidate} :
    candidateKey (detectedRow containerID now c) = (containerID, c.scope) := rfl

theorem Holds.upsert_self {now : Time} {c : UpdateCandidate} {rows : List UpdateCandidate}
    (h : Holds containerID c rows) : upsertCandidate containerID now rows c = rows := by
  apply Table.upsert_eq_self h.1
  intro r hr hkey
  have hrow := h.2 r hr hkey
  have himage : r.image = c.image := by rw [hrow]
  unfold redetectedRow
  rw [if_pos himage]
  exact hrow.symm

theorem holds_upsert (now : Time) (c : UpdateCandidate) (rows : List UpdateCandidate) :
    Holds containerID c (upsertCandidate containerID now rows c) := by
  constructor
  · have hkey : ∀ r, candidateKey (redetectedRow containerID now c r) =
        candidateKey (detectedRow containerID now c) := fun _ => rfl
    exact Table.exists_upsert hkey rows
  · intro r hr hkey
    rcases Table.mem_upsert candidateKey hr with rfl | ⟨old, -, -, rfl⟩ | ⟨-, hother⟩
    · rfl
    · rfl
    · exact absurd hkey hother

/-- An upsert of another scope leaves the row of a candidate. -/
theorem Holds.upsert_other {now : Time} {c other : UpdateCandidate} {rows : List UpdateCandidate}
    (h : Holds containerID c rows) (hscope : other.scope ≠ c.scope) :
    Holds containerID c (upsertCandidate containerID now rows other) := by
  have hkeys : (containerID, c.scope) ≠ candidateKey (detectedRow containerID now other) := by
    rw [candidateKey_detectedRow]
    exact fun heq => hscope (Prod.mk.inj heq).2.symm
  constructor
  · obtain ⟨r, hr, hkey⟩ := h.1
    exact ⟨r, Table.upsert_kept hr (hkey ▸ hkeys), hkey⟩
  · intro r hr hkey
    rcases Table.mem_upsert candidateKey hr with rfl | ⟨old, -, -, rfl⟩ | ⟨hold, -⟩
    · exact absurd hkey.symm hkeys
    · exact absurd hkey.symm hkeys
    · exact h.2 r hold hkey

theorem Holds.foldl_other {now : Time} {c : UpdateCandidate} {candidates rows : List UpdateCandidate}
    (h : Holds containerID c rows) (hscopes : ∀ other ∈ candidates, other.scope ≠ c.scope) :
    Holds containerID c (candidates.foldl (upsertCandidate containerID now) rows) := by
  induction candidates generalizing rows with
  | nil => exact h
  | cons first rest ih =>
    exact ih (h.upsert_other (hscopes first List.mem_cons_self))
      fun other hother => hscopes other (List.mem_cons_of_mem _ hother)

/-- After the upserts the rows hold every candidate. -/
theorem holds_foldl {now : Time} {candidates : List UpdateCandidate}
    (hscopes : (candidates.map UpdateCandidate.scope).Nodup) (rows : List UpdateCandidate) :
    ∀ c ∈ candidates,
      Holds containerID c (candidates.foldl (upsertCandidate containerID now) rows) := by
  induction candidates generalizing rows with
  | nil => exact fun c hc => nomatch hc
  | cons first rest ih =>
    obtain ⟨hfirst, hrest⟩ := List.nodup_cons.mp hscopes
    intro c hc
    rcases List.mem_cons.mp hc with rfl | hc
    · apply (holds_upsert now c rows).foldl_other
      intro other hother heq
      exact hfirst (heq ▸ List.mem_map_of_mem hother)
    · exact ih hrest _ c hc

theorem foldl_of_holds {now : Time} {candidates rows : List UpdateCandidate}
    (h : ∀ c ∈ candidates, Holds containerID c rows) :
    candidates.foldl (upsertCandidate containerID now) rows = rows := by
  induction candidates with
  | nil => rfl
  | cons first rest ih =>
    rw [List.foldl_cons, (h first List.mem_cons_self).upsert_self]
    exact ih fun c hc => h c (List.mem_cons_of_mem _ hc)

/-- The rows of the scopes without a candidate, deleted. -/
def withdrawOthers (containerID : String) (candidates rows : List UpdateCandidate) :
    List UpdateCandidate :=
  let unwanted := scopes.filter fun scope => !(candidates.map UpdateCandidate.scope).contains scope
  Table.deleteWhere (fun c => decide (c.containerID = containerID) && unwanted.contains c.scope) rows

theorem replaceUpdateCandidates_candidates (s : Store) (candidates : List UpdateCandidate)
    (now : Time) : (s.replaceUpdateCandidates containerID candidates now).candidates =
      withdrawOthers containerID candidates
        (candidates.foldl (upsertCandidate containerID now) s.candidates) := rfl

theorem withdrawOthers_again (candidates rows : List UpdateCandidate) :
    withdrawOthers containerID candidates (withdrawOthers containerID candidates rows) =
      withdrawOthers containerID candidates rows := by
  unfold withdrawOthers Table.deleteWhere
  rw [List.filter_filter]
  simp

theorem Holds.withdrawOthers {c : UpdateCandidate} {candidates rows : List UpdateCandidate}
    (h : Holds containerID c rows) (hc : c ∈ candidates) :
    Holds containerID c (withdrawOthers containerID candidates rows) := by
  constructor
  · obtain ⟨r, hr, hkey⟩ := h.1
    have hscope : r.scope = c.scope := (Prod.mk.inj hkey).2
    have hwanted : c.scope ∈ candidates.map UpdateCandidate.scope := List.mem_map_of_mem hc
    refine ⟨r, Table.mem_deleteWhere.mpr ⟨hr, ?_⟩, hkey⟩
    rw [hscope]
    simp [List.mem_map.mp hwanted]
  · intro r hr hkey
    exact h.2 r (Table.mem_deleteWhere.mp hr).1 hkey

/-- The same candidates, stored again later, change nothing. -/
theorem replaceUpdateCandidates_again (s : Store) {candidates : List UpdateCandidate}
    (hscopes : (candidates.map UpdateCandidate.scope).Nodup) (first second : Time) :
    (s.replaceUpdateCandidates containerID candidates first).replaceUpdateCandidates containerID
        candidates second = s.replaceUpdateCandidates containerID candidates first := by
  have hrows : ((s.replaceUpdateCandidates containerID candidates first).replaceUpdateCandidates
      containerID candidates second).candidates =
        (s.replaceUpdateCandidates containerID candidates first).candidates := by
    simp only [replaceUpdateCandidates_candidates]
    have hholds : ∀ c ∈ candidates, Holds containerID c (withdrawOthers containerID candidates
        (candidates.foldl (upsertCandidate containerID first) s.candidates)) :=
      fun c hc => (holds_foldl hscopes s.candidates c hc).withdrawOthers hc
    rw [foldl_of_holds hholds, withdrawOthers_again]
  unfold replaceUpdateCandidates at hrows ⊢
  simpa using hrows

end Doupro.Store

namespace Doupro.Scheduler

open Registry

/-- The candidates `compareDigests` stores for a container. -/
def foundCandidates (c : ListedContainer) (imageRef : String) (localDigests : List String)
    (moved : Bool) (tags : List Text) : List UpdateCandidate :=
  Store.scopes.filterMap (candidateOf c imageRef (parseRef imageRef) localDigests moved
    (tags.map String.ofList))

theorem candidateOf_scope {c : ListedContainer} {imageRef : String} {ref : Ref}
    {localDigests : List String} {moved : Bool} {tags : List String} {scope : String}
    {candidate : UpdateCandidate}
    (h : candidateOf c imageRef ref localDigests moved tags scope = some candidate) :
    candidate.scope = scope := by
  unfold candidateOf at h
  dsimp only at h
  split at h
  · rw [← Option.some.inj h]
  · split at h
    · rw [← Option.some.inj h]
    · exact nomatch h

theorem foundCandidates_scopes (c : ListedContainer) (imageRef : String)
    (localDigests : List String) (moved : Bool) (tags : List Text) :
    ((foundCandidates c imageRef localDigests moved tags).map UpdateCandidate.scope).Nodup := by
  have hsub : ((foundCandidates c imageRef localDigests moved tags).map
      UpdateCandidate.scope).Sublist Store.scopes := by
    unfold foundCandidates
    generalize Store.scopes = names
    induction names with
    | nil => exact .slnil
    | cons scope names ih =>
      rw [List.filterMap_cons]
      split
      · exact ih.cons scope
      · next candidate hfound =>
        rw [List.map_cons, candidateOf_scope hfound]
        exact ih.cons_cons scope
  exact hsub.nodup (by decide)

/-- The orders the tags of a repository may come in lead to one selection, and a second check
leaves the store of the first as it is. -/
def Stable (tags : List Text) (ref : Ref) : Prop :=
  ∀ first second : List Text, first.Perm tags → second.Perm tags →
    selectSemverCandidates first ref.tag = selectSemverCandidates second ref.tag ∧
    ∀ (s : Store) (c : ListedContainer) (imageRef : String) (localDigests : List String)
      (moved : Bool) (before after : Time), parseRef imageRef = ref →
      let checked := s.replaceUpdateCandidates c.id
        (foundCandidates c imageRef localDigests moved first) before
      checked.replaceUpdateCandidates c.id
        (foundCandidates c imageRef localDigests moved second) after = checked

theorem foundCandidates_congr {first second : List Text} {imageRef : String}
    (h : selectSemverCandidates first (parseRef imageRef).tag =
      selectSemverCandidates second (parseRef imageRef).tag) (c : ListedContainer)
    (localDigests : List String) (moved : Bool) :
    foundCandidates c imageRef localDigests moved first =
      foundCandidates c imageRef localDigests moved second := by
  have hscope : ∀ scope, selectSemverCandidate first (parseRef imageRef).tag scope =
      selectSemverCandidate second (parseRef imageRef).tag scope := by
    intro scope
    rw [selectSemverCandidates_eq, selectSemverCandidates_eq] at h
    cases hcurrent : parseSemanticVersion (parseRef imageRef).tag with
    | none => simp [selectSemverCandidate, hcurrent]
    | some current =>
      simp only [hcurrent, Option.map_some, Option.some.injEq] at h
      exact congrFun h scope
  have htexts : ∀ tags : List Text, (tags.map String.ofList).map String.toList = tags := by
    intro tags
    simp [List.map_map, Function.comp_def]
  unfold foundCandidates candidateOf
  simp only [htexts, hscope]

/-- The candidates are stable exactly if, for no scope, two different tags denote the greatest
version it allows. -/
theorem stable_iff (tags : List Text) (ref : Ref) :
    Stable tags ref ↔ ∀ current, parseSemanticVersion ref.tag = some current →
      ∀ scope, ¬ Ambiguous tags current scope := by
  rw [← selectSemverCandidates_order_iff]
  constructor
  · exact fun h first second hfirst hsecond => (h first second hfirst hsecond).1
  · intro h first second hfirst hsecond
    have hsame := h first second hfirst hsecond
    refine ⟨hsame, ?_⟩
    rintro s c imageRef localDigests moved before after rfl
    dsimp only
    rw [← foundCandidates_congr hsame c localDigests moved]
    exact Store.replaceUpdateCandidates_again s
      (foundCandidates_scopes c imageRef localDigests moved first) before after

/-- A release tagged with and without a `v`: the order of the tags picks the spelling. -/
theorem spelling_flips :
    ¬ ∀ (tags : List Text) (ref : Ref), tags.Nodup → Stable tags ref := by
  intro h
  have hflip := (h ["1.2.4".toList, "v1.2.4".toList]
    { registry := dockerHub, repository := "library/app".toList, tag := "1.2.3".toList }
    (by decide) ["1.2.4".toList, "v1.2.4".toList] ["v1.2.4".toList, "1.2.4".toList]
    (List.Perm.refl _) (List.Perm.swap _ _ _)).1
  simp only [selectSemverCandidates_eq] at hflip
  have hcurrent : parseSemanticVersion "1.2.3".toList = some ⟨1, 2, 3⟩ := by decide
  rw [hcurrent, Option.map_some, Option.map_some] at hflip
  have hpatch := congrFun (Option.some.inj hflip) "patch"
  exact absurd hpatch (by decide)

end Doupro.Scheduler
