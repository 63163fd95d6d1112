import Doupro.Registry.Semver
import Mathlib.Data.List.MinMax
import Mathlib.Data.Prod.Lex
import Mathlib.Order.Basic

/-!
# The newest version of each scope

The loop of `SelectSemverCandidates` over the tags of a repository, with its three scopes at once.
A tag denotes a version by the digits it writes; among the tags a scope allows the loop keeps the
first that denotes the greatest version.
-/

namespace Doupro

theorem isSome_digitValue (c : Char) : (digitValue c).isSome = URL.isDigit c := by
  unfold digitValue URL.isDigit
  by_cases hlow : '0' ≤ c <;> by_cases hhigh : c ≤ '9' <;> simp [hlow, hhigh]

theorem isSome_digitsValue (acc : Nat) (digits : List Char) :
    (digitsValue acc digits).isSome = digits.all URL.isDigit := by
  induction digits generalizing acc with
  | nil => rfl
  | cons c digits ih =>
    rw [digitsValue, List.all_cons, ← isSome_digitValue]
    cases digitValue c with
    | none => rfl
    | some d => simpa using ih (acc * 10 + d)

/-- Decimal digits, at least one, are what has a value. -/
theorem isSome_unsignedValue (digits : Text) :
    (unsignedValue digits).isSome = Registry.allOf URL.isDigit digits := by
  cases digits with
  | nil => rfl
  | cons c digits => simpa [unsignedValue, Registry.allOf] using isSome_digitsValue 0 (c :: digits)

end Doupro

namespace Doupro.Registry

open Text

/-! ### The version a tag denotes -/

namespace SemanticVersion

/-- The numbers of a version, the major one first. -/
def key (v : SemanticVersion) : ℕ ×ₗ ℕ ×ₗ ℕ := toLex (v.major, toLex (v.minor, v.patch))

theorem key_injective : Function.Injective key := by
  intro v w h
  cases v
  cases w
  simpa [key] using h

instance : LinearOrder SemanticVersion := LinearOrder.lift' key key_injective

theorem lt_iff {v w : SemanticVersion} :
    v < w ↔ v.major < w.major ∨
      (v.major = w.major ∧ (v.minor < w.minor ∨ (v.minor = w.minor ∧ v.patch < w.patch))) := by
  change key v < key w ↔ _
  simp [key, Prod.Lex.toLex_lt_toLex]

theorem greater_iff {v w : SemanticVersion} : v.greater w = true ↔ w < v := by
  rw [lt_iff]
  unfold greater
  split
  · next hmajor => simp [Ne.symm hmajor]
  · next hmajor =>
    simp only [ne_eq, Decidable.not_not] at hmajor
    split
    · next hminor => simp [hmajor, Ne.symm hminor]
    · next hminor =>
      simp only [ne_eq, Decidable.not_not] at hminor
      simp [hmajor, hminor]

end SemanticVersion

/-- The three numbers a tag writes, after an optional `v` and with dots between them. -/
def Denotes (tag : Text) (v : SemanticVersion) : Prop :=
  ∃ major minor patch : Text,
    (tag = major ++ '.' :: (minor ++ '.' :: patch) ∨
      tag = 'v' :: (major ++ '.' :: (minor ++ '.' :: patch))) ∧
    unsignedValue major = some v.major ∧ unsignedValue minor = some v.minor ∧
    unsignedValue patch = some v.patch

/-- A version whose numbers fit the machine's integers. -/
def SemanticVersion.Fits (v : SemanticVersion) : Prop :=
  v.major < 2 ^ 63 ∧ v.minor < 2 ^ 63 ∧ v.patch < 2 ^ 63

instance (v : SemanticVersion) : Decidable v.Fits := inferInstanceAs (Decidable (_ ∧ _ ∧ _))

theorem isDigit_of_value {digits : Text} {n : Nat} (h : unsignedValue digits = some n) :
    digits ≠ [] ∧ ∀ c ∈ digits, URL.isDigit c = true := by
  have hall : allOf URL.isDigit digits = true := by rw [← isSome_unsignedValue, h]; rfl
  simpa [allOf] using hall

/-- Digits have no dot in them. -/
theorem notMem_of_value {digits : Text} {n : Nat} (h : unsignedValue digits = some n) :
    '.' ∉ digits := by
  intro hdot
  exact absurd ((isDigit_of_value h).2 '.' hdot) (by decide)

theorem split_numbers {major minor patch : Text} (hmajor : '.' ∉ major) (hminor : '.' ∉ minor)
    (hpatch : '.' ∉ patch) :
    split '.' (major ++ '.' :: (minor ++ '.' :: patch)) = [major, minor, patch] := by
  rw [split_append hmajor, split_append hminor, split_of_notMem hpatch]

theorem of_split_numbers {s major minor patch : Text}
    (h : split '.' s = [major, minor, patch]) :
    s = major ++ '.' :: (minor ++ '.' :: patch) := by
  rcases split_cons h with ⟨hnil, -⟩ | ⟨rest, rfl, hrest⟩
  · exact nomatch hnil
  · rcases split_cons hrest with ⟨hnil, -⟩ | ⟨last, rfl, hlast⟩
    · exact nomatch hnil
    · rcases split_cons hlast with ⟨-, rfl⟩ | ⟨after, -, hafter⟩
      · rfl
      · exact absurd hafter (split_ne_nil after)

theorem trimStart_v_cons (rest : Text) : trimStart ['v'] ('v' :: rest) = rest := by
  simp [trimStart, afterPrefix]

theorem trimStart_v_cases (tag : Text) :
    tag = trimStart ['v'] tag ∨ tag = 'v' :: trimStart ['v'] tag := by
  cases tag with
  | nil => exact .inl rfl
  | cons c rest =>
    by_cases hc : 'v' = c
    · exact .inr (by rw [← hc, trimStart_v_cons])
    · exact .inl (by simp [trimStart, afterPrefix, hc])

/-- A text of digits and dots does not start with a `v`. -/
theorem trimStart_v_numbers {major rest : Text} {n : Nat} (h : unsignedValue major = some n) :
    trimStart ['v'] (major ++ rest) = major ++ rest := by
  obtain ⟨hne, hdigits⟩ := isDigit_of_value h
  cases major with
  | nil => exact absurd rfl hne
  | cons c major =>
    have hc : 'v' ≠ c := by
      rintro rfl
      exact absurd (hdigits 'v' List.mem_cons_self) (by decide)
    simp [trimStart, afterPrefix, hc]

theorem strictComponents_eq_some_iff {tag major minor patch : Text} :
    strictComponents tag = some (major, minor, patch) ↔
      split '.' (trimStart ['v'] tag) = [major, minor, patch] ∧
        (unsignedValue major).isSome = true ∧ (unsignedValue minor).isSome = true ∧
        (unsignedValue patch).isSome = true := by
  simp only [isSome_unsignedValue]
  unfold strictComponents
  split
  · next first second third hsplit =>
    rw [hsplit]
    by_cases hall : (allOf URL.isDigit first && allOf URL.isDigit second &&
        allOf URL.isDigit third) = true
    · rw [if_pos hall]
      simp only [Bool.and_eq_true] at hall
      constructor
      · intro h
        obtain ⟨rfl, rfl, rfl⟩ : first = major ∧ second = minor ∧ third = patch := by simpa using h
        exact ⟨rfl, hall.1.1, hall.1.2, hall.2⟩
      · rintro ⟨h, -⟩
        simpa using h
    · rw [if_neg hall]
      constructor
      · exact fun h => nomatch h
      · rintro ⟨h, hmajor, hminor, hpatch⟩
        obtain ⟨rfl, rfl, rfl⟩ : first = major ∧ second = minor ∧ third = patch := by simpa using h
        exact absurd (by simp [hmajor, hminor, hpatch]) hall
  · next hother =>
    constructor
    · exact fun h => nomatch h
    · rintro ⟨h, -⟩
      exact absurd h (hother major minor patch)

/-- The pattern matches the tags that denote a version. -/
theorem denotes_iff {tag : Text} {v : SemanticVersion} :
    Denotes tag v ↔ ∃ major minor patch, strictComponents tag = some (major, minor, patch) ∧
      unsignedValue major = some v.major ∧ unsignedValue minor = some v.minor ∧
      unsignedValue patch = some v.patch := by
  constructor
  · rintro ⟨major, minor, patch, htag, hmajor, hminor, hpatch⟩
    have hsplit := split_numbers (notMem_of_value hmajor) (notMem_of_value hminor)
      (notMem_of_value hpatch)
    have htrim : trimStart ['v'] tag = major ++ '.' :: (minor ++ '.' :: patch) := by
      rcases htag with rfl | rfl
      · exact trimStart_v_numbers hmajor
      · exact trimStart_v_cons _
    exact ⟨major, minor, patch, strictComponents_eq_some_iff.mpr
      ⟨by rw [htrim, hsplit], by simp [hmajor], by simp [hminor], by simp [hpatch]⟩,
      hmajor, hminor, hpatch⟩
  · rintro ⟨major, minor, patch, hcomponents, hmajor, hminor, hpatch⟩
    have htext := of_split_numbers (strictComponents_eq_some_iff.mp hcomponents).1
    refine ⟨major, minor, patch, ?_, hmajor, hminor, hpatch⟩
    rw [← htext]
    exact trimStart_v_cases tag

theorem component_of_value {digits : Text} {n : Nat} (h : unsignedValue digits = some n)
    (hn : n < 2 ^ 63) : component digits = n := by
  unfold component
  rw [h, Option.getD_some]
  omega

/-- A strict tag denotes a version, and one whose numbers fit is the version parsed. -/
theorem parse_of_denotes {tag : Text} {v : SemanticVersion} (h : Denotes tag v) (hfits : v.Fits) :
    parseSemanticVersion tag = some v := by
  obtain ⟨major, minor, patch, hcomponents, hmajor, hminor, hpatch⟩ := denotes_iff.mp h
  unfold parseSemanticVersion
  rw [hcomponents, Option.map_some]
  dsimp only
  rw [component_of_value hmajor hfits.1, component_of_value hminor hfits.2.1,
    component_of_value hpatch hfits.2.2]

theorem isStrictSemverTag_iff {tag : Text} :
    isStrictSemverTag tag = true ↔ ∃ v, Denotes tag v := by
  unfold isStrictSemverTag
  rw [Option.isSome_iff_exists]
  constructor
  · rintro ⟨⟨major, minor, patch⟩, hcomponents⟩
    obtain ⟨-, hmajor, hminor, hpatch⟩ := strictComponents_eq_some_iff.mp hcomponents
    obtain ⟨a, ha⟩ := Option.isSome_iff_exists.mp hmajor
    obtain ⟨b, hb⟩ := Option.isSome_iff_exists.mp hminor
    obtain ⟨c, hc⟩ := Option.isSome_iff_exists.mp hpatch
    exact ⟨⟨a, b, c⟩, denotes_iff.mpr ⟨major, minor, patch, hcomponents, ha, hb, hc⟩⟩
  · rintro ⟨v, hdenotes⟩
    obtain ⟨major, minor, patch, hcomponents, -⟩ := denotes_iff.mp hdenotes
    exact ⟨_, hcomponents⟩

theorem isSome_parse (tag : Text) : (parseSemanticVersion tag).isSome = isStrictSemverTag tag := by
  simp [parseSemanticVersion, isStrictSemverTag]

/-- Where every number a tag may write fits, the parser reads what the tag denotes. -/
theorem parse_iff_denotes {tag : Text} (hfits : ∀ v, Denotes tag v → v.Fits)
    {v : SemanticVersion} : parseSemanticVersion tag = some v ↔ Denotes tag v := by
  constructor
  · intro h
    have hstrict : isStrictSemverTag tag = true := by rw [← isSome_parse, h]; rfl
    obtain ⟨w, hw⟩ := isStrictSemverTag_iff.mp hstrict
    have hparse := parse_of_denotes hw (hfits w hw)
    rw [h] at hparse
    rwa [Option.some.inj hparse]
  · exact fun h => parse_of_denotes h (hfits v h)

/-! ### The loop -/

structure Choice where
  tag : Text
  version : SemanticVersion

/-- The map of the choices made; a scope without one reads as the zero choice. -/
abbrev Choices := String → Option Choice

def Choices.read (choices : Choices) (scope : String) : Choice :=
  (choices scope).getD ⟨[], ⟨0, 0, 0⟩⟩

def candidateScopes : List String := ["major", "minor", "patch"]

/-- The choice of one scope, after a newer version. -/
def consider (current candidate : SemanticVersion) (tag : Text) (choices : Choices)
    (scope : String) : Choices :=
  if current.allows scope candidate && ((choices.read scope).tag = [] ||
      candidate.greater (choices.read scope).version) then
    Function.update choices scope (some ⟨tag, candidate⟩)
  else choices

/-- One turn of the loop over the tags. -/
def offer (current : SemanticVersion) (choices : Choices) (tag : Text) : Choices :=
  match parseSemanticVersion tag with
  | none => choices
  | some candidate =>
    if !candidate.greater current then choices
    else candidateScopes.foldl (consider current candidate tag) choices

/-- `registry.SelectSemverCandidates`: the map of the chosen tags, or nil. -/
def selectSemverCandidates (tags : List Text) (currentTag : Text) :
    Option (String → Option Text) :=
  (parseSemanticVersion currentTag).map fun current scope =>
    (tags.foldl (offer current) (fun _ => none) scope).map Choice.tag

namespace SemanticVersion

theorem allows_iff {scope : String} {current v : SemanticVersion} :
    current.allows scope v = true ↔ scope = "major" ∨ (scope = "minor" ∧ v.major = current.major) ∨
      (scope = "patch" ∧ v.major = current.major ∧ v.minor = current.minor) := by
  simp only [allows, Bool.or_eq_true, Bool.and_eq_true, decide_eq_true_eq, or_assoc]
  constructor
  · rintro (h | ⟨h, hscope⟩ | ⟨⟨h, hminor⟩, hscope⟩)
    · exact .inl h
    · exact .inr (.inl ⟨hscope, h⟩)
    · exact .inr (.inr ⟨hscope, h, hminor⟩)
  · rintro (h | ⟨hscope, h⟩ | ⟨hscope, h, hminor⟩)
    · exact .inl h
    · exact .inr (.inl ⟨h, hscope⟩)
    · exact .inr (.inr ⟨⟨h, hminor⟩, hscope⟩)

theorem allows_mem {scope : String} {current v : SemanticVersion}
    (h : current.allows scope v = true) : scope ∈ candidateScopes := by
  rcases allows_iff.mp h with rfl | ⟨rfl, -⟩ | ⟨rfl, -⟩ <;> simp [candidateScopes]

end SemanticVersion

theorem consider_other {current candidate : SemanticVersion} {tag : Text} {choices : Choices}
    {scope other : String} (h : other ≠ scope) :
    consider current candidate tag choices scope other = choices other := by
  unfold consider
  split
  · exact Function.update_of_ne h _ _
  · rfl

/-- A scope is visited once, and only its own visit changes its choice. -/
theorem foldl_consider {current candidate : SemanticVersion} {tag : Text} {scope : String}
    {visited : List String} (hvisited : visited.Nodup) (choices : Choices) :
    visited.foldl (consider current candidate tag) choices scope =
      if scope ∈ visited then consider current candidate tag choices scope scope
      else choices scope := by
  induction visited generalizing choices with
  | nil => rfl
  | cons first rest ih =>
    have hrest := (List.nodup_cons.mp hvisited)
    rw [List.foldl_cons, ih hrest.2]
    by_cases hscope : scope = first
    · subst hscope
      simp [hrest.1]
    · have hkept := @consider_other current candidate tag choices first scope hscope
      have hread : (consider current candidate tag choices first).read scope =
          choices.read scope := by rw [Choices.read, hkept]; rfl
      have hsame : consider current candidate tag (consider current candidate tag choices first)
          scope scope = consider current candidate tag choices scope scope := by
        unfold consider at hread hkept ⊢
        rw [hread]
        split
        · simp
        · exact hkept
      simp [hscope, hsame, hkept]

/-- A choice of the map, as the choice of one scope. -/
def Choice.pair (choice : Choice) : Text × SemanticVersion := (choice.tag, choice.version)

theorem parseSemanticVersion_nil : parseSemanticVersion [] = none := by decide

/-- One turn, seen by one scope. A chosen tag is never empty. -/
theorem offer_scope {current : SemanticVersion} {choices : Choices} {tag : Text} {scope : String}
    (htags : ∀ choice ∈ choices scope, choice.tag ≠ []) :
    ((offer current choices tag scope).map Choice.pair =
        choose scope current ((choices scope).map Choice.pair) tag) ∧
      ∀ choice ∈ offer current choices tag scope, choice.tag ≠ [] := by
  unfold offer choose
  cases hparse : parseSemanticVersion tag with
  | none => exact ⟨rfl, htags⟩
  | some candidate =>
    have htag : tag ≠ [] := by
      rintro rfl
      rw [parseSemanticVersion_nil] at hparse
      exact nomatch hparse
    dsimp only
    by_cases hnewer : candidate.greater current = true
    · rw [hnewer, Bool.not_true, if_neg (by simp), foldl_consider (by decide)]
      by_cases hallowed : current.allows scope candidate = true
      · rw [if_pos (SemanticVersion.allows_mem hallowed)]
        unfold consider Choices.read
        rw [hallowed]
        cases hchoice : choices scope with
        | none => simp [Choice.pair, htag]
        | some choice =>
          have hfilled := htags choice hchoice
          by_cases hgreater : candidate.greater choice.version = true
          · simp [Choice.pair, hgreater, htag]
          · simp [Choice.pair, hgreater, hfilled, hchoice]
      · unfold consider
        simp only [hallowed]
        simpa using htags
    · simp only [hnewer]
      simpa using htags

theorem foldl_offer {current : SemanticVersion} {scope : String} {tags : List Text}
    {choices : Choices} (htags : ∀ choice ∈ choices scope, choice.tag ≠ []) :
    (tags.foldl (offer current) choices scope).map Choice.pair =
      tags.foldl (choose scope current) ((choices scope).map Choice.pair) := by
  induction tags generalizing choices with
  | nil => rfl
  | cons tag tags ih =>
    obtain ⟨hone, hkept⟩ := @offer_scope current choices tag scope htags
    rw [List.foldl_cons, ih hkept, hone, List.foldl_cons]

/-- The loop over all the scopes chooses for each what a loop for it alone would. -/
theorem selectSemverCandidates_eq (tags : List Text) (currentTag : Text) :
    selectSemverCandidates tags currentTag =
      (parseSemanticVersion currentTag).map fun _ scope =>
        selectSemverCandidate tags currentTag scope := by
  unfold selectSemverCandidates selectSemverCandidate
  cases hparse : parseSemanticVersion currentTag with
  | none => rfl
  | some current =>
    simp only [Option.map_some, Option.bind_some, Option.some.injEq]
    funext scope
    have hloop := @foldl_offer current scope tags (fun _ => none) (by simp)
    rw [Option.map_none] at hloop
    rw [← hloop, Option.map_map]
    rfl

/-! ### The greatest version -/

/-- A tag denotes a newer version that a scope allows. -/
def eligible (current : SemanticVersion) (scope : String) (tag : Text) : Bool :=
  (parseSemanticVersion tag).any fun v => v.greater current && current.allows scope v

/-- The version of a tag that has one. -/
def versionOf (tag : Text) : SemanticVersion := (parseSemanticVersion tag).getD ⟨0, 0, 0⟩

theorem eligible_iff {current : SemanticVersion} {scope : String} {tag : Text} :
    eligible current scope tag = true ↔ ∃ v, parseSemanticVersion tag = some v ∧ current < v ∧
      current.allows scope v = true := by
  simp [eligible, Option.any_eq_true, SemanticVersion.greater_iff]

theorem versionOf_eq {tag : Text} {v : SemanticVersion} (h : parseSemanticVersion tag = some v) :
    versionOf tag = v := by rw [versionOf, h, Option.getD_some]

/-- The loop for one scope finds the first tag of the greatest eligible version. -/
theorem foldl_choose_eq (scope : String) (current : SemanticVersion) (tags : List Text) :
    tags.foldl (choose scope current) none =
      ((tags.filter (eligible current scope)).argmax versionOf).map fun tag =>
        (tag, versionOf tag) := by
  induction tags using List.reverseRecOn with
  | nil => rfl
  | append_singleton tags tag ih =>
    rw [List.foldl_append, List.foldl_cons, List.foldl_nil, ih, List.filter_append]
    unfold choose
    cases hparse : parseSemanticVersion tag with
    | none =>
      have hnot : eligible current scope tag = false := by simp [eligible, hparse]
      simp [hnot]
    | some candidate =>
      have hversion := versionOf_eq hparse
      have heligible : eligible current scope tag =
          (candidate.greater current && current.allows scope candidate) := by
        simp [eligible, hparse]
      dsimp only
      by_cases hok : eligible current scope tag = true
      · rw [List.filter_cons_of_pos hok, List.filter_nil, List.argmax_concat, ← heligible, hok]
        cases hbest : (tags.filter (eligible current scope)).argmax versionOf with
        | none => simp [hversion]
        | some best =>
          by_cases hlt : versionOf best < candidate
          · have hgreater := SemanticVersion.greater_iff.mpr hlt
            simp [hversion, hlt, hgreater]
          · have hgreater : candidate.greater (versionOf best) = false := by
              rw [Bool.eq_false_iff]
              exact fun h => hlt (SemanticVersion.greater_iff.mp h)
            simp [hversion, hlt, hgreater]
      · rw [List.filter_cons_of_neg hok, List.filter_nil, List.append_nil, ← heligible]
        simp [hok]

theorem selectSemverCandidate_eq {tags : List Text} {currentTag : Text} {scope : String}
    {current : SemanticVersion} (hcurrent : parseSemanticVersion currentTag = some current) :
    selectSemverCandidate tags currentTag scope =
      (tags.filter (eligible current scope)).argmax versionOf := by
  unfold selectSemverCandidate
  rw [hcurrent, Option.bind_some, foldl_choose_eq, Option.map_map]
  exact Option.map_id_fun' ▸ rfl

/-! ### Correctness -/

/-- A version a scope lets a container move to. -/
def Within (scope : String) (current v : SemanticVersion) : Prop :=
  scope = "major" ∨ (scope = "minor" ∧ v.major = current.major) ∨
    (scope = "patch" ∧ v.major = current.major ∧ v.minor = current.minor)

/-- A tag denotes a version newer than another, within a scope. -/
def Upgrade (scope : String) (current : SemanticVersion) (tag : Text) (v : SemanticVersion) :
    Prop :=
  Denotes tag v ∧ current < v ∧ Within scope current v

section Fits

variable {tags : List Text} {current : SemanticVersion}
  (hfits : ∀ tag ∈ tags, ∀ v, Denotes tag v → v.Fits)
include hfits

theorem eligible_iff_upgrade {scope : String} {tag : Text} (htag : tag ∈ tags) :
    eligible current scope tag = true ↔ ∃ v, Upgrade scope current tag v := by
  rw [eligible_iff]
  unfold Upgrade Within
  simp only [parse_iff_denotes (hfits tag htag), SemanticVersion.allows_iff]

theorem versionOf_of_denotes {tag : Text} {v : SemanticVersion} (htag : tag ∈ tags)
    (h : Denotes tag v) : versionOf tag = v :=
  versionOf_eq ((parse_iff_denotes (hfits tag htag)).mpr h)

/-- The choice of a scope is an upgrade, and no other one is greater. -/
theorem argmax_upgrade {scope : String} {tag : Text}
    (h : (tags.filter (eligible current scope)).argmax versionOf = some tag) :
    tag ∈ tags ∧ ∃ v, Upgrade scope current tag v ∧
      ∀ other ∈ tags, ∀ w, Denotes other w → Within scope current w → w ≤ v := by
  obtain ⟨hmem, heligible⟩ := List.mem_filter.mp (List.argmax_mem h)
  obtain ⟨v, hv⟩ := (eligible_iff_upgrade hfits hmem).mp heligible
  refine ⟨hmem, v, hv, ?_⟩
  intro other hother w hw hwithin
  by_contra hlt
  have hnewer : current < w := hv.2.1.trans (not_le.mp hlt)
  have hin : other ∈ tags.filter (eligible current scope) :=
    List.mem_filter.mpr ⟨hother, (eligible_iff_upgrade hfits hother).mpr ⟨w, hw, hnewer, hwithin⟩⟩
  have hle := List.le_of_mem_argmax hin h
  rw [versionOf_of_denotes hfits hother hw, versionOf_of_denotes hfits hmem hv.1] at hle
  exact hlt hle

theorem argmax_isSome_iff {scope : String} :
    ((tags.filter (eligible current scope)).argmax versionOf).isSome = true ↔
      ∃ tag ∈ tags, ∃ v, Upgrade scope current tag v := by
  rw [Option.isSome_iff_ne_none, ne_eq, List.argmax_eq_none, List.filter_eq_nil_iff]
  simp only [not_forall, not_not, exists_prop]
  constructor
  · rintro ⟨tag, htag, heligible⟩
    exact ⟨tag, htag, (eligible_iff_upgrade hfits htag).mp heligible⟩
  · rintro ⟨tag, htag, hupgrade⟩
    exact ⟨tag, htag, (eligible_iff_upgrade hfits htag).mpr hupgrade⟩

/-- A wider scope has a choice where a narrower one has, and none that is lower. -/
theorem argmax_mono {narrow wide : String} {tag : Text} {v : SemanticVersion}
    (hwider : ∀ w, Within narrow current w → Within wide current w)
    (h : (tags.filter (eligible current narrow)).argmax versionOf = some tag)
    (hv : Denotes tag v) :
    ∃ other w, (tags.filter (eligible current wide)).argmax versionOf = some other ∧
      Denotes other w ∧ v ≤ w := by
  obtain ⟨hmem, v', hupgrade, -⟩ := argmax_upgrade hfits h
  obtain rfl : v' = v := by
    rw [← versionOf_of_denotes hfits hmem hupgrade.1, versionOf_of_denotes hfits hmem hv]
  have hwide : Upgrade wide current tag v' := ⟨hv, hupgrade.2.1, hwider v' hupgrade.2.2⟩
  obtain ⟨other, hother⟩ := Option.isSome_iff_exists.mp
    ((argmax_isSome_iff hfits).mpr ⟨tag, hmem, v', hwide⟩)
  obtain ⟨-, w, hw, hgreatest⟩ := argmax_upgrade hfits hother
  exact ⟨other, w, hother, hw.1, hgreatest tag hmem v' hv hwide.2.2⟩

end Fits

/-- Only the strict tags count. -/
theorem filter_strict_eligible (scope : String) (current : SemanticVersion) (tags : List Text) :
    (tags.filter isStrictSemverTag).filter (eligible current scope) =
      tags.filter (eligible current scope) := by
  rw [List.filter_filter]
  congr 1
  funext tag
  rw [← isSome_parse, eligible]
  cases parseSemanticVersion tag <;> simp

theorem selectSemverCandidates_eq_none {tags : List Text} {currentTag : Text} :
    selectSemverCandidates tags currentTag = none ↔ ¬ ∃ v, Denotes currentTag v := by
  rw [← isStrictSemverTag_iff, ← isSome_parse, selectSemverCandidates_eq, Option.map_eq_none_iff]
  simp

/-- The map of a strict version's tag: for each scope the first tag of the greatest version. -/
theorem selectSemverCandidates_some (tags : List Text) {currentTag : Text}
    {current : SemanticVersion} (hcurrent : parseSemanticVersion currentTag = some current) :
    ∃ chosen, selectSemverCandidates tags currentTag = some chosen ∧
      ∀ scope, chosen scope = (tags.filter (eligible current scope)).argmax versionOf := by
  refine ⟨selectSemverCandidate tags currentTag, ?_, fun scope => selectSemverCandidate_eq hcurrent⟩
  rw [selectSemverCandidates_eq, hcurrent, Option.map_some]

/-- The strict tags, in the order they come in, decide what is selected. -/
theorem selectSemverCandidates_strict {tags others : List Text}
    (h : others.filter isStrictSemverTag = tags.filter isStrictSemverTag) (currentTag : Text) :
    selectSemverCandidates others currentTag = selectSemverCandidates tags currentTag := by
  rw [selectSemverCandidates_eq, selectSemverCandidates_eq]
  cases hcurrent : parseSemanticVersion currentTag with
  | none => rfl
  | some current =>
    simp only [Option.map_some, Option.some.injEq]
    funext scope
    rw [selectSemverCandidate_eq hcurrent, selectSemverCandidate_eq hcurrent,
      ← filter_strict_eligible, h, filter_strict_eligible]

/-- The map of the chosen tags, for every list a map's keys come in. Numbers that do not fit the
machine's integers are left out. -/
theorem selectSemverCandidates_correct (tags : List Text) (currentTag : Text)
    (hfits : ∀ tag ∈ currentTag :: tags, ∀ v, Denotes tag v → v.Fits) :
    (selectSemverCandidates tags currentTag = none ↔ ¬ ∃ v, Denotes currentTag v) ∧
    (∀ current, Denotes currentTag current → ∃ chosen,
      selectSemverCandidates tags currentTag = some chosen ∧
      (∀ scope, (chosen scope).isSome = true ↔ ∃ tag ∈ tags, ∃ v, Upgrade scope current tag v) ∧
      (∀ scope tag, chosen scope = some tag → tag ∈ tags ∧ ∃ v, Upgrade scope current tag v ∧
        ∀ other ∈ tags, ∀ w, Denotes other w → Within scope current w → w ≤ v) ∧
      (∀ tag v, chosen "patch" = some tag → Denotes tag v →
        ∃ minor w, chosen "minor" = some minor ∧ Denotes minor w ∧ v ≤ w) ∧
      ∀ tag v, chosen "minor" = some tag → Denotes tag v →
        ∃ major w, chosen "major" = some major ∧ Denotes major w ∧ v ≤ w) ∧
    ∀ others : List Text, others.filter isStrictSemverTag = tags.filter isStrictSemverTag →
      selectSemverCandidates others currentTag = selectSemverCandidates tags currentTag := by
  have htags : ∀ tag ∈ tags, ∀ v, Denotes tag v → v.Fits :=
    fun tag htag => hfits tag (List.mem_cons_of_mem _ htag)
  refine ⟨selectSemverCandidates_eq_none, ?_, fun others h => selectSemverCandidates_strict h _⟩
  intro current hdenotes
  have hcurrent : parseSemanticVersion currentTag = some current :=
    parse_of_denotes hdenotes (hfits currentTag List.mem_cons_self current hdenotes)
  obtain ⟨chosen, hselected, hscope⟩ := selectSemverCandidates_some tags hcurrent
  refine ⟨chosen, hselected, ?_, ?_, ?_, ?_⟩
  · intro scope
    rw [hscope]
    exact argmax_isSome_iff htags
  · intro scope tag hchosen
    rw [hscope] at hchosen
    exact argmax_upgrade htags hchosen
  · intro tag v hchosen hv
    rw [hscope] at hchosen ⊢
    apply argmax_mono htags _ hchosen hv
    rintro w (hmajor | ⟨hminor, -⟩ | ⟨-, hmajor, -⟩)
    · exact absurd hmajor (by decide)
    · exact absurd hminor (by decide)
    · exact .inr (.inl ⟨rfl, hmajor⟩)
  · intro tag v hchosen hv
    rw [hscope] at hchosen ⊢
    exact argmax_mono htags (fun _ _ => .inl rfl) hchosen hv

theorem fits_of_components {tag : Text} (h : (strictComponents tag).all (fun (major, minor, patch) =>
      [major, minor, patch].all fun digits => (unsignedValue digits).all (· < 2 ^ 63)) = true) :
    ∀ v, Denotes tag v → v.Fits := by
  intro v hv
  obtain ⟨major, minor, patch, hcomponents, hmajor, hminor, hpatch⟩ := denotes_iff.mp hv
  rw [hcomponents] at h
  unfold SemanticVersion.Fits
  simpa [hmajor, hminor, hpatch] using h

def listedTags : List Text :=
  ["1.2.5", "v1.4.0", "2.0.0", "2.1.0-rc1", "latest", "1.2"].map String.toList

theorem selectSemverCandidates_correct_listed :
    ∃ chosen, selectSemverCandidates listedTags "1.2.3".toList = some chosen ∧
      ∀ scope, (chosen scope).isSome = true ↔
        ∃ tag ∈ listedTags, ∃ v, Upgrade scope ⟨1, 2, 3⟩ tag v := by
  have hfits : ∀ tag ∈ "1.2.3".toList :: listedTags, ∀ v, Denotes tag v → v.Fits := by
    intro tag htag
    apply fits_of_components
    revert tag
    decide
  have hcurrent : Denotes "1.2.3".toList ⟨1, 2, 3⟩ :=
    ⟨['1'], ['2'], ['3'], .inl (by decide), by decide, by decide, by decide⟩
  obtain ⟨chosen, hselected, hpresent, -⟩ :=
    (selectSemverCandidates_correct listedTags "1.2.3".toList hfits).2.1 ⟨1, 2, 3⟩ hcurrent
  exact ⟨chosen, hselected, hpresent⟩

/-! ### The order of the tags -/

/-- Two different tags denote the greatest version a scope allows. -/
def Ambiguous (tags : List Text) (current : SemanticVersion) (scope : String) : Prop :=
  ∃ a ∈ tags, ∃ b ∈ tags, a ≠ b ∧ eligible current scope a = true ∧
    eligible current scope b = true ∧ versionOf a = versionOf b ∧
    ∀ c ∈ tags, eligible current scope c = true → versionOf c ≤ versionOf a

/-- A greatest element that comes first is the one found. -/
theorem argmax_cons_greatest {α β : Type} [LinearOrder β] {f : α → β} {a : α} {rest : List α}
    (h : ∀ c ∈ rest, f c ≤ f a) : (a :: rest).argmax f = some a := by
  rw [List.argmax_cons]
  cases hrest : rest.argmax f with
  | none => rfl
  | some c => simp [not_lt.mpr (h c (List.argmax_mem hrest))]

/-- Without two greatest elements, every order of a list finds the same one. -/
theorem argmax_perm {α β : Type} [DecidableEq α] [LinearOrder β] {f : α → β} {l order : List α}
    (hperm : order.Perm l)
    (h : ∀ a ∈ l, ∀ b ∈ l, (∀ c ∈ l, f c ≤ f a) → f a = f b → a = b) :
    order.argmax f = l.argmax f := by
  cases hl : l.argmax f with
  | none =>
    rw [List.argmax_eq_none] at hl ⊢
    exact List.perm_nil.mp (hl ▸ hperm)
  | some a =>
    cases horder : order.argmax f with
    | none =>
      rw [List.argmax_eq_none] at horder
      rw [horder] at hperm
      rw [List.nil_perm.mp hperm] at hl
      exact nomatch hl
    | some b =>
      have ha := List.argmax_mem hl
      have hb := hperm.subset (List.argmax_mem horder)
      have hba : f b ≤ f a := List.le_of_mem_argmax hb hl
      have hab : f a ≤ f b := List.le_of_mem_argmax (hperm.symm.subset ha) horder
      rw [h a ha b hb (fun c hc => List.le_of_mem_argmax hc hl) (le_antisymm hab hba)]

theorem select_first {tags : List Text} {currentTag : Text} {current : SemanticVersion}
    {scope : String} {a : Text} (hcurrent : parseSemanticVersion currentTag = some current)
    (heligible : eligible current scope a = true)
    (hgreatest : ∀ c ∈ tags, eligible current scope c = true → versionOf c ≤ versionOf a) :
    selectSemverCandidate (a :: tags.erase a) currentTag scope = some a := by
  rw [selectSemverCandidate_eq hcurrent, List.filter_cons_of_pos heligible]
  apply argmax_cons_greatest
  intro c hc
  obtain ⟨hmem, hc⟩ := List.mem_filter.mp hc
  exact hgreatest c (List.mem_of_mem_erase hmem) hc

/-- The tags come to the same selection in every order exactly if no scope is ambiguous. -/
theorem selectSemverCandidates_order_iff (tags : List Text) (currentTag : Text) :
    (∀ first second : List Text, first.Perm tags → second.Perm tags →
      selectSemverCandidates first currentTag = selectSemverCandidates second currentTag) ↔
    ∀ current, parseSemanticVersion currentTag = some current →
      ∀ scope, ¬ Ambiguous tags current scope := by
  constructor
  · rintro h current hcurrent scope ⟨a, ha, b, hb, hne, hea, heb, hsame, hgreatest⟩
    have hboth := h (a :: tags.erase a) (b :: tags.erase b) (List.perm_cons_erase ha).symm
      (List.perm_cons_erase hb).symm
    simp only [selectSemverCandidates_eq, hcurrent, Option.map_some, Option.some.injEq] at hboth
    have hscope := congrFun hboth scope
    rw [select_first hcurrent hea hgreatest,
      select_first hcurrent heb (hsame ▸ hgreatest)] at hscope
    exact hne (Option.some.inj hscope)
  · intro h
    have hsame : ∀ order : List Text, order.Perm tags →
        selectSemverCandidates order currentTag = selectSemverCandidates tags currentTag := by
      intro order horder
      rw [selectSemverCandidates_eq, selectSemverCandidates_eq]
      cases hcurrent : parseSemanticVersion currentTag with
      | none => rfl
      | some current =>
        simp only [Option.map_some, Option.some.injEq]
        funext scope
        rw [selectSemverCandidate_eq hcurrent, selectSemverCandidate_eq hcurrent]
        apply argmax_perm (horder.filter _)
        intro a ha b hb hgreatest hversion
        obtain ⟨ha, hea⟩ := List.mem_filter.mp ha
        obtain ⟨hb, heb⟩ := List.mem_filter.mp hb
        by_contra hne
        exact h current hcurrent scope ⟨a, ha, b, hb, hne, hea, heb, hversion,
          fun c hc hec => hgreatest c (List.mem_filter.mpr ⟨hc, hec⟩)⟩
    intro first second hfirst hsecond
    rw [hsame first hfirst, hsame second hsecond]

end Doupro.Registry
