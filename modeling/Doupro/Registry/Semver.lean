import Doupro.Registry.Client

/-!
# Strict versions

References and their tags, the tags of the form `x.y.z`, and the newer ones among the tags of a
repository. The keys of a map come in some order, and the order of a list stands for it.
-/

namespace Doupro.Registry

open Text

/-! ### References -/

def dockerHub : Text := "registry-1.docker.io".toList

/-- The registry host a reference starts with, and the rest. -/
def cutHost (image : Text) : Text × Text :=
  match cut '/' image with
  | (first, some rest) =>
    if first.any (fun c => c = '.' || c = ':') || first = "localhost".toList then (first, rest)
    else (dockerHub, image)
  | (_, none) => (dockerHub, image)

/-- `registry.ParseRef`. -/
def parseRef (image : String) : Ref :=
  let (host, remainder) := cutHost image.toList
  let (repo, tag) := (cutLast ':' remainder).getD (remainder, "latest".toList)
  let host :=
    if host = "docker.io".toList ∨ host = "index.docker.io".toList then dockerHub else host
  let repo := if host = dockerHub ∧ '/' ∉ repo then "library/".toList ++ repo else repo
  { registry := host, repository := repo, tag := tag }

/-- `registry.ReplaceTag`. -/
def replaceTag (ref : Ref) (tag : Text) : String :=
  let start :=
    if ref.registry ≠ dockerHub then ref.registry ++ '/' :: ref.repository
    else match afterPrefix "library/".toList ref.repository with
      | some (c :: rest) => c :: rest
      | _ => ref.repository
  String.ofList (start ++ ':' :: tag)

/-- The key of a repository in the caches of a check. -/
def Ref.cacheKey (ref : Ref) : Text := ref.registry ++ '/' :: ref.repository

/-! ### Versions -/

structure SemanticVersion where
  major : Nat
  minor : Nat
  patch : Nat
  deriving DecidableEq

/-- `strconv.Atoi` of digits, which stops at the largest value. -/
def component (digits : Text) : Nat := min ((unsignedValue digits).getD 0) (2 ^ 63 - 1)

/-- The three numbers of a tag, `^v?([0-9]+)\.([0-9]+)\.([0-9]+)$`. -/
def strictComponents (tag : Text) : Option (Text × Text × Text) :=
  match split '.' (trimStart ['v'] tag) with
  | [major, minor, patch] =>
    if allOf URL.isDigit major && allOf URL.isDigit minor && allOf URL.isDigit patch then
      some (major, minor, patch)
    else none
  | _ => none

/-- `parseSemanticVersion`. -/
def parseSemanticVersion (tag : Text) : Option SemanticVersion :=
  (strictComponents tag).map fun (major, minor, patch) =>
    ⟨component major, component minor, component patch⟩

/-- `registry.IsStrictSemverTag`. -/
@[irreducible] def isStrictSemverTag (tag : Text) : Bool := (strictComponents tag).isSome

namespace SemanticVersion

/-- `semanticVersion.greater`. -/
def greater (v other : SemanticVersion) : Bool :=
  if v.major ≠ other.major then other.major < v.major
  else if v.minor ≠ other.minor then other.minor < v.minor
  else other.patch < v.patch

/-- A scope allows the move from one version to another. -/
def allows (scope : String) (current candidate : SemanticVersion) : Bool :=
  scope = "major" || (candidate.major = current.major && scope = "minor") ||
    (candidate.major = current.major && candidate.minor = current.minor && scope = "patch")

end SemanticVersion

/-- The choice for a scope, after one more tag. -/
def choose (scope : String) (current : SemanticVersion) (best : Option (Text × SemanticVersion))
    (tag : Text) : Option (Text × SemanticVersion) :=
  match parseSemanticVersion tag with
  | none => best
  | some candidate =>
    if candidate.greater current && current.allows scope candidate &&
      best.all (fun choice => candidate.greater choice.2) then some (tag, candidate) else best

/-- `registry.SelectSemverCandidates`: the highest newer tag a scope allows. -/
def selectSemverCandidate (tags : List Text) (currentTag : Text) (scope : String) : Option Text :=
  (parseSemanticVersion currentTag).bind fun current =>
    (tags.foldl (choose scope current) none).map Prod.fst

example : selectSemverCandidate ["1.2.4".toList, "1.3.0".toList, "v2.0.0".toList, "1.2.9-rc".toList]
    "1.2.3".toList "minor" = some "1.3.0".toList := by decide

/-- `registry.ResolveVersion`: the most specific version tag of a digest. -/
def resolveVersion (tags : List (String × String)) (target : String) : Option String :=
  if target = "" then none
  else tags.foldl (fun best (name, digest) =>
    if digest ≠ target ∨ floating name.toList ∨ ¬ versionTagPattern name.toList then best
    else match best with
      | none => some name
      | some chosen =>
        let parts := name.toList.count '.'
        let bestParts := chosen.toList.count '.'
        if bestParts < parts ∨ (parts = bestParts ∧ name.length < chosen.length) then some name
        else best) none

/-! ### What is chosen -/

/-- A chosen tag is a version the scope allows, and newer. -/
theorem foldl_choose {scope : String} {current : SemanticVersion} {tags : List Text}
    {best : Option (Text × SemanticVersion)}
    (hbest : ∀ choice ∈ best, parseSemanticVersion choice.1 = some choice.2 ∧
      current.allows scope choice.2 = true) :
    ∀ choice ∈ tags.foldl (choose scope current) best,
      parseSemanticVersion choice.1 = some choice.2 ∧ current.allows scope choice.2 = true := by
  induction tags generalizing best with
  | nil => exact hbest
  | cons tag tags ih =>
    apply ih
    unfold choose
    cases hparse : parseSemanticVersion tag with
    | none => exact hbest
    | some candidate =>
      dsimp only
      split
      · next hchosen =>
        intro choice hchoice
        obtain rfl := Option.some.inj hchoice
        simp only [Bool.and_eq_true] at hchosen
        exact ⟨hparse, hchosen.1.2⟩
      · exact hbest

theorem selectSemverCandidate_allows {tags : List Text} {currentTag tag : Text} {scope : String}
    (h : selectSemverCandidate tags currentTag scope = some tag) :
    ∃ current candidate, parseSemanticVersion currentTag = some current ∧
      parseSemanticVersion tag = some candidate ∧ current.allows scope candidate = true := by
  unfold selectSemverCandidate at h
  obtain ⟨current, hcurrent, h⟩ := Option.bind_eq_some_iff.mp h
  obtain ⟨choice, hchoice, rfl⟩ := Option.map_eq_some_iff.mp h
  have hchosen := @foldl_choose scope current tags none (by simp) choice hchoice
  exact ⟨current, choice.2, hcurrent, hchosen.1, hchosen.2⟩

end Doupro.Registry
