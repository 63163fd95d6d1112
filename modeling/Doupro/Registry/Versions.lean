import Doupro.Go.Url
import Doupro.Registry.Reference

/-!
# Version tags and labels

Which tags look like a version, and which version an image's labels name. The two regular
expressions are matched by hand.
-/

namespace Doupro.Registry

open Text

def isAlnum (c : Char) : Bool := URL.isLetter c || URL.isDigit c

/-- A nonempty text of one kind of character. -/
def allOf (p : Char → Bool) (s : Text) : Bool := !s.isEmpty && s.all p

/-- `strings.ToLower`. -/
def lower (s : Text) : Text := s.map lowerRune

def floatingTags : List String :=
  ["latest", "stable", "edge", "nightly", "master", "main", "dev", "beta", "alpha", "rc", "testing",
    "unstable"]

def floating (tag : Text) : Bool := floatingTags.any fun name => name.toList = lower tag

/-- `^v?[0-9]+(\.[0-9]+){0,3}(-[A-Za-z0-9]+)*$` -/
def versionTagPattern (tag : Text) : Bool :=
  match split '-' (trimStart ['v'] tag) with
  | [] => false
  | core :: qualifiers =>
    let components := split '.' core
    decide (components.length ≤ 4) && components.all (allOf URL.isDigit) && qualifiers.all (allOf isAlnum)

/-- The texts between the characters of a kind. -/
def fields (sep : Char → Bool) : Text → List Text
  | [] => [[]]
  | c :: rest =>
    if sep c then [] :: fields sep rest
    else match fields sep rest with
      | [] => [[c]]
      | field :: more => (c :: field) :: more

/-- One or more digits, and what follows them. -/
def number (s : Text) : Option Text :=
  let rest := s.dropWhile URL.isDigit
  if rest.length < s.length then some rest else none

/-- `v?[0-9]+\.[0-9]+\.[0-9]+([._-][A-Za-z0-9]+)*$` at the start of a text. -/
def releaseAt (s : Text) : Bool :=
  match (number (trimStart ['v'] s)).bind (afterPrefix ['.']) with
  | none => false
  | some minor => match (number minor).bind (afterPrefix ['.']) with
    | none => false
    | some patch => match number patch with
      | none => false
      | some rest => match fields (fun c => c = '.' || c = '_' || c = '-') rest with
        | [] :: qualifiers => qualifiers.all (allOf isAlnum)
        | _ => false

/-- `(^|[-_])v?[0-9]+\.[0-9]+\.[0-9]+([._-][A-Za-z0-9]+)*$` -/
def compositeVersionTagPattern (tag : Text) : Bool :=
  releaseAt tag || tag.tails.any fun
    | c :: rest => (c = '-' || c = '_') && releaseAt rest
    | [] => false

/-- `registry.IsVersionTag`. -/
def isVersionTag (tag : Text) : Bool :=
  !floating tag && (versionTagPattern tag || compositeVersionTagPattern tag)

example : (["16-alpine", "v3.7.10", "php8.2-1.17.999"].all fun tag => isVersionTag tag.toList) ∧
    (["latest", "php8.2", "1.2-", "16-"].all fun tag => !isVersionTag tag.toList) := by decide

/-- `registry.NormalizeVersionLabel`. -/
def normalizeVersionLabel (value : Text) : Text :=
  let value := ["refs/tags/", "refs/heads/", "version/"].foldl
    (fun value start => trimStart start.toList value) (trimSpace value)
  if isVersionTag value then value else []

/-- The letters and digits of a text, in lower case. -/
def normalizeKey (value : Text) : Text :=
  value.filterMap fun c => if isAlnum c then some (lowerRune c) else none

/-- The value of a label, empty if it is not set. -/
def labelValue (labels : List (Text × Text)) (key : Text) : Text := (labels.lookup key).getD []

/-- The version in the labels that name the repository, unless they disagree. -/
def repositoryVersion (labels : List (Text × Text)) (repoKey : Text) : Text :=
  let found := labels.filterMap fun (key, value) =>
    if contains (lower key) "version".toList && contains (normalizeKey key) repoKey &&
      normalizeVersionLabel value ≠ [] then some (normalizeVersionLabel value) else none
  match found with
  | [] => []
  | first :: rest => if rest.all (· = first) then first else []

/-- `registry.VersionFromLabels`. -/
def versionFromLabels (labels : List (Text × Text)) (repository : Text) : Text :=
  let standard := normalizeVersionLabel (labelValue labels "org.opencontainers.image.version".toList)
  if standard ≠ [] then standard
  else
    let legacy := normalizeVersionLabel (labelValue labels "org.label-schema.version".toList)
    if legacy ≠ [] then legacy
    else if trimSpace repository = [] then []
    else
      let name := match cutLast '/' repository with
        | none => repository
        | some (_, name) => name
      if normalizeKey name = [] then [] else repositoryVersion labels (normalizeKey name)

end Doupro.Registry
