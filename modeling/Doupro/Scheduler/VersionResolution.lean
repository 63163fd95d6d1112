import Doupro.Registry.Semver
import Doupro.System.Calls

/-!
# Which version a digest is

`resolveVersions` and what it starts from: the labels of the image, the versions stored for its
digest, the version stored for the container and the tags of the repository.
-/

namespace Doupro.Scheduler

open Go Interaction Registry

/-- `registry.IsVersionTag`, of a stored or resolved version. -/
def isVersion (version : String) : Bool := isVersionTag version.toList

/-- `versionHints`. -/
structure VersionHints where
  current : String := ""
  available : String := ""
  skipCurrent : Bool := false
  skipAvailable : Bool := false

/-- What `resolveVersions` returns: two versions, and either the error of a listing or
`errVersionNotFound`. -/
structure ResolvedVersions where
  current : String
  available : String
  fetchErr : Option GoError := none
  notFound : Bool := false

def errVersionNotFound : GoError :=
  .new "no concrete version tag matched the registry manifest digest"

def ResolvedVersions.err (versions : ResolvedVersions) : Option GoError :=
  versions.fetchErr.or (if versions.notFound then some errVersionNotFound else none)

def unresolvedVersionRetry : Duration := 360 * minute

/-- Tag listings by repository, for the length of a check. -/
abbrev TagsCache := List (Text × List (String × String))

/-- The tags a cache holds of a repository. -/
def TagsCache.tags (cache : TagsCache) (ref : Ref) : List (String × String) :=
  (cache.lookup ref.cacheKey).getD []

def TagsCache.put (cache : TagsCache) (ref : Ref) (tags : List (String × String)) : TagsCache :=
  (ref.cacheKey, tags) :: cache.filter fun entry => entry.1 ≠ ref.cacheKey

/-- The listing of a repository, its tags replaced by those fetched. -/
def mergeTags (tags fetched : List (String × String)) : List (String × String) :=
  fetched ++ tags.filter fun entry => (fetched.lookup entry.1).isNone

/-- The version a digest is known to be, by a hint or by its registry's label. -/
def knownVersion (ctx : Context) (ref : Ref) (digest hint : String) (skip : Bool) :
    Go (Option String) := do
  if hint ≠ "" then return some hint
  if skip then return none
  match ← lookup ctx (.versionLabelForDigest ref digest) with
  | .error _ => return none
  | .ok label => return if label = "" then none else some label

/-- The digests to look for among the tags of the repository. -/
def missingDigests (tags : List (String × String)) (currentDigest remoteDigest : String)
    (hasUpdate : Bool) (hints : VersionHints) (known : Option String) (available : String) :
    List String :=
  let current :=
    if known.isNone ∧ ¬ hints.skipCurrent ∧ (resolveVersion tags currentDigest).isNone then
      [currentDigest]
    else []
  if hasUpdate ∧ ¬ hints.skipAvailable ∧ hasPrefix available "sha256:" ∧
      (resolveVersion tags remoteDigest).isNone ∧ ¬ current.contains remoteDigest then
    current ++ [remoteDigest]
  else current

/-- The listing extended by what is missing from it. -/
def fetchMissing (ctx : Context) (cache : TagsCache) (ref : Ref) (missing : List String) :
    Go (Option GoError × TagsCache) := do
  if missing = [] then return (none, cache)
  match ← lookup ctx (.resolveVersionTags ref missing) with
  | .error err => return (some err, cache)
  | .ok fetched => return (none, cache.put ref (mergeTags (cache.tags ref) fetched))

/-- `resolveVersions`. An empty listing resolves nothing. -/
def resolveVersions (ctx : Context) (cache : TagsCache) (ref : Ref)
    (currentDigest remoteDigest : String) (hasUpdate : Bool) (hints : VersionHints) :
    Go (ResolvedVersions × TagsCache) := do
  if isVersionTag ref.tag then
    return ({ current := String.ofList ref.tag, available := String.ofList ref.tag }, cache)
  let known ← knownVersion ctx ref currentDigest hints.current hints.skipCurrent
  let labelled ←
    if hasUpdate then knownVersion ctx ref remoteDigest hints.available hints.skipAvailable
    else pure none
  let available := labelled.getD remoteDigest
  let missing :=
    missingDigests (cache.tags ref) currentDigest remoteDigest hasUpdate hints known available
  let (fetchErr, cache) ← fetchMissing ctx cache ref missing
  let tags := cache.tags ref
  let current := (resolveVersion tags currentDigest).getD (known.getD currentDigest)
  let available :=
    if hasUpdate then (resolveVersion tags remoteDigest).getD available else current
  return ({
    current := current
    available := available
    fetchErr := fetchErr
    notFound := fetchErr.isNone &&
      ((!hints.skipCurrent && hasPrefix current "sha256:") ||
        (hasUpdate && !hints.skipAvailable && hasPrefix available "sha256:")) }, cache)

/-- The version stored for a digest, and whether it was looked for in vain lately. -/
def loadVersion (ctx : Context) (ref : Ref) (digest : String) : Go (String × Bool) := do
  let registry := String.ofList ref.registry
  match ← store ctx (.getImageVersion registry (String.ofList ref.repository) digest) with
  | .ok (some rec) =>
    if rec.status = .resolved ∧ isVersion rec.version then return (rec.version, false)
    else if rec.status = .unresolved then
      return ("", decide ((← now) - rec.checkedAt < unresolvedVersionRetry))
    else return ("", false)
  | _ => return ("", false)

/-- The current half of `loadVersionHints`. -/
def currentHint (ctx : Context) (ref : Ref) (containerID currentDigest localVersion : String) :
    Go (String × Bool) := do
  if localVersion ≠ "" then return (localVersion, false)
  let (current, skip) ← loadVersion ctx ref currentDigest
  if current ≠ "" ∨ skip then return (current, skip)
  match ← store ctx (.getContainer containerID) with
  | .error _ => return ("", false)
  | .ok existing =>
    return (if isVersion existing.currentVersion then existing.currentVersion else "", false)

/-- `loadVersionHints`. -/
def loadVersionHints (ctx : Context) (ref : Ref) (containerID currentDigest remoteDigest : String)
    (hasUpdate : Bool) (localVersion : String) : Go VersionHints := do
  let (current, skipCurrent) ← currentHint ctx ref containerID currentDigest localVersion
  let (available, skipAvailable) ←
    if hasUpdate then loadVersion ctx ref remoteDigest else pure ("", false)
  return { current, available, skipCurrent, skipAvailable }

/-- The version stored for one digest, unless its resolution failed otherwise. -/
def storeVersion (ctx : Context) (ref : Ref) (notFound : Bool) (digest version : String) :
    Go Unit := do
  let checkedAt ← now
  let row : ImageVersionRecord := {
    registry := String.ofList ref.registry
    repository := String.ofList ref.repository
    digest := digest
    status := .unresolved
    checkedAt := checkedAt }
  if isVersion version then
    let _ ← store ctx (.putImageVersion { row with version := version, status := .resolved })
  else if notFound then
    let _ ← store ctx (.putImageVersion row)

/-- `storeVersionResults`. -/
def storeVersionResults (ctx : Context) (ref : Ref) (currentDigest remoteDigest : String)
    (hasUpdate : Bool) (versions : ResolvedVersions) : Go Unit := do
  storeVersion ctx ref versions.notFound currentDigest versions.current
  if hasUpdate then storeVersion ctx ref versions.notFound remoteDigest versions.available

/-- The versions of the container that runs after an action; none if its image cannot be read. -/
def versionsAfterAction (ctx : Context) (ref : Ref) (containerID : String) :
    Go (String × String) := do
  match ← docker ctx (.inspect containerID) with
  | .error _ => return ("", "")
  | .ok inspect => match ← lookup ctx (.imageDigests inspect.image) with
    | .error _ | .ok [] => return ("", "")
    | .ok (first :: rest) =>
      let remote ← lookup ctx (.digest ref)
      let localVersion := match ← lookup ctx (.imageVersionLabel inspect.image ref.repository) with
        | .ok version => version
        | .error _ => ""
      match remote with
      | .ok remoteDigest =>
        let hasUpdate := !(first :: rest).contains remoteDigest
        let hints ← loadVersionHints ctx ref containerID first remoteDigest hasUpdate localVersion
        let (versions, _) ← resolveVersions ctx [] ref first remoteDigest hasUpdate hints
        return (versions.current, versions.available)
      | .error _ =>
        let hints ← loadVersionHints ctx ref containerID first first false localVersion
        let (versions, _) ← resolveVersions ctx [] ref first first false hints
        return (versions.current, "")

/-- `ResolveVersionAfterAction`. -/
def resolveVersionAfterAction (ctx : Context) (containerID imageRef : String) :
    Go (Option GoError) := do
  if isDigestReference imageRef ∨ trimSpace imageRef.toList = [] then return none
  let (current, available) ← versionsAfterAction ctx (parseRef imageRef) containerID
  match ← store ctx (.setVersions containerID current available) with
  | .ok () => return none
  | .error err =>
    emit {
      level := .warn
      type := "version.resolve_failed"
      container := containerID
      actor := .system
      message := "could not store resolved version for " ++ containerID ++ ": " ++ err.message }
    return some (.wrap "store resolved version" err)

/-! ### The calls of a check -/

/-- The calls of a registry check and of a resolution. -/
def Checks : Call → Prop
  | .lookup _ _ | .docker _ (.inspect _) | .docker _ .list | .now | .emit _ | .notify _
  | .store _ (.getContainer _) | .store _ (.containerIDByName _) | .store _ (.getUpdateCandidate _ _)
  | .store _ (.getImageVersion _ _ _) | .store _ (.putImageVersion _) | .store _ (.setVersions _ _ _)
  | .store _ (.replaceUpdateCandidates _ _ _) | .store _ (.clearUpdateCandidates _)
  | .store _ (.setUpdateAvailable _ _) | .store _ (.repairCurrentImage _ _) => True
  | _ => False

/-- The calls of a check that leave the candidates and the flag of every container alone. -/
def Compares : Call → Prop
  | .lookup _ _ | .docker _ (.inspect _) | .docker _ .list | .now | .emit _ | .notify _
  | .store _ (.getContainer _) | .store _ (.containerIDByName _) | .store _ (.getUpdateCandidate _ _)
  | .store _ (.getImageVersion _ _ _) | .store _ (.putImageVersion _) | .store _ (.setVersions _ _ _)
  | .store _ (.repairCurrentImage _ _) => True
  | _ => False

theorem checks_of_compares (call : Call) (h : Compares call) : Checks call := by
  unfold Compares at h
  split at h <;> trivial

theorem knownVersion_compares (ctx : Context) (ref : Ref) (digest hint : String) (skip : Bool) :
    (knownVersion ctx ref digest hint skip).Uses Compares := by
  unfold knownVersion
  split
  · trivial
  split
  · trivial
  · refine ⟨trivial, fun label => ?_⟩
    cases label <;> trivial

theorem resolveVersions_compares (ctx : Context) (cache : TagsCache) (ref : Ref)
    (currentDigest remoteDigest : String) (hasUpdate : Bool) (hints : VersionHints) :
    (resolveVersions ctx cache ref currentDigest remoteDigest hasUpdate hints).Uses Compares := by
  unfold resolveVersions
  split
  · trivial
  apply Program.uses_bind (knownVersion_compares _ _ _ _ _)
  intro known
  apply Program.uses_ite_bind (knownVersion_compares _ _ _ _ _) (Program.uses_pure _)
  intro labelled
  apply Program.uses_bind
  · unfold fetchMissing
    split
    · trivial
    · refine ⟨trivial, fun fetched => ?_⟩
      cases fetched <;> trivial
  · exact fun _ => trivial

theorem loadVersion_compares (ctx : Context) (ref : Ref) (digest : String) :
    (loadVersion ctx ref digest).Uses Compares := by
  refine ⟨trivial, fun row => ?_⟩
  match row with
  | .error _ | .ok none => trivial
  | .ok (some rec) =>
    change Program.Uses (S := Calls) Compares (if _ then _ else if _ then _ else _)
    split
    · trivial
    split
    · exact ⟨trivial, fun _ => trivial⟩
    · trivial

theorem loadVersionHints_compares (ctx : Context) (ref : Ref)
    (containerID currentDigest remoteDigest : String) (hasUpdate : Bool) (localVersion : String) :
    (loadVersionHints ctx ref containerID currentDigest remoteDigest hasUpdate localVersion).Uses
      Compares := by
  apply Program.uses_bind
  · unfold currentHint
    split
    · trivial
    apply Program.uses_bind (loadVersion_compares _ _ _)
    intro loaded
    dsimp only
    split
    · trivial
    · refine ⟨trivial, fun existing => ?_⟩
      cases existing <;> trivial
  rintro ⟨current, skipCurrent⟩
  exact Program.uses_ite_bind (loadVersion_compares _ _ _) (Program.uses_pure _) fun _ => trivial

theorem storeVersion_compares (ctx : Context) (ref : Ref) (notFound : Bool) (digest version : String) :
    (storeVersion ctx ref notFound digest version).Uses Compares := by
  refine ⟨trivial, fun checkedAt => ?_⟩
  dsimp only
  split
  · exact ⟨trivial, fun _ => trivial⟩
  split
  · exact ⟨trivial, fun _ => trivial⟩
  · trivial

theorem storeVersionResults_compares (ctx : Context) (ref : Ref) (currentDigest remoteDigest : String)
    (hasUpdate : Bool) (versions : ResolvedVersions) :
    (storeVersionResults ctx ref currentDigest remoteDigest hasUpdate versions).Uses Compares := by
  apply Program.uses_bind (storeVersion_compares _ _ _ _ _)
  intro _
  split
  · exact storeVersion_compares _ _ _ _ _
  · trivial

theorem versionsAfterAction_compares (ctx : Context) (ref : Ref) (containerID : String) :
    (versionsAfterAction ctx ref containerID).Uses Compares := by
  refine ⟨trivial, fun inspect => ?_⟩
  cases inspect with
  | error err => trivial
  | ok inspect =>
    refine ⟨trivial, fun digests => ?_⟩
    match digests with
    | .error _ | .ok [] => trivial
    | .ok (first :: rest) =>
      refine ⟨trivial, fun remote => ⟨trivial, fun label => ?_⟩⟩
      cases remote with
      | error err =>
        apply Program.uses_bind (loadVersionHints_compares _ _ _ _ _ _ _)
        exact fun hints => Program.uses_bind (resolveVersions_compares _ _ _ _ _ _ _) fun _ => trivial
      | ok remoteDigest =>
        apply Program.uses_bind (loadVersionHints_compares _ _ _ _ _ _ _)
        exact fun hints => Program.uses_bind (resolveVersions_compares _ _ _ _ _ _ _) fun _ => trivial

theorem resolveVersionAfterAction_compares (ctx : Context) (containerID imageRef : String) :
    (resolveVersionAfterAction ctx containerID imageRef).Uses Compares := by
  unfold resolveVersionAfterAction
  split
  · trivial
  · apply Program.uses_bind (versionsAfterAction_compares _ _ _)
    intro versions
    refine ⟨trivial, fun stored => ?_⟩
    cases stored with
    | ok _ => trivial
    | error err => exact ⟨trivial, fun _ => trivial⟩

end Doupro.Scheduler
