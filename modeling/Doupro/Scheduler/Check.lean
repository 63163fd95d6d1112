import Doupro.CrashLoop.Monitor
import Doupro.Scheduler.VersionResolution

/-!
# The registry check

`Check`: discovery writes the rows of the containers Docker lists, then every one that is not
excluded is compared with its registry, and the candidates for an update are stored.
-/

namespace Doupro.Scheduler

open Go Interaction Registry

/-- An event of a check about one container. -/
def checkEvent (level : Level) (type container message : String) : LogEvent where
  level := level
  type := type
  container := container
  actor := .system
  message := message

/-! ### Discovery -/

/-- A listed container as the settings leave it. -/
def withSettings (exclusions : Exclusions) (c : ListedContainer) : ListedContainer :=
  if exclusions.containers.contains c.name || exclusions.stackNames.contains c.stack then
    { c with excluded := true }
  else c

/-- Settings that cannot be read exclude nothing. -/
def exclusionsOf : Except GoError Exclusions → Exclusions
  | .ok exclusions => exclusions
  | .error _ => {}

/-- The row discovery writes. -/
def seenRecord (c : ListedContainer) : ContainerRecord where
  id := c.id
  name := c.name
  stack := c.stack
  state := c.state
  status := c.status
  currentImage := c.image
  excluded := c.excluded

def seeEach (ctx : Context) : List ListedContainer → Go Unit
  | [] => return
  | c :: rest => do
    if let .error err ← store ctx (.upsertSeen (seenRecord c)) then
      emit (checkEvent .error "container.sync_failed" c.name
        ("could not store container " ++ c.name ++ ": " ++ err.message))
    seeEach ctx rest

/-- The first half of `Check`: the containers it goes on with, unless they cannot be listed. -/
def discover (ctx : Context) : Go (Option (List ListedContainer)) := do
  match ← docker ctx .list with
  | .error err =>
    emit (checkEvent .error "docker.list_failed" "" ("could not list containers: " ++ err.message))
    return none
  | .ok listed =>
    let exclusions := exclusionsOf (← store ctx .getExclusions)
    let containers := listed.map (withSettings exclusions)
    seeEach ctx containers
    if let .error err ← store ctx (.pruneContainers (containers.map ListedContainer.id)) then
      emit (checkEvent .error "container.sync_failed" ""
        ("could not prune stale containers: " ++ err.message))
    emit { checkEvent .info "containers.discovered" ""
        ("discovered " ++ toString containers.length ++ " container(s)") with
      metadata := [("count", .number containers.length)] }
    return some containers

/-! ### One container -/

/-- The listings a check has made. -/
structure Caches where
  versionTags : TagsCache := []
  semverTags : TagsCache := []

/-- `checked`, `available` and `failed`. -/
structure Counts where
  checked : Nat := 0
  available : Nat := 0
  failed : Nat := 0
  deriving DecidableEq

/-- `registryImageRef`. -/
def registryImageRef (liveImage storedImage : String) : String :=
  if isDigestReference liveImage ∧ storedImage ≠ "" ∧ ¬ isDigestReference storedImage then
    storedImage
  else liveImage

/-- The reference a container is checked under: a container that runs from a digest is checked
under the tag it is stored or was logged with. -/
def checkedReference (ctx : Context) (c : ListedContainer) : Go String := do
  if ¬ isDigestReference c.image then return c.image
  let imageRef := match ← store ctx (.getContainer c.id) with
    | .ok rec => registryImageRef c.image rec.currentImage
    | .error _ => c.image
  if ¬ isDigestReference imageRef then return imageRef
  match ← lookup ctx (.recoverImageReference c.name) with
  | .error _ => return imageRef
  | .ok recovered =>
    if let .error err ← store ctx (.repairCurrentImage c.id recovered) then
      emit (checkEvent .warn "container.sync_failed" c.name
        ("recovered image reference for " ++ c.name ++ " but could not store it: " ++ err.message))
    return recovered

/-- The tags of the repository, of the cache or of the registry. -/
def semverTags (ctx : Context) (cache : TagsCache) (ref : Ref) (name : String) :
    Go (List String × TagsCache) := do
  match cache.lookup ref.cacheKey with
  | some tags => return (tags.map Prod.fst, cache)
  | none => match ← lookup ctx (.listTags ref) with
    | .ok tags => return (tags, cache.put ref (tags.map fun tag => (tag, "")))
    | .error err =>
      emit (checkEvent .warn "registry.tags_failed" name
        ("could not list semver tags for " ++ name ++ ": " ++ err.message))
      return ([], cache.put ref [])

/-- The candidate of a scope: the highest newer version it allows, or else a new build of the
tag itself. A listing carries no digests, so none of its tags is known to run; the instant of
detection is set when the candidate is stored. -/
def candidateOf (c : ListedContainer) (imageRef : String) (ref : Ref) (localDigests : List String)
    (moved : Bool) (tags : List String) (scope : String) : Option UpdateCandidate :=
  let newer := if isStrictSemverTag ref.tag ∧ ¬ localDigests.contains "" then
      selectSemverCandidate (tags.map String.toList) ref.tag scope
    else none
  match newer with
  | some tag =>
    some ⟨c.id, scope, replaceTag ref tag, String.ofList tag, 0⟩
  | none => if moved then some ⟨c.id, scope, imageRef, String.ofList ref.tag, 0⟩ else none

/-- The report of an update that was not available before. -/
def announce (ctx : Context) (c : ListedContainer) (candidates : List UpdateCandidate) :
    Go Unit := do
  let wasAvailable : Bool := match ← store ctx (.getContainer c.id) with
    | .ok previous => previous.updateAvailable
    | .error _ => false
  if ¬ wasAvailable then
    emit { checkEvent .info "update.candidate_detected" c.name
        ("version candidate detected for " ++ c.name) with
      stack := c.stack
      metadata := [("versions", .object (candidates.map fun candidate =>
        (candidate.scope, .string candidate.version)))] }
    notify ⟨"update.available", c.name, c.stack,
      "update available for " ++ c.name ++ " (" ++ c.image ++ ")"⟩

/-- A write of a check that only reports its failure. -/
def recordOrReport (ctx : Context) (call : StoreCall) (c : ListedContainer) (what : String) :
    Go Unit := do
  if let .error err ← store ctx call then
    emit (checkEvent .error "container.sync_failed" c.name
      ("could not " ++ what ++ " for " ++ c.name ++ ": " ++ err.message))

/-- The candidates of a check, stored and announced. -/
def storeCandidates (ctx : Context) (c : ListedContainer) (candidates : List UpdateCandidate) :
    Go Unit := do
  if candidates ≠ [] then announce ctx c candidates
  recordOrReport ctx (.replaceUpdateCandidates c.id candidates (← now)) c "store update candidates"
  recordOrReport ctx (.setUpdateAvailable c.id (!candidates.isEmpty)) c "record update status"

/-- The versions of a check, resolved and stored. -/
def storeVersions (ctx : Context) (cache : TagsCache) (c : ListedContainer) (ref : Ref)
    (currentDigest remoteDigest localVersion : String) (candidates : List UpdateCandidate) :
    Go TagsCache := do
  let hasUpdate := !candidates.isEmpty
  let hints ← loadVersionHints ctx ref c.id currentDigest remoteDigest hasUpdate localVersion
  let (versions, cache) ←
    resolveVersions ctx cache ref currentDigest remoteDigest hasUpdate hints
  storeVersionResults ctx ref currentDigest remoteDigest hasUpdate versions
  if let some err := versions.err then
    emit (checkEvent .warn "registry.version_resolution_failed" c.name
      ("could not resolve a registry version for " ++ c.name ++ ": " ++ err.message))
  let available := match candidates.find? fun candidate => candidate.scope = "major" with
    | some major => if isVersion major.version then major.version else versions.available
    | none => versions.available
  recordOrReport ctx (.setVersions c.id versions.current available) c "record resolved version"
  return cache

/-- The version label of the image a container runs, for its repository. -/
def readVersionLabel (ctx : Context) (c : ListedContainer) (ref : Ref) : Go String := do
  match ← lookup ctx (.imageVersionLabel c.imageID ref.repository) with
  | .ok version => return version
  | .error err =>
    emit (checkEvent .warn "version.label_read_failed" c.name
      ("could not read image version metadata for " ++ c.name ++ ": " ++ err.message))
    return ""

/-- The rest of a check once the registry has named the digest of the reference. -/
def compareDigests (ctx : Context) (caches : Caches) (c : ListedContainer) (first : String)
    (rest : List String) (imageRef localVersion remoteDigest : String) : Go (Counts × Caches) := do
  let ref := parseRef imageRef
  let moved := !(first :: rest).contains remoteDigest
  let (tags, semver) ←
    if isStrictSemverTag ref.tag then semverTags ctx caches.semverTags ref c.name
    else pure ([], caches.semverTags)
  let candidates :=
    Store.scopes.filterMap (candidateOf c imageRef ref (first :: rest) moved tags)
  storeCandidates ctx c candidates
  let versionTags ←
    storeVersions ctx caches.versionTags c ref first remoteDigest localVersion candidates
  return ({ checked := 1, available := if candidates = [] then 0 else 1 }, ⟨versionTags, semver⟩)

/-- A check against the registry under a reference. -/
def checkReference (ctx : Context) (caches : Caches) (c : ListedContainer) (first : String)
    (rest : List String) (imageRef : String) : Go (Counts × Caches) := do
  let ref := parseRef imageRef
  let localVersion ← readVersionLabel ctx c ref
  match ← lookup ctx (.digest ref) with
  | .error err =>
    let message := "registry check failed for " ++ c.name ++ " (" ++ String.ofList ref.registry ++
      "/" ++ String.ofList ref.repository ++ ":" ++ String.ofList ref.tag ++ "): " ++ err.message
    emit (checkEvent .warn "registry.check_failed" c.name message)
    notify ⟨"check.failed", c.name, c.stack, message⟩
    return ({ failed := 1 }, caches)
  | .ok remoteDigest => compareDigests ctx caches c first rest imageRef localVersion remoteDigest

/-- `checkOneContainer`. -/
def checkOneContainer (ctx : Context) (caches : Caches) (c : ListedContainer) :
    Go (Counts × Caches) := do
  if c.excluded ∨ c.imageID = "" then return ({}, caches)
  match ← lookup ctx (.imageDigests c.imageID) with
  | .error _ | .ok [] => return ({}, caches)
  | .ok (first :: rest) =>
    let imageRef ← checkedReference ctx c
    if isDigestReference imageRef ∨ trimSpace imageRef.toList = [] then return ({}, caches)
    checkReference ctx caches c first rest imageRef

/-! ### All containers -/

def checkEach (ctx : Context) : List ListedContainer → Caches → Counts → Go Counts
  | [], _, counts => return counts
  | c :: rest, caches, counts => do
    let (one, caches) ← checkOneContainer ctx caches c
    checkEach ctx rest caches
      ⟨counts.checked + one.checked, counts.available + one.available, counts.failed + one.failed⟩

/-- `checkForUpdates`. -/
def checkForUpdates (ctx : Context) (containers : List ListedContainer) : Go Unit := do
  let counts ← checkEach ctx containers {} {}
  emit { checkEvent .info "containers.checked" ""
      ("checked " ++ toString counts.checked ++ " container(s) against their registry: " ++
        toString counts.available ++ " update(s) available, " ++ toString counts.failed ++
        " check(s) failed") with
    metadata := [("checked", .number counts.checked), ("available", .number counts.available),
      ("failed", .number counts.failed)] }

/-- `Check`. -/
def check (ctx : Context) : Go Unit := do
  match ← discover ctx with
  | none => return
  | some containers => checkForUpdates ctx containers

/-- `CheckOneContainerNow`; `none` is an error. -/
def checkOneContainerNow (ctx : Context) (name : String) : Go (Option (Bool × Bool)) := do
  match ← Monitor.getContainerByName ctx name with
  | .error _ => return none
  | .ok rec => match ← docker ctx .list with
    | .error _ => return none
    | .ok live => match live.find? fun c => c.id = rec.id with
      | none => return none
      | some target =>
        let (counts, _) ← checkOneContainer ctx {} target
        match ← Monitor.getContainerByName ctx name with
        | .error _ => return none
        | .ok updated => return some (0 < counts.checked, updated.updateAvailable)

/-! ### The calls of a check -/

theorem checkedReference_compares (ctx : Context) (c : ListedContainer) :
    (checkedReference ctx c).Uses Compares := by
  unfold checkedReference
  split
  · trivial
  · refine Program.uses_request_bind (S := Calls) trivial fun row => ?_
    apply Program.uses_ite
    · trivial
    · refine Program.uses_request_bind (S := Calls) trivial fun recovered => ?_
      cases recovered with
      | error err => trivial
      | ok recovered =>
        refine Program.uses_request_bind (S := Calls) trivial fun repaired => ?_
        cases repaired with
        | ok _ => trivial
        | error err => exact ⟨trivial, fun _ => trivial⟩

theorem recordOrReport_uses {P : Call → Prop} (hemit : ∀ event, P (.emit event)) (ctx : Context)
    (call : StoreCall) (c : ListedContainer) (what : String) (hcall : P (.store ctx call)) :
    (recordOrReport ctx call c what).Uses P := by
  refine ⟨hcall, fun written => ?_⟩
  cases written with
  | ok _ => trivial
  | error err => exact ⟨hemit _, fun _ => trivial⟩

theorem announce_compares (ctx : Context) (c : ListedContainer) (candidates : List UpdateCandidate) :
    (announce ctx c candidates).Uses Compares := by
  refine Program.uses_request_bind (S := Calls) trivial fun previous => ?_
  apply Program.uses_ite
  · exact ⟨trivial, fun _ => ⟨trivial, fun _ => trivial⟩⟩
  · trivial

theorem storeCandidates_checks (ctx : Context) (c : ListedContainer)
    (candidates : List UpdateCandidate) : (storeCandidates ctx c candidates).Uses Checks := by
  have hrest : ∀ now, Program.Uses (S := Calls) Checks (do
      recordOrReport ctx (.replaceUpdateCandidates c.id candidates now) c "store update candidates"
      recordOrReport ctx (.setUpdateAvailable c.id (!candidates.isEmpty)) c
        "record update status") := fun now =>
    Program.uses_bind (recordOrReport_uses (fun _ => trivial) _ _ _ _ trivial) fun _ =>
      recordOrReport_uses (fun _ => trivial) _ _ _ _ trivial
  unfold storeCandidates
  split
  · apply Program.uses_bind (Program.uses_mono checks_of_compares (announce_compares _ _ _))
    exact fun _ => ⟨trivial, hrest⟩
  · exact ⟨trivial, hrest⟩

theorem storeVersions_compares (ctx : Context) (cache : TagsCache) (c : ListedContainer) (ref : Ref)
    (currentDigest remoteDigest localVersion : String) (candidates : List UpdateCandidate) :
    (storeVersions ctx cache c ref currentDigest remoteDigest localVersion candidates).Uses
      Compares := by
  apply Program.uses_bind (loadVersionHints_compares _ _ _ _ _ _ _)
  intro hints
  apply Program.uses_bind (resolveVersions_compares _ _ _ _ _ _ _)
  rintro ⟨versions, cache⟩
  apply Program.uses_bind (storeVersionResults_compares _ _ _ _ _ _)
  intro _
  have hset : ∀ available, (recordOrReport ctx (.setVersions c.id versions.current available) c
      "record resolved version").Uses Compares := fun _ =>
    recordOrReport_uses (fun _ => trivial) _ _ _ _ trivial
  dsimp only
  split
  · refine Program.uses_request_bind (S := Calls) trivial fun _ => ?_
    exact Program.uses_bind (hset _) fun _ => trivial
  · exact Program.uses_bind (hset _) fun _ => trivial

theorem readVersionLabel_compares (ctx : Context) (c : ListedContainer) (ref : Ref) :
    (readVersionLabel ctx c ref).Uses Compares := by
  refine ⟨trivial, fun label => ?_⟩
  cases label with
  | ok version => trivial
  | error err => exact ⟨trivial, fun _ => trivial⟩

theorem semverTags_compares (ctx : Context) (cache : TagsCache) (ref : Ref) (name : String) :
    (semverTags ctx cache ref name).Uses Compares := by
  unfold semverTags
  split
  · trivial
  · refine ⟨trivial, fun tags => ?_⟩
    cases tags with
    | ok tags => trivial
    | error err => exact ⟨trivial, fun _ => trivial⟩

theorem compareDigests_checks (ctx : Context) (caches : Caches) (c : ListedContainer)
    (first : String) (rest : List String) (imageRef localVersion remoteDigest : String) :
    (compareDigests ctx caches c first rest imageRef localVersion remoteDigest).Uses Checks := by
  refine Program.uses_ite_bind (Program.uses_mono checks_of_compares (semverTags_compares _ _ _ _))
    (Program.uses_pure _) ?_
  rintro ⟨tags, semver⟩
  apply Program.uses_bind (storeCandidates_checks _ _ _)
  intro _
  apply Program.uses_bind
  · exact Program.uses_mono checks_of_compares (storeVersions_compares _ _ _ _ _ _ _ _)
  · exact fun _ => trivial

theorem checkReference_checks (ctx : Context) (caches : Caches) (c : ListedContainer)
    (first : String) (rest : List String) (imageRef : String) :
    (checkReference ctx caches c first rest imageRef).Uses Checks := by
  apply Program.uses_bind (Program.uses_mono checks_of_compares (readVersionLabel_compares _ _ _))
  intro localVersion
  refine ⟨trivial, fun remote => ?_⟩
  cases remote with
  | error err => exact ⟨trivial, fun _ => ⟨trivial, fun _ => trivial⟩⟩
  | ok remoteDigest => exact compareDigests_checks _ _ _ _ _ _ _ _

theorem checkOneContainer_checks (ctx : Context) (caches : Caches) (c : ListedContainer) :
    (checkOneContainer ctx caches c).Uses Checks := by
  unfold checkOneContainer
  split
  · trivial
  · refine ⟨trivial, fun digests => ?_⟩
    match digests with
    | .error _ | .ok [] => trivial
    | .ok (first :: rest) =>
      apply Program.uses_bind (Program.uses_mono checks_of_compares (checkedReference_compares _ _))
      intro imageRef
      split
      · trivial
      · exact checkReference_checks _ _ _ _ _ _

theorem checkForUpdates_checks (ctx : Context) (containers : List ListedContainer) :
    (checkForUpdates ctx containers).Uses Checks := by
  have heach : ∀ containers caches counts, (checkEach ctx containers caches counts).Uses Checks := by
    intro containers
    induction containers with
    | nil => exact fun _ _ => trivial
    | cons c rest ih =>
      exact fun caches counts => Program.uses_bind (checkOneContainer_checks _ _ _) fun _ => ih _ _
  exact Program.uses_bind (heach _ _ _) fun _ => ⟨trivial, fun _ => trivial⟩

end Doupro.Scheduler
