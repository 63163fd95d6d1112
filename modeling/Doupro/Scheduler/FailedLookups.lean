import Doupro.Scheduler.CandidateStability
import Doupro.System.Crowd
import Doupro.Table.Associations

/-!
# Checks whose registry fails

A check reads before it writes. Where the registry names no digest it writes nothing; where it
does not list the tags of a pinned version, the check goes on as if the repository had none, and
so does every later check of the repository.
-/

namespace Doupro.Store

variable {containerID : String} {candidates : List UpdateCandidate}

/-- The candidate of a scope. -/
def candidateIn (scope : String) (candidates : List UpdateCandidate) : Option UpdateCandidate :=
  candidates.find? fun c => decide (c.scope = scope)

/-- The rows of a container are those of the candidates, whenever they were detected. -/
def Lists (s : Store) (containerID : String) (candidates : List UpdateCandidate) : Prop :=
  ∀ scope ∈ scopes, (s.getUpdateCandidate containerID scope).map (fun r => (r.image, r.version)) =
    (candidateIn scope candidates).map fun c => (c.image, c.version)

theorem lookup_upsertCandidate (now : Time) (rows : List UpdateCandidate) (c : UpdateCandidate)
    (scope : String) :
    Table.lookup candidateKey (containerID, scope) (upsertCandidate containerID now rows c) =
      if scope = c.scope then
        some ((Table.lookup candidateKey (containerID, scope) rows).elim
          (detectedRow containerID now c) (redetectedRow containerID now c))
      else Table.lookup candidateKey (containerID, scope) rows := by
  have hkey : ∀ r, candidateKey r = candidateKey (detectedRow containerID now c) →
      candidateKey (redetectedRow containerID now c r) = candidateKey (detectedRow containerID now c) :=
    fun _ _ => rfl
  rw [upsertCandidate, Table.lookup_upsert_of candidateKey hkey, candidateKey_detectedRow]
  simp

variable (containerID) in
theorem lookup_foldl (now : Time) (hscopes : (candidates.map UpdateCandidate.scope).Nodup)
    (rows : List UpdateCandidate) (scope : String) :
    Table.lookup candidateKey (containerID, scope)
        (candidates.foldl (upsertCandidate containerID now) rows) =
      match candidateIn scope candidates with
      | none => Table.lookup candidateKey (containerID, scope) rows
      | some c => some ((Table.lookup candidateKey (containerID, scope) rows).elim
        (detectedRow containerID now c) (redetectedRow containerID now c)) := by
  induction candidates generalizing rows with
  | nil => rfl
  | cons first rest ih =>
    obtain ⟨hfirst, hrest⟩ := List.nodup_cons.mp hscopes
    rw [List.foldl_cons, ih hrest, lookup_upsertCandidate]
    by_cases hscope : first.scope = scope
    · have hnone : candidateIn scope rest = none := by
        rw [candidateIn, List.find?_eq_none]
        intro c hc heq
        have heq : c.scope = scope := by simpa using heq
        exact hfirst (hscope.trans heq.symm ▸ List.mem_map_of_mem hc)
      rw [hnone, candidateIn, List.find?_cons_of_pos (by simpa using hscope), if_pos hscope.symm]
    · have hrest : candidateIn scope (first :: rest) = candidateIn scope rest :=
        List.find?_cons_of_neg (by simpa using hscope)
      rw [hrest, if_neg (Ne.symm hscope)]

/-- The row of a scope once the candidates are stored. -/
theorem getUpdateCandidate_replace (s : Store) (now : Time)
    (hscopes : (candidates.map UpdateCandidate.scope).Nodup) (scope : String) :
    (s.replaceUpdateCandidates containerID candidates now).getUpdateCandidate containerID scope =
      match candidateIn scope candidates with
      | some c => some ((s.getUpdateCandidate containerID scope).elim
          (detectedRow containerID now c) (redetectedRow containerID now c))
      | none => if scope ∈ scopes then none else s.getUpdateCandidate containerID scope := by
  have hrow := lookup_foldl containerID now hscopes s.candidates scope
  have hgone : ∀ r : UpdateCandidate, candidateKey r = (containerID, scope) →
      (decide (r.containerID = containerID) && (scopes.filter fun scope =>
        !(candidates.map UpdateCandidate.scope).contains scope).contains r.scope) =
          decide (scope ∈ scopes ∧ candidateIn scope candidates = none) := by
    intro r hr
    obtain ⟨rfl, rfl⟩ := Prod.mk.inj hr
    simp [candidateIn, List.find?_eq_none]
  have hkept := Table.lookup_deleteWhere_of candidateKey hgone
    (candidates.foldl (upsertCandidate containerID now) s.candidates)
  rw [hrow] at hkept
  refine hkept.trans ?_
  cases hfound : candidateIn scope candidates with
  | some c =>
    simp
    rfl
  | none =>
    simp
    rfl

/-- Storing candidates leaves the rows of a container as they are just when it has theirs. -/
theorem replaceUpdateCandidates_same_iff (s : Store) (now : Time)
    (hscopes : (candidates.map UpdateCandidate.scope).Nodup) (hall : ∀ c ∈ candidates, c.scope ∈ scopes) :
    (s.replaceUpdateCandidates containerID candidates now).getUpdateCandidate containerID =
        s.getUpdateCandidate containerID ↔ s.Lists containerID candidates := by
  rw [funext_iff, Lists]
  apply forall_congr'
  intro scope
  rw [getUpdateCandidate_replace s now hscopes]
  cases hfound : candidateIn scope candidates with
  | none =>
    by_cases hscope : scope ∈ scopes
    · simp [hscope, eq_comm]
    · simp [hscope]
  | some c =>
    have hmem : c ∈ candidates := List.mem_of_find?_eq_some hfound
    have hc : c.scope = scope := by simpa using List.find?_some hfound
    have hscope : scope ∈ scopes := hc ▸ hall c hmem
    cases hrow : s.getUpdateCandidate containerID scope with
    | none => simp [hscope]
    | some r =>
      have hkey : candidateKey r = (containerID, scope) := Table.lookup_key hrow
      obtain ⟨rfl, rfl⟩ := Prod.mk.inj hkey
      rw [imp_iff_right hscope]
      simp only [Option.elim_some, Option.map_some, Option.some_inj]
      constructor
      · intro heq
        rw [← heq]
        rfl
      · intro heq
        obtain ⟨himage, hversion⟩ := Prod.mk.inj heq
        cases r
        cases c
        simp_all [redetectedRow]

/-- What is stored of the updates of a container: its candidates and its flag. -/
def updatesOf (containerID : String) (s : Store) :
    (String → Option UpdateCandidate) × Option Bool :=
  (s.getUpdateCandidate containerID, (s.getContainer containerID).map ContainerRecord.updateAvailable)

variable (containerID) in
theorem getContainer_updateWhere (s : Store) (p : ContainerRecord → Bool)
    (f : ContainerRecord → ContainerRecord) (hf : ∀ r, (f r).id = r.id) :
    ({ s with containers := Table.updateWhere p f s.containers }).getContainer containerID =
      (s.getContainer containerID).map fun r => if p r then f r else r :=
  Table.lookup_updateWhere ContainerRecord.id p f hf containerID s.containers

theorem getContainer_setUpdateAvailable (s : Store) (available : Bool) (now : Time) :
    ((s.setUpdateAvailable containerID available now).getContainer containerID).map
        ContainerRecord.updateAvailable =
      ((s.getContainer containerID).map ContainerRecord.updateAvailable).map fun _ => available := by
  have hset := getContainer_updateWhere containerID s
    (fun r => decide (r.id = containerID))
    (fun r => { r with updateAvailable := available, lastCheckedAt := some now }) fun _ => rfl
  change ((getContainer _ containerID).map ContainerRecord.updateAvailable) = _
  rw [setUpdateAvailable, hset]
  cases h : s.getContainer containerID with
  | none => rfl
  | some r =>
    have hid : r.id = containerID := Table.lookup_key h
    simp [hid]

/-- An edit of rows that leaves their flags alone. -/
theorem updatesOf_updateWhere (s : Store) (p : ContainerRecord → Bool)
    (f : ContainerRecord → ContainerRecord) (hid : ∀ r, (f r).id = r.id)
    (hflag : ∀ r, (f r).updateAvailable = r.updateAvailable) :
    updatesOf containerID { s with containers := Table.updateWhere p f s.containers } =
      updatesOf containerID s := by
  have hrow := getContainer_updateWhere containerID s p f hid
  have hsame : ((s.getContainer containerID).map fun r => if p r then f r else r).map
      ContainerRecord.updateAvailable = (s.getContainer containerID).map
        ContainerRecord.updateAvailable := by
    rw [Option.map_map]
    congr 1
    funext r
    by_cases hp : p r = true <;> simp [hp, hflag]
  refine Prod.ext rfl ?_
  change (getContainer _ containerID).map _ = _
  rw [hrow, hsame]
  rfl

end Doupro.Store

namespace Doupro.Scheduler

open Go Interaction Registry

/-! ### The two halves of a check -/

/-- The tags a check has of the repository of a pinned version. -/
inductive Listing where
  | unasked
  | known (tags : List String)
  | failed

def Listing.tags : Listing → List String
  | .known tags => tags
  | .unasked | .failed => []

/-- What a check of one container reads before it writes. -/
inductive Reading where
  /-- There is nothing to compare. -/
  | skipped
  /-- The registry named no digest. -/
  | refused (ref : Ref) (err : GoError)
  /-- A reference, the digests of the image that runs, its version label, the digest of the
  registry and the tags. -/
  | compared (imageRef first : String) (rest : List String) (localVersion remoteDigest : String)
    (listing : Listing)

namespace Reading

/-- The registry did not answer. -/
def Failed : Reading → Prop
  | .refused _ _ | .compared _ _ _ _ _ .failed => True
  | _ => False

instance : DecidablePred Failed
  | .refused _ _ | .compared _ _ _ _ _ .failed => isTrue trivial
  | .skipped | .compared _ _ _ _ _ .unasked | .compared _ _ _ _ _ (.known _) => isFalse id

def repository : Reading → Option Text
  | .skipped => none
  | .refused ref _ => some ref.cacheKey
  | .compared imageRef _ _ _ _ _ => some (parseRef imageRef).cacheKey

def listing : Reading → Listing
  | .skipped | .refused _ _ => .unasked
  | .compared _ _ _ _ _ listing => listing

/-- The candidates for what was read. -/
def candidates (c : ListedContainer) : Reading → List UpdateCandidate
  | .skipped | .refused _ _ => []
  | .compared imageRef first rest _ remoteDigest listing =>
    Store.scopes.filterMap (candidateOf c imageRef (parseRef imageRef) (first :: rest)
      (!(first :: rest).contains remoteDigest) listing.tags)

end Reading

/-- The tags of the repository, if the tag is a pinned version. -/
def readTags (ctx : Context) (cache : TagsCache) (ref : Ref) (name : String) :
    Go (Listing × TagsCache) := do
  if isStrictSemverTag ref.tag then
    match cache.lookup ref.cacheKey with
    | some tags => return (.known (tags.map Prod.fst), cache)
    | none => match ← lookup ctx (.listTags ref) with
      | .ok tags => return (.known tags, cache.put ref (tags.map fun tag => (tag, "")))
      | .error err =>
        emit (checkEvent .warn "registry.tags_failed" name
          ("could not list semver tags for " ++ name ++ ": " ++ err.message))
        return (.failed, cache.put ref [])
  else return (.unasked, cache)

/-- `checkOneContainer` up to its first write of candidates. -/
def readContainer (ctx : Context) (caches : Caches) (c : ListedContainer) : Go (Reading × Caches) := do
  if c.excluded ∨ c.imageID = "" then return (.skipped, caches)
  match ← lookup ctx (.imageDigests c.imageID) with
  | .error _ | .ok [] => return (.skipped, caches)
  | .ok (first :: rest) =>
    let imageRef ← checkedReference ctx c
    if isDigestReference imageRef ∨ trimSpace imageRef.toList = [] then return (.skipped, caches)
    let ref := parseRef imageRef
    let localVersion ← readVersionLabel ctx c ref
    match ← lookup ctx (.digest ref) with
    | .error err => return (.refused ref err, caches)
    | .ok remoteDigest =>
      let (listing, semver) ← readTags ctx caches.semverTags ref c.name
      return (.compared imageRef first rest localVersion remoteDigest listing,
        ⟨caches.versionTags, semver⟩)

/-- The rest of `checkOneContainer`. -/
def recordReading (ctx : Context) (caches : Caches) (c : ListedContainer) :
    Reading → Go (Counts × Caches)
  | .skipped => return ({}, caches)
  | .refused ref err => do
    let message := "registry check failed for " ++ c.name ++ " (" ++ String.ofList ref.registry ++
      "/" ++ String.ofList ref.repository ++ ":" ++ String.ofList ref.tag ++ "): " ++ err.message
    emit (checkEvent .warn "registry.check_failed" c.name message)
    notify ⟨"check.failed", c.name, c.stack, message⟩
    return ({ failed := 1 }, caches)
  | .compared imageRef first rest localVersion remoteDigest listing => do
    let candidates :=
      Reading.candidates c (.compared imageRef first rest localVersion remoteDigest listing)
    storeCandidates ctx c candidates
    let versionTags ← storeVersions ctx caches.versionTags c (parseRef imageRef) first remoteDigest
      localVersion candidates
    return ({ checked := 1, available := if candidates = [] then 0 else 1 },
      ⟨versionTags, caches.semverTags⟩)

theorem readTags_eq {α : Type} (ctx : Context) (cache : TagsCache) (ref : Ref) (name : String)
    (next : List String × TagsCache → Go α) :
    (if isStrictSemverTag ref.tag then semverTags ctx cache ref name >>= next
      else pure ([], cache) >>= next) =
      readTags ctx cache ref name >>= fun read => next (read.1.tags, read.2) := by
  unfold readTags semverTags
  split
  · cases cache.lookup ref.cacheKey with
    | some tags => rfl
    | none =>
      simp only
      rw [Program.bind_assoc_eq, Program.bind_assoc_eq]
      congr 1
      funext tags
      cases tags <;> rfl
  · rfl

theorem compareDigests_eq (ctx : Context) (caches : Caches) (c : ListedContainer) (first : String)
    (rest : List String) (imageRef localVersion remoteDigest : String) :
    compareDigests ctx caches c first rest imageRef localVersion remoteDigest =
      readTags ctx caches.semverTags (parseRef imageRef) c.name >>= fun read =>
        recordReading ctx ⟨caches.versionTags, read.2⟩ c
          (.compared imageRef first rest localVersion remoteDigest read.1) :=
  readTags_eq _ _ _ _ _

attribute [local irreducible] Reading.candidates

theorem checkOneContainer_eq (ctx : Context) (caches : Caches) (c : ListedContainer) :
    checkOneContainer ctx caches c =
      readContainer ctx caches c >>= fun read => recordReading ctx read.2 c read.1 := by
  unfold checkOneContainer readContainer
  split
  · rfl
  · rw [Program.bind_assoc_eq]
    congr 1
    funext digests
    match digests with
    | .error _ | .ok [] => rfl
    | .ok (first :: rest) =>
      change (checkedReference ctx c >>= _) = (checkedReference ctx c >>= _) >>= _
      rw [Program.bind_assoc_eq]
      congr 1
      funext imageRef
      split
      · rfl
      · change (readVersionLabel ctx c (parseRef imageRef) >>= _) = (readVersionLabel ctx c _ >>= _) >>= _
        rw [Program.bind_assoc_eq]
        congr 1
        funext localVersion
        rw [Program.bind_assoc_eq]
        congr 1
        funext remote
        cases remote with
        | error err => rfl
        | ok remoteDigest =>
          simp only
          rw [compareDigests_eq, Program.bind_assoc_eq]
          rfl

/-! ### What a check leaves alone -/

variable {ctx : Context} {w w' : World} {caches : Caches} {c : ListedContainer}

theorem keeps_of_compares (containerID : String) {call : Call} (h : Compares call) :
    call.Keeps (Store.updatesOf containerID) := by
  unfold Compares at h
  split at h
  case h_7 | h_8 | h_9 =>
    intro s now result s' hok
    rw [Store.perform_reads (by trivial) hok]
  case h_10 | h_11 =>
    intro s now result s' hok
    obtain ⟨-, rfl⟩ := Prod.mk.inj (Except.ok.inj hok)
    rfl
  case h_12 | h_13 =>
    intro s now result s' hok
    obtain ⟨-, rfl⟩ := Prod.mk.inj (Except.ok.inj hok)
    exact Store.updatesOf_updateWhere s _ _ (fun _ => rfl) fun _ => rfl
  all_goals trivial

theorem runs_keeps {α β : Type} {kept : Store → β} {p : Go α} (hp : p.Uses (Call.Keeps kept))
    {trace : Trace Calls World} {a : α} (h : openSystem.Runs p w trace a w') :
    kept w'.store = kept w.store := by
  refine Machine.path_invariant (I := fun world => kept world.store = kept w.store)
    (P := fun e => Call.Keeps kept e.op) ?_ ?_ (Machine.runs_path h) (Machine.runs_uses hp h) rfl
  · intro world world' hsame hrely
    rw [hrely.frame.store]
    exact hsame
  · exact fun _ _ _ _ hcall hsame hstep => (step_keeps hcall hstep).trans hsame

theorem runs_compares {α : Type} {p : Go α} (hp : p.Uses Compares) {trace : Trace Calls World} {a : α}
    (h : openSystem.Runs p w trace a w') (containerID : String) :
    w'.store.updatesOf containerID = w.store.updatesOf containerID :=
  runs_keeps (Program.uses_mono (fun _ => keeps_of_compares containerID) hp) h

theorem readTags_compares (ctx : Context) (cache : TagsCache) (ref : Ref) (name : String) :
    (readTags ctx cache ref name).Uses Compares := by
  unfold readTags
  split
  · split
    · trivial
    · refine ⟨trivial, fun tags => ?_⟩
      cases tags with
      | ok tags => trivial
      | error err => exact ⟨trivial, fun _ => trivial⟩
  · trivial

theorem readContainer_compares (ctx : Context) (caches : Caches) (c : ListedContainer) :
    (readContainer ctx caches c).Uses Compares := by
  unfold readContainer
  split
  · trivial
  · refine Program.uses_request_bind (S := Calls) trivial fun digests => ?_
    match digests with
    | .error _ | .ok [] => trivial
    | .ok (first :: rest) =>
      dsimp only
      apply Program.uses_bind (S := Calls) (checkedReference_compares _ _)
      intro imageRef
      split
      · trivial
      · apply Program.uses_bind (S := Calls) (readVersionLabel_compares _ _ _)
        intro localVersion
        refine Program.uses_request_bind (S := Calls) trivial fun remote => ?_
        cases remote with
        | error err => trivial
        | ok remoteDigest =>
          dsimp only
          exact Program.uses_bind (S := Calls) (readTags_compares _ _ _ _) fun _ => trivial

/-! ### What a check writes -/

/-- The candidates are stored. -/
def storesCandidates : Event Calls World → Bool
  | ⟨_, .store _ (.replaceUpdateCandidates _ _ _), .ok _⟩ => true
  | _ => false

/-- The flag is stored. -/
def storesFlag : Event Calls World → Bool
  | ⟨_, .store _ (.setUpdateAvailable _ _), .ok _⟩ => true
  | _ => false

/-- The store after a check: what it writes of candidates and of the flag, as far as the writes are
carried out. -/
def written (c : ListedContainer) (candidates : List UpdateCandidate) (stored flagged : Bool)
    (now clock : Time) (s : Store) : Store :=
  let s := if stored then s.replaceUpdateCandidates c.id candidates now else s
  if flagged then s.setUpdateAvailable c.id (!candidates.isEmpty) clock else s

theorem not_compares_of_storesCandidates {e : Event Calls World} (h : storesCandidates e = true) :
    ¬ Compares e.op := by
  unfold storesCandidates at h
  split at h
  · exact id
  · cases h

theorem not_compares_of_storesFlag {e : Event Calls World} (h : storesFlag e = true) :
    ¬ Compares e.op := by
  unfold storesFlag at h
  split at h
  · exact id
  · cases h

theorem quiet_of_compares {α : Type} {p : Go α} (hp : p.Uses Compares) {trace : Trace Calls World}
    {a : α} (h : openSystem.Runs p w trace a w') :
    trace.any storesCandidates = false ∧ trace.any storesFlag = false := by
  have hcalls := Machine.runs_uses hp h
  simp only [List.any_eq_false]
  exact ⟨fun e he hstores => not_compares_of_storesCandidates hstores (hcalls e he),
    fun e he hstores => not_compares_of_storesFlag hstores (hcalls e he)⟩

theorem recordOrReport_runs {call : StoreCall} {what : String} {trace : Trace Calls World} {u : Unit}
    (h : openSystem.Runs (recordOrReport ctx call c what) w trace u w') :
    ∃ w₀ reply w₁ rest, trace = ⟨w₀, .store ctx call, reply⟩ :: rest ∧ w₀.store = w.store ∧
      openSystem.step w₀ (.store ctx call) reply w₁ ∧ w'.store = w₁.store ∧
      rest.any storesCandidates = false ∧ rest.any storesFlag = false := by
  obtain ⟨w₀, reply, w₁, rest, hdrift, hstep, rfl, hrest⟩ := Machine.runs_request_bind.mp h
  refine ⟨w₀, reply, w₁, rest, rfl, hdrift.frame.store, hstep, ?_⟩
  cases reply with
  | ok result =>
    obtain ⟨rfl, -, rfl⟩ := hrest
    exact ⟨rfl, rfl, rfl⟩
  | error err =>
    obtain ⟨w₂, _, w₃, last, hdrift₂, hemit, rfl, rfl, -, rfl⟩ := hrest
    rw [step_emit hemit]
    exact ⟨hdrift₂.frame.store, rfl, rfl⟩

/-- The two writes of `storeCandidates`. -/
def writeUpdates (ctx : Context) (c : ListedContainer) (candidates : List UpdateCandidate) : Go Unit := do
  recordOrReport ctx (.replaceUpdateCandidates c.id candidates (← now)) c "store update candidates"
  recordOrReport ctx (.setUpdateAvailable c.id (!candidates.isEmpty)) c "record update status"

theorem writeUpdates_runs {candidates : List UpdateCandidate} {trace : Trace Calls World} {u : Unit}
    (h : openSystem.Runs (writeUpdates ctx c candidates) w trace u w') :
    ∃ now clock, w'.store = written c candidates (trace.any storesCandidates) (trace.any storesFlag)
      now clock w.store := by
  obtain ⟨w₀, now, w₁, rest, hdrift₀, hnow, rfl, h₁⟩ := Machine.runs_request_bind.mp h
  obtain ⟨rfl, rfl⟩ := step_now hnow
  obtain ⟨first, _, w₂, last, hfirst, hlast, rfl⟩ := Machine.runs_bind.mp h₁
  obtain ⟨w₃, reply₃, w₄, rest₃, rfl, hmet₃, hstep₃, hleft₃, hcandidates₃, hflag₃⟩ := recordOrReport_runs hfirst
  obtain ⟨w₅, reply₅, w₆, rest₅, rfl, hmet₅, hstep₅, hleft₅, hcandidates₅, hflag₅⟩ := recordOrReport_runs hlast
  have hstart : w₃.store = w.store := hmet₃.trans hdrift₀.frame.store
  refine ⟨w₁.clock, w₅.clock, ?_⟩
  simp only [List.any_cons, List.any_append, hcandidates₃, hflag₃, hcandidates₅, hflag₅]
  -- either write may fail, and then leaves the store to the other
  rcases step_store hstep₃ with ⟨err₃, rfl, rfl⟩ | ⟨_, store₃, -, hperform₃, rfl, rfl⟩
  · have hbetween : w₅.store = w.store := (hmet₅.trans hleft₃).trans hstart
    rcases step_store hstep₅ with ⟨err₅, rfl, rfl⟩ | ⟨_, store₅, -, hperform₅, rfl, rfl⟩
    · rw [hleft₅, hbetween]
      rfl
    · obtain ⟨-, rfl⟩ := Prod.mk.inj (Except.ok.inj hperform₅)
      rw [hleft₅, hbetween]
      rfl
  · obtain ⟨-, rfl⟩ := Prod.mk.inj (Except.ok.inj hperform₃)
    have hbetween := hmet₅.trans hleft₃
    rcases step_store hstep₅ with ⟨err₅, rfl, rfl⟩ | ⟨_, store₅, -, hperform₅, rfl, rfl⟩
    · rw [hleft₅, hbetween, hstart]
      rfl
    · obtain ⟨-, rfl⟩ := Prod.mk.inj (Except.ok.inj hperform₅)
      rw [hleft₅, hbetween, hstart]
      rfl

theorem announce_keeps (ctx : Context) (c : ListedContainer) (candidates : List UpdateCandidate) :
    (announce ctx c candidates).Uses (Call.Keeps (id : Store → Store)) := by
  have hread : Call.Keeps (id : Store → Store) (.store ctx (.getContainer c.id)) :=
    fun s now result s' hok => Store.perform_reads (by trivial) hok
  refine Program.uses_request_bind (S := Calls) hread fun previous => ?_
  apply Program.uses_ite
  · exact ⟨trivial, fun _ => ⟨trivial, fun _ => trivial⟩⟩
  · trivial

theorem storeCandidates_runs {candidates : List UpdateCandidate} {trace : Trace Calls World} {u : Unit}
    (h : openSystem.Runs (storeCandidates ctx c candidates) w trace u w') :
    ∃ now clock, w'.store = written c candidates (trace.any storesCandidates) (trace.any storesFlag)
      now clock w.store := by
  have hparts : storeCandidates ctx c candidates =
      if candidates ≠ [] then announce ctx c candidates >>= fun _ => writeUpdates ctx c candidates
      else writeUpdates ctx c candidates := rfl
  rw [hparts] at h
  split at h
  · obtain ⟨first, _, w₁, rest, hfirst, hrest, rfl⟩ := Machine.runs_bind.mp h
    obtain ⟨hcandidates, hflag⟩ := quiet_of_compares (announce_compares _ _ _) hfirst
    have hsame : w₁.store = w.store := runs_keeps (announce_keeps _ _ _) hfirst
    obtain ⟨now, clock, hwritten⟩ := writeUpdates_runs hrest
    refine ⟨now, clock, ?_⟩
    rw [hwritten, hsame, List.any_append, List.any_append, hcandidates, hflag]
    rfl
  · exact writeUpdates_runs h

theorem recordReading_runs {reading : Reading} {trace : Trace Calls World} {out : Counts × Caches}
    (h : openSystem.Runs (recordReading ctx caches c reading) w trace out w') :
    ∃ now clock, w'.store.updatesOf c.id = (written c (reading.candidates c)
      (trace.any storesCandidates) (trace.any storesFlag) now clock w.store).updatesOf c.id := by
  have hquiet : (recordReading ctx caches c reading).Uses Compares →
      ∃ now clock, w'.store.updatesOf c.id = (written c (reading.candidates c)
        (trace.any storesCandidates) (trace.any storesFlag) now clock w.store).updatesOf c.id := by
    intro huses
    obtain ⟨hcandidates, hflag⟩ := quiet_of_compares huses h
    refine ⟨0, 0, ?_⟩
    rw [hcandidates, hflag]
    exact runs_compares huses h c.id
  cases reading with
  | skipped => exact hquiet trivial
  | refused ref err => exact hquiet ⟨trivial, fun _ => ⟨trivial, fun _ => trivial⟩⟩
  | compared imageRef first rest localVersion remoteDigest listing =>
    unfold recordReading at h
    obtain ⟨stores, _, w₁, later, hstores, hlater, rfl⟩ := Machine.runs_bind.mp h
    obtain ⟨now, clock, hwritten⟩ := storeCandidates_runs hstores
    obtain ⟨versions, _, w₂, last, hversions, ⟨rfl, -, rfl⟩, rfl⟩ := Machine.runs_bind.mp hlater
    have huses := storeVersions_compares ctx caches.versionTags c (parseRef imageRef) first remoteDigest
      localVersion (Reading.candidates c (.compared imageRef first rest localVersion remoteDigest listing))
    obtain ⟨hcandidates, hflag⟩ := quiet_of_compares huses hversions
    refine ⟨now, clock, ?_⟩
    rw [runs_compares huses hversions c.id, hwritten]
    simp [hcandidates, hflag]

/-! ### A pass over the containers -/

/-- One container of a pass: the world its check met, what it read, the calls it made and the world
it left. -/
structure CheckTurn where
  container : ListedContainer
  met : World
  reading : Reading
  trace : Trace Calls World
  left : World

namespace CheckTurn

variable (turn : CheckTurn)

/-- The candidates of the container, with the instants of their detection, and its flag are as they
were. -/
def Unchanged : Prop :=
  turn.left.store.updatesOf turn.container.id = turn.met.store.updatesOf turn.container.id

/-- What the check writes of the container's updates is what is stored: for each scope the image
and the version of the candidate, if there is one, and the flag. -/
def Settled : Prop :=
  (turn.trace.any storesCandidates = true →
    turn.met.store.Lists turn.container.id (turn.reading.candidates turn.container)) ∧
  (turn.trace.any storesFlag = true → ∀ rec,
    turn.met.store.getContainer turn.container.id = some rec →
      rec.updateAvailable = !(turn.reading.candidates turn.container).isEmpty)

end CheckTurn

/-- The containers are checked in turn, with the listings made so far. -/
def CheckTurns (ctx : Context) :
    List ListedContainer → Caches → World → List CheckTurn → World → Prop
  | [], _, w, turns, w' => turns = [] ∧ w' = w
  | c :: rest, caches, w, turns, w' => ∃ reading caches₁ w₁ first out left second later,
      openSystem.Runs (readContainer ctx caches c) w first (reading, caches₁) w₁ ∧
      openSystem.Runs (recordReading ctx caches₁ c reading) w₁ second out left ∧
      turns = ⟨c, w, reading, first ++ second, left⟩ :: later ∧
      CheckTurns ctx rest out.2 left later w'

/-- The registry failed the check of the container, or that of an earlier one of its repository. -/
def Affected (turns : List CheckTurn) (turn : CheckTurn) : Prop :=
  ∃ before after, turns = before ++ turn :: after ∧
    (turn.reading.Failed ∨ ∃ earlier ∈ before, earlier.reading.Failed ∧
      earlier.reading.repository = turn.reading.repository)

theorem checkEach_turns {containers : List ListedContainer} {counts total : Counts}
    {trace : Trace Calls World}
    (h : openSystem.Runs (checkEach ctx containers caches counts) w trace total w') :
    ∃ turns, CheckTurns ctx containers caches w turns w' ∧ trace = turns.flatMap CheckTurn.trace := by
  induction containers generalizing w trace caches counts with
  | nil =>
    obtain ⟨rfl, -, rfl⟩ := h
    exact ⟨[], ⟨rfl, rfl⟩, rfl⟩
  | cons c rest ih =>
    obtain ⟨one, out, w₁, later, hone, hlater, rfl⟩ := Machine.runs_bind.mp h
    rw [checkOneContainer_eq] at hone
    obtain ⟨first, read, w₂, second, hread, hrecord, rfl⟩ := Machine.runs_bind.mp hone
    obtain ⟨turns, hturns, rfl⟩ := ih hlater
    exact ⟨⟨c, w, read.1, first ++ second, w₁⟩ :: turns,
      ⟨read.1, read.2, w₂, first, out, w₁, second, turns, hread, hrecord, rfl, hturns⟩, rfl⟩

theorem turns_checkEach {containers : List ListedContainer} {turns : List CheckTurn}
    (h : CheckTurns ctx containers caches w turns w') (counts : Counts) :
    ∃ total, openSystem.Runs (checkEach ctx containers caches counts) w
      (turns.flatMap CheckTurn.trace) total w' := by
  induction containers generalizing caches w turns counts with
  | nil =>
    obtain ⟨rfl, rfl⟩ := h
    exact ⟨counts, rfl, rfl, rfl⟩
  | cons c rest ih =>
    obtain ⟨reading, caches₁, w₁, first, out, left, second, later, hread, hrecord, rfl, hlater⟩ := h
    have hone : openSystem.Runs (checkOneContainer ctx caches c) w (first ++ second) out left := by
      rw [checkOneContainer_eq]
      exact Machine.runs_bind.mpr ⟨first, (reading, caches₁), w₁, second, hread, hrecord, rfl⟩
    obtain ⟨total, hrest⟩ := ih hlater _
    exact ⟨total, Machine.runs_bind.mpr ⟨first ++ second, out, left, _, hone, hrest, rfl⟩⟩

theorem candidates_scopes (c : ListedContainer) (reading : Reading) :
    ((reading.candidates c).map UpdateCandidate.scope).Nodup ∧
      ∀ candidate ∈ reading.candidates c, candidate.scope ∈ Store.scopes := by
  cases reading with
  | skipped | refused => simp [Reading.candidates]
  | compared imageRef first rest localVersion remoteDigest listing =>
    unfold Reading.candidates
    constructor
    · have htags : (listing.tags.map String.toList).map String.ofList = listing.tags := by
        simp [List.map_map, Function.comp_def]
      have hfound := foundCandidates_scopes c imageRef (first :: rest)
        (!(first :: rest).contains remoteDigest) (listing.tags.map String.toList)
      rwa [foundCandidates, htags] at hfound
    · intro candidate hcandidate
      obtain ⟨scope, hscope, hfound⟩ := List.mem_filterMap.mp hcandidate
      rw [candidateOf_scope hfound]
      exact hscope

theorem written_same_iff {candidates : List UpdateCandidate} {stored flagged : Bool}
    {now clock : Time} {s : Store} (hscopes : (candidates.map UpdateCandidate.scope).Nodup)
    (hall : ∀ candidate ∈ candidates, candidate.scope ∈ Store.scopes) :
    (written c candidates stored flagged now clock s).updatesOf c.id = s.updatesOf c.id ↔
      (stored = true → s.Lists c.id candidates) ∧
      (flagged = true → ∀ rec, s.getContainer c.id = some rec →
        rec.updateAvailable = !candidates.isEmpty) := by
  rw [Prod.ext_iff]
  apply and_congr
  · cases stored with
    | true =>
      rw [imp_iff_right rfl, ← Store.replaceUpdateCandidates_same_iff s now hscopes hall]
      cases flagged <;> rfl
    | false =>
      cases flagged <;> exact ⟨fun _ => (nomatch ·), fun _ => rfl⟩
  · cases flagged with
    | true =>
      rw [imp_iff_right rfl]
      have hflag : ((written c candidates stored true now clock s).updatesOf c.id).2 =
          ((s.getContainer c.id).map ContainerRecord.updateAvailable).map fun _ =>
            !candidates.isEmpty := by
        cases stored <;> exact Store.getContainer_setUpdateAvailable _ _ _
      rw [hflag]
      change _ = (s.getContainer c.id).map ContainerRecord.updateAvailable ↔ _
      cases s.getContainer c.id with
      | none => simp
      | some rec => simp [eq_comm]
    | false =>
      cases stored <;> exact ⟨fun _ => (nomatch ·), fun _ => rfl⟩

theorem turns_settled {containers : List ListedContainer} {turns : List CheckTurn}
    (h : CheckTurns ctx containers caches w turns w') :
    ∀ turn ∈ turns, turn.Unchanged ↔ turn.Settled := by
  induction containers generalizing caches w turns with
  | nil =>
    obtain ⟨rfl, -⟩ := h
    simp
  | cons c rest ih =>
    obtain ⟨reading, caches₁, w₁, first, out, left, second, later, hread, hrecord, rfl, hlater⟩ := h
    refine List.forall_mem_cons.mpr ⟨?_, ih hlater⟩
    have hreads := readContainer_compares ctx caches c
    obtain ⟨hcandidates, hflag⟩ := quiet_of_compares hreads hread
    have hsame := runs_compares hreads hread c.id
    obtain ⟨now, clock, hwritten⟩ := recordReading_runs hrecord
    obtain ⟨hscopes, hall⟩ := candidates_scopes c reading
    unfold CheckTurn.Unchanged CheckTurn.Settled
    simp only [List.any_append, hcandidates, hflag, Bool.false_or]
    rw [hwritten, ← hsame, written_same_iff hscopes hall]
    have hrows : w₁.store.getUpdateCandidate c.id = w.store.getUpdateCandidate c.id :=
      congrArg Prod.fst hsame
    have hflags : (w₁.store.getContainer c.id).map ContainerRecord.updateAvailable =
        (w.store.getContainer c.id).map ContainerRecord.updateAvailable := congrArg Prod.snd hsame
    have hasFlag : ∀ (row : Option ContainerRecord) (flag : Bool),
        (∀ rec, row = some rec → rec.updateAvailable = flag) ↔
          ∀ available ∈ row.map ContainerRecord.updateAvailable, available = flag := by
      intro row flag
      cases row <;> simp
    rw [hasFlag, hasFlag, hflags]
    unfold Store.Lists
    rw [hrows]

/-! ### A listing that failed is empty for the rest of the pass -/

/-- The pass holds the repository for one without tags. -/
def Caches.Empties (caches : Caches) (key : Text) : Prop := caches.semverTags.lookup key = some []

theorem lookup_put {cache : TagsCache} {ref : Ref} {key : Text} (tags : List (String × String))
    (h : ref.cacheKey ≠ key) : (cache.put ref tags).lookup key = cache.lookup key := by
  have hne : (key == ref.cacheKey) = false := by simpa using Ne.symm h
  rw [TagsCache.put, List.lookup_cons, hne]
  exact Table.lookup_filter_ne (Ne.symm h) cache

theorem lookup_put_self (cache : TagsCache) (ref : Ref) (tags : List (String × String)) :
    (cache.put ref tags).lookup ref.cacheKey = some tags := by
  rw [TagsCache.put, List.lookup_cons, beq_self_eq_true]

theorem readTags_empties {cache cache' : TagsCache} {ref : Ref} {name : String} {listing : Listing}
    {trace : Trace Calls World}
    (h : openSystem.Runs (readTags ctx cache ref name) w trace (listing, cache') w') :
    (∀ key, cache.lookup key = some [] → cache'.lookup key = some [] ∧
      (ref.cacheKey = key → listing.tags = [])) ∧
    (listing = .failed → cache'.lookup ref.cacheKey = some []) := by
  unfold readTags at h
  split at h
  · cases hcached : cache.lookup ref.cacheKey with
    | some tags =>
      rw [hcached] at h
      obtain ⟨-, hout, -⟩ := h
      obtain ⟨rfl, rfl⟩ := Prod.mk.inj hout
      refine ⟨fun key hkey => ⟨hkey, ?_⟩, nofun⟩
      rintro rfl
      rw [hcached] at hkey
      obtain rfl := Option.some.inj hkey
      rfl
    | none =>
      rw [hcached] at h
      have hother : ∀ key, cache.lookup key = some [] → ref.cacheKey ≠ key := by
        rintro _ hkey rfl
        rw [hcached] at hkey
        cases hkey
      obtain ⟨w₀, reply, w₁, rest, -, -, -, hrest⟩ := Machine.runs_request_bind.mp h
      cases reply with
      | ok tags =>
        obtain ⟨-, hout, -⟩ := hrest
        obtain ⟨rfl, rfl⟩ := Prod.mk.inj hout
        exact ⟨fun key hkey => ⟨(lookup_put _ (hother key hkey)).trans hkey,
          fun heq => absurd heq (hother key hkey)⟩, nofun⟩
      | error err =>
        obtain ⟨w₂, _, w₃, last, -, -, -, -, hout, -⟩ := Machine.runs_request_bind.mp hrest
        obtain ⟨rfl, rfl⟩ := Prod.mk.inj hout
        exact ⟨fun key hkey => ⟨(lookup_put _ (hother key hkey)).trans hkey,
          fun heq => absurd heq (hother key hkey)⟩, fun _ => lookup_put_self cache ref []⟩
  · obtain ⟨-, hout, -⟩ := h
    obtain ⟨rfl, rfl⟩ := Prod.mk.inj hout
    exact ⟨fun key hkey => ⟨hkey, fun _ => rfl⟩, nofun⟩

theorem readContainer_empties {caches' : Caches} {reading : Reading} {trace : Trace Calls World}
    (h : openSystem.Runs (readContainer ctx caches c) w trace (reading, caches') w') :
    (∀ key, caches.Empties key → caches'.Empties key ∧
      (reading.repository = some key → reading.listing.tags = [])) ∧
    (reading.listing = .failed → ∀ key, reading.repository = some key → caches'.Empties key) := by
  have hsame : ∀ {reading' : Reading}, (reading, caches') = (reading', caches) →
      reading'.listing = .unasked →
      (∀ key, caches.Empties key → caches'.Empties key ∧
        (reading.repository = some key → reading.listing.tags = [])) ∧
      (reading.listing = .failed → ∀ key, reading.repository = some key → caches'.Empties key) := by
    rintro reading' hout hlisting
    obtain ⟨rfl, rfl⟩ := Prod.mk.inj hout
    rw [hlisting]
    exact ⟨fun key hkey => ⟨hkey, fun _ => rfl⟩, nofun⟩
  unfold readContainer at h
  split at h
  · exact hsame h.2.1 rfl
  · obtain ⟨w₀, digests, w₁, rest, -, -, -, h₁⟩ := Machine.runs_request_bind.mp h
    match digests with
    | .error _ | .ok [] => exact hsame h₁.2.1 rfl
    | .ok (first :: rest) =>
      dsimp only at h₁
      obtain ⟨_, imageRef, w₂, _, -, h₂, -⟩ := Machine.runs_bind.mp h₁
      split at h₂
      · exact hsame h₂.2.1 rfl
      · obtain ⟨_, localVersion, w₃, _, -, h₃, -⟩ := Machine.runs_bind.mp h₂
        obtain ⟨w₄, remote, w₅, _, -, -, -, h₄⟩ := Machine.runs_request_bind.mp h₃
        cases remote with
        | error err => exact hsame h₄.2.1 rfl
        | ok remoteDigest =>
          dsimp only at h₄
          obtain ⟨_, ⟨listing, semver⟩, w₆, _, htags, ⟨-, hout, -⟩, -⟩ := Machine.runs_bind.mp h₄
          obtain ⟨rfl, rfl⟩ := Prod.mk.inj hout
          obtain ⟨hkeeps, hfailed⟩ := readTags_empties htags
          refine ⟨fun key hkey => ⟨(hkeeps key hkey).1, fun heq => ?_⟩, fun hlisting key heq => ?_⟩
          · exact (hkeeps key hkey).2 (Option.some.inj heq)
          · obtain rfl := Option.some.inj heq
            exact hfailed hlisting

theorem recordReading_empties {reading : Reading} {trace : Trace Calls World} {out : Counts × Caches}
    (h : openSystem.Runs (recordReading ctx caches c reading) w trace out w') :
    out.2.semverTags = caches.semverTags := by
  cases reading with
  | skipped =>
    obtain ⟨-, rfl, -⟩ := h
    rfl
  | refused ref err =>
    obtain ⟨_, _, _, _, -, -, -, h₁⟩ := Machine.runs_request_bind.mp h
    obtain ⟨_, _, _, _, -, -, -, -, rfl, -⟩ := Machine.runs_request_bind.mp h₁
    rfl
  | compared imageRef first rest localVersion remoteDigest listing =>
    obtain ⟨_, _, _, _, -, h₁, -⟩ := Machine.runs_bind.mp h
    obtain ⟨_, _, _, _, -, ⟨-, rfl, -⟩, -⟩ := Machine.runs_bind.mp h₁
    rfl

/-- Once the repository counts as empty, no later check of the pass has tags of it. -/
theorem turns_unlisted {containers : List ListedContainer} {turns : List CheckTurn}
    (h : CheckTurns ctx containers caches w turns w') {key : Text} (hkey : caches.Empties key) :
    ∀ turn ∈ turns, turn.reading.repository = some key → turn.reading.listing.tags = [] := by
  induction containers generalizing caches w turns with
  | nil =>
    obtain ⟨rfl, -⟩ := h
    simp
  | cons c rest ih =>
    obtain ⟨reading, caches₁, w₁, first, out, left, second, later, hread, hrecord, rfl, hlater⟩ := h
    obtain ⟨hkeeps, -⟩ := readContainer_empties hread
    obtain ⟨hkey₁, hlisting⟩ := hkeeps key hkey
    refine List.forall_mem_cons.mpr ⟨hlisting, ih hlater ?_⟩
    rw [Caches.Empties, recordReading_empties hrecord]
    exact hkey₁

/-- A listing that fails leaves the repository without tags for the rest of the pass. -/
theorem unlisted_after {containers : List ListedContainer} {turns before after : List CheckTurn}
    {turn earlier : CheckTurn} (h : CheckTurns ctx containers caches w turns w')
    (hsplit : turns = before ++ turn :: after) (hearlier : earlier ∈ before)
    (hfailed : earlier.reading.listing = .failed)
    (hsame : earlier.reading.repository = turn.reading.repository) :
    turn.reading.listing.tags = [] := by
  induction containers generalizing caches w turns before with
  | nil =>
    obtain ⟨rfl, -⟩ := h
    simp at hsplit
  | cons c rest ih =>
    obtain ⟨reading, caches₁, w₁, first, out, left, second, later, hread, hrecord, rfl, hlater⟩ := h
    cases before with
    | nil => cases hearlier
    | cons head before =>
      obtain ⟨rfl, rfl⟩ := List.cons.inj hsplit
      rcases List.mem_cons.mp hearlier with rfl | hlaterEarlier
      · obtain ⟨key, hkey⟩ : ∃ key, reading.repository = some key := by
          cases reading with
          | skipped => cases hfailed
          | refused => cases hfailed
          | compared => exact ⟨_, rfl⟩
        have hempty := (readContainer_empties hread).2 hfailed key hkey
        have hafter : out.2.Empties key := by
          rw [Caches.Empties, recordReading_empties hrecord]
          exact hempty
        exact turns_unlisted hlater hafter turn (by simp) (hsame ▸ hkey)
      · exact ih hlater rfl hlaterEarlier

/-- Without tags the candidates of a check are those of a tag that moved. -/
theorem candidates_unlisted {imageRef first : String} {rest : List String}
    {localVersion remoteDigest : String} {listing : Listing} (h : listing.tags = []) :
    Reading.candidates c (.compared imageRef first rest localVersion remoteDigest listing) =
      if (first :: rest).contains remoteDigest then []
      else Store.scopes.map fun scope =>
        ⟨c.id, scope, imageRef, String.ofList (parseRef imageRef).tag, 0⟩ := by
  have hnone : ∀ tag scope, selectSemverCandidate [] tag scope = none := by
    intro tag scope
    unfold selectSemverCandidate
    cases parseSemanticVersion tag <;> rfl
  have hcandidate : ∀ moved, candidateOf c imageRef (parseRef imageRef) (first :: rest) moved [] =
      fun scope => if moved then some ⟨c.id, scope, imageRef, String.ofList (parseRef imageRef).tag, 0⟩
        else none := by
    intro moved
    funext scope
    simp [candidateOf, hnone]
  rw [Reading.candidates, h, hcandidate]
  cases (first :: rest).contains remoteDigest <;> rfl

/-! ### A listing that fails once -/

def pinnedContainer : ListedContainer where
  id := "c0"
  name := "web"
  image := "web:1.2.3"
  imageID := "sha256:0"
  state := "running"
  status := ""
  stack := ""
  excluded := false
  labels := []

/-- `web` runs the digest its tag names, and a newer version is on record. -/
def pinnedWorld : World :=
  { webWorld with
    store :=
      { containers := [{ webRecord with currentImage := "web:1.2.3", updateAvailable := true }]
        candidates := [⟨"c0", "patch", "docker.io/library/web:1.2.4", "1.2.4", 0⟩] } }

/-- The registry names digests, but lists no tags. -/
def unlisted : Turn where
  choice.answers
    | .imageDigests _ => .ok ["sha256:a"]
    | .digest _ => .ok "sha256:a"
    | _ => .error (.external "timeout")

def unlistedRead : Played (Reading × Caches) :=
  (readContainer .background {} pinnedContainer).play pinnedWorld fun _ => unlisted

def unlistedRecord : Played (Counts × Caches) :=
  (recordReading .background unlistedRead.value.2 pinnedContainer unlistedRead.value.1).play
    unlistedRead.world fun _ => unlisted

def unlistedTurn : CheckTurn :=
  ⟨pinnedContainer, pinnedWorld, unlistedRead.value.1, unlistedRead.trace ++ unlistedRecord.trace,
    unlistedRecord.world⟩

theorem unlistedTurn_checks : CheckTurns .background [pinnedContainer] {} pinnedWorld [unlistedTurn]
    unlistedRecord.world := by
  have hread := (readContainer .background {} pinnedContainer).play_runs pinnedWorld fun _ => unlisted
  have hrecord := (recordReading .background unlistedRead.value.2 pinnedContainer
    unlistedRead.value.1).play_runs unlistedRead.world fun _ => unlisted
  exact ⟨unlistedRead.value.1, unlistedRead.value.2, unlistedRead.world, unlistedRead.trace,
    unlistedRecord.value, unlistedRecord.world, unlistedRecord.trace, [], hread, hrecord, rfl, rfl, rfl⟩

end Doupro.Scheduler
