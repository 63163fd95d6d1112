import Doupro.Interaction.Semantics
import Doupro.Registry.ResolveVersion
import Doupro.Scheduler.VersionResolution
import Doupro.Table.Associations

/-!
# The tags a check shares

`resolveVersions` reads the tags that earlier containers of the check left in its cache, and asks
only for what they do not resolve. Two runs of it against a registry that does not change, with and
without a cache, show what the cache makes of a version.
-/

namespace Doupro.Scheduler

open Go Interaction Registry

/-- What the registries answer to every question, as long as they do not change. -/
abbrev Replies := (question : Lookup) → Except GoError question.Result

namespace Replies

variable (answers : Replies)

def Gives : (op : Call) → Calls.Reply op → Prop
  | .lookup _ question, reply => reply = answers question
  | _, _ => False

/-- Every question is answered, and nothing else. -/
def machine : Machine Calls Unit where
  rely _ _ := True
  step _ op reply _ := answers.Gives op reply

/-- The version a hint or a label names. -/
def known (ref : Ref) (digest hint : String) (skip : Bool) : Option String :=
  if hint ≠ "" then some hint
  else if skip then none
  else match answers (.versionLabelForDigest ref digest) with
    | .error _ => none
    | .ok label => if label = "" then none else some label

/-- The tags of a repository, extended by those found for what is missing. -/
def extend (ref : Ref) (tags : List (String × String)) (missing : List String) :
    List (String × String) :=
  if missing = [] then tags
  else match answers (.resolveVersionTags ref missing) with
    | .error _ => tags
    | .ok fetched => mergeTags tags fetched

end Replies

/-- A container whose versions are to be resolved. -/
structure Subject where
  ref : Ref
  currentDigest : String
  remoteDigest : String
  hasUpdate : Bool
  hints : VersionHints := {}

namespace Subject

variable (c : Subject) (answers : Replies)

def resolve (ctx : Context) (cache : TagsCache) : Go (ResolvedVersions × TagsCache) :=
  resolveVersions ctx cache c.ref c.currentDigest c.remoteDigest c.hasUpdate c.hints

/-- What is known of the running version without the tags. -/
def knownCurrent : Option String :=
  answers.known c.ref c.currentDigest c.hints.current c.hints.skipCurrent

/-- What is shown as the running version if no tag names it. -/
def plainCurrent : String := (c.knownCurrent answers).getD c.currentDigest

/-- What is shown as the available version if no tag names it. -/
def plainAvailable : String :=
  (if c.hasUpdate then answers.known c.ref c.remoteDigest c.hints.available c.hints.skipAvailable
    else none).getD c.remoteDigest

/-- The digests that the cached tags leave to be looked for. -/
def missing (tags : List (String × String)) : List String :=
  missingDigests tags c.currentDigest c.remoteDigest c.hasUpdate c.hints (c.knownCurrent answers)
    (c.plainAvailable answers)

/-- The tags a resolution reads: those cached, and those found for what they leave. -/
def tagsRead (cache : TagsCache) : List (String × String) :=
  answers.extend c.ref (cache.tags c.ref) (c.missing answers (cache.tags c.ref))

end Subject

@[simp] theorem TagsCache.tags_put (cache : TagsCache) (ref : Ref) (tags : List (String × String)) :
    (cache.put ref tags).tags ref = tags := by
  simp [TagsCache.put, TagsCache.tags]

variable {answers : Replies} {ctx : Context} {ref : Ref} {trace : Trace Calls Unit}

theorem knownVersion_answered {digest hint : String} {skip : Bool} {out : Option String}
    (hrun : answers.machine.Runs (knownVersion ctx ref digest hint skip) () trace out ()) :
    out = answers.known ref digest hint skip := by
  unfold knownVersion at hrun
  unfold Replies.known
  split at hrun
  · next hhint =>
    rw [if_pos hhint]
    exact hrun.2.1
  next hhint =>
  rw [if_neg hhint]
  split at hrun
  · next hskip =>
    rw [if_pos hskip]
    exact hrun.2.1
  next hskip =>
  rw [if_neg hskip]
  obtain ⟨_, reply, _, rest, -, hgives, rfl, hrest⟩ := Machine.runs_request_bind.mp hrun
  obtain rfl : reply = answers (.versionLabelForDigest ref digest) := hgives
  cases hlabel : answers (.versionLabelForDigest ref digest) with
  | error err =>
    rw [hlabel] at hrest
    exact hrest.2.1
  | ok label =>
    rw [hlabel] at hrest
    exact hrest.2.1

theorem fetchMissing_answered {cache : TagsCache} {missing : List String}
    {out : Option GoError × TagsCache}
    (hrun : answers.machine.Runs (fetchMissing ctx cache ref missing) () trace out ()) :
    out.2.tags ref = answers.extend ref (cache.tags ref) missing := by
  unfold fetchMissing at hrun
  unfold Replies.extend
  split at hrun
  · next hnone =>
    rw [if_pos hnone, hrun.2.1]
  next hsome =>
  rw [if_neg hsome]
  obtain ⟨_, reply, _, rest, -, hgives, rfl, hrest⟩ := Machine.runs_request_bind.mp hrun
  obtain rfl : reply = answers (.resolveVersionTags ref missing) := hgives
  cases hfetched : answers (.resolveVersionTags ref missing) with
  | error err =>
    rw [hfetched] at hrest
    rw [hrest.2.1]
  | ok fetched =>
    rw [hfetched] at hrest
    rw [hrest.2.1]
    exact TagsCache.tags_put _ _ _

/-- The versions shown: the most specific tag of a digest, or what is shown without one. -/
theorem resolve_answered {c : Subject} {cache : TagsCache} {out : ResolvedVersions × TagsCache}
    (htag : ¬ isVersionTag c.ref.tag = true)
    (hrun : answers.machine.Runs (c.resolve ctx cache) () trace out ()) :
    out.1.current = (resolveVersion (c.tagsRead answers cache) c.currentDigest).getD
        (c.plainCurrent answers) ∧
      out.1.available =
        if c.hasUpdate then (resolveVersion (c.tagsRead answers cache) c.remoteDigest).getD
          (c.plainAvailable answers)
        else out.1.current := by
  unfold Subject.resolve resolveVersions at hrun
  rw [if_neg htag] at hrun
  obtain ⟨_, known, _, later, hknown, hrest, rfl⟩ := Machine.runs_bind.mp hrun
  obtain rfl := knownVersion_answered hknown
  by_cases hupdate : c.hasUpdate = true
  · have hplain : c.plainAvailable answers = (answers.known c.ref c.remoteDigest c.hints.available
        c.hints.skipAvailable).getD c.remoteDigest := by
      rw [Subject.plainAvailable, if_pos hupdate]
    rw [if_pos hupdate] at hrest ⊢
    obtain ⟨_, labelled, _, tail, hlabelled, htail, rfl⟩ := Machine.runs_bind.mp hrest
    obtain rfl := knownVersion_answered hlabelled
    obtain ⟨_, fetched, _, last, hfetch, hend, rfl⟩ := Machine.runs_bind.mp htail
    have htags : fetched.2.tags c.ref = c.tagsRead answers cache := by
      rw [fetchMissing_answered hfetch, Subject.tagsRead, Subject.missing, hplain]
      rfl
    obtain ⟨-, rfl, -⟩ := hend
    dsimp only
    rw [htags, hplain, if_pos hupdate]
    exact ⟨rfl, rfl⟩
  · have hplain : c.plainAvailable answers = (none : Option String).getD c.remoteDigest := by
      rw [Subject.plainAvailable, if_neg hupdate]
    rw [if_neg hupdate] at hrest ⊢
    obtain ⟨_, labelled, _, tail, ⟨rfl, rfl, -⟩, htail, rfl⟩ := Machine.runs_bind.mp hrest
    obtain ⟨_, fetched, _, last, hfetch, hend, rfl⟩ := Machine.runs_bind.mp htail
    have htags : fetched.2.tags c.ref = c.tagsRead answers cache := by
      rw [fetchMissing_answered hfetch, Subject.tagsRead, Subject.missing, hplain]
      rfl
    obtain ⟨-, rfl, -⟩ := hend
    dsimp only
    rw [htags, if_neg hupdate]
    exact ⟨rfl, rfl⟩

/-- Two listings show the same version of a digest: they agree on its most specific tag, or only
one has a tag of it, which is what is shown without one. -/
def SameVersion (tags others : List (String × String)) (digest plain : String) : Prop :=
  resolveVersion tags digest = resolveVersion others digest ∨
    (resolveVersion tags digest = some plain ∧ resolveVersion others digest = none) ∨
    (resolveVersion tags digest = none ∧ resolveVersion others digest = some plain)

theorem sameVersion_iff {tags others : List (String × String)} {digest plain : String} :
    (resolveVersion tags digest).getD plain = (resolveVersion others digest).getD plain ↔
      SameVersion tags others digest plain := by
  unfold SameVersion
  cases resolveVersion tags digest <;> cases resolveVersion others digest <;> simp [eq_comm]

/-- What the registries list: for each repository the digest of a tag. -/
abbrev Listings := Text → String → Option String

/-- Every tag a search finds is listed with its digest. -/
def Replies.Truthful (answers : Replies) (listings : Listings) : Prop :=
  ∀ ref missing fetched, answers (.resolveVersionTags ref missing) = .ok fetched →
    ∀ entry ∈ fetched, listings ref.cacheKey entry.1 = some entry.2

/-- A cache is a part of what the registries list. -/
def TrueCache (listings : Listings) (cache : TagsCache) : Prop :=
  ∀ repository ∈ cache, ∀ entry ∈ repository.2, listings repository.1 entry.1 = some entry.2

theorem TrueCache.tags {listings : Listings} {cache : TagsCache} (h : TrueCache listings cache)
    (ref : Ref) : ∀ entry ∈ cache.tags ref, listings ref.cacheKey entry.1 = some entry.2 := by
  unfold TagsCache.tags
  cases hlookup : cache.lookup ref.cacheKey with
  | none => simp
  | some tags => exact h (ref.cacheKey, tags) (Table.mem_of_lookup hlookup)

theorem TrueCache.fetchMissing {listings : Listings} {cache : TagsCache} {missing : List String}
    {out : Option GoError × TagsCache} (h : TrueCache listings cache)
    (htrue : answers.Truthful listings)
    (hrun : answers.machine.Runs (fetchMissing ctx cache ref missing) () trace out ()) :
    TrueCache listings out.2 := by
  unfold Scheduler.fetchMissing at hrun
  split at hrun
  · rw [hrun.2.1]
    exact h
  obtain ⟨_, reply, _, rest, -, hgives, rfl, hrest⟩ := Machine.runs_request_bind.mp hrun
  obtain rfl : reply = answers (.resolveVersionTags ref missing) := hgives
  cases hfetched : answers (.resolveVersionTags ref missing) with
  | error err =>
    rw [hfetched] at hrest
    rw [hrest.2.1]
    exact h
  | ok fetched =>
    rw [hfetched] at hrest
    rw [hrest.2.1]
    refine List.forall_mem_cons.mpr ⟨fun entry hentry => ?_, fun repository hrepository =>
      h repository (List.mem_of_mem_filter hrepository)⟩
    rcases List.mem_append.mp hentry with hnew | hold
    · exact htrue ref missing fetched hfetched entry hnew
    · exact h.tags ref entry (List.mem_of_mem_filter hold)

/-- A resolution adds nothing but tags the registries list. -/
theorem TrueCache.resolve {listings : Listings} {cache : TagsCache} {c : Subject}
    {out : ResolvedVersions × TagsCache} (h : TrueCache listings cache)
    (htrue : answers.Truthful listings)
    (hrun : answers.machine.Runs (c.resolve ctx cache) () trace out ()) : TrueCache listings out.2 := by
  unfold Subject.resolve resolveVersions at hrun
  split at hrun
  · rw [hrun.2.1]
    exact h
  obtain ⟨_, known, _, later, -, hrest, rfl⟩ := Machine.runs_bind.mp hrun
  split at hrest
  · obtain ⟨_, labelled, _, tail, -, htail, rfl⟩ := Machine.runs_bind.mp hrest
    obtain ⟨_, fetched, _, last, hfetch, hend, rfl⟩ := Machine.runs_bind.mp htail
    rw [hend.2.1]
    exact h.fetchMissing htrue hfetch
  · obtain ⟨_, labelled, _, tail, -, htail, rfl⟩ := Machine.runs_bind.mp hrest
    obtain ⟨_, fetched, _, last, hfetch, hend, rfl⟩ := Machine.runs_bind.mp htail
    rw [hend.2.1]
    exact h.fetchMissing htrue hfetch

/-- The caches of a check: every container's resolution goes on with what the one before left. -/
inductive Shared (answers : Replies) : TagsCache → Prop
  | empty : Shared answers []
  | resolved {cache : TagsCache} (h : Shared answers cache) (c : Subject) {ctx : Context}
      {trace : Trace Calls Unit} {out : ResolvedVersions × TagsCache}
      (hrun : answers.machine.Runs (c.resolve ctx cache) () trace out ()) : Shared answers out.2

/-- Whatever containers came before, the cache of a check holds only tags the registries list. -/
theorem Shared.true {listings : Listings} (htrue : answers.Truthful listings) {cache : TagsCache}
    (h : Shared answers cache) : TrueCache listings cache := by
  induction h with
  | empty => simp [TrueCache]
  | resolved _ c hrun ih => exact ih.resolve htrue hrun

/-! ### A version that depends on the order of the containers -/

/-- The run of a program that only asks questions. -/
def Replies.ask {α : Type} (answers : Replies) : Go α → Option (Trace Calls Unit × α)
  | .ret a => some ([], a)
  | .call (.lookup ctx question) next =>
    (answers.ask (next (answers question))).map fun (trace, a) =>
      (⟨(), .lookup ctx question, answers question⟩ :: trace, a)
  | .call _ _ => none

theorem Replies.ask_runs {α : Type} {p : Go α} {trace : Trace Calls Unit} {a : α}
    (h : answers.ask p = some (trace, a)) : answers.machine.Runs p () trace a () := by
  induction p generalizing trace with
  | ret b =>
    obtain ⟨rfl, rfl⟩ := Prod.mk.inj (Option.some.inj h)
    exact ⟨rfl, rfl, rfl⟩
  | call op next ih =>
    cases op with
    | lookup ctx question =>
      obtain ⟨⟨rest, b⟩, hrest, heq⟩ := Option.map_eq_some_iff.mp h
      obtain ⟨rfl, rfl⟩ := Prod.mk.inj heq
      exact ⟨(), answers question, (), rest, trivial, rfl, rfl, ih _ hrest⟩
    | _ => cases h

/-- One repository with two builds, the later of which is labelled 2.5 and tagged 2.5.1. -/
def twoBuilds : Replies
  | .versionLabelForDigest _ digest => .ok (if digest = "sha256:b" then "2.5" else "")
  | .resolveVersionTags _ _ => .ok [("1.0", "sha256:a"), ("2.5.1", "sha256:b")]
  | _ => .error .notFound

def twoListings : Listings := fun _ tag =>
  if tag = "1.0" then some "sha256:a" else if tag = "2.5.1" then some "sha256:b" else none

/-- A container on the floating tag, at one of the builds. -/
def floatingAt (digest : String) : Subject where
  ref := {
    registry := "registry-1.docker.io".toList
    repository := "library/app".toList
    tag := "latest".toList }
  currentDigest := digest
  remoteDigest := digest
  hasUpdate := false

def sharedCache : TagsCache :=
  [("registry-1.docker.io/library/app".toList, [("1.0", "sha256:a"), ("2.5.1", "sha256:b")])]

theorem first_run : ∃ trace, twoBuilds.machine.Runs ((floatingAt "sha256:a").resolve .background [])
    () trace ({ current := "1.0", available := "1.0" }, sharedCache) () :=
  ⟨_, Replies.ask_runs rfl⟩

/-- The second container after the first shows the tag. -/
theorem second_run : ∃ trace, twoBuilds.machine.Runs
    ((floatingAt "sha256:b").resolve .background sharedCache) () trace
    ({ current := "2.5.1", available := "2.5.1" }, sharedCache) () :=
  ⟨_, Replies.ask_runs rfl⟩

/-- The second container on its own shows the label. -/
theorem second_alone : ∃ trace, twoBuilds.machine.Runs
    ((floatingAt "sha256:b").resolve .background []) () trace
    ({ current := "2.5", available := "2.5" }, []) () :=
  ⟨_, Replies.ask_runs rfl⟩

theorem twoBuilds_truthful : twoBuilds.Truthful twoListings := by
  intro ref missing fetched hfetched
  obtain rfl := Except.ok.inj hfetched
  simp [twoListings]

end Doupro.Scheduler
