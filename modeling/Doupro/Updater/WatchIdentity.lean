import Doupro.Updater.OperationRuns

/-!
# Which container a live watch is for

Updates and rollbacks give a container a new ID. The commits that go through rewrite the
row and the watch together; the revert of either operation rewrites the row alone.
-/

namespace Doupro

open Interaction

/-- Every live watch is for the container its name is tracked under. -/
def Store.WatchesTracked (s : Store) : Prop :=
  ∀ watch ∈ s.watches, watch.Live → s.Tracks watch.containerID watch.containerName

instance (s : Store) : Decidable s.WatchesTracked :=
  inferInstanceAs (Decidable (∀ watch ∈ s.watches, watch.Live → _))

/-- The rows agree with Docker on names and hold only IDs Docker issued. -/
structure InSync (w : World) : Prop where
  named : ∀ {id name}, w.store.Tracks id name → ∀ spec ∈ w.engine.specs, spec.id = id →
    spec.name = name
  issued : ∀ {id name}, w.store.Tracks id name → id ∈ w.engine.issued

/-! ### Calls one after another -/

inductive OperationCall where
  | update (req : Updater.UpdateRequest)
  | rollback (req : Updater.RollbackRequest)

def OperationCall.program : OperationCall → Go (Option GoError)
  | .update req => Updater.update req
  | .rollback req => Updater.rollback req

/-- Calls of `Update` and `Rollback`, each run to its end; the trace of each. -/
inductive CallsRun (M : Machine Calls World) : World → List (Trace Calls World) → World → Prop
  | nil (w : World) : CallsRun M w [] w
  | cons {w w₁ w' : World} (call : OperationCall) {trace : Trace Calls World}
    {out : Option GoError} {rest : List (Trace Calls World)}
    (hcall : M.Runs call.program w trace out w₁) (hrest : CallsRun M w₁ rest w') :
    CallsRun M w (trace :: rest) w'

/-- If the event rewrote the row of a container alone, no live watch was on it. -/
def Unwatched (e : Event Calls World) : Prop :=
  match e with
  | ⟨w, .store _ (.replaceContainer oldID _), .ok _⟩ =>
    ∀ watch ∈ w.store.watches, watch.Live → watch.containerID ≠ oldID
  | _ => True

instance (e : Event Calls World) : Decidable (Unwatched e) :=
  decidable_of_iff ((match e with
    | ⟨w, .store _ (.replaceContainer oldID _), .ok _⟩ =>
      decide (∀ watch ∈ w.store.watches, watch.Live → watch.containerID ≠ oldID)
    | _ => true : Bool) = true) (by unfold Unwatched; split <;> simp)

/-- The event closed a watch. -/
def Closes (e : Event Calls World) : Prop :=
  match e with
  | ⟨_, .store _ (.completeRollbackWatch _ _), .ok _⟩ => True
  | _ => False

instance (e : Event Calls World) : Decidable (Closes e) :=
  decidable_of_iff ((match e with
    | ⟨_, .store _ (.completeRollbackWatch _ _), .ok _⟩ => true
    | _ => false : Bool) = true) (by unfold Closes; split <;> simp)

/-- A statement that rewrites the row of a watched container alone is followed by one that
closes the watch. -/
def ClosesRewritten : Trace Calls World → Prop
  | [] => True
  | e :: rest => (Unwatched e ∨ ∃ next ∈ rest.head?, Closes next) ∧ ClosesRewritten rest

instance : (trace : Trace Calls World) → Decidable (ClosesRewritten trace)
  | [] => inferInstanceAs (Decidable True)
  | e :: rest =>
    have : Decidable (ClosesRewritten rest) := instDecidableClosesRewritten rest
    inferInstanceAs (Decidable ((Unwatched e ∨ ∃ next ∈ rest.head?, Closes next) ∧ _))

namespace Updater

variable {M : Machine Calls World} {R : List ContainerSpec → List ContainerSpec → Prop}

/-- What `ClosesRewritten` says about a part of a trace that something follows. -/
def ClosedBefore (later trace : Trace Calls World) : Prop :=
  ∀ pre e post, trace = pre ++ e :: post →
    Unwatched e ∨ ∃ next ∈ (post ++ later).head?, Closes next

theorem closedBefore_of_closesRewritten {first trace later : Trace Calls World}
    (h : ClosesRewritten (first ++ trace ++ later)) : ClosedBefore later trace := by
  rintro pre e post rfl
  have hsplit : first ++ (pre ++ e :: post) ++ later = (first ++ pre) ++ e :: (post ++ later) := by
    simp
  rw [hsplit] at h
  generalize first ++ pre = before at h
  induction before with
  | nil => exact h.1
  | cons _ before ih => exact ih h.2

theorem ClosedBefore.right {first rest later : Trace Calls World}
    (h : ClosedBefore later (first ++ rest)) : ClosedBefore later rest := by
  rintro pre e post rfl
  exact h (first ++ pre) e post (List.append_assoc _ _ _).symm

theorem not_closes_of_quiet {e : Event Calls World} (h : e.op.Quiet) : ¬ Closes e := by
  unfold Closes
  split
  · exact fun _ => h
  · exact id

/-! ### The invariant -/

structure Tracked (w : World) : Prop where
  sync : InSync w
  watches : w.store.WatchesTracked

theorem Tracked.grows {w w' : World} (h : Tracked w) (hstore : w'.store = w.store)
    (hgrows : World.Grows w w') : Tracked w' where
  sync := by
    refine ⟨fun {id name} htracks spec hmem hid => ?_, fun htracks => ?_⟩
    · rw [hstore] at htracks
      rcases hgrows.specs spec hmem with hold | hnew
      · exact h.sync.named htracks spec hold hid
      · exact absurd (h.sync.issued htracks) (hid ▸ hnew)
    · rw [hstore] at htracks
      exact hgrows.issued (h.sync.issued htracks)
  watches := hstore ▸ h.watches

theorem Made.shrink {before : InspectResponse} {w w₁ w' : World} {id : String}
    (h : Made before w id w₁) (hspecs : w'.engine.specs ⊆ w₁.engine.specs)
    (hissued : w₁.engine.issued ⊆ w'.engine.issued) : Made before w id w' :=
  ⟨h.fresh, hissued h.issued, fun spec hmem => h.named spec (hspecs hmem)⟩

/-- A commit that rewrites one row keeps the invariant if the watches it leaves live are
for the new container or for another one than the old. -/
theorem Tracked.replaced {before : InspectResponse} {w w' : World} (h : Tracked w) (oldID : String)
    (rec : ContainerRecord) (hgrows : World.Grows w w')
    (hmade : Made before w rec.id w') (hname : rec.name = trimSlash before.name)
    (htracks : ∀ id name, w'.store.Tracks id name ↔
      (w.store.replaceContainer oldID rec).Tracks id name)
    (hwatches : ∀ watch ∈ w'.store.watches, watch.Live →
      (watch.containerID = rec.id ∧ watch.containerName = rec.name) ∨
      (w.store.Tracks watch.containerID watch.containerName ∧ watch.containerID ≠ oldID)) :
    Tracked w' := by
  have hfresh : ∀ name, ¬ w.store.Tracks rec.id name :=
    fun name ht => hmade.fresh (h.sync.issued ht)
  have hrows := fun id name => (htracks id name).trans (Store.tracks_replaceContainer hfresh oldID id name)
  refine ⟨⟨fun {id name} ht spec hmem hid => ?_, fun {id name} ht => ?_⟩, fun watch hmem hlive => ?_⟩
  · rcases (hrows id name).mp ht with ⟨ht, -⟩ | ⟨rfl, rfl⟩
    · rcases hgrows.specs spec hmem with hold | hnew
      · exact h.sync.named ht spec hold hid
      · exact absurd (h.sync.issued ht) (hid ▸ hnew)
    · exact (hmade.named spec hmem hid).trans hname.symm
  · rcases (hrows id name).mp ht with ⟨ht, -⟩ | ⟨rfl, rfl⟩
    · exact hgrows.issued (h.sync.issued ht)
    · exact hmade.issued
  · rw [hrows]
    rcases hwatches watch hmem hlive with ⟨hid, hwatch⟩ | ⟨ht, hne⟩
    · exact .inr ⟨hid, hwatch⟩
    · exact .inl ⟨ht, .inr hne⟩

/-- A live watch under another name is for another container. -/
theorem tracked_other {s : Store} (h : s.WatchesTracked) {oldID name : String}
    (horiginal : ∀ {other}, s.Tracks oldID other → other = name) {watch : RollbackWatch}
    (hmem : watch ∈ s.watches) (hlive : watch.Live) (hne : watch.containerName ≠ name) :
    s.Tracks watch.containerID watch.containerName ∧ watch.containerID ≠ oldID := by
  have htracks := h watch hmem hlive
  exact ⟨htracks, fun hid => hne (horiginal (hid ▸ htracks))⟩

/-- The watches a completed watch leaves live. -/
theorem live_completed {s : Store} {name : String} {status : WatchStatus}
    (hstatus : status ≠ .active ∧ status ≠ .triggered) {watch : RollbackWatch}
    (hmem : watch ∈ (s.completeRollbackWatch name status).watches) (hlive : watch.Live) :
    watch ∈ s.watches ∧ watch.containerName ≠ name := by
  obtain ⟨old, hold, rfl⟩ := Table.mem_updateWhere.mp hmem
  by_cases hname : old.containerName = name
  · simp only [hname, decide_true, if_true] at hlive
    exact absurd hlive (by simp [RollbackWatch.Live, hstatus])
  · simp only [hname, decide_false]
    exact ⟨hold, hname⟩

/-- The watches an arming leaves. -/
theorem mem_armed {s : Store} {name id : String} {appliedAt : Time} {window : Duration}
    {threshold restartCount : Nat} {watch : RollbackWatch}
    (hmem : watch ∈ (s.armRollbackWatch name id appliedAt window threshold restartCount).watches) :
    (watch.containerID = id ∧ watch.containerName = name) ∨
      (watch ∈ s.watches ∧ watch.containerName ≠ name) := by
  rcases Table.mem_upsert _ hmem with rfl | ⟨old, -, hkey, rfl⟩ | hother
  · exact .inl ⟨rfl, rfl⟩
  · exact .inl ⟨rfl, hkey⟩
  · exact .inr hother

/-! ### One operation -/

/-- A recreation that succeeded and what came later, seen from the world before. -/
theorem recreated_after (hM : Hosts M R) {ctx : Context} {oldID targetImage : String}
    {before : InspectResponse} {w w₁ w' : World} {trace : Trace Calls World}
    {result : RecreationResult}
    (hrecreate : RecreateRun M R ctx oldID before targetImage w trace (result, none) w₁)
    (hspecs : R w₁.engine.specs w'.engine.specs) (hissued : w'.engine.issued = w₁.engine.issued) :
    World.Grows w w' ∧ Made before w result.id w' := by
  have hsubset := hM.shrinks hspecs
  have hissued : w₁.engine.issued ⊆ w'.engine.issued := hissued ▸ List.Subset.refl _
  refine ⟨(hrecreate.leaves hM).2.trans ⟨fun spec hmem => .inl (hsubset hmem), hissued⟩, ?_⟩
  exact (hrecreate.made hM).shrink hsubset hissued

/-- The commit of an update keeps the invariant. -/
theorem UpdateCommits.tracked (hM : Hosts M R) {ctx : Context} {req : UpdateRequest}
    {targetImage definedImage : String} {before : InspectResponse} {result : RecreationResult}
    {w w₁ w' : World} {first commit later : Trace Calls World} (h : Tracked w)
    (horiginal : ∀ {other}, w.store.Tracks req.containerID other → other = trimSlash before.name)
    (hrecreate : RecreateRun M R ctx req.containerID before targetImage w first (result, none) w₁)
    (hcommit : UpdateCommits M R req before definedImage result w₁ commit w')
    (hclosed : ClosedBefore later commit) : Tracked w' := by
  have hstore := (hrecreate.leaves hM).1
  cases hcommit with
  | armed _ _ hframe =>
    rw [hstore] at hframe
    obtain ⟨hgrows, hmade⟩ := recreated_after hM hrecreate hframe.specs hframe.issued
    refine h.replaced req.containerID (updatedRecord before definedImage result) hgrows hmade rfl ?_ ?_
    · intro id name
      rw [hframe.store]
      rfl
    · intro watch hmem hlive
      rw [hframe.store] at hmem
      rcases mem_armed hmem with harmed | ⟨hold, hne⟩
      · exact .inl harmed
      · exact .inr (tracked_other h.watches horiginal hold hlive hne)
  | @stopped w₂ w₃ _ completed rest _ hmet _ hframe =>
    rw [hstore] at hframe
    obtain ⟨hgrows, hmade⟩ := recreated_after hM hrecreate hframe.specs hframe.issued
    refine h.replaced req.containerID (updatedRecord before definedImage result) hgrows hmade rfl ?_ ?_
    · intro id name
      rw [hframe.store]
      cases completed <;> rfl
    · intro watch hmem hlive
      rw [hframe.store] at hmem
      cases completed with
      | ok _ =>
        obtain ⟨hold, hne⟩ := live_completed (by simp) hmem hlive
        exact .inr (tracked_other h.watches horiginal hold hlive hne)
      | error err =>
        rcases hclosed [] _ _ rfl with hunwatched | ⟨next, hnext, hcloses⟩
        · have hne := hunwatched watch (by rw [hmet, hstore]; exact hmem) hlive
          exact .inr ⟨h.watches watch hmem hlive, hne⟩
        · simp only [List.cons_append, List.head?_cons, Option.mem_def, Option.some_inj] at hnext
          subst hnext
          exact hcloses.elim

theorem RollbackCommits.tracked (hM : Hosts M R) {ctx : Context} {req : RollbackRequest}
    {rec : ContainerRecord} {targetImage : String} {before : InspectResponse}
    {result : RecreationResult} {w w₁ w' : World} {first commit : Trace Calls World} (h : Tracked w)
    (horiginal : ∀ {other}, w.store.Tracks req.containerID other → other = trimSlash before.name)
    (hrecreate : RecreateRun M R ctx req.containerID before targetImage w first (result, none) w₁)
    (hcommit : RollbackCommits R req rec before result w₁ commit w') : Tracked w' := by
  have hstore := (hrecreate.leaves hM).1
  cases hcommit with
  | @completed _ _ _ marked _ now _ hframe =>
    rw [hstore] at hframe
    obtain ⟨hgrows, hmade⟩ := recreated_after hM hrecreate hframe.specs hframe.issued
    refine h.replaced req.containerID (rolledBackRecord rec before result) hgrows hmade rfl ?_ ?_
    · intro id name
      rw [hframe.store]
      cases marked with
      | error err => rfl
      | ok _ => exact Store.tracks_setUpdateAvailable _ _ _ _ _ _
    · intro watch hmem hlive
      have hmem : watch ∈ (w.store.completeRollbackWatch (trimSlash before.name)
          (rollbackStatus req)).watches := by
        rw [hframe.store] at hmem
        cases marked <;> exact hmem
      obtain ⟨hold, hne⟩ := live_completed (by unfold rollbackStatus; split <;> simp) hmem hlive
      exact .inr (tracked_other h.watches horiginal hold hlive hne)

/-- A revert keeps the invariant unless a live watch was on the row it rewrites. -/
theorem RevertRun.tracked (hM : Hosts M R) {ctx : Context} {op : FailedOperation} {liveID : String}
    {w w' : World} {trace later : Trace Calls World} {out : Option GoError} (h : Tracked w)
    (hname : op.name = trimSlash op.before.name) (hrun : RevertRun M R ctx op liveID w trace out w')
    (hlater : ∀ e ∈ later, e.op.Quiet) (hclosed : ClosedBefore later trace) : Tracked w' := by
  cases hrun with
  | failed hrecreate hrest _ =>
    obtain ⟨hstore, hgrows⟩ := hrecreate.leaves hM
    have hframe := hrest.frame hM
    exact h.grows (hframe.store.trans hstore) (hgrows.trans (.of_frame hM hframe))
  | unrecorded hrecreate hread hrely =>
    obtain ⟨hstore, hgrows⟩ := hrecreate.leaves hM
    have hframe := (hread.frame hM).trans hM (hM.rely hrely)
    exact h.grows (hframe.store.trans hstore) (hgrows.trans (.of_frame hM hframe))
  | @reverted first read rest result recorded w₁ w₂ w₃ _ hrecreate hread hrely hrest =>
    have hbefore := (hread.frame hM).trans hM (hM.rely hrely)
    have hstore : w₃.store = w.store := hbefore.store.trans (hrecreate.leaves hM).1
    have hframe := (hbefore.withStore _).trans hM (hrest.frame hM)
    obtain ⟨hgrows, hmade⟩ := recreated_after hM hrecreate hframe.specs hframe.issued
    have hunwatched : ∀ watch ∈ w.store.watches, watch.Live → watch.containerID ≠ op.originalID := by
      rcases hclosed _ _ _ rfl with hunwatched | ⟨next, hnext, hcloses⟩
      · exact hstore ▸ hunwatched
      · have hquiet : next.op.Quiet := by
          rcases List.mem_append.mp (List.mem_of_mem_head? hnext) with hmem | hmem
          · exact hrest.2 next hmem
          · exact hlater next hmem
        exact absurd hcloses (not_closes_of_quiet hquiet)
    refine h.replaced op.originalID (revertedRecord op result recorded) hgrows hmade hname ?_ ?_
    · intro id name
      rw [hframe.store, hstore]
    · intro watch hmem hlive
      rw [hframe.store, hstore] at hmem
      exact .inr ⟨h.watches watch hmem hlive, hunwatched watch hmem hlive⟩

theorem AttemptRun.tracked (hM : Hosts M R)
    {Commits : RecreationResult → World → Trace Calls World → World → Prop} {ctx : Context}
    {kind originalID targetImage : String} {before : InspectResponse} {requester : Requester}
    {w w' : World} {trace later : Trace Calls World} {out : Option GoError} (h : Tracked w)
    (hcommits : ∀ {result first commit w₁ w'},
      RecreateRun M R ctx originalID before targetImage w first (result, none) w₁ →
      Commits result w₁ commit w' → ClosedBefore later commit → Tracked w')
    (hrun : AttemptRun M R Commits ctx kind originalID before targetImage requester w trace out w')
    (hlater : ∀ e ∈ later, e.op.Quiet) (hclosed : ClosedBefore later trace) : Tracked w' := by
  cases hrun with
  | panicked hrecreate _ =>
    obtain ⟨hstore, hgrows⟩ := hrecreate.leaves hM
    exact h.grows hstore hgrows
  | recovered hrecreate _ hreport hrecover =>
    obtain ⟨hstore, hgrows⟩ := hrecreate.leaves hM
    have hframe := hreport.frame hM
    have h := h.grows (hframe.store.trans hstore) (hgrows.trans (.of_frame hM hframe))
    cases hrecover with
    | kept _ hrest _ =>
      have hframe := hrest.frame hM
      exact h.grows hframe.store (.of_frame hM hframe)
    | removed _ hrevert => exact hrevert.tracked hM h rfl hlater hclosed.right
  | uncommitted hrecreate hcommit =>
    obtain ⟨commit, rest, cause, w₂, rfl, hframe, -, -, hrevert⟩ := hcommit
    obtain ⟨hstore, hgrows⟩ := hrecreate.leaves hM
    have h := h.grows (hframe.store.trans hstore) (hgrows.trans (.of_frame hM hframe))
    exact hrevert.tracked hM h rfl hlater hclosed.right.right
  | committed hrecreate _ hcommit => exact hcommits hrecreate hcommit hclosed.right

/-- The container of a snapshot is tracked under its own name only. -/
theorem Opened.tracked_name (hM : Hosts M R) {ctx : Context} {id : String} {w w₁ w₂ : World}
    {opening : Trace Calls World} {before : InspectResponse} (h : Tracked w)
    (hopened : Opened M ctx id w opening before w₁) (hrely : M.rely w₁ w₂) :
    Tracked w₂ ∧ ∀ {other}, w₂.store.Tracks id other → other = trimSlash before.name := by
  have hstart := (hopened.quiet.frame hM).trans hM (hM.rely hrely)
  refine ⟨h.grows hstart.store (.of_frame hM hstart), fun {other} ht => ?_⟩
  obtain ⟨w₀, spec, hframe, hmem, hid, rfl⟩ := hopened.original hM
  rw [hstart.store] at ht
  have hname := h.sync.named ht spec (hM.shrinks hframe.specs hmem) hid
  exact hname.symm.trans (trimSlash_slash spec.name).symm

theorem tracked_call (hM : Hosts M R) {call : OperationCall} {w w' : World}
    {trace : Trace Calls World} {out : Option GoError} (h : Tracked w)
    (hrun : M.Runs call.program w trace out w') (hclosed : ClosesRewritten trace) : Tracked w' := by
  cases call with
  | update req =>
    cases update_runs hM hrun with
    | early hquiet _ _ =>
      have hframe := hquiet.frame hM
      exact h.grows hframe.store (.of_frame hM hframe)
    | @attempted opening rest closing before event _ w₁ w₂ w₃ _ hopened hrely hattempt hclosing _ =>
      obtain ⟨hstart, horiginal⟩ := hopened.tracked_name hM h hrely
      obtain ⟨definedImage, hattempt⟩ := hattempt
      rw [List.append_cons] at hclosed
      have hend := hattempt.tracked hM hstart
        (fun hrecreate hcommit hc => hcommit.tracked hM hstart horiginal hrecreate hc)
        hclosing.2 (closedBefore_of_closesRewritten hclosed)
      have hframe := hclosing.frame hM
      exact hend.grows hframe.store (.of_frame hM hframe)
  | rollback req =>
    cases rollback_runs hM hrun with
    | early hquiet _ _ =>
      have hframe := hquiet.frame hM
      exact h.grows hframe.store (.of_frame hM hframe)
    | @attempted opening rest closing before event _ w₁ w₂ w₃ _ hopened hrely hattempt hclosing _ =>
      obtain ⟨hstart, horiginal⟩ := hopened.tracked_name hM h hrely
      obtain ⟨rec, -, hattempt⟩ := hattempt
      rw [List.append_cons] at hclosed
      have hend := hattempt.tracked hM hstart
        (fun hrecreate hcommit _ => hcommit.tracked hM hstart horiginal hrecreate)
        hclosing.2 (closedBefore_of_closesRewritten hclosed)
      have hframe := hclosing.frame hM
      exact hend.grows hframe.store (.of_frame hM hframe)

end Updater

/-- After any sequence of updates and rollbacks that close the watches they orphan, every
live watch is for the container its name is tracked under. -/
theorem watches_tracked {w w' : World} {traces : List (Trace Calls World)}
    (hrun : CallsRun openSystem w traces w') (hsync : InSync w) (htracked : w.store.WatchesTracked)
    (hclosed : ∀ trace ∈ traces, ClosesRewritten trace) : w'.store.WatchesTracked := by
  have hstart : Updater.Tracked w := ⟨hsync, htracked⟩
  clear hsync htracked
  suffices Updater.Tracked w' from this.watches
  induction hrun with
  | nil w => exact hstart
  | cons call hcall _ ih =>
    obtain ⟨hfirst, hclosed⟩ := List.forall_mem_cons.mp hclosed
    exact ih hclosed (Updater.tracked_call openSystem_hosts hstart hcall hfirst)

/-! ### A revert of a watched container -/

/-- `webWorld` with an armed watch. -/
def watchedWorld : World :=
  { webWorld with
    store :=
      { containers := [webRecord]
        watches := [Store.armedWatch "web" "c0" 0 (10 * minute) 3 0] } }

theorem watchedWorld_inSync : InSync watchedWorld := by
  refine ⟨fun {id name} ht spec hmem _ => ?_, fun {id name} ht => ?_⟩
  · obtain ⟨row, hrow, -, rfl⟩ := ht
    obtain rfl := List.mem_singleton.mp hrow
    obtain rfl := List.mem_singleton.mp hmem
    rfl
  · obtain ⟨row, hrow, rfl, -⟩ := ht
    obtain rfl := List.mem_singleton.mp hrow
    exact List.mem_cons_self

open Updater in
/-- An update that is reverted leaves the watch on a container that is gone. -/
theorem watches_tracked_reverted : ∃ traces w', CallsRun openSystem watchedWorld traces w' ∧
    InSync watchedWorld ∧ watchedWorld.store.WatchesTracked ∧ ¬ w'.store.WatchesTracked := by
  have hrun := (update updateWeb).play_runs watchedWorld createFailsOnce
  refine ⟨[_], _, .cons (.update updateWeb) hrun (.nil _), watchedWorld_inSync, ?_, ?_⟩
  · decide +kernel
  · decide +kernel

open Updater in
/-- An update that succeeds takes the watch along. -/
theorem watches_tracked_updated : ∃ traces w', CallsRun openSystem watchedWorld traces w' ∧
    traces ≠ [] ∧ w'.store.WatchesTracked := by
  have hrun := (update updateWeb).play_runs watchedWorld replacementStays
  have hcalls : CallsRun openSystem watchedWorld _ _ :=
    .cons (.update updateWeb) hrun (.nil _)
  refine ⟨_, _, hcalls, by simp, watches_tracked hcalls watchedWorld_inSync (by decide +kernel) ?_⟩
  intro trace htrace
  obtain rfl := List.mem_singleton.mp htrace
  decide +kernel

end Doupro
