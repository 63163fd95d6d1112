import Doupro.Updater.Commits

/-!
# The reference a container stays tracked under

Discovery, updates, rollbacks and reverts all write `current_image`, and each has to keep a tag
it is given a digest for. The tag is kept as long as the write finds it.
-/

namespace Doupro

open Go Interaction Updater Registry

/-! ### Runs of the writers -/

/-- What writes the row of a container: a statement of discovery, or an operation. -/
inductive RowStep where
  | seen (ctx : Context) (c : ContainerRecord)
  | operation (call : OperationCall)

def RowStep.program : RowStep → Go (Option GoError)
  | .seen ctx c => do
    match ← store ctx (.upsertSeen c) with
    | .error err => return some err
    | .ok () => return none
  | .operation call => call.program

/-- Writers one after another; the trace of each. -/
inductive RowRun (M : Machine Calls World) : World → List (RowStep × Trace Calls World) → World → Prop
  | nil (w : World) : RowRun M w [] w
  | cons {w w₁ w' : World} (step : RowStep) {trace : Trace Calls World} {out : Option GoError}
    {rest : List (RowStep × Trace Calls World)} (hstep : M.Runs step.program w trace out w₁)
    (hrest : RowRun M w₁ rest w') : RowRun M w ((step, trace) :: rest) w'

/-- The ID a container is tracked under after a run. -/
def heirOf (id : String) (history : List (RowStep × Trace Calls World)) : String :=
  history.foldl (fun id entry => entry.2.foldl heir id) id

/-! ### When a write finds the tag -/

/-- The reference an operation stores or replaces after its next read of the row: the target of
an update, and once it has started the image the container was created from. -/
def OperationCall.decides (call : OperationCall) (k : Notes) : Option String :=
  match k.started, k.before with
  | some (before, _), _ => some (configImage before)
  | none, some _ => match call with
    | .update req => some req.targetImage
    | .rollback _ => none
  | none, none => none

/-- A read that decides on a digest finds a reference. -/
def FindsReference (call : OperationCall) (k : Notes) (e : Event Calls World) : Prop :=
  match e with
  | ⟨_, .store _ (.getContainer _), .ok rec⟩ =>
    ∀ image ∈ call.decides k, isDigestReference image = true → rec.currentImage ≠ ""
  | ⟨_, .store _ (.getContainer _), .error _⟩ =>
    ∀ image ∈ call.decides k, isDigestReference image = false
  | _ => True

instance (call : OperationCall) (k : Notes) (e : Event Calls World) :
    Decidable (FindsReference call k e) :=
  decidable_of_iff ((match e with
    | ⟨_, .store _ (.getContainer _), .ok rec⟩ => decide (∀ image ∈ call.decides k,
      isDigestReference image = true → rec.currentImage ≠ "")
    | ⟨_, .store _ (.getContainer _), .error _⟩ => decide (∀ image ∈ call.decides k,
      isDigestReference image = false)
    | _ => true : Bool) = true) (by unfold FindsReference; split <;> simp)

/-- A writer that is given a digest for a container finds the tag it is tracked under. -/
def RowStep.Spares (id : String) (trace : Trace Calls World) : RowStep → Prop
  | .seen _ c => c.id = id → isDigestReference c.currentImage = true → ∀ e ∈ trace,
      Store.isDigestColumn c.currentImage = true ∧
        ∀ stored ∈ e.world.store.referenceOf id, stored ≠ "" ∧ Store.isDigestColumn stored = false
  | .operation call => call.containerID = id →
      (recording call).Along (FindsReference call) {} trace

/-- Every writer of a run finds the tag of the container. -/
def SparesReference : String → List (RowStep × Trace Calls World) → Prop
  | _, [] => True
  | id, (step, trace) :: rest =>
    step.Spares id trace ∧ SparesReference (trace.foldl heir id) rest

/-! ### What is stored -/

theorem stableImageReference_mutable {operation stored : String}
    (hstored : isDigestReference stored = false)
    (hempty : isDigestReference operation = true → stored ≠ "") :
    isDigestReference (stableImageReference operation stored) = false := by
  unfold stableImageReference
  by_cases hdigest : isDigestReference operation = true
  · rw [if_pos ⟨hdigest, hempty hdigest, by simp [hstored]⟩]
    exact hstored
  · rw [if_neg fun h => hdigest h.1]
    simpa using hdigest

/-- The reference an operation records when it goes through. -/
def OperationCall.defines (call : OperationCall) (read : Except GoError ContainerRecord) :
    Option String :=
  match call with
  | .update req => some (definedImageOf req.targetImage read)
  | .rollback _ => read.toOption.map ContainerRecord.currentImage

theorem OperationCall.defines_record {call : OperationCall} {before : InspectResponse}
    {read : Except GoError ContainerRecord} {result : RecreationResult} {rec : ContainerRecord}
    (h : call.record before read result = some rec) : rec.currentImage ∈ call.defines read := by
  cases call with
  | update req =>
    obtain rfl := Option.some.inj h
    exact rfl
  | rollback req =>
    cases read with
    | error err => cases h
    | ok old =>
      obtain rfl := Option.some.inj h
      exact rfl

/-- The reference a revert records. -/
def revertedReference (before : InspectResponse) : Except GoError ContainerRecord → String
  | .ok rec => stableImageReference (configImage before) rec.currentImage
  | .error _ => configImage before

theorem revertedRecord_reference (op : FailedOperation) (result : RecreationResult)
    (again : Except GoError ContainerRecord) :
    (revertedRecord op result again).currentImage = revertedReference op.before again := by
  cases again <;> rfl

/-- What an operation on a container tracked under a tag knows of it. -/
structure Faithful (call : OperationCall) (w : World) (k : Notes) : Prop where
  stored : ∀ image ∈ w.store.referenceOf call.containerID, isDigestReference image = false
  pending : k.started = none → ((∃ req, call = .update req) → k.before.isSome = true) →
    ∀ read, k.read = some read → ∀ image ∈ call.defines read, isDigestReference image = false
  started : ∀ {before read}, k.started = some (before, read) →
    ∀ image ∈ call.defines read, isDigestReference image = false
  again : ∀ {before read again}, k.started = some (before, read) → k.read = some again →
    isDigestReference (revertedReference before again) = false

theorem Faithful.commits {call : OperationCall} {w : World} {k : Notes} {rec : ContainerRecord}
    (h : Faithful call w k) (hcommits : Commits call k rec) :
    isDigestReference rec.currentImage = false := by
  cases hcommits with
  | done hstarted _ hrec => exact h.started hstarted _ (call.defines_record hrec)
  | @reverted before read again op result hstarted hbefore _ hread _ hrec =>
    rw [hrec, revertedRecord_reference, hbefore]
    exact h.again hstarted hread

/-- The notes an operation takes of a call that is no read of its row. -/
theorem Faithful.notes {call : OperationCall} {w w' : World} {k : Notes} (h : Faithful call w k)
    {op : Call} {r : op.Reply}
    (hop : ∀ ctx id, op ≠ .store ctx (.getContainer id))
    (hstored : ∀ image ∈ w'.store.referenceOf call.containerID, isDigestReference image = false) :
    Faithful call w' (k.after call ⟨w, op, r⟩) := by
  have hsame : Faithful call w' k := ⟨hstored, h.pending, h.started, h.again⟩
  cases op with
  | docker ctx request =>
    cases request with
    | create config hostConfig networks name =>
      cases r with
      | error err => exact hsame
      | ok made => exact ⟨hstored, h.pending, h.started, h.again⟩
    | inspect inspected =>
      cases r with
      | error err => exact hsame
      | ok before =>
        simp only [Notes.after]
        split
        · cases call with
          | update req =>
            refine ⟨hstored, fun _ _ read hread => ?_, h.started, fun _ hread => ?_⟩
            all_goals cases hread
          | rollback req =>
            refine ⟨hstored, fun hnone hbefore => h.pending hnone ?_, h.started, h.again⟩
            rintro ⟨req, hreq⟩
            cases hreq
        · exact hsame
    | _ => exact hsame
  | store ctx request =>
    cases request with
    | getContainer id => exact absurd rfl (hop ctx id)
    | _ => exact hsame
  | emit event =>
    change Faithful call w' k.start
    unfold Notes.start
    split
    · next before read hnone hbefore hread =>
      refine ⟨hstored, fun hstarted => ?_, ?_, fun _ hread => ?_⟩
      · cases hstarted
      rotate_left
      · cases hread
      rintro before' read' hstarted
      obtain ⟨rfl, rfl⟩ := Prod.mk.inj (Option.some.inj hstarted)
      exact h.pending hnone (fun _ => by rw [hbefore]; rfl) read hread
    · exact hsame
  | _ => exact hsame

/-- The notes an operation takes of a read of its row. -/
theorem Faithful.reads {call : OperationCall} {w : World} {k : Notes} {ctx : Context}
    {reply : Except GoError ContainerRecord} (h : Faithful call w k)
    (hreply : ∀ rec, reply = .ok rec → isDigestReference rec.currentImage = false)
    (hfinds : FindsReference call k ⟨w, .store ctx (.getContainer call.containerID), reply⟩) :
    Faithful call w (k.after call ⟨w, .store ctx (.getContainer call.containerID), reply⟩) where
  stored := h.stored
  pending hnone hbefore read hread := by
    change k.started = none at hnone
    obtain rfl := Option.some.inj hread
    cases call with
    | rollback req =>
      rintro image himage
      cases reply with
      | error err => cases himage
      | ok rec =>
        obtain rfl := Option.some.inj himage
        exact hreply rec rfl
    | update req =>
      obtain ⟨before, hbefore⟩ := Option.isSome_iff_exists.mp (hbefore ⟨req, rfl⟩)
      change k.before = some before at hbefore
      have hdecides : (OperationCall.update req).decides k = some req.targetImage := by
        simp only [OperationCall.decides, hnone, hbefore]
      rintro image himage
      obtain rfl := Option.some.inj himage
      cases reply with
      | error err => exact hfinds _ hdecides
      | ok rec => exact stableImageReference_mutable (hreply rec rfl) (hfinds _ hdecides)
  started hstarted := h.started hstarted
  again {before read again} hstarted hread := by
    change k.started = some (before, read) at hstarted
    obtain rfl := Option.some.inj hread
    have hdecides : call.decides k = some (configImage before) := by
      simp only [OperationCall.decides, hstarted]
    cases reply with
    | error err => exact hfinds _ hdecides
    | ok rec => exact stableImageReference_mutable (hreply rec rfl) (hfinds _ hdecides)

/-! ### One writer -/

/-- A container that Docker knows is tracked under a tag. -/
structure TrackedByTag (w : World) (id : String) : Prop where
  stored : ∃ image, w.store.referenceOf id = some image ∧ isDigestReference image = false
  issued : id ∈ w.engine.issued

theorem TrackedByTag.of_eq {w w' : World} {id : String} (h : TrackedByTag w id)
    (hrow : w'.store.referenceOf id = w.store.referenceOf id)
    (hissued : w.engine.issued ⊆ w'.engine.issued) : TrackedByTag w' id :=
  ⟨hrow ▸ h.stored, hissued h.issued⟩

/-- What a commit of a tag leaves stored under any ID. -/
theorem referenceOf_commit {s : Store} {oldID id : String} {rec : ContainerRecord}
    (hrec : isDigestReference rec.currentImage = false)
    (h : ∀ image ∈ s.referenceOf id, isDigestReference image = false) :
    ∀ image ∈ (s.replaceContainer oldID rec).referenceOf id, isDigestReference image = false := by
  intro image himage
  rw [Store.referenceOf_replaceContainer] at himage
  split at himage
  · obtain rfl := Option.some.inj himage
    exact hrec
  · split at himage
    · cases himage
    · exact h image himage

/-- The row of a container follows it through a commit of a tag. -/
theorem referenceOf_heir {s : Store} {oldID id : String} {rec : ContainerRecord}
    (hrec : isDigestReference rec.currentImage = false)
    (h : ∃ image, s.referenceOf id = some image ∧ isDigestReference image = false) :
    ∃ image, (s.replaceContainer oldID rec).referenceOf (if oldID = id then rec.id else id) =
      some image ∧ isDigestReference image = false := by
  rw [Store.referenceOf_replaceContainer]
  by_cases hold : oldID = id
  · rw [if_pos hold, if_pos rfl]
    exact ⟨_, rfl, hrec⟩
  · rw [if_neg hold]
    by_cases hid : id = rec.id
    · rw [if_pos hid]
      exact ⟨_, rfl, hrec⟩
    · rw [if_neg hid, if_neg fun h => hold h.1.symm]
      exact h

/-- The container in the middle of an operation on it. -/
structure Followed (call : OperationCall) (w : World) (k : Notes) (id : String) : Prop where
  tracked : TrackedByTag w id
  fresh : Fresh [] w k
  faithful : Faithful call w k

theorem referenceOf_step {w w' : World} {op : Call} {r : op.Reply}
    (hop : ∀ ctx call, op = .store ctx call → ¬ call.Discovers)
    (h : openSystem.step w op r w') (id : String) :
    w'.store.referenceOf id = match committedBy ⟨w, op, r⟩ with
      | some (oldID, rec) => (w.store.replaceContainer oldID rec).referenceOf id
      | none => w.store.referenceOf id := by
  rw [Store.referenceOf_eq, step_rows hop h id]
  cases committedBy ⟨w, op, r⟩ <;> exact (Store.referenceOf_eq _ _).symm

theorem Followed.call {call : OperationCall} {w w' : World} {k : Notes} {id : String} {op : Call}
    {r : op.Reply} (h : Followed call w k id) (hallowed : (recording call).allowed k op)
    (hstep : openSystem.step w op r w') (hfinds : FindsReference call k ⟨w, op, r⟩) :
    Followed call w' (k.after call ⟨w, op, r⟩) (heir id ⟨w, op, r⟩) := by
  have hissued := step_issued hstep
  have hrows := fun id => referenceOf_step (recording_quiet hallowed) hstep id
  cases hcommit : committedBy ⟨w, op, r⟩ with
  | some commit =>
    obtain ⟨oldID, rec⟩ := commit
    obtain ⟨rfl, hcommits⟩ := recording_commit hallowed hcommit
    have hrec := h.faithful.commits hcommits
    simp only [hcommit] at hrows
    have hheir : heir id ⟨w, op, r⟩ = if call.containerID = id then rec.id else id := by
      simp only [heir, hcommit]
    rw [hheir]
    refine ⟨⟨?_, ?_⟩, h.fresh.call hstep, h.faithful.notes ?_ ?_⟩
    · rw [hrows]
      exact referenceOf_heir hrec h.tracked.stored
    · split
      · exact hissued (h.fresh.made rec.id hcommits.made).1
      · exact hissued h.tracked.issued
    · rintro ctx id rfl
      cases r <;> cases hcommit
    · rw [hrows]
      exact referenceOf_commit hrec h.faithful.stored
  | none =>
    simp only [hcommit] at hrows
    have hheir : heir id ⟨w, op, r⟩ = id := by simp only [heir, hcommit]
    rw [hheir]
    refine ⟨h.tracked.of_eq (hrows id) hissued, h.fresh.call hstep, ?_⟩
    by_cases hread : ∃ ctx id, op = .store ctx (.getContainer id)
    · obtain ⟨ctx, read, rfl⟩ := hread
      obtain rfl : read = call.containerID := hallowed
      obtain ⟨rfl, hreply⟩ := step_getContainer hstep
      refine h.faithful.reads (fun rec hok => ?_) hfinds
      rcases hreply with ⟨err, herr⟩ | ⟨row, hrow, hok'⟩
      · rw [hok] at herr
        cases herr
      · rw [hok] at hok'
        obtain rfl := Except.ok.inj hok'
        exact h.faithful.stored _ (Option.map_eq_some_iff.mpr ⟨_, hrow, rfl⟩)
    · refine h.faithful.notes (fun ctx id hop => hread ⟨ctx, id, hop⟩) ?_
      rw [hrows]
      exact h.faithful.stored

/-- An operation on the container, whose reads find the tag where they decide. -/
theorem operation_own (call : OperationCall) {w w' : World} {trace : Trace Calls World}
    {out : Option GoError} (hrun : openSystem.Runs call.program w trace out w')
    (htracked : TrackedByTag w call.containerID)
    (hfinds : (recording call).Along (FindsReference call) {} trace) :
    TrackedByTag w' (trace.foldl heir call.containerID) := by
  have hfaithful : Faithful call w {} := by
    refine ⟨fun image himage => ?_, fun _ _ read hread => (nomatch hread),
      fun hstarted => (nomatch hstarted), fun hstarted => (nomatch hstarted)⟩
    obtain ⟨stored, hstored, hmutable⟩ := htracked.stored
    obtain rfl := Option.some.inj (hstored.symm.trans himage)
    exact hmutable
  have hstart : Followed call w {} call.containerID :=
    ⟨htracked, ⟨List.nil_subset _, fun id hid => absurd hid List.not_mem_nil⟩, hfaithful⟩
  refine (Machine.obeys_invariant (o := heir) (J := Followed call) ?_ ?_
    (operation_records call) hrun hfinds hstart).1.tracked
  · intro w₁ w₂ k id h hrely
    obtain ⟨hstore, hissued⟩ := openSystem_rely hrely
    refine ⟨h.tracked.of_eq (by rw [hstore]) (by rw [hissued]; exact List.Subset.refl _),
      ⟨List.nil_subset _, by rw [hissued]; exact h.fresh.made⟩, ?_⟩
    exact ⟨by rw [hstore]; exact h.faithful.stored, h.faithful.pending, h.faithful.started,
      h.faithful.again⟩
  · exact fun h hallowed hstep hfinds => ⟨trivial, h.call hallowed hstep hfinds⟩

/-- What the statement of discovery leaves stored. -/
theorem seen_keeps {ctx : Context} {c : ContainerRecord} {w w' : World}
    {trace : Trace Calls World} {out : Option GoError} {id : String}
    (hrun : openSystem.Runs (RowStep.seen ctx c).program w trace out w')
    (htracked : TrackedByTag w id) (hspares : (RowStep.seen ctx c).Spares id trace) :
    TrackedByTag w' (trace.foldl heir id) := by
  obtain ⟨w₀, reply, w₁, rest, hrely, hstep, rfl, hrest⟩ := Machine.runs_request_bind.mp hrun
  obtain ⟨hstore, hissued⟩ := openSystem_rely hrely
  have hmet : TrackedByTag w₀ id :=
    htracked.of_eq (by rw [hstore]) (by rw [hissued]; exact List.Subset.refl _)
  have hend : rest = [] ∧ w' = w₁ := by
    cases reply <;> exact ⟨hrest.1, hrest.2.2⟩
  obtain ⟨rfl, rfl⟩ := hend
  have hheir : heir id ⟨w₀, .store ctx (.upsertSeen c), reply⟩ = id := by cases reply <;> rfl
  rw [List.foldl_cons, List.foldl_nil, hheir]
  rcases step_write () (fun _ _ => rfl) hstep with ⟨err, -, rfl⟩ | ⟨-, -, rfl⟩
  · exact hmet
  by_cases hid : id = c.id
  · subst hid
    obtain ⟨stored, hstored, hmutable⟩ := hmet.stored
    refine ⟨?_, hmet.issued⟩
    change ∃ image, (w₀.store.upsertSeen c).referenceOf c.id = some image ∧ _
    rw [Store.referenceOf_upsertSeen hstored]
    by_cases hdigest : isDigestReference c.currentImage = true
    · obtain ⟨hcolumn, hknown⟩ := hspares rfl hdigest _ List.mem_cons_self
      obtain ⟨hempty, htag⟩ := hknown stored hstored
      rw [if_pos ⟨hcolumn, hempty, by simp [htag]⟩]
      exact ⟨stored, rfl, hmutable⟩
    · split
      · exact ⟨stored, rfl, hmutable⟩
      · exact ⟨_, rfl, by simpa using hdigest⟩
  · exact hmet.of_eq (Store.referenceOf_upsertSeen_ne _ hid) (List.Subset.refl _)

theorem RowStep.keeps {step : RowStep} {w w' : World} {trace : Trace Calls World}
    {out : Option GoError} {id : String} (hrun : openSystem.Runs step.program w trace out w')
    (htracked : TrackedByTag w id) (hspares : step.Spares id trace) :
    TrackedByTag w' (trace.foldl heir id) := by
  cases step with
  | seen ctx c => exact seen_keeps hrun htracked hspares
  | operation call =>
    by_cases hid : call.containerID = id
    · subst hid
      exact operation_own call hrun htracked (hspares rfl)
    · obtain ⟨hrow, hgrows, hheir⟩ := operation_other call hrun htracked.issued (Ne.symm hid)
      rw [hheir]
      refine htracked.of_eq ?_ hgrows
      rw [Store.referenceOf_eq, hrow, Store.referenceOf_eq]

/-- The two tests see a reported reference alike unless it only starts like an image ID; and in
any run of discovery, updates, rollbacks and reverts whose writers find the tag of a container
when they are given a digest for it, the container stays tracked under a tag. -/
theorem reference_stays_mutable {text : List Char} (hreported : Reported text) {w w' : World}
    {id : String} {history : List (RowStep × Trace Calls World)}
    (hrun : RowRun openSystem w history w') (hissued : id ∈ w.engine.issued)
    (hmutable : ∃ image, w.store.referenceOf id = some image ∧ isDigestReference image = false)
    (hspares : SparesReference id history) :
    (Store.isDigestColumn (String.ofList text) = isDigestReference (String.ofList text) ↔
      ¬ LooksPinned text) ∧
    ∃ image, w'.store.referenceOf (heirOf id history) = some image ∧
      isDigestReference image = false := by
  refine ⟨Store.tests_agree hreported, ?_⟩
  have htracked : TrackedByTag w id := ⟨hmutable, hissued⟩
  clear hmutable hissued
  suffices TrackedByTag w' (heirOf id history) from this.stored
  induction hrun generalizing id with
  | nil w => exact htracked
  | cons step hstep _ ih => exact ih hspares.2 (step.keeps hstep htracked hspares.1)

/-! ### An update to a pinned image -/

/-- The digest a one-off schedule pinned. -/
def pinnedWeb : String :=
  "web@sha256:aaaaaaaaaaaaaaaaaaaaaaaaaaaaaaaaaaaaaaaaaaaaaaaaaaaaaaaaaaaaaaaa"

def updatePinned : UpdateRequest := ⟨.background, "c0", pinnedWeb, ⟨.schedule, "schedule:1"⟩⟩

/-- The registry also serves the pinned image. -/
def pinnedWorld : World :=
  { webWorld with
    engine := Engine.ofContainer webSpec { status := .running } [("web:1", "sha256:0")]
      [("web:1", "sha256:0"), (pinnedWeb, "sha256:2")] }

/-- The second read of the row fails, and everything after it goes through. -/
def rereadFails : Nat → Turn :=
  script [(3, { choice := { fault := some (.external "database is locked") } }), (8, .creating "c1")]

/-- Discovery reports the digest of the recreated container. -/
def seenPinned : RowStep := .seen .background { id := "c1", name := "web", currentImage := pinnedWeb }

/-- What a container created by a shortened image ID is reported with. -/
def shortID : List Char := "sha256:4bb46517cac3".toList

theorem reported_of_check {text : List Char}
    (h : text.all (fun c => !isSpace c && c != '@') = true) (hdigest : isDigest text = false) :
    Reported text := by
  have hplain := List.all_eq_true.mp h
  refine .named (fun c hc => ?_) (fun hat => ?_) hdigest
  · have hc := hplain c hc
    simp only [Bool.and_eq_true, Bool.not_eq_true'] at hc
    exact hc.1
  · exact absurd (hplain _ hat) (by decide)

/-- A pinned update whose read of the row fails replaces the tag by the digest, and the tests
disagree on a shortened image ID. -/
theorem reference_lost : (∃ trace w', RowRun openSystem pinnedWorld
      [(.operation (.update updatePinned), trace)] w' ∧
      pinnedWorld.store.referenceOf "c0" = some "web:1" ∧ isDigestReference "web:1" = false ∧
      w'.store.referenceOf (heirOf "c0" [(.operation (.update updatePinned), trace)]) =
        some pinnedWeb ∧ isDigestReference pinnedWeb = true) ∧
    Reported shortID ∧
    Store.isDigestColumn (String.ofList shortID) ≠ isDigestReference (String.ofList shortID) := by
  have hrun := (update updatePinned).play_runs pinnedWorld rereadFails
  refine ⟨⟨_, _, .cons (.operation (.update updatePinned)) hrun (.nil _), ?_, ?_, ?_, ?_⟩, ?_, ?_⟩
  · decide +kernel
  · decide +kernel
  · decide +kernel
  · decide +kernel
  · exact reported_of_check (by decide) (by decide)
  · decide +kernel

/-- The same update keeps the tag where the read goes through, and discovery keeps it after. -/
theorem reference_stays_mutable_pinned : ∃ history w', RowRun openSystem pinnedWorld history w' ∧
    history.map Prod.fst = [.operation (.update updatePinned), seenPinned] ∧
    ∃ image, w'.store.referenceOf (heirOf "c0" history) = some image ∧
      isDigestReference image = false := by
  have hupdate := (update updatePinned).play_runs pinnedWorld replacementStays
  have hseen := seenPinned.program.play_runs
    ((update updatePinned).play pinnedWorld replacementStays).world (script [])
  have hrun : RowRun openSystem pinnedWorld _ _ :=
    .cons (.operation (.update updatePinned)) hupdate (.cons seenPinned hseen (.nil _))
  have hreported : Reported "web:1".toList := reported_of_check (by decide) (by decide)
  refine ⟨_, _, hrun, rfl, ?_⟩
  refine (reference_stays_mutable hreported hrun (by decide +kernel) ?_ ?_).2
  · exact ⟨"web:1", by decide +kernel, by decide +kernel⟩
  · refine ⟨fun _ => ?_, fun _ _ => ?_, trivial⟩
    · decide +kernel
    · decide +kernel

end Doupro
