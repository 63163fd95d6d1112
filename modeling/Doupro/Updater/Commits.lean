import Doupro.Store.References
import Doupro.Updater.OperationKeys

/-!
# What an operation commits

Whatever happens between its calls, an operation replaces the row of the container it was
called for by the row of one it created, made from the snapshot it started with and from what
its own reads of the row returned.
-/

namespace Doupro

open Go Interaction Updater

/-- The row a statement replaces, and the row it writes. -/
def StoreCall.replaces : StoreCall → Option (String × ContainerRecord)
  | .replaceContainer oldID rec | .replaceContainerAndArmRollback oldID rec _ _ _ _
  | .replaceContainerAndCompleteRollback oldID rec _ => some (oldID, rec)
  | _ => none

/-- The statements of discovery and of the settings on rows of containers. -/
def StoreCall.Discovers : StoreCall → Prop
  | .upsertSeen _ | .pruneContainers _ | .applyExclusions _ | .repairCurrentImage _ _ => True
  | _ => False

/-- The row an event replaced, and the row it wrote. -/
def committedBy (e : Event Calls World) : Option (String × ContainerRecord) :=
  match e with
  | ⟨_, .store _ call, .ok _⟩ => call.replaces
  | _ => none

/-- The ID a container is tracked under after an event. -/
def heir (id : String) (e : Event Calls World) : String :=
  match committedBy e with
  | some (oldID, rec) => if oldID = id then rec.id else id
  | none => id

/-- The columns of a row that only discovery and commits write. -/
def ContainerRecord.defined (r : ContainerRecord) : String × String × String × String × Bool :=
  (r.name, r.stack, r.currentImage, r.previousImage, r.excluded)

/-- What a lookup sees of those columns. -/
def Store.definedOf (s : Store) (id : String) : Option (String × String × String × String × Bool) :=
  (s.getContainer id).map ContainerRecord.defined

theorem Store.referenceOf_eq (s : Store) (id : String) :
    s.referenceOf id = (s.definedOf id).map fun columns => columns.2.2.1 := by
  unfold referenceOf definedOf
  cases s.getContainer id <;> rfl

/-- Statements that change other columns of some rows. -/
theorem Store.definedOf_updateWhere (s : Store) (id : String) (p : ContainerRecord → Bool)
    (set : ContainerRecord → ContainerRecord) (hid : ∀ r, (set r).id = r.id)
    (hset : ∀ r, (set r).defined = r.defined) :
    ({ s with containers := Table.updateWhere p set s.containers } : Store).definedOf id =
      s.definedOf id := by
  unfold definedOf getContainer
  rw [Table.lookup_updateWhere _ _ _ hid]
  cases Table.lookup ContainerRecord.id id s.containers with
  | none => rfl
  | some r =>
    simp only [Option.map_some]
    split
    · rw [hset]
    · rfl

/-- Every statement but those of discovery replaces a row or leaves the columns alone. -/
theorem Store.perform_rows {s s' : Store} {now : Time} {call : StoreCall} {result : call.Result}
    (hcall : ¬ call.Discovers) (h : s.perform now call = .ok (result, s')) (id : String) :
    s'.definedOf id = match call.replaces with
      | some (oldID, rec) => (s.replaceContainer oldID rec).definedOf id
      | none => s.definedOf id := by
  cases call with
  | upsertSeen | pruneContainers | applyExclusions | repairCurrentImage =>
    exact absurd trivial hcall
  | getContainer | containerIDByName | getUpdateCandidate | getSchedule =>
    rw [perform_reads (by trivial) h]
    rfl
  | setScheduleEnabled =>
    rw [perform_setScheduleEnabled h]
    rfl
  | deleteSchedule =>
    rw [perform_deleteSchedule h]
    rfl
  | setVersions _ current available =>
    obtain ⟨-, rfl⟩ := Prod.mk.inj (Except.ok.inj h)
    exact s.definedOf_updateWhere id _ _ (fun _ => rfl) fun _ => rfl
  | recordCrash name containerID eventNano crashedAt =>
    obtain ⟨watches, rfl⟩ := perform_recordCrash_frame h
    rfl
  | setUpdateAvailable _ available =>
    obtain ⟨-, rfl⟩ := Prod.mk.inj (Except.ok.inj h)
    exact s.definedOf_updateWhere id _ _ (fun _ => rfl) fun _ => rfl
  | setContainerState _ state status =>
    obtain ⟨-, rfl⟩ := Prod.mk.inj (Except.ok.inj h)
    exact s.definedOf_updateWhere id _ _ (fun _ => rfl) fun _ => rfl
  | _ =>
    obtain ⟨-, rfl⟩ := Prod.mk.inj (Except.ok.inj h)
    rfl

/-- A call that is not one of discovery. -/
theorem step_rows {w w' : World} {op : Call} {r : op.Reply}
    (hop : ∀ ctx call, op = .store ctx call → ¬ call.Discovers)
    (h : openSystem.step w op r w') (id : String) :
    w'.store.definedOf id = match committedBy ⟨w, op, r⟩ with
      | some (oldID, rec) => (w.store.replaceContainer oldID rec).definedOf id
      | none => w.store.definedOf id := by
  cases op with
  | store ctx call =>
    rcases step_store h with ⟨err, rfl, rfl⟩ | ⟨result, store, -, hperform, rfl, rfl⟩
    · rfl
    · exact Store.perform_rows (hop ctx call rfl) hperform id
  | _ =>
    have hkeeps := @step_keeps _ (fun s => s) w w' _ r trivial h
    exact congrArg (fun s => Store.definedOf s id) hkeeps

/-- What an operation knows: the containers it created, its last inspect of its container, its last
read of the row since, and with which of them it started. -/
structure Notes where
  made : List String := []
  before : Option InspectResponse := none
  read : Option (Except GoError ContainerRecord) := none
  started : Option (InspectResponse × Except GoError ContainerRecord) := none

namespace Notes

/-- The first log entry after an inspect and a read starts the operation. -/
def start (k : Notes) : Notes :=
  match k.started, k.before, k.read with
  | none, some before, some read => { k with started := some (before, read), read := none }
  | _, _, _ => k

/-- An update starts with what it read after the inspect, a rollback with what it read before. -/
def inspected (call : OperationCall) (k : Notes) (before : InspectResponse) : Notes :=
  match call with
  | .update _ => { k with before := some before, read := none }
  | .rollback _ => { k with before := some before }

def after (call : OperationCall) (k : Notes) : Event Calls World → Notes
  | ⟨_, .docker _ (.create _ _ _ _), .ok id⟩ => { k with made := id :: k.made }
  | ⟨_, .docker _ (.inspect id), .ok before⟩ =>
    if id = call.containerID then k.inspected call before else k
  | ⟨_, .store _ (.getContainer _), reply⟩ => { k with read := some reply }
  | ⟨_, .emit _, _⟩ => k.start
  | _ => k

/-- A plan for the container the operation started with. -/
def Planned (k : Notes) (plan : RecreationPlan) : Prop :=
  ∃ before read image, k.started = some (before, read) ∧
    buildRecreationPlan before image = .ok plan

theorem inspected_made (call : OperationCall) (k : Notes) (before : InspectResponse) :
    (k.inspected call before).made = k.made := by
  cases call <;> rfl

theorem inspected_started (call : OperationCall) (k : Notes) (before : InspectResponse) :
    (k.inspected call before).started = k.started := by
  cases call <;> rfl

theorem inspected_before (call : OperationCall) (k : Notes) (before : InspectResponse) :
    (k.inspected call before).before = some before := by
  cases call <;> rfl

end Notes

theorem Notes.after_made {call : OperationCall} {k : Notes} {e : Event Calls World} {id : String}
    (h : id ∈ (k.after call e).made) : id ∈ k.made ∨ createdBy e = some id := by
  obtain ⟨w, op, r⟩ := e
  cases op with
  | docker ctx request =>
    cases request with
    | create config hostConfig networks name =>
      cases r with
      | error err => exact .inl h
      | ok made =>
        rcases List.mem_cons.mp h with rfl | h
        · exact .inr rfl
        · exact .inl h
    | inspect inspected =>
      cases r with
      | error err => exact .inl h
      | ok before =>
        left
        simp only [Notes.after] at h
        split at h
        · rwa [Notes.inspected_made] at h
        · exact h
    | _ => exact .inl h
  | store ctx request => cases request <;> exact .inl h
  | emit event =>
    left
    change id ∈ k.start.made at h
    unfold Notes.start at h
    split at h <;> exact h
  | _ => exact .inl h

/-- The row an operation records when it goes through. -/
def OperationCall.record (call : OperationCall) (before : InspectResponse)
    (read : Except GoError ContainerRecord) (result : RecreationResult) : Option ContainerRecord :=
  match call, read with
  | .update req, read => some (updatedRecord before (definedImageOf req.targetImage read) result)
  | .rollback _, .ok rec => some (rolledBackRecord rec before result)
  | .rollback _, .error _ => none

/-- The rows an operation may write, from what it knows. -/
inductive Commits (call : OperationCall) (k : Notes) (rec : ContainerRecord) : Prop
  | done {before : InspectResponse} {read : Except GoError ContainerRecord}
    {result : RecreationResult} (hstarted : k.started = some (before, read))
    (hmade : result.id ∈ k.made) (hrec : call.record before read result = some rec)
  | reverted {before : InspectResponse} {read again : Except GoError ContainerRecord}
    {op : FailedOperation} {result : RecreationResult} (hstarted : k.started = some (before, read))
    (hbefore : op.before = before) (hname : op.name = trimSlash before.name)
    (hread : k.read = some again) (hmade : result.id ∈ k.made)
    (hrec : rec = revertedRecord op result again)

/-- An operation writes the row of its own container, and that of no other; it creates
containers from plans for its own only, and renames none. -/
def recording (call : OperationCall) : Contract Calls World Notes where
  allowed k op := match op with
    | .docker _ (.create config hostConfig networks name) => ∃ plan, k.Planned plan ∧
        (config, hostConfig, networks, name) =
          (plan.config, plan.hostConfig, plan.networkConfig, plan.name)
    | .docker _ (.rename _ _) => False
    | .store _ (.replaceContainer oldID rec)
    | .store _ (.replaceContainerAndArmRollback oldID rec _ _ _ _)
    | .store _ (.replaceContainerAndCompleteRollback oldID rec _) =>
      oldID = call.containerID ∧ Commits call k rec
    | .store _ (.getContainer id) => id = call.containerID
    | .store _ call => ¬ call.Discovers
    | _ => True
  expects _ _ := True
  next := Notes.after call

theorem recording_inspect {call : OperationCall} {k : Notes} {w : World} {ctx : Context}
    {id : String} {before : InspectResponse} (hid : id = call.containerID) :
    (recording call).next k ⟨w, .docker ctx (.inspect id), .ok before⟩ = k.inspected call before :=
  if_pos hid

namespace Updater

variable {M : Machine Calls World} {call : OperationCall} {k : Notes}

/-! ### What the calls of a recreation teach -/

/-- The operation has started, and knows at least what it knew. -/
structure Onward (k k' : Notes) : Prop where
  started : k'.started = k.started
  made : k.made ⊆ k'.made

theorem Onward.refl (k : Notes) : Onward k k := ⟨rfl, List.Subset.refl _⟩

theorem Onward.trans {k₁ k₂ k₃ : Notes} (h : Onward k₁ k₂) (h' : Onward k₂ k₃) : Onward k₁ k₃ :=
  ⟨h'.started.trans h.started, List.Subset.trans h.made h'.made⟩

theorem onward_docker (call : OperationCall) (k : Notes) (e : Event Calls World) (h : OnDocker e.op) :
    Onward k (k.after call e) := by
  obtain ⟨w, op, r⟩ := e
  cases op with
  | docker ctx request =>
    cases request with
    | create config hostConfig networks name =>
      cases r with
      | ok id => exact ⟨rfl, List.subset_cons_self _ _⟩
      | error err => exact .refl k
    | inspect id =>
      cases r with
      | error err => exact .refl k
      | ok before =>
        simp only [Notes.after]
        split
        · exact ⟨k.inspected_started call before, by rw [k.inspected_made call before]; simp⟩
        · exact .refl k
    | _ => exact .refl k
  | now | sleepUntil => exact .refl k
  | _ => exact h.elim

/-- An emit of an operation that has started teaches nothing. -/
theorem start_keeps (h : k.started.isSome = true) : k.start.started = k.started := by
  obtain ⟨started, hstarted⟩ := Option.isSome_iff_exists.mp h
  unfold Notes.start
  simp only [hstarted]

theorem observes_records {α : Type} {p : Go α} (hp : p.Uses Call.Observes) :
    M.obeys (recording call) p k fun k' _ => Onward k k' := by
  induction p generalizing k with
  | ret a => exact .refl k
  | call op next ih =>
    have hallowed : (recording call).allowed k op := by
      have h := hp.1
      unfold Call.Observes at h
      split at h <;> first | exact h.elim | trivial
    refine ⟨hallowed, fun w r w' _ _ => ?_⟩
    refine Machine.obeys_mono (ih r (hp.2 r)) fun k' _ hk' => ?_
    exact (onward_docker call k ⟨w, op, r⟩ (onDocker_of_observes hp.1)).trans hk'

theorem startRecreated_records (ctx : Context) {result : RecreationResult}
    (hmade : result.id ∈ k.made) : M.obeys (recording call) (startRecreated ctx result) k
      fun k' out => Onward k k' ∧ out.1.id ∈ k'.made := by
  have hdone : ∀ {k' : Notes} (out : RecreationResult × Option GoError), Onward k k' →
      out.1.id = result.id → Onward k k' ∧ out.1.id ∈ k'.made :=
    fun out hk' hid => ⟨hk', hid ▸ hk'.made hmade⟩
  refine Machine.obeys_request_bind.mpr ⟨trivial, fun w reply w' _ _ => ?_⟩
  have hstart := onward_docker call k ⟨w, .docker ctx (.start result.id), reply⟩ trivial
  cases reply with
  | error err => exact hdone _ hstart rfl
  | ok started =>
    refine Machine.obeys_bind.mpr (Machine.obeys_mono
      (observes_records (Client.waitHealthy_observes _ _ _ _)) ?_)
    intro k₁ verdict hwait
    cases verdict with
    | some err => exact hdone _ (hstart.trans hwait) rfl
    | none =>
      refine Machine.obeys_request_bind.mpr ⟨trivial, fun w reply w' _ _ => ?_⟩
      have hlast := (hstart.trans hwait).trans
        (onward_docker call _ ⟨w, .docker ctx (.inspect result.id), reply⟩ trivial)
      cases reply with
      | error err => exact hdone _ hlast rfl
      | ok created =>
        cases hstate : created.state with
        | none =>
          simp only [hstate]
          exact hdone _ hlast rfl
        | some state =>
          simp only [hstate]
          exact hdone _ hlast rfl

theorem createReplacement_records (ctx : Context) {plan : RecreationPlan} (hplan : k.Planned plan)
    (result : RecreationResult) : M.obeys (recording call) (createReplacement ctx plan result) k
      fun k' out => Onward k k' ∧ (out.2 = none → out.1.id ∈ k'.made) := by
  refine Machine.obeys_request_bind.mpr ⟨⟨plan, hplan, rfl⟩, fun w reply w' _ _ => ?_⟩
  have hcreate := onward_docker call k
    ⟨w, .docker ctx (.create plan.config plan.hostConfig plan.networkConfig plan.name), reply⟩ trivial
  cases reply with
  | error err => exact ⟨hcreate, fun h => by cases h⟩
  | ok newID =>
    refine Machine.obeys_request_bind.mpr ⟨trivial, fun w reply w' _ _ => ?_⟩
    have hinspect := hcreate.trans
      (onward_docker call _ ⟨w, .docker ctx (.inspect newID), reply⟩ trivial)
    have hmade : newID ∈ (({ k with made := newID :: k.made } : Notes).after call
        ⟨w, .docker ctx (.inspect newID), reply⟩).made :=
      (onward_docker call _ ⟨w, .docker ctx (.inspect newID), reply⟩ trivial).made
        List.mem_cons_self
    cases reply with
    | error err => exact ⟨hinspect, fun h => by cases h⟩
    | ok created =>
      cases hvalid : validateRecreation plan created with
      | some err =>
        simp only [hvalid]
        cases err <;> exact ⟨hinspect, fun h => by cases h⟩
      | none =>
        simp only [hvalid]
        split
        · exact Machine.obeys_mono (startRecreated_records ctx hmade)
            fun k' out h => ⟨hinspect.trans h.1, fun _ => h.2⟩
        · exact ⟨hinspect, fun _ => hmade⟩

theorem Onward.planned {k k' : Notes} (h : Onward k k') {plan : RecreationPlan}
    (hplan : k.Planned plan) : k'.Planned plan := by
  obtain ⟨before, read, image, hstarted, hok⟩ := hplan
  exact ⟨before, read, image, h.started.trans hstarted, hok⟩

theorem recreate_records (ctx : Context) (oldID : String) {before : InspectResponse}
    {read : Except GoError ContainerRecord} (targetImage : String)
    (hk : k.started = some (before, read)) :
    M.obeys (recording call) (recreate ctx oldID before targetImage) k
      fun k' out => Onward k k' ∧ (out.2 = none → out.1.id ∈ k'.made) := by
  have hremove : ∀ {k} (plan : RecreationPlan), k.Planned plan →
      M.obeys (recording call) (removeOriginal ctx oldID plan) k
        fun k' out => Onward k k' ∧ (out.2 = none → out.1.id ∈ k'.made) := by
    intro k plan hplan
    refine Machine.obeys_request_bind.mpr ⟨trivial, fun w reply w' _ _ => ?_⟩
    have hremoved := onward_docker call k ⟨w, .docker ctx (.remove oldID true), reply⟩ trivial
    cases reply with
    | error err => exact ⟨hremoved, fun h => by cases h⟩
    | ok _ =>
      refine Machine.obeys_mono (createReplacement_records ctx (hremoved.planned hplan) _) ?_
      exact fun k' out h => ⟨hremoved.trans h.1, h.2⟩
  have hreplace : ∀ {k} (plan : RecreationPlan), k.Planned plan →
      M.obeys (recording call) (replaceOriginal ctx oldID plan) k
        fun k' out => Onward k k' ∧ (out.2 = none → out.1.id ∈ k'.made) := by
    intro k plan hplan
    unfold replaceOriginal
    split
    · exact createReplacement_records ctx hplan _
    split
    · refine Machine.obeys_request_bind.mpr ⟨trivial, fun w reply w' _ _ => ?_⟩
      have hstopped := onward_docker call k
        ⟨w, .docker ctx (.stop oldID defaultStopTimeout), reply⟩ trivial
      cases reply with
      | error err => exact ⟨hstopped, fun h => by cases h⟩
      | ok _ =>
        exact Machine.obeys_mono (hremove plan (hstopped.planned hplan))
          fun k' out h => ⟨hstopped.trans h.1, h.2⟩
    · exact hremove plan hplan
  unfold recreate
  split
  · exact ⟨.refl k, fun h => by cases h⟩
  next plan hok =>
  have hplan : k.Planned plan := ⟨before, read, targetImage, hk, hok⟩
  split
  · exact hreplace _ hplan
  · refine Machine.obeys_request_bind.mpr ⟨trivial, fun w reply w' _ _ => ?_⟩
    have hpulled := onward_docker call k ⟨w, .docker ctx (.pull targetImage), reply⟩ trivial
    cases reply with
    | error err => exact ⟨hpulled, fun h => by cases h⟩
    | ok _ =>
      exact Machine.obeys_mono (hreplace _ (hpulled.planned hplan))
        fun k' out h => ⟨hpulled.trans h.1, h.2⟩

/-! ### The error paths and the commits -/

theorem revert_records {ctx : Context} {op : FailedOperation} (liveID : String)
    {read : Except GoError ContainerRecord} (hid : op.originalID = call.containerID)
    (hname : op.name = trimSlash op.before.name) (hk : k.started = some (op.before, read)) :
    M.obeys (recording call) (revert ctx op liveID) k fun _ _ => True := by
  refine Machine.obeys_bind.mpr (Machine.obeys_mono (recreate_records ctx liveID _ hk) ?_)
  rintro k₁ ⟨result, revertErr⟩ ⟨honward, hmade⟩
  cases revertErr with
  | some err =>
    dsimp only
    split
    · trivial
    · exact ⟨trivial, fun _ _ _ _ _ => ⟨trivial, fun _ _ _ _ _ => trivial⟩⟩
  | none =>
    refine Machine.obeys_request_bind.mpr ⟨hid, fun w again w' _ _ => ?_⟩
    refine Machine.obeys_request_bind.mpr ⟨⟨hid, ?_⟩, fun w replaced w' _ _ => ?_⟩
    · exact .reverted (honward.started.trans hk) rfl hname rfl (hmade rfl) rfl
    · cases replaced with
      | error err => trivial
      | ok _ => exact ⟨trivial, fun _ _ _ _ _ => trivial⟩

theorem recover_records {ctx : Context} {op : FailedOperation} (result : RecreationResult)
    {read : Except GoError ContainerRecord} (hid : op.originalID = call.containerID)
    (hname : op.name = trimSlash op.before.name) (hk : k.started = some (op.before, read)) :
    M.obeys (recording call) (recover ctx op result) k fun _ _ => True := by
  unfold recover failBeforeRemoval
  split
  · split
    · refine Machine.obeys_request_bind.mpr ⟨trivial, fun w reply w' _ _ => ?_⟩
      cases reply with
      | error err => exact ⟨trivial, fun _ _ _ _ _ => trivial⟩
      | ok _ => trivial
    · trivial
  · exact revert_records _ hid hname hk

section Update

variable {req : UpdateRequest} {before : InspectResponse} {read : Except GoError ContainerRecord}
  {result : RecreationResult}

theorem revertUncommitted_records (err : GoError) (hk : k.started = some (before, read)) :
    M.obeys (recording (.update req)) (revertUncommitted req before result err) k
      fun _ _ => True := by
  refine Machine.obeys_request_bind.mpr ⟨trivial, fun w _ w' _ _ => ?_⟩
  exact revert_records _ rfl rfl ((start_keeps (by rw [hk]; rfl)).trans hk)

theorem commit_records (hk : k.started = some (before, read)) (hmade : result.id ∈ k.made) :
    let replacement := updatedRecord before (definedImageOf req.targetImage read) result
    (M.obeys (recording (.update req)) (commitProtected req before result replacement) k
      fun _ _ => True) ∧
    M.obeys (recording (.update req)) (commitStopped req before result replacement) k
      fun _ _ => True := by
  intro replacement
  constructor
  · refine Machine.obeys_request_bind.mpr ⟨id, fun w settings w' _ _ => ?_⟩
    cases settings with
    | error err => exact revertUncommitted_records err hk
    | ok settings =>
      refine Machine.obeys_request_bind.mpr ⟨trivial, fun w inspected w' _ _ => ?_⟩
      have hinspected := onward_docker (.update req) k
        ⟨w, .docker req.ctx (.inspect result.id), inspected⟩ trivial
      refine Machine.obeys_request_bind.mpr ⟨trivial, fun w₁ now w₁' _ _ => ?_⟩
      refine Machine.obeys_request_bind.mpr ⟨⟨rfl, ?_⟩, fun w committed w' _ _ => ?_⟩
      · exact .done (hinspected.started.trans hk) (hinspected.made hmade) rfl
      · cases committed with
        | error err => exact revertUncommitted_records err (hinspected.started.trans hk)
        | ok _ =>
          exact ⟨trivial, fun _ _ _ _ _ => ⟨trivial, fun _ _ _ _ _ => ⟨trivial, fun _ _ _ _ _ =>
            trivial⟩⟩⟩
  · refine Machine.obeys_request_bind.mpr ⟨⟨rfl, .done hk hmade rfl⟩, fun w committed w' _ _ => ?_⟩
    cases committed with
    | error err => exact revertUncommitted_records err hk
    | ok _ =>
      exact ⟨id, fun _ _ _ _ _ => ⟨trivial, fun _ _ _ _ _ => ⟨trivial, fun _ _ _ _ _ =>
        trivial⟩⟩⟩

theorem updateInspected_records (hbefore : k.before = some before) (hk : k.started = none) :
    M.obeys (recording (.update req)) (updateInspected req before) k fun _ _ => True := by
  refine Machine.obeys_request_bind.mpr ⟨rfl, fun w read w' _ _ => ?_⟩
  refine Machine.obeys_request_bind.mpr ⟨trivial, fun w₁ _ w₁' _ _ => ?_⟩
  have hstarted : (Notes.start { k with read := some read }).started = some (before, read) := by
    simp only [Notes.start, hk, hbefore]
  refine Machine.obeys_bind.mpr (Machine.obeys_mono (recreate_records _ _ _ hstarted) ?_)
  rintro k₁ ⟨result, err⟩ ⟨honward, hmade⟩
  have hk₁ := honward.started.trans hstarted
  cases err with
  | none =>
    dsimp only
    split
    · exact (commit_records hk₁ (hmade rfl)).1
    · exact (commit_records hk₁ (hmade rfl)).2
  | some err =>
    have hrecover : ∀ cause : GoError, M.obeys (recording (.update req)) (do
        Go.emit (updateEvent req before .error "update.failed"
          ("update failed for " ++ trimSlash before.name ++ ", reverting to previous image: " ++
            cause.message))
        recover req.ctx ⟨"update", req.containerID, before, trimSlash before.name, req.requester,
          cause⟩ result) k₁ fun _ _ => True := by
      intro cause
      refine Machine.obeys_request_bind.mpr ⟨trivial, fun w₂ _ w₂' _ _ => ?_⟩
      exact recover_records _ rfl rfl ((start_keeps (by rw [hk₁]; rfl)).trans hk₁)
    cases err with
    | nilDereference => trivial
    | _ => exact hrecover _

theorem withOperation_records (name kind : String) (actor : Actor) (actorID : String)
    {operation : Go (Option GoError)}
    (h : M.obeys (recording call) operation k fun _ _ => True) :
    M.obeys (recording call) (withOperation name kind actor actorID operation) k fun _ _ => True := by
  unfold withOperation beginOperation
  rw [Machine.obeys_bind]
  refine Machine.obeys_request_bind.mpr ⟨trivial, fun w current w' _ _ => ?_⟩
  cases current with
  | some current =>
    refine Machine.obeys_request_bind.mpr ⟨trivial, fun _ _ _ _ _ => ?_⟩
    split <;> trivial
  | none =>
    refine Machine.obeys_bind.mpr (Machine.obeys_mono h fun _ _ _ => ?_)
    exact ⟨trivial, fun _ _ _ _ _ => trivial⟩

theorem update_records (req : UpdateRequest) :
    M.obeys (recording (.update req)) (update req) {} fun _ _ => True := by
  refine Machine.obeys_request_bind.mpr ⟨rfl, fun w found w' _ _ => ?_⟩
  refine withOperation_records _ _ _ _ ?_
  refine Machine.obeys_request_bind.mpr ⟨trivial, fun w₁ inspected w₁' _ _ => ?_⟩
  cases inspected with
  | error err => trivial
  | ok before =>
    have hid : req.containerID = (OperationCall.update req).containerID := rfl
    rw [recording_inspect hid]
    dsimp only
    split
    · trivial
    · exact updateInspected_records rfl rfl

end Update

section Rollback

variable {req : RollbackRequest} {rec : ContainerRecord} {before : InspectResponse}
  {result : RecreationResult}

theorem commitRollback_records (hk : k.started = some (before, .ok rec))
    (hmade : result.id ∈ k.made) : M.obeys (recording (.rollback req))
      (commitRollback req rec before result) k fun _ _ => True := by
  refine Machine.obeys_request_bind.mpr ⟨⟨rfl, .done hk hmade rfl⟩, fun w committed w' _ _ => ?_⟩
  cases committed with
  | error err =>
    refine Machine.obeys_request_bind.mpr ⟨trivial, fun w₁ _ w₁' _ _ => ?_⟩
    have hisSome : k.started.isSome = true := by rw [hk]; rfl
    exact revert_records _ rfl rfl ((start_keeps hisSome).trans hk)
  | ok _ =>
    refine Machine.obeys_request_bind.mpr ⟨id, fun w₁ marked w₁' _ _ => ?_⟩
    cases marked with
    | error err =>
      exact ⟨trivial, fun _ _ _ _ _ => ⟨trivial, fun _ _ _ _ _ => ⟨trivial, fun _ _ _ _ _ =>
        trivial⟩⟩⟩
    | ok _ => exact ⟨trivial, fun _ _ _ _ _ => ⟨trivial, fun _ _ _ _ _ => trivial⟩⟩

theorem rollbackInspected_records (hbefore : k.before = some before)
    (hread : k.read = some (.ok rec)) (hk : k.started = none) :
    M.obeys (recording (.rollback req)) (rollbackInspected req rec before) k fun _ _ => True := by
  refine Machine.obeys_request_bind.mpr ⟨trivial, fun w _ w' _ _ => ?_⟩
  have hstarted : k.start.started = some (before, .ok rec) := by
    simp only [Notes.start, hk, hbefore, hread]
  refine Machine.obeys_bind.mpr (Machine.obeys_mono (recreate_records _ _ _ hstarted) ?_)
  rintro k₁ ⟨result, err⟩ ⟨honward, hmade⟩
  have hk₁ := honward.started.trans hstarted
  cases err with
  | none => exact commitRollback_records hk₁ (hmade rfl)
  | some err =>
    have hrecover : ∀ cause : GoError, M.obeys (recording (.rollback req)) (do
        Go.emit (rollbackEvent req rec (trimSlash before.name) .error (rollbackType req ++ ".failed")
          ("rollback failed for " ++ trimSlash before.name ++ ", reverting to current image: " ++
            cause.message))
        recover req.ctx ⟨rollbackType req, req.containerID, before, trimSlash before.name,
          req.requester, cause⟩ result) k₁ fun _ _ => True := by
      intro cause
      refine Machine.obeys_request_bind.mpr ⟨trivial, fun w₂ _ w₂' _ _ => ?_⟩
      exact recover_records _ rfl rfl ((start_keeps (by rw [hk₁]; rfl)).trans hk₁)
    cases err with
    | nilDereference => trivial
    | _ => exact hrecover _

/-- The wait of an automatic rollback ends with the snapshot it inspected last. -/
theorem awaitSettled_records (ctx : Context) {id : String} (deadline : Time) (turns : Nat)
    (hid : id = req.containerID) (hbefore : k.before = some before) :
    M.obeys (recording (.rollback req)) (awaitSettled ctx id deadline turns before) k fun k' settled =>
      k'.read = k.read ∧ k'.started = k.started ∧ ∀ after, settled = .ok after →
        k'.before = some after := by
  induction turns generalizing before k with
  | zero => exact ⟨rfl, rfl, fun after h => Except.ok.inj h ▸ hbefore⟩
  | succ turns ih =>
    unfold awaitSettled
    split
    · exact ⟨rfl, rfl, fun after h => Except.ok.inj h ▸ hbefore⟩
    refine Machine.obeys_request_bind.mpr ⟨trivial, fun _ _ _ _ _ => ?_⟩
    split
    · exact ⟨rfl, rfl, fun after h => Except.ok.inj h ▸ hbefore⟩
    refine Machine.obeys_request_bind.mpr ⟨trivial, fun _ _ _ _ _ => ?_⟩
    refine Machine.obeys_request_bind.mpr ⟨trivial, fun _ slept _ _ _ => ?_⟩
    cases slept with
    | some err => exact ⟨rfl, rfl, fun after h => by cases h⟩
    | none =>
      refine Machine.obeys_request_bind.mpr ⟨trivial, fun _ reply _ _ _ => ?_⟩
      cases reply with
      | error err => exact ⟨rfl, rfl, fun after h => by cases h⟩
      | ok info =>
        rw [recording_inspect hid]
        exact ih rfl

theorem rollback_records (req : RollbackRequest) :
    M.obeys (recording (.rollback req)) (rollback req) {} fun _ _ => True := by
  refine Machine.obeys_request_bind.mpr ⟨rfl, fun w found w' _ _ => ?_⟩
  cases found with
  | error err => trivial
  | ok rec =>
    dsimp only
    split
    · trivial
    refine withOperation_records _ _ _ _ ?_
    refine Machine.obeys_request_bind.mpr ⟨trivial, fun w₁ inspected w₁' _ _ => ?_⟩
    cases inspected with
    | error err => trivial
    | ok before =>
      have hid : req.containerID = (OperationCall.rollback req).containerID := rfl
      rw [recording_inspect hid]
      refine Machine.obeys_bind.mpr (Machine.obeys_mono
        (Q := fun k' settled => k'.read = some (.ok rec) ∧ k'.started = none ∧
          ∀ after, settled = .ok after → k'.before = some after) ?_ ?_)
      · unfold settledBefore
        split
        · refine Machine.obeys_request_bind.mpr ⟨trivial, fun _ _ _ _ _ => ?_⟩
          exact awaitSettled_records _ _ _ rfl rfl
        · exact ⟨rfl, rfl, fun after h => Except.ok.inj h ▸ rfl⟩
      · rintro k₁ settled ⟨hread, hstarted, hsettled⟩
        cases settled with
        | error err => trivial
        | ok before => exact rollbackInspected_records (hsettled before rfl) hread hstarted

end Rollback

theorem operation_records (call : OperationCall) :
    M.obeys (recording call) call.program {} fun _ _ => True := by
  cases call with
  | update req => exact update_records req
  | rollback req => exact rollback_records req

end Updater

/-! ### Other containers -/

/-- The statements an operation may issue. -/
theorem recording_quiet {call : OperationCall} {k : Notes} {op : Call}
    (h : (recording call).allowed k op) : ∀ ctx request, op = .store ctx request →
      ¬ request.Discovers := by
  rintro ctx request rfl
  cases request with
  | upsertSeen | pruneContainers | applyExclusions | repairCurrentImage => exact h
  | _ => exact id

/-- A commit an operation may make. -/
theorem recording_commit {call : OperationCall} {k : Notes} {w : World} {op : Call} {r : op.Reply}
    {oldID : String} {rec : ContainerRecord} (h : (recording call).allowed k op)
    (hcommit : committedBy ⟨w, op, r⟩ = some (oldID, rec)) :
    oldID = call.containerID ∧ Commits call k rec := by
  cases op with
  | store ctx request =>
    cases r with
    | error err => cases hcommit
    | ok result =>
      cases request with
      | replaceContainer | replaceContainerAndArmRollback | replaceContainerAndCompleteRollback =>
        obtain ⟨rfl, rfl⟩ := Prod.mk.inj (Option.some.inj hcommit)
        exact h
      | _ => cases hcommit
  | _ => cases hcommit

theorem Commits.made {call : OperationCall} {k : Notes} {rec : ContainerRecord}
    (h : Commits call k rec) : rec.id ∈ k.made := by
  cases h with
  | @done before read result _ hmade hrec =>
    cases call with
    | update req =>
      obtain rfl := Option.some.inj hrec
      exact hmade
    | rollback req =>
      cases read with
      | error err => cases hrec
      | ok old =>
        obtain rfl := Option.some.inj hrec
        exact hmade
  | @reverted _ _ again _ _ _ _ _ _ hmade hrec =>
    subst hrec
    cases again <;> exact hmade

theorem openSystem_rely {w w' : World} (h : openSystem.rely w w') :
    w'.store = w.store ∧ w'.engine.issued = w.engine.issued :=
  ⟨(World.Drifts.frame h).store, (World.Drifts.frame h).issued⟩

/-- The containers an operation created are new to Docker. -/
structure Fresh (old : List String) (w : World) (k : Notes) : Prop where
  grows : old ⊆ w.engine.issued
  made : ∀ id ∈ k.made, id ∈ w.engine.issued ∧ id ∉ old

theorem Fresh.call {old : List String} {w w' : World} {k : Notes} {call : OperationCall}
    {op : Call} {r : op.Reply} (h : Fresh old w k) (hstep : openSystem.step w op r w') :
    Fresh old w' (k.after call ⟨w, op, r⟩) where
  grows := List.Subset.trans h.grows (step_issued hstep)
  made id hid := by
    rcases Notes.after_made hid with hold | hnew
    · exact ⟨step_issued hstep (h.made id hold).1, (h.made id hold).2⟩
    · obtain ⟨hfresh, hissued⟩ := createdBy_fresh hstep hnew
      exact ⟨hissued, fun hmem => hfresh (h.grows hmem)⟩

/-- What an operation on one container keeps of another that Docker knew before. -/
structure Untouched (w : World) (id : String) (world : World) (k : Notes) (followed : String) :
    Prop where
  row : world.store.definedOf id = w.store.definedOf id
  fresh : Fresh w.engine.issued world k
  same : followed = id

theorem Untouched.call {call : OperationCall} {w world w' : World} {k : Notes} {id followed : String}
    {op : Call} {r : op.Reply} (hissued : id ∈ w.engine.issued) (hother : id ≠ call.containerID)
    (h : Untouched w id world k followed) (hallowed : (recording call).allowed k op)
    (hstep : openSystem.step world op r w') :
    Untouched w id w' (k.after call ⟨world, op, r⟩) (heir followed ⟨world, op, r⟩) := by
  have hrow := step_rows (recording_quiet hallowed) hstep id
  cases hcommit : committedBy ⟨world, op, r⟩ with
  | none =>
    rw [hcommit] at hrow
    refine ⟨hrow.trans h.row, h.fresh.call hstep, ?_⟩
    simpa only [heir, hcommit] using h.same
  | some commit =>
    obtain ⟨oldID, rec⟩ := commit
    obtain ⟨rfl, hcommits⟩ := recording_commit hallowed hcommit
    have hne : id ≠ rec.id := fun heq => (h.fresh.made rec.id hcommits.made).2 (heq ▸ hissued)
    have hkept : (world.store.replaceContainer call.containerID rec).definedOf id =
        world.store.definedOf id := by
      unfold Store.definedOf
      rw [Store.getContainer_replaceContainer, if_neg hne, if_neg fun h => hother h.1]
    rw [hcommit] at hrow
    refine ⟨hrow.trans (hkept.trans h.row), h.fresh.call hstep, ?_⟩
    simp only [heir, hcommit]
    rw [h.same, if_neg (Ne.symm hother)]

/-- An operation leaves the rows of the containers Docker knew before alone, its own apart. -/
theorem operation_other (call : OperationCall) {w w' : World} {trace : Trace Calls World}
    {out : Option GoError} (hrun : openSystem.Runs call.program w trace out w') {id : String}
    (hissued : id ∈ w.engine.issued) (hother : id ≠ call.containerID) :
    w'.store.definedOf id = w.store.definedOf id ∧ w.engine.issued ⊆ w'.engine.issued ∧
      trace.foldl heir id = id := by
  have halong : (recording call).Along (fun _ _ => True) {} trace := Contract.along_trivial _ _
  have hstart : Untouched w id w {} id :=
    ⟨rfl, ⟨List.Subset.refl _, fun id hid => absurd hid List.not_mem_nil⟩, rfl⟩
  have hrely : ∀ {w₁ w₂ k followed}, Untouched w id w₁ k followed → openSystem.rely w₁ w₂ →
      Untouched w id w₂ k followed := by
    intro w₁ w₂ k followed h hrely
    obtain ⟨hstore, hsame⟩ := openSystem_rely hrely
    exact ⟨by rw [hstore]; exact h.row,
      ⟨by rw [hsame]; exact h.fresh.grows, by rw [hsame]; exact h.fresh.made⟩, h.same⟩
  obtain ⟨h, -⟩ := Machine.obeys_invariant (o := heir) (J := Untouched w id) hrely
    (fun h hallowed hstep _ => ⟨trivial, h.call hissued hother hallowed hstep⟩)
    (operation_records call) hrun halong hstart
  exact ⟨h.row, h.fresh.grows, h.same⟩

end Doupro
