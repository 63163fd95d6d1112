import Doupro.Api.Pins
import Doupro.Api.UpdateRuns
import Doupro.Scheduler.Executors
import Doupro.Updater.Applied

/-!
# One-off schedules against the update button

A one-off schedule pins the digest of the reference its container runs from. Pressing Update goes
to the stored candidate. What the schedule applies later is what the button would have applied
exactly when both lead to the same content.
-/

namespace Doupro

open Interaction

/-! ### The registry -/

def EnvEvent.Publishes : EnvEvent → Prop
  | .publish _ _ => True
  | _ => False

/-- The host while no tag moves. -/
def restingHost : Machine Calls World := system fun _ event => ¬ event.Publishes

theorem Engine.exited_registry (e : Engine) (spec : ContainerSpec) (nano code : Int) :
    (e.exited spec nano code).registry = e.registry := by
  unfold Engine.exited
  dsimp only
  split <;> rfl

theorem EnvEvent.apply_registry {event : EnvEvent} (h : ¬ event.Publishes) (w : World) :
    (event.apply w).engine.registry = w.engine.registry := by
  cases event with
  | publish => exact absurd trivial h
  | exit id code policyRestarts =>
    simp only [apply]
    split
    · rfl
    · unfold Engine.processExits
      split
      · rfl
      · exact Engine.exited_registry _ _ _ _
  | restart id =>
    simp only [apply]
    split <;> rfl
  | _ => rfl

theorem Engine.perform_registry {e e' : Engine} {choice : DaemonChoice} {now : Time} {call : DockerCall}
    {result : call.Result} (h : e.perform choice now call = .ok (result, e')) :
    e'.registry = e.registry := by
  cases call with
  | list =>
    obtain ⟨-, rfl⟩ := Prod.mk.inj (Except.ok.inj h)
    rfl
  | inspect | pull | start =>
    simp only [Engine.perform] at h
    split at h
    · cases h
    · obtain ⟨-, rfl⟩ := Prod.mk.inj (Except.ok.inj h)
      rfl
  | stop id timeout =>
    simp only [Engine.perform] at h
    split at h
    · cases h
    · split at h
      · obtain ⟨-, rfl⟩ := Prod.mk.inj (Except.ok.inj h)
        exact e.exited_registry _ _ _
      · obtain ⟨-, rfl⟩ := Prod.mk.inj (Except.ok.inj h)
        rfl
  | remove id force =>
    simp only [Engine.perform] at h
    split at h
    · cases h
    · split at h
      · split at h
        · obtain ⟨-, rfl⟩ := Prod.mk.inj (Except.ok.inj h)
          exact e.exited_registry _ _ _
        · cases h
      · obtain ⟨-, rfl⟩ := Prod.mk.inj (Except.ok.inj h)
        rfl
  | create config hostConfig networks name =>
    simp only [Engine.perform] at h
    split at h
    · cases h
    · split at h
      · obtain ⟨-, rfl⟩ := Prod.mk.inj (Except.ok.inj h)
        rfl
      · cases h
  | rename id name =>
    simp only [Engine.perform] at h
    split at h
    · cases h
    · split at h
      · obtain ⟨-, rfl⟩ := Prod.mk.inj (Except.ok.inj h)
        rfl
      · cases h

/-- No call of the daemon moves a tag of a registry. -/
theorem step_registry {w w' : World} {call : Call} {reply : call.Reply}
    (h : openSystem.step w call reply w') : w'.engine.registry = w.engine.registry := by
  cases call with
  | docker ctx call =>
    rcases step_docker h with ⟨err, -, rfl⟩ | ⟨choice, result, engine, -, hperform, -, rfl⟩
    · rfl
    · exact Engine.perform_registry hperform
  | store => rcases step_store h with ⟨err, -, rfl⟩ | ⟨_, _, -, -, -, rfl⟩ <;> rfl
  | lookup => rw [step_lookup h]
  | beginOperation => rw [(step_beginOperation h).2]
  | endOperation => rw [step_endOperation h]
  | beginMaintenance =>
    rcases step_beginMaintenance h with ⟨⟨active, rfl⟩, rfl⟩ | ⟨rfl, -, -, rfl⟩ <;> rfl
  | endMaintenance => rw [step_endMaintenance h]
  | maintenanceActive => rw [(step_maintenanceActive h).2]
  | now => rw [(step_now h).2]
  | sleepUntil => rcases step_sleepUntil h with ⟨-, -, rfl⟩ | ⟨-, rfl⟩ <;> rfl
  | emit => rw [step_emit h]
  | notify => rw [step_notify h]
  | goRollback => rw [step_goRollback h]
  | goShutdown => rw [step_goShutdown h]
  | receive => rw [(step_receive h).1]

namespace Api

open Registry Go

variable {blobs : Blobs} {w w' : World}

/-- Tags move as they like; a reference by digest keeps its content. -/
def Blobs.Allows (blobs : Blobs) (_ : World) : EnvEvent → Prop
  | .publish imageRef image => blobs.Serves imageRef image
  | _ => True

/-- The host while tags move. -/
abbrev taggingHost (blobs : Blobs) : Machine Calls World := system blobs.Allows

theorem Blobs.KeptBy.of_registry {e e' : Engine} (h : blobs.KeptBy e) (hsame : e'.registry = e.registry) :
    blobs.KeptBy e' := by
  unfold Blobs.KeptBy
  rw [hsame]
  exact h

theorem Blobs.KeptBy.apply {event : EnvEvent} (h : blobs.KeptBy w.engine) (hevent : blobs.Allows w event) :
    blobs.KeptBy (event.apply w).engine := by
  cases event with
  | publish imageRef image =>
    intro other found hfound
    simp only [EnvEvent.apply, Function.update_apply] at hfound
    split at hfound
    · next hsame =>
      obtain rfl := Option.some.inj hfound
      exact hsame ▸ hevent
    · exact h other found hfound
  | _ => exact h.of_registry (EnvEvent.apply_registry (by simp [EnvEvent.Publishes]) w)

theorem Blobs.KeptBy.drifts (h : blobs.KeptBy w.engine) (hdrift : World.Drifts blobs.Allows w w') :
    blobs.KeptBy w'.engine := by
  induction hdrift with
  | refl => exact h
  | tail _ hstep ih =>
    obtain ⟨event, hevent, rfl⟩ := hstep
    exact ih.apply hevent

/-- Time passes, tags move and goroutines make their calls. -/
def World.Ages (blobs : Blobs) : World → World → Prop :=
  Relation.ReflTransGen fun w w' => (∃ event : EnvEvent, blobs.Allows w event ∧ w' = event.apply w) ∨
    ∃ call reply, openSystem.step w call reply w'

theorem Blobs.KeptBy.ages (h : blobs.KeptBy w.engine) (hages : World.Ages blobs w w') :
    blobs.KeptBy w'.engine := by
  induction hages with
  | refl => exact h
  | tail _ hstep ih =>
    rcases hstep with ⟨event, hevent, rfl⟩ | ⟨call, reply, hcall⟩
    · exact ih.apply hevent
    · exact ih.of_registry (step_registry hcall)

/-! ### What an update applies -/

/-- An update that went through may apply a content. -/
def Applies (M : Machine Calls World) : Event Services World → String → Prop
  | ⟨w, .update req, none⟩, image => ∃ trace w', M.Runs (Updater.update req) w trace none w' ∧
      Updater.applied trace = [image]
  | _, _ => False

/-- What a reference stands for at an instant. -/
def offered (e : Engine) (imageRef : String) : Option String :=
  if hasPrefix imageRef "sha256:" then some imageRef else e.registry imageRef

theorem Applies.inv {M : Machine Calls World} {e : Event Services World} {image : String}
    (h : Applies M e image) : ∃ req, e.op = .update req ∧ ∃ trace w',
      M.Runs (Updater.update req) e.world trace none w' ∧ Updater.applied trace = [image] := by
  unfold Applies at h
  split at h
  · exact ⟨_, rfl, h⟩
  · exact h.elim

/-- While no tag moves an update applies what its target stands for. -/
theorem applies_resting {e : Event Services World} {image : String} (h : Applies restingHost e image) :
    ∃ req, e.op = .update req ∧ offered e.world.engine req.targetImage = some image := by
  obtain ⟨req, hop, trace, w', hrun, happlied⟩ := h.inv
  refine ⟨req, hop, ?_⟩
  obtain ⟨found, hfound, hpulls⟩ := Updater.update_applies (system_hosts _) hrun
  obtain rfl : image = found := List.singleton_inj.mp (happlied.symm.trans hfound)
  unfold Updater.Pulls at hpulls
  unfold offered
  split at hpulls
  · rw [hpulls, if_pos ‹_›]
  · obtain ⟨pull, hmem, -, hregistry⟩ := hpulls
    have hsame : pull.world.engine.registry = e.world.engine.registry := by
      have hpath := Machine.path_events (M := restingHost) (P := fun _ => True) (R := fun _ _ => True)
        (I := fun w => w.engine.registry = e.world.engine.registry) (fun _ => trivial)
        (fun _ _ => trivial) ?_ ?_ (Machine.runs_path hrun) (fun _ _ => trivial) rfl
      · exact (hpath.2 pull hmem).1.1
      · intro w₁ w₂ hdrift
        refine ⟨trivial, fun hI => ?_⟩
        induction hdrift with
        | refl => exact hI
        | tail _ hstep ih =>
          obtain ⟨event, hevent, rfl⟩ := hstep
          exact (EnvEvent.apply_registry hevent _).trans ih
      · exact fun _ _ _ _ hstep => ⟨trivial, fun _ hI => (step_registry hstep).trans hI⟩
    rw [if_neg ‹_›, ← hsame]
    exact hregistry

/-- While tags move an update on a reference by digest applies what some registry serves under it. -/
theorem applies_tagging {e : Event Services World} {image : String}
    (h : Applies (taggingHost blobs) e image) (hkept : blobs.KeptBy e.world.engine) :
    ∃ req, e.op = .update req ∧ (hasPrefix req.targetImage "sha256:" = false →
      ∃ later : Engine, blobs.KeptBy later ∧ later.registry req.targetImage = some image) := by
  obtain ⟨req, hop, trace, w', hrun, happlied⟩ := h.inv
  refine ⟨req, hop, fun htagged => ?_⟩
  obtain ⟨found, hfound, hpulls⟩ := Updater.update_applies (system_hosts _) hrun
  obtain rfl : image = found := List.singleton_inj.mp (happlied.symm.trans hfound)
  unfold Updater.Pulls at hpulls
  rw [htagged, if_neg Bool.false_ne_true] at hpulls
  obtain ⟨pull, hmem, -, hregistry⟩ := hpulls
  have hpath := Machine.path_events (M := taggingHost blobs) (P := fun _ => True) (R := fun _ _ => True)
    (I := fun w => blobs.KeptBy w.engine) (fun _ => trivial) (fun _ _ => trivial)
    (fun _ _ hdrift => ⟨trivial, fun hI => hI.drifts hdrift⟩)
    (fun _ _ _ _ hstep => ⟨trivial, fun _ hI => hI.of_registry (step_registry hstep)⟩)
    (Machine.runs_path hrun) (fun _ _ => trivial) hkept
  exact ⟨_, (hpath.2 pull hmem).1.1, hregistry⟩

/-! ### What a creation pins -/

/-- A schedule made right after a digest was resolved pins that digest. -/
def pinning : Contract Calls World (Option (Registry.Ref × String)) where
  allowed k call := match call with
    | .store _ (.createSchedule sc) => ∀ ref digest, k = some (ref, digest) → sc.kind = .once ∧
      ∃ image, parseRef image = ref ∧ sc.pinnedImage = pinned image digest
    | _ => True
  expects _ _ := True
  next _ e := match e with
    | ⟨_, .lookup _ (.digest ref), .ok digest⟩ => some (ref, digest)
    | _ => none

variable {M : Machine Calls World} {ctx : Context}

theorem pinImage_pins (image : String) :
    M.obeys pinning (pinImage ctx image) none fun k p => ∀ ref digest, k = some (ref, digest) →
      parseRef image = ref ∧ p = pinned image digest := by
  unfold pinImage
  split
  · exact fun _ _ h => by cases h
  · refine ⟨trivial, fun w reply w' _ _ => ?_⟩
    cases reply with
    | error err => exact fun _ _ h => by cases h
    | ok digest =>
      rintro ref found h
      obtain ⟨rfl, rfl⟩ := Prod.mk.inj (Option.some.inj h)
      exact ⟨rfl, rfl⟩

theorem createMembers_pins (stack : String) (notify : Bool) (runAt : Time)
    (rows : List ContainerRecord) (made : List Schedule) :
    M.obeys pinning (createMembers ctx stack notify runAt rows made) none fun _ _ => True := by
  induction rows generalizing made with
  | nil => trivial
  | cons rec rest ih =>
    unfold createMembers
    split
    · exact ih made
    · refine Machine.obeys_bind.mpr (Machine.obeys_mono (pinImage_pins rec.currentImage) ?_)
      intro k p hp
      refine ⟨fun ref digest hk => ⟨rfl, rec.currentImage, hp ref digest hk⟩, fun w reply w' _ _ => ?_⟩
      cases reply with
      | error err => trivial
      | ok id => exact ih _

theorem insertSchedule_pins {k : Option (Registry.Ref × String)} {sc : Schedule}
    (h : ∀ ref digest, k = some (ref, digest) → sc.kind = .once ∧
      ∃ image, parseRef image = ref ∧ sc.pinnedImage = pinned image digest) :
    M.obeys pinning (insertSchedule ctx sc) k fun _ _ => True := by
  refine ⟨h, fun w reply w' _ _ => ?_⟩
  cases reply with
  | error err => trivial
  | ok id =>
    dsimp only
    split
    · exact ⟨trivial, fun _ _ _ _ _ => trivial⟩
    · trivial

/-- A call that resolves no digest and makes no schedule. -/
def Unresolving : Call → Prop
  | .lookup _ (.digest _) | .store _ (.createSchedule _) => False
  | _ => True

theorem unresolving_pins {α : Type} {p : Go α} (hp : p.Uses Unresolving) :
    M.obeys pinning p none fun k _ => k = none := by
  refine Machine.obeys_of_uses_at (P := Unresolving) ?_ ?_ hp
  · intro call hcall
    cases call with
    | store ctx call => cases call <;> trivial
    | _ => trivial
  · rintro ⟨w, call, reply⟩ hcall
    cases call with
    | lookup ctx question => cases question <;> first | rfl | exact hcall.elim
    | _ => rfl

theorem unresolving_of_reads {call : Call} (h : Scheduler.Reads call) : Unresolving call := by
  unfold Scheduler.Reads at h
  unfold Unresolving
  split at h <;> trivial

theorem parseRunAt_pins (parsers : Parsers) (req : ScheduleRequest) :
    M.obeys pinning (parseRunAt parsers req) none fun k _ => k = none := by
  apply unresolving_pins
  unfold parseRunAt
  split
  · trivial
  · split
    · trivial
    · refine Program.uses_request_bind (S := Calls) trivial fun instant => ?_
      exact Program.uses_ite trivial trivial

theorem createOnce_pins (parsers : Parsers) (req : ScheduleRequest) (notify : Bool) :
    M.obeys pinning (createOnce parsers ctx req notify) none fun _ _ => True := by
  refine Machine.obeys_bind.mpr (Machine.obeys_mono (parseRunAt_pins parsers req) ?_)
  rintro k runAt rfl
  cases runAt with
  | error answer => trivial
  | ok runAt =>
    dsimp only
    split
    · refine ⟨trivial, fun w containers w' _ _ => ?_⟩
      cases containers with
      | error err => trivial
      | ok containers =>
        change M.obeys pinning (createMembers ctx req.stack notify runAt containers [] >>= _) none _
        refine Machine.obeys_bind.mpr (Machine.obeys_mono
          (createMembers_pins req.stack notify runAt containers []) ?_)
        intro k made _
        cases made with
        | error answer => trivial
        | ok made =>
          dsimp only
          split
          · trivial
          · split
            · exact ⟨trivial, fun _ _ _ _ _ => trivial⟩
            · trivial
    · have hpins : M.obeys pinning (onceSchedule ctx req notify runAt) none fun k made =>
          ∀ sc, made = .ok sc → ∀ ref digest, k = some (ref, digest) → sc.kind = .once ∧
            ∃ image, parseRef image = ref ∧ sc.pinnedImage = pinned image digest := by
        refine Machine.obeys_bind.mpr (Machine.obeys_mono (unresolving_pins (Program.uses_mono
          (fun _ => unresolving_of_reads) (Scheduler.getContainerByName_reads ctx req.container))) ?_)
        rintro k found rfl
        cases found with
        | error err => exact fun _ h => by cases h
        | ok rec =>
          refine Machine.obeys_bind.mpr (Machine.obeys_mono (pinImage_pins rec.currentImage) ?_)
          rintro k p hp sc hsc ref digest hk
          obtain rfl := Except.ok.inj hsc
          exact ⟨rfl, rec.currentImage, hp ref digest hk⟩
      refine Machine.obeys_bind.mpr (Machine.obeys_mono hpins ?_)
      intro k made hmade
      cases made with
      | error answer => trivial
      | ok sc => exact insertSchedule_pins (hmade sc rfl)

theorem handleCreateSchedule_pins (parsers : Parsers) (body : Option ScheduleRequest) :
    M.obeys pinning (handleCreateSchedule parsers ctx body) none fun _ _ => True := by
  cases body with
  | none => trivial
  | some req =>
    unfold handleCreateSchedule
    dsimp only
    split
    · trivial
    split
    · exact createOnce_pins parsers req _
    split
    · have hrow : M.obeys pinning (cronSchedule parsers req (req.notify.getD true)) none
          fun k _ => k = none := by
        apply unresolving_pins
        unfold cronSchedule
        split
        · trivial
        · split
          · trivial
          · exact Program.uses_request_bind (S := Calls) trivial fun instant => trivial
      refine Machine.obeys_bind.mpr (Machine.obeys_mono hrow ?_)
      rintro k made rfl
      cases made with
      | error answer => trivial
      | ok sc => exact insertSchedule_pins fun _ _ h => by cases h
    split
    · cases relativeSchedule req (req.notify.getD true) with
      | error answer => trivial
      | ok sc => exact insertSchedule_pins fun _ _ h => by cases h
    · trivial

/-! ### The row of a schedule -/

/-- The row of a schedule, if it is still there, is of the kind, the container and the pin it was
made with. -/
structure MadeAs (s : Store) (id : Nat) (sc : Schedule) : Prop where
  issued : id ≤ s.scheduleSeq
  rows : ∀ row ∈ s.schedules, row.id = id →
    row.kind = sc.kind ∧ row.containerName = sc.containerName ∧ row.pinnedImage = sc.pinnedImage

theorem MadeAs.update {s : Store} {id : Nat} {sc : Schedule} (h : MadeAs s id sc) (other : Nat)
    {f : Schedule → Schedule} (hid : ∀ row, (f row).id = row.id) (hkind : ∀ row, (f row).kind = row.kind)
    (hname : ∀ row, (f row).containerName = row.containerName)
    (hpin : ∀ row, (f row).pinnedImage = row.pinnedImage) : MadeAs (s.updateSchedule other f) id sc where
  issued := h.issued
  rows row hrow hsame := by
    obtain ⟨old, hold, rfl⟩ := Table.mem_updateWhere.mp hrow
    by_cases hother : old.id = other
    · simp only [hother, decide_true, if_true] at hsame ⊢
      rw [hkind, hname, hpin]
      exact h.rows old hold ((hid old).symm.trans hsame)
    · simp only [hother, decide_false, Bool.false_eq_true, if_false] at hsame ⊢
      exact h.rows old hold hsame

/-- A new row leaves the others as they were. -/
theorem MadeAs.create {s : Store} {id : Nat} {sc : Schedule} (h : MadeAs s id sc) (other : Schedule) :
    MadeAs (s.createSchedule other) id sc where
  issued := h.issued.trans s.scheduleSeq_lt.le
  rows row hrow hsame := by
    rcases List.mem_append.mp hrow with hold | hnew
    · exact h.rows row hold hsame
    · obtain rfl := List.mem_singleton.mp hnew
      have hlt := h.issued.trans_lt s.scheduleSeq_lt
      exact absurd hsame hlt.ne'

theorem MadeAs.delete {s : Store} {id : Nat} {sc : Schedule} (h : MadeAs s id sc) (other : Nat) :
    MadeAs (s.deleteSchedule other) id sc where
  issued := h.issued
  rows row hrow := h.rows row (Table.mem_deleteWhere.mp hrow).1

/-- The row a creation leaves. -/
theorem madeAs_createSchedule (s : Store) (sc : Schedule) :
    MadeAs (s.createSchedule sc) s.nextScheduleID sc where
  issued := le_refl _
  rows row hrow hsame := by
    rcases List.mem_append.mp hrow with hold | hnew
    · exact absurd hsame (s.id_lt_nextScheduleID hold).ne
    · obtain rfl := List.mem_singleton.mp hnew
      exact ⟨rfl, rfl, rfl⟩

/-- Every statement leaves a row as it was made, up to its runs and its switch. -/
theorem MadeAs.perform {s s' : Store} {id : Nat} {sc : Schedule} {now : Time} {call : StoreCall}
    {result : call.Result} (h : MadeAs s id sc) (hperform : s.perform now call = .ok (result, s')) :
    MadeAs s' id sc := by
  by_cases hedits : call.EditsSchedules
  · cases call with
    | markScheduleRun other next =>
      obtain ⟨-, rfl⟩ := Prod.mk.inj (Except.ok.inj hperform)
      exact h.update other (fun _ => rfl) (fun _ => rfl) (fun _ => rfl) fun _ => rfl
    | touchScheduleLastRun other =>
      obtain ⟨-, rfl⟩ := Prod.mk.inj (Except.ok.inj hperform)
      exact h.update other (fun _ => rfl) (fun _ => rfl) (fun _ => rfl) fun _ => rfl
    | createSchedule other =>
      obtain ⟨-, rfl⟩ := Prod.mk.inj (Except.ok.inj hperform)
      exact h.create other
    | setScheduleEnabled other enabled =>
      obtain rfl := Store.perform_setScheduleEnabled hperform
      exact h.update other (fun _ => rfl) (fun _ => rfl) (fun _ => rfl) fun _ => rfl
    | deleteSchedule other =>
      obtain rfl := Store.perform_deleteSchedule hperform
      exact h.delete other
    | _ => exact hedits.elim
  · obtain ⟨hrows, hseq⟩ := Store.perform_scheduleTable hedits hperform
    exact ⟨hseq ▸ h.issued, hrows ▸ h.rows⟩

theorem MadeAs.ages {scheduleID : Nat} {sc : Schedule} (h : MadeAs w.store scheduleID sc)
    (hages : World.Ages blobs w w') : MadeAs w'.store scheduleID sc := by
  induction hages with
  | refl => exact h
  | @tail w₁ w₂ _ hstep ih =>
    rcases hstep with ⟨event, -, rfl⟩ | ⟨call, reply, hcall⟩
    · rw [(EnvEvent.apply_frame _ event).store]
      exact ih
    · cases call with
      | store ctx call =>
        rcases step_store hcall with ⟨err, -, rfl⟩ | ⟨result, store, -, hperform, -, rfl⟩
        · exact ih
        · exact ih.perform hperform
      | _ =>
        rw [step_unstored (by simp) hcall]
        exact ih

/-! ### The schedule and the button -/

/-- A one-off schedule was made for a container right after the digest of its reference was
resolved. `resolved` is the world of that moment, `made` the one in which the row is stored. -/
def SchedulesPinned (blobs : Blobs) (resolved made : World) (row : ContainerRecord) (digest : String)
    (scheduleID : Nat) : Prop :=
  ∃ parsers ctx ctx' body start trace answer final before after w₁ sc,
    start.store.UniqueIDs ∧ blobs.KeptBy start.engine ∧
    (taggingHost blobs).Runs (handleCreateSchedule parsers ctx body) start trace answer final ∧
    trace = before ++ ⟨resolved, .lookup ctx (.digest (parseRef row.currentImage)), .ok digest⟩ ::
      ⟨w₁, .store ctx' (.createSchedule sc), .ok scheduleID⟩ :: after ∧
    Table.lookup ContainerRecord.name sc.containerName resolved.store.containers = some row ∧
    made = { w₁ with store := w₁.store.createSchedule sc }

/-- Later a tick finds the row of a schedule and executes it, and an update of the execution
applies a content. -/
def AppliesLater (blobs : Blobs) (made : World) (scheduleID : Nat) (image : String) : Prop :=
  ∃ listed sc start ctx trace done final e, World.Ages blobs made listed ∧
    sc ∈ listed.store.schedules ∧ sc.id = scheduleID ∧ World.Ages blobs listed start ∧
    ((taggingHost blobs).layered Service.run).Runs (Scheduler.executeOnce ctx sc) start trace done final ∧
    e ∈ trace ∧ Applies (taggingHost blobs) e image

/-- Pressing Update at the default scope while no tag moves applies a content. The stored candidate,
if there is one, can be read. -/
def PressApplies (pressed : World) (name image : String) : Prop :=
  ∃ updater ctx opCtx actorID trace answer final e,
    (restingHost.layered Service.run).Runs (handleUpdateContainer updater ctx opCtx name "" actorID)
      pressed trace answer final ∧
    (∀ e ∈ trace, ¬ CandidateUnread e) ∧ e ∈ trace ∧ Applies restingHost e image

/-- The execution of a pinned schedule asks for its pin. -/
theorem executeOnce_targets {ctx : Context} {sc : Schedule} (h : sc.pinnedImage ≠ "") :
    (Scheduler.executeOnce ctx sc).Uses fun service : Service => ∀ req, service = .update req →
      req.targetImage = sc.pinnedImage := by
  have hgo : ∀ {α : Type} (p : Go α), (Daemon.ofGo p).Uses fun service : Service =>
      ∀ req, service = .update req → req.targetImage = sc.pinnedImage := by
    intro α p
    refine Daemon.uses_ofGo (Program.uses_of_forall (fun call req hreq => ?_) p)
    cases hreq
  refine Program.uses_bind (hgo _) fun found => ?_
  cases found with
  | error err => exact Program.uses_bind (hgo _) fun _ => Program.uses_bind (hgo _) fun _ => trivial
  | ok rec =>
    refine Program.uses_request_bind (S := Services) ?_ fun err => ?_
    · intro req hreq
      obtain rfl := Service.update.inj hreq
      exact if_neg h
    · split
      · trivial
      · split
        · trivial
        · exact Program.uses_bind (hgo _) fun _ => Program.uses_bind (hgo _) fun _ => trivial

/-- What the creation of a pinned schedule leaves: the row with its pin, under a reference that
reads as the one that was resolved. -/
theorem SchedulesPinned.row {resolved made : World} {row : ContainerRecord} {digest : String}
    {scheduleID : Nat} (h : SchedulesPinned blobs resolved made row digest scheduleID) :
    ∃ sc written, parseRef written = parseRef row.currentImage ∧ sc.kind = .once ∧
      sc.pinnedImage = pinned written digest ∧ MadeAs made.store scheduleID sc ∧
      blobs.KeptBy made.engine ∧ resolved.store.UniqueIDs := by
  obtain ⟨parsers, ctx, ctx', body, start, trace, answer, final, before, after, w₁, sc, hunique, hkept,
    hrun, rfl, -, rfl⟩ := h
  have hresp := Machine.respected_of_obeys (handleCreateSchedule_pins parsers body)
    (Machine.runs_admits hrun)
  rw [List.append_cons] at hresp
  obtain ⟨hkind, written, hsame, hpin⟩ : sc.kind = .once ∧ ∃ image, parseRef image =
      parseRef row.currentImage ∧ sc.pinnedImage = pinned image digest := by
    refine Contract.respected_append hresp (Contract.expected_of_forall (fun _ _ _ => trivial) none) _ _ ?_
    unfold Contract.learned
    rw [List.foldl_append]
    rfl
  have hevents := (Machine.path_events (M := taggingHost blobs) (P := fun _ => True) (R := fun _ _ => True)
    (I := fun w => blobs.KeptBy w.engine ∧ w.store.UniqueIDs) (fun _ => trivial) (fun _ _ => trivial)
    (fun _ _ hdrift => ⟨trivial, fun hI => ⟨hI.1.drifts hdrift, hdrift.frame.store ▸ hI.2⟩⟩)
    (fun _ _ _ _ hstep => ⟨trivial, fun _ hI =>
      ⟨hI.1.of_registry (step_registry hstep), step_uniqueIDs hstep hI.2⟩⟩)
    (Machine.runs_path hrun) (fun _ _ => trivial) ⟨hkept, hunique⟩).2
  obtain ⟨⟨⟨-, hresolved⟩, -⟩, -⟩ := hevents
    ⟨resolved, .lookup ctx (.digest (parseRef row.currentImage)), .ok digest⟩ (by simp)
  obtain ⟨⟨⟨hkept₁, -⟩, -⟩, w₂, hcreate⟩ := hevents
    ⟨w₁, .store ctx' (.createSchedule sc), .ok scheduleID⟩ (by simp)
  have hid : scheduleID = w₁.store.nextScheduleID := by
    rcases step_store hcreate with ⟨err, herr, -⟩ | ⟨result, store, -, hperform, hok, -⟩
    · cases herr
    · rw [Except.ok.inj hok]
      exact (Prod.mk.inj (Except.ok.inj hperform)).1.symm
  refine ⟨sc, written, hsame, hkind, hpin, ?_, hkept₁, hresolved⟩
  rw [hid]
  exact madeAs_createSchedule _ _

/-- What a schedule that pinned a digest applies is what was kept under the digest. -/
theorem SchedulesPinned.applies {resolved made : World} {row : ContainerRecord} {digest content : String}
    {scheduleID : Nat} (h : SchedulesPinned blobs resolved made row digest scheduleID)
    (hresolved : Resolved blobs resolved.engine row.currentImage digest content) {image : String}
    (hlater : AppliesLater blobs made scheduleID image) : image = content := by
  obtain ⟨sc, written, hsame, -, hpin, hmade, hkept, -⟩ := h.row
  obtain ⟨listed, found, start, ctx, trace, done, final, e, hlisted, hmem, hid, hstart, hrun, he,
    happlies⟩ := hlater
  have hrow := (hmade.ages hlisted).rows found hmem hid
  have htagged := hresolved.pinned_tagged hsame
  have hpinned : found.pinnedImage ≠ "" := by
    rw [hrow.2.2, hpin]
    intro hempty
    have hlength := congrArg (fun s : String => s.toList.length) hempty
    unfold pinned at hlength
    simp at hlength
  have hstarted : blobs.KeptBy start.engine := (hkept.ages hlisted).ages hstart
  have hmet : blobs.KeptBy e.world.engine :=
    (Machine.layered_invariant (M := taggingHost blobs) (I := fun w => blobs.KeptBy w.engine)
      (fun _ _ hI hdrift => hI.drifts hdrift)
      (fun _ _ _ _ hI hstep => hI.of_registry (step_registry hstep)) hrun hstarted).2 e he
  obtain ⟨req, hop, hserves⟩ := applies_tagging happlies hmet
  have htarget : req.targetImage = pinned written digest := by
    rw [Machine.runs_uses (executeOnce_targets hpinned) hrun e he req hop, hrow.2.2, hpin]
  rw [htarget] at hserves
  obtain ⟨later, hlater, hfound⟩ := hserves htagged
  exact hresolved.pinned_content hsame hlater hfound

/-- What the button applies is what its target stands for when it is pressed. -/
theorem pressApplies_offered {pressed : World} {row : ContainerRecord} {image : String}
    (hunique : pressed.store.UniqueIDs)
    (hrow : Table.lookup ContainerRecord.name row.name pressed.store.containers = some row)
    (h : PressApplies pressed row.name image) :
    ∃ target, MayTarget pressed.store row target ∧
      (∀ candidate, pressed.store.getUpdateCandidate row.id "major" = some candidate →
        target = candidate.image) ∧
      offered pressed.engine target = some image := by
  obtain ⟨updater, ctx, opCtx, actorID, trace, answer, final, e, hrun, hread, he, happlies⟩ := h
  obtain ⟨req, hop, hoffered⟩ := applies_resting happlies
  have hresting : e.world.engine.registry = pressed.engine.registry := by
    refine (Machine.layered_invariant (M := restingHost)
      (I := fun w => w.engine.registry = pressed.engine.registry) (fun w w' hI hdrift => ?_)
      (fun _ _ _ _ hI hstep => (step_registry hstep).trans hI) hrun rfl).2 e he
    induction hdrift with
    | refl => exact hI
    | tail _ hstep ih =>
      obtain ⟨event, hevent, rfl⟩ := hstep
      exact (EnvEvent.apply_registry hevent _).trans ih
  have hasked : req ∈ asked trace := by
    refine List.mem_filterMap.mpr ⟨e, he, ?_⟩
    rw [hop]
  rcases handleUpdateContainer_runs hunique hrun with hnone | ⟨found, target, met, looks, update, result,
    hfound, hmay, htargets, hlooks, -, hupdate, rfl, -⟩
  · rw [hnone] at hasked
    cases hasked
  · obtain rfl : found = row := Option.some.inj (hfound.symm.trans hrow)
    rw [asked_append, hlooks, asked_updateAlone hupdate, List.nil_append, List.mem_singleton] at hasked
    subst hasked
    refine ⟨target, hmay, htargets fun e he => hread e (List.mem_append_left _ he), ?_⟩
    unfold offered at hoffered ⊢
    rwa [hresting] at hoffered

/-- A one-off schedule applies what the button would have applied exactly when the stored candidate,
if there is one, stood for what the reference stood for. -/
theorem schedule_agrees {resolved made : World} {row : ContainerRecord} {digest content : String}
    {scheduleID : Nat} (hschedule : SchedulesPinned blobs resolved made row digest scheduleID)
    (hresolved : Resolved blobs resolved.engine row.currentImage digest content)
    {scheduled pressed : String} (hlater : AppliesLater blobs made scheduleID scheduled)
    (hpress : PressApplies resolved row.name pressed) :
    scheduled = pressed ↔ ∀ candidate, resolved.store.getUpdateCandidate row.id "major" = some candidate →
      offered resolved.engine candidate.image = offered resolved.engine row.currentImage := by
  have hunique : resolved.store.UniqueIDs := by
    obtain ⟨_, _, -, -, -, -, -, hunique⟩ := hschedule.row
    exact hunique
  have hrow : Table.lookup ContainerRecord.name row.name resolved.store.containers = some row := by
    obtain ⟨_, _, _, _, _, _, _, _, _, _, _, sc, -, -, -, -, hrow, -⟩ := hschedule
    rwa [Table.lookup_key hrow]
  have hcurrent : offered resolved.engine row.currentImage = some content := by
    unfold offered
    rw [hresolved.tagged, if_neg Bool.false_ne_true]
    exact hresolved.published
  obtain rfl := hschedule.applies hresolved hlater
  obtain ⟨target, hmay, htarget, hoffered⟩ := pressApplies_offered hunique hrow hpress
  rw [hcurrent]
  constructor
  · rintro rfl candidate hcandidate
    rw [← htarget candidate hcandidate]
    exact hoffered
  · intro hsame
    rcases hmay with rfl | ⟨candidate, hcandidate, rfl⟩
    · exact Option.some.inj (hcurrent.symm.trans hoffered)
    · exact Option.some.inj ((hsame candidate hcandidate).symm.trans hoffered)

/-! ### A schedule made while a newer version is on record -/

/-- The parsers on the texts of one request. -/
def oneHourOn : Parsers where
  rfc3339 text := if text = "1970-01-01T01:00:00Z" then some (60 * minute) else none
  cron _ := .error "empty spec string"

/-- The registry has what is under `web:1` under its digest as well. -/
def digestWorld (candidates : List UpdateCandidate) : World where
  engine := Engine.ofContainer webSpec { status := .running } [("web:1", "sha256:0")]
    [("web:1", "sha256:0"), ("web:2", "sha256:2"), ("web@sha256:d0", "sha256:0")]
  store := { containers := [webRecord], candidates := candidates }

/-- The repository of `web` keeps one digest. -/
def webBlobs : Blobs := fun _ _ digest => if digest = "sha256:d0" then some "sha256:0" else none

def creationRun (candidates : List UpdateCandidate) : Played Answer :=
  (handleCreateSchedule oneHourOn .background (some
    { type := "once", container := "web", runAt := "1970-01-01T01:00:00Z" })).play
    (digestWorld candidates) fun _ =>
      { choice := { answers := fun question => match question with
          | .digest _ => .ok "sha256:d0"
          | _ => .error (.external "unavailable") } }

/-- The row that the creation makes, as the tick lists it. -/
def pinnedRow : Schedule :=
  { memberSchedule true (60 * minute) webRecord "web@sha256:d0" with
    id := 1
    semverPolicy := "major" }

/-- After the creation the tag moves. -/
def movedWorld (candidates : List UpdateCandidate) : World :=
  (EnvEvent.publish "web:1" "sha256:5").apply (creationRun candidates).world

def executionRun (candidates : List UpdateCandidate) : Trace Services World × Option Unit × World :=
  (Scheduler.executeOnce .background pinnedRow).play (movedWorld candidates) fun _ _ => .creating "c1"

def pressRun (candidates : List UpdateCandidate) : Trace Services World × Option Answer × World :=
  (handleUpdateContainer {} .background .background "web" "" "user").play (digestWorld candidates)
    fun _ _ => .creating "c1"

theorem webBlobs_serves {imageRef image : String} (h : '@' ∉ imageRef.toList) :
    webBlobs.Serves imageRef image := by
  rintro name digest - rfl
  exact absurd (by simp) h

theorem webBlobs_keptBy (candidates : List UpdateCandidate) :
    webBlobs.KeptBy (digestWorld candidates).engine := by
  intro imageRef image hfound
  have hmem := Table.mem_of_lookup hfound
  simp only [List.mem_cons, Prod.mk.injEq, List.not_mem_nil, or_false] at hmem
  rcases hmem with ⟨rfl, rfl⟩ | ⟨rfl, rfl⟩ | ⟨rfl, rfl⟩
  · exact webBlobs_serves (by decide)
  · exact webBlobs_serves (by decide)
  · intro name digest hplain hsplit
    have hcut : Text.cutLast '@' (name ++ "@" ++ digest).toList = some (name.toList, digest.toList) := by
      rw [String.toList_append, String.toList_append, List.append_assoc]
      exact cutLast_append hplain
    rw [← hsplit] at hcut
    have hdigest : digest = "sha256:d0" := by
      apply String.toList_inj.mp
      exact (Prod.mk.inj (Option.some.inj hcut)).2.symm
    rw [hdigest]
    rfl

theorem resolved_web (candidates : List UpdateCandidate) :
    Resolved webBlobs (digestWorld candidates).engine "web:1" "sha256:d0" "sha256:0" where
  host := by decide
  repository := by decide
  digest_plain := by decide
  tagged := by decide
  published := rfl
  kept := rfl

attribute [local semireducible] isDigestReference in
theorem schedulesPinned_web (candidates : List UpdateCandidate) :
    SchedulesPinned webBlobs (digestWorld candidates) (creationRun candidates).world webRecord
      "sha256:d0" 1 := by
  refine ⟨oneHourOn, .background, .background, _, digestWorld candidates, (creationRun candidates).trace,
    _, _, (creationRun candidates).trace.take 3, (creationRun candidates).trace.drop 5,
    digestWorld candidates, { pinnedRow with id := 0 }, List.nodup_singleton _, webBlobs_keptBy candidates,
    Go.play_runs_in _ _ (by simp), ?_, rfl, ?_⟩
  · rfl
  · rfl

/-- What an update applies that nothing disturbs. -/
def undisturbed : Event Services World → Option String
  | ⟨w, .update req, none⟩ =>
    let run := Go.play (Updater.update req) w fun _ => .creating "c1"
    match run.value, Updater.applied run.trace with
    | none, [image] => some image
    | _, _ => none
  | _ => none

theorem applies_undisturbed {allows : World → EnvEvent → Prop} {e : Event Services World} {image : String}
    (h : undisturbed e = some image) : Applies (system allows) e image := by
  unfold undisturbed at h
  split at h
  · next w req =>
    dsimp only at h
    split at h
    · next hvalue happlied =>
      obtain rfl := Option.some.inj h
      have hturns : ∀ n, ∀ event ∈ ((fun _ => .creating "c1" : Nat → Turn) n).events, ∀ w,
          allows w event := by simp [Turn.creating]
      have hrun := Go.play_runs_in (Updater.update req) w hturns
      rw [hvalue] at hrun
      exact ⟨_, _, hrun, happlied⟩
    · cases h
  · cases h

theorem exists_applies {allows : World → EnvEvent → Prop} {trace : Trace Services World} {image : String}
    (h : trace.filterMap undisturbed = [image]) : ∃ e ∈ trace, Applies (system allows) e image := by
  have hmem : image ∈ trace.filterMap undisturbed := by
    rw [h]
    exact List.mem_singleton_self image
  obtain ⟨e, he, hplayed⟩ := List.mem_filterMap.mp hmem
  exact ⟨e, he, applies_undisturbed hplayed⟩

attribute [local semireducible] isDigestReference in
theorem appliesLater_web {candidates : List UpdateCandidate}
    (h : (executionRun candidates).1.filterMap undisturbed = ["sha256:0"]) :
    AppliesLater webBlobs (creationRun candidates).world 1 "sha256:0" := by
  obtain ⟨e, he, happlies⟩ : ∃ e ∈ (executionRun candidates).1,
      Applies (system webBlobs.Allows) e "sha256:0" := exists_applies h
  refine ⟨(creationRun candidates).world, pinnedRow, movedWorld candidates, .background, _, _, _, e, .refl,
    ?_, rfl, ?_, Daemon.play_runs_in _ _ (by simp [Turn.creating]), he, happlies⟩
  · exact List.mem_of_getElem? (i := 0) rfl
  · exact .single (.inl ⟨.publish "web:1" "sha256:5", webBlobs_serves (by decide), rfl⟩)

theorem pressApplies_web {candidates : List UpdateCandidate} {image : String}
    (h : (pressRun candidates).1.filterMap undisturbed = [image])
    (hread : ∀ e ∈ (pressRun candidates).1, ¬ CandidateUnread e) :
    PressApplies (digestWorld candidates) "web" image := by
  obtain ⟨e, he, happlies⟩ : ∃ e ∈ (pressRun candidates).1,
      Applies (system fun _ event => ¬ event.Publishes) e image := exists_applies h
  exact ⟨{}, .background, .background, "user", _, _, _, e,
    Daemon.play_runs_in _ _ (by simp [Turn.creating]), hread, he, happlies⟩

/-- The check found `web:2` for `web:1`. -/
def newerOnRecord : List UpdateCandidate := [⟨"c0", "major", "web:2", "2", 0⟩]

/-- The schedule pins `web:1` and recreates the container from what it stood for, whatever became of
the tag; the button goes to `web:2`. -/
theorem pin_skips_candidate :
    SchedulesPinned webBlobs (digestWorld newerOnRecord) (creationRun newerOnRecord).world webRecord
      "sha256:d0" 1 ∧
    Resolved webBlobs (digestWorld newerOnRecord).engine webRecord.currentImage "sha256:d0" "sha256:0" ∧
    AppliesLater webBlobs (creationRun newerOnRecord).world 1 "sha256:0" ∧
    PressApplies (digestWorld newerOnRecord) webRecord.name "sha256:2" ∧ "sha256:0" ≠ "sha256:2" :=
  ⟨schedulesPinned_web _, resolved_web _, appliesLater_web (by decide +kernel),
    pressApplies_web (by decide +kernel) (by decide +kernel), by decide⟩

theorem schedule_agrees_web :
    "sha256:0" = "sha256:0" ↔ ∀ candidate,
      (digestWorld []).store.getUpdateCandidate webRecord.id "major" = some candidate →
      offered (digestWorld []).engine candidate.image = offered (digestWorld []).engine webRecord.currentImage :=
  schedule_agrees (schedulesPinned_web []) (resolved_web []) (appliesLater_web (by decide +kernel))
    (pressApplies_web (by decide +kernel) (by decide +kernel))

end Api
end Doupro
