import Doupro.CrashLoop.MonitorWrites
import Doupro.System.Frames

/-!
# What an automatic rollback may stop or remove

The rollback started for a watch looks the container up again by name. The contract
below follows one rollback through any interleaving: it takes for granted that the lookup
finds the watched container, and allows stopping or removing that container and, once the
rollback has reported a failure, what it created itself.
-/

namespace Doupro

open Interaction Updater

/-- The container a call stops or removes. -/
def Call.target : Call → Option String
  | .docker _ (.stop id _) | .docker _ (.remove id _) => some id
  | _ => none

def Call.Untargeted (call : Call) : Prop := call.target = none

/-- If the event looks a container up by name, the row it finds is that of container `c`. -/
def FindsRowOf (c : String) (e : Event Calls World) : Prop :=
  match e.op with
  | .store _ (.containerIDByName name) =>
    ∀ rec ∈ Table.lookup ContainerRecord.name name e.world.store.containers, rec.id = c
  | _ => True

instance (c : String) (e : Event Calls World) : Decidable (FindsRowOf c e) := by
  unfold FindsRowOf; split <;> infer_instance

/-- The event with which a rollback reports that its recreation or its commit failed. -/
def reportsFailure : Call → Bool
  | .emit event => event.type = "rollback.auto.failed" || event.type = "rollback.auto.commit_failed"
  | _ => false

/-- What a rollback has done so far. -/
structure RollbackProgress where
  created : List String := []
  failed : Bool := false

namespace RollbackProgress

def after (k : RollbackProgress) (e : Event Calls World) : RollbackProgress where
  created := (createdBy e).toList ++ k.created
  failed := k.failed || reportsFailure e.op

/-- The containers a rollback of `c` may still stop or remove. -/
def MayTouch (c : String) (k : RollbackProgress) (id : String) : Prop :=
  id = c ∨ (k.failed = true ∧ id ∈ k.created)

theorem MayTouch.mono {c id : String} {k k' : RollbackProgress} (h : k.MayTouch c id)
    (hfailed : k.failed = true → k'.failed = true) (hcreated : k.created ⊆ k'.created) :
    k'.MayTouch c id := by
  rcases h with h | ⟨h, hmem⟩
  · exact .inl h
  · exact .inr ⟨hfailed h, hcreated hmem⟩

end RollbackProgress

/-- The contract of a rollback started for a watch on container `c`. -/
def rollbackContract (c : String) : Contract Calls World RollbackProgress where
  allowed k call := ∀ id, call.target = some id → k.MayTouch c id
  expects _ e := FindsRowOf c e
  next := RollbackProgress.after

/-- The calls a rollback learns nothing from. -/
def Call.Silent (call : Call) : Prop :=
  reportsFailure call = false ∧ ∀ w reply, createdBy ⟨w, call, reply⟩ = none

namespace RollbackTarget

variable {c : String} {k : RollbackProgress}

theorem after_silent {e : Event Calls World} (h : e.op.Silent) : k.after e = k := by
  have hc : createdBy e = none := h.2 e.world e.reply
  simp [RollbackProgress.after, hc, h.1]

/-- A call that teaches nothing leaves the contract where it is. -/
theorem obeys_silent {α : Type} {call : Call} {f : call.Reply → Go α}
    {Q : RollbackProgress → α → Prop} (h : call.Silent)
    (htarget : ∀ id, call.target = some id → k.MayTouch c id)
    (hQ : ∀ w reply w', openSystem.step w call reply w' →
      (rollbackContract c).expects k ⟨w, call, reply⟩ →
        openSystem.obeys (rollbackContract c) (f reply) k Q) :
    openSystem.obeys (rollbackContract c) (.request (S := Calls) call >>= f) k Q := by
  refine Machine.obeys_request_bind.mpr ⟨htarget, fun w reply w' hstep hexp => ?_⟩
  have hnext : (rollbackContract c).next k ⟨w, call, reply⟩ = k := after_silent h
  rw [hnext]
  exact hQ w reply w' hstep hexp

theorem observes_silent {call : Call} (h : call.Observes) : call.Silent ∧ call.target = none := by
  unfold Call.Observes at h
  split at h
  · exact ⟨⟨rfl, fun _ _ => rfl⟩, rfl⟩
  · exact ⟨⟨rfl, fun _ _ => rfl⟩, rfl⟩
  · exact ⟨⟨rfl, fun _ _ => rfl⟩, rfl⟩
  · exact h.elim

theorem waitHealthy_obeys (ctx : Context) (id : String) (timeout window : Duration) :
    openSystem.obeys (rollbackContract c) (Client.waitHealthy ctx id timeout window) k
      fun k' _ => k' = k := by
  refine Machine.obeys_of_uses (P := Call.Observes) ?_ ?_
    (Client.waitHealthy_observes ctx id timeout window) k
  · intro k call h id hid
    rw [(observes_silent h).2] at hid
    cases hid
  · intro k e h
    exact after_silent (observes_silent h).1

/-- What a recreation knows when it returns. -/
def Recreated (k k' : RollbackProgress) (out : RecreationResult × Option GoError) : Prop :=
  k'.failed = k.failed ∧ k.created ⊆ k'.created ∧ (out.1.id ≠ "" → out.1.id ∈ k'.created)

theorem startRecreated_obeys (ctx : Context) {result : RecreationResult}
    (hid : result.id ∈ k.created) :
    openSystem.obeys (rollbackContract c) (startRecreated ctx result) k (Recreated k) := by
  have hdone : ∀ state status err,
      Recreated k k ({ result with state := state, status := status }, err) :=
    fun _ _ _ => ⟨rfl, List.Subset.refl _, fun _ => hid⟩
  unfold startRecreated
  refine obeys_silent ⟨rfl, fun _ _ => rfl⟩ (by simp [Call.target]) fun w reply w' hstep _ => ?_
  cases reply with
  | error err => exact hdone _ _ _
  | ok _ =>
    rw [Machine.obeys_bind]
    refine Machine.obeys_mono (waitHealthy_obeys ctx _ _ _) ?_
    rintro k' verdict rfl
    cases verdict with
    | some err => exact hdone _ _ _
    | none =>
      refine obeys_silent ⟨rfl, fun _ _ => rfl⟩ (by simp [Call.target]) fun w reply w' hstep _ => ?_
      cases reply with
      | error err => exact hdone _ _ _
      | ok created => cases hstate : created.state <;> simp only [hstate] <;> exact hdone _ _ _

/-- A create call teaches the ID of the container it made. -/
theorem after_create {w : World} {ctx : Context} {config : Config} {hostConfig : HostConfig}
    {networks : Option Endpoints} {name : String} {reply : Except GoError String} :
    k.after ⟨w, .docker ctx (.create config hostConfig networks name), reply⟩ =
      { k with created := reply.toOption.toList ++ k.created } := by
  simp [RollbackProgress.after, createdBy, reportsFailure]

theorem createReplacement_obeys (ctx : Context) (plan : RecreationPlan)
    {result : RecreationResult} (hid : result.id = "") :
    openSystem.obeys (rollbackContract c) (createReplacement ctx plan result) k (Recreated k) := by
  unfold createReplacement
  refine Machine.obeys_request_bind.mpr ⟨fun id hid => ?_, fun w reply w' hstep _ => ?_⟩
  · cases hid
  rw [show (rollbackContract c).next = RollbackProgress.after from rfl, after_create]
  cases reply with
  | error err => exact ⟨rfl, List.Subset.refl _, fun h => absurd hid h⟩
  | ok newID =>
    have hdone : ∀ state status err, Recreated k { k with created := newID :: k.created }
        ({ result with id := newID, state := state, status := status }, err) :=
      fun _ _ _ => ⟨rfl, List.subset_cons_self _ _, fun _ => List.mem_cons_self⟩
    refine obeys_silent ⟨rfl, fun _ _ => rfl⟩ (by simp [Call.target]) fun w reply w' hstep _ => ?_
    cases reply with
    | error err => exact hdone _ _ _
    | ok created =>
      change InspectResponse at created
      cases hvalid : validateRecreation plan created with
      | some err => cases err <;> simp only [hvalid] <;> exact hdone _ _ _
      | none =>
        simp only [hvalid]
        split
        · refine Machine.obeys_mono (startRecreated_obeys ctx List.mem_cons_self) ?_
          rintro k' out ⟨hfailed, hsub, hmem⟩
          exact ⟨hfailed, List.Subset.trans (List.subset_cons_self _ _) hsub, hmem⟩
        · exact hdone _ _ _

theorem removeOriginal_obeys (ctx : Context) {oldID : String} (plan : RecreationPlan)
    (hold : k.MayTouch c oldID) :
    openSystem.obeys (rollbackContract c) (removeOriginal ctx oldID plan) k (Recreated k) := by
  unfold removeOriginal
  refine obeys_silent ⟨rfl, fun _ _ => rfl⟩ (by simpa [Call.target] using hold)
    fun w reply w' hstep _ => ?_
  cases reply with
  | error err => exact ⟨rfl, List.Subset.refl _, fun h => absurd rfl h⟩
  | ok _ => exact createReplacement_obeys ctx plan rfl

theorem replaceOriginal_obeys (ctx : Context) {oldID : String} (plan : RecreationPlan)
    (hold : oldID ≠ "" → k.MayTouch c oldID) :
    openSystem.obeys (rollbackContract c) (replaceOriginal ctx oldID plan) k (Recreated k) := by
  unfold replaceOriginal
  split
  · exact createReplacement_obeys ctx plan rfl
  · next hne =>
    split
    · refine obeys_silent ⟨rfl, fun _ _ => rfl⟩ (by simpa [Call.target] using hold hne)
        fun w reply w' hstep _ => ?_
      cases reply with
      | error err => exact ⟨rfl, List.Subset.refl _, fun h => absurd rfl h⟩
      | ok _ => exact removeOriginal_obeys ctx plan (hold hne)
    · exact removeOriginal_obeys ctx plan (hold hne)

theorem recreate_obeys (ctx : Context) {oldID : String} (before : InspectResponse)
    (targetImage : String) (hold : oldID ≠ "" → k.MayTouch c oldID) :
    openSystem.obeys (rollbackContract c) (recreate ctx oldID before targetImage) k
      (Recreated k) := by
  unfold recreate
  cases buildRecreationPlan before targetImage with
  | error err => exact ⟨rfl, List.Subset.refl _, fun h => absurd rfl h⟩
  | ok plan =>
    simp only []
    split
    · exact replaceOriginal_obeys ctx plan hold
    · rw [Machine.obeys_bind]
      refine obeys_silent ⟨rfl, fun _ _ => rfl⟩ (by simp [Call.target]) fun w reply w' hstep _ => ?_
      cases reply with
      | error err => exact ⟨rfl, List.Subset.refl _, fun h => absurd rfl h⟩
      | ok _ => exact replaceOriginal_obeys ctx plan hold

/-! ### The error paths -/

/-- Programs that stop and remove nothing obey the contract. -/
theorem obeys_untargeted {α : Type} {p : Go α} (hp : p.Uses Call.Untargeted)
    (k : RollbackProgress) : openSystem.obeys (rollbackContract c) p k fun _ _ => True := by
  induction p generalizing k with
  | ret a => trivial
  | call call next ih =>
    refine ⟨fun id hid => ?_, fun w reply w' _ _ => ih reply (hp.2 reply) _⟩
    rw [show call.target = none from hp.1] at hid
    cases hid

theorem failBeforeRemoval_untargeted (ctx : Context) (op : FailedOperation)
    (result : RecreationResult) :
    (failBeforeRemoval ctx op result).Uses Call.Untargeted := by
  unfold failBeforeRemoval
  split
  · refine Program.uses_bind ((Program.uses_request _).mpr rfl) fun reply => ?_
    cases reply with
    | error err => exact ⟨rfl, fun _ => trivial⟩
    | ok _ => trivial
  · trivial

theorem revert_obeys (ctx : Context) (op : FailedOperation) {liveID : String}
    (hlive : liveID ≠ "" → k.MayTouch c liveID) :
    openSystem.obeys (rollbackContract c) (revert ctx op liveID) k fun _ _ => True := by
  unfold revert
  rw [Machine.obeys_bind]
  refine Machine.obeys_mono (recreate_obeys ctx _ _ hlive) ?_
  rintro k' ⟨result, revertErr⟩ -
  refine obeys_untargeted ?_ k'
  cases revertErr with
  | some err =>
    simp only []
    split
    · trivial
    · exact ⟨rfl, fun _ => ⟨rfl, fun _ => trivial⟩⟩
  | none =>
    refine Program.uses_bind ((Program.uses_request _).mpr rfl) fun recorded => ?_
    refine Program.uses_bind ((Program.uses_request _).mpr rfl) fun replaced => ?_
    cases replaced with
    | error err => trivial
    | ok _ => exact ⟨rfl, fun _ => trivial⟩

theorem recover_obeys (ctx : Context) (op : FailedOperation) {result : RecreationResult}
    (hfailed : k.failed = true) (hid : result.id ≠ "" → result.id ∈ k.created) :
    openSystem.obeys (rollbackContract c) (recover ctx op result) k fun _ _ => True := by
  unfold recover
  split
  · exact obeys_untargeted (failBeforeRemoval_untargeted ctx op result) k
  · exact revert_obeys ctx op fun hne => .inr ⟨hfailed, hid hne⟩

/-- Reporting a failure opens the containers the rollback created to its revert. -/
theorem obeys_report {α : Type} {event : LogEvent} {f : Unit → Go α}
    {Q : RollbackProgress → α → Prop} (hreport : reportsFailure (.emit event) = true)
    (hQ : openSystem.obeys (rollbackContract c) (f ()) { k with failed := true } Q) :
    openSystem.obeys (rollbackContract c) (.request (S := Calls) (.emit event) >>= f) k Q := by
  refine Machine.obeys_request_bind.mpr ⟨fun id hid => (by cases hid), fun w reply w' _ _ => ?_⟩
  have hnext : (rollbackContract c).next k ⟨w, .emit event, reply⟩ = { k with failed := true } := by
    simp [rollbackContract, RollbackProgress.after, hreport, createdBy]
  rw [hnext]
  exact hQ

/-! ### The rollback -/

section Rollback

variable {req : RollbackRequest}

theorem commitRollback_obeys (hactor : req.requester.actor = .system) (rec : ContainerRecord)
    (before : InspectResponse) {result : RecreationResult}
    (hid : result.id ≠ "" → result.id ∈ k.created) :
    openSystem.obeys (rollbackContract c) (commitRollback req rec before result) k
      fun _ _ => True := by
  unfold commitRollback
  refine obeys_silent ⟨rfl, fun _ _ => rfl⟩ (by simp [Call.target]) fun w reply w' _ _ => ?_
  cases reply with
  | error err =>
    refine obeys_report (by simp [reportsFailure, rollbackEvent, rollbackType, hactor]) ?_
    exact revert_obeys req.ctx _ fun hne => .inr ⟨rfl, hid hne⟩
  | ok _ =>
    refine obeys_untargeted ?_ k
    refine Program.uses_bind ((Program.uses_request _).mpr rfl) fun marked => ?_
    cases marked with
    | error err => exact ⟨rfl, fun _ => ⟨rfl, fun _ => ⟨rfl, fun _ => trivial⟩⟩⟩
    | ok _ => exact ⟨rfl, fun _ => ⟨rfl, fun _ => trivial⟩⟩

theorem rollbackInspected_obeys (hactor : req.requester.actor = .system)
    (hid : req.containerID = c) (rec : ContainerRecord) (before : InspectResponse) :
    openSystem.obeys (rollbackContract c) (rollbackInspected req rec before) k
      fun _ _ => True := by
  unfold rollbackInspected
  refine obeys_silent ⟨?_, fun _ _ => rfl⟩ (by simp [Call.target]) fun w reply w' _ _ => ?_
  · simp [reportsFailure, rollbackEvent, rollbackType, hactor]
  rw [Machine.obeys_bind]
  refine Machine.obeys_mono (recreate_obeys req.ctx _ _ fun _ => .inl hid) ?_
  rintro k' ⟨result, err⟩ ⟨-, -, hresult⟩
  have hfail : ∀ cause : GoError, openSystem.obeys (rollbackContract c)
      (do
        Go.emit (rollbackEvent req rec (trimSlash before.name) .error
          (rollbackType req ++ ".failed") ("rollback failed for " ++ trimSlash before.name ++
            ", reverting to current image: " ++ cause.message))
        recover req.ctx ⟨rollbackType req, req.containerID, before, trimSlash before.name,
          req.requester, cause⟩ result) k' fun _ _ => True := by
    intro cause
    refine obeys_report (by simp [reportsFailure, rollbackEvent, rollbackType, hactor]) ?_
    exact recover_obeys req.ctx _ rfl hresult
  cases err with
  | none => exact commitRollback_obeys hactor rec before hresult
  | some err =>
    cases err with
    | nilDereference => trivial
    | _ => exact hfail _

theorem settledBefore_obeys (req : RollbackRequest) (before : InspectResponse) :
    openSystem.obeys (rollbackContract c) (settledBefore req before) k fun k' _ => k' = k := by
  refine Machine.obeys_of_uses (P := Call.Observes) ?_ ?_ (settledBefore_observes req before) k
  · intro k call h id hid
    rw [(observes_silent h).2] at hid
    cases hid
  · intro k e h
    exact after_silent (observes_silent h).1

theorem withOperation_obeys (name kind : String) (actor : Actor) (actorID : String)
    {operation : Go (Option GoError)} (h : ∀ k, openSystem.obeys (rollbackContract c) operation k
      fun _ _ => True) (k : RollbackProgress) :
    openSystem.obeys (rollbackContract c) (withOperation name kind actor actorID operation) k
      fun _ _ => True := by
  have hbegin : (Updater.beginOperation name kind actor actorID).Uses Call.Untargeted := by
    refine Program.uses_bind ((Program.uses_request _).mpr rfl) fun current => ?_
    cases current with
    | none => trivial
    | some current =>
      refine Program.uses_bind ((Program.uses_request _).mpr rfl) fun _ => ?_
      split <;> trivial
  unfold withOperation
  rw [Machine.obeys_bind]
  refine Machine.obeys_mono (obeys_untargeted hbegin k) ?_
  rintro k' refused -
  cases refused with
  | some err => trivial
  | none =>
    change openSystem.obeys (rollbackContract c) (operation >>= _) k' _
    rw [Machine.obeys_bind]
    refine Machine.obeys_mono (h k') ?_
    rintro k'' result -
    refine obeys_untargeted ?_ k''
    exact ⟨rfl, fun _ => trivial⟩

theorem rollback_obeys (hactor : req.requester.actor = .system) (hid : req.containerID = c) :
    openSystem.obeys (rollbackContract c) (Updater.rollback req) k fun _ _ => True := by
  unfold Updater.rollback
  refine obeys_silent ⟨rfl, fun _ _ => rfl⟩ (by simp [Call.target]) fun w reply w' _ _ => ?_
  cases reply with
  | error err => trivial
  | ok rec =>
    simp only []
    split
    · trivial
    refine withOperation_obeys _ _ _ _ (fun k => ?_) k
    refine obeys_silent ⟨rfl, fun _ _ => rfl⟩ (by simp [Call.target]) fun w reply w' _ _ => ?_
    cases reply with
    | error err => trivial
    | ok before =>
      simp only []
      rw [Machine.obeys_bind]
      refine Machine.obeys_mono (settledBefore_obeys req before) ?_
      rintro k' settled rfl
      cases settled with
      | error err => trivial
      | ok before => exact rollbackInspected_obeys hactor hid rec before

/-- The goroutine's lookup leads to the watched container, or to none. -/
theorem getContainerByName_obeys (ctx : Context) (name : String) :
    openSystem.obeys (rollbackContract c) (Monitor.getContainerByName ctx name) k
      fun _ found => ∀ rec, found = .ok rec → rec.id = c := by
  unfold Monitor.getContainerByName
  refine obeys_silent ⟨rfl, fun _ _ => rfl⟩ (by simp [Call.target]) fun w reply w' hstep hexp => ?_
  cases reply with
  | error err =>
    intro rec h
    cases h
  | ok id =>
    have hid : id = c := by
      rcases step_store hstep with ⟨err, h, -⟩ | ⟨result, store, -, hperform, h, -⟩
      · cases h
      · obtain rfl := Except.ok.inj h
        obtain ⟨⟨rec, hrow, rfl⟩, -⟩ := Store.perform_containerIDByName.mp hperform
        exact hexp rec hrow
    refine ⟨fun id hid => (by cases hid), fun w reply w' hstep _ rec hrec => ?_⟩
    rcases step_store hstep with ⟨err, rfl, -⟩ | ⟨result, store, -, hperform, rfl, -⟩
    · cases hrec
    · obtain rfl := Except.ok.inj hrec
      exact (Table.lookup_key (Store.perform_getContainer.mp hperform).1).trans hid

theorem concludeRollback_untargeted (watch : RollbackWatch) (err : Option GoError) :
    (Monitor.concludeRollback watch err).Uses Call.Untargeted := by
  unfold Monitor.concludeRollback
  split
  · trivial
  · trivial
  · split
    · trivial
    · exact ⟨rfl, fun _ => ⟨rfl, fun _ => trivial⟩⟩

theorem monitorRollback_obeys (watch : RollbackWatch) :
    openSystem.obeys (rollbackContract c) (Monitor.rollback watch) k fun _ _ => True := by
  unfold Monitor.rollback
  rw [Machine.obeys_bind]
  refine Machine.obeys_mono (getContainerByName_obeys .background watch.containerName) ?_
  intro k' found hfound
  cases found with
  | error err => exact obeys_untargeted (concludeRollback_untargeted watch _) k'
  | ok rec =>
    simp only []
    rw [Machine.obeys_bind]
    refine Machine.obeys_mono (rollback_obeys rfl (hfound rec rfl)) ?_
    rintro k'' err -
    exact obeys_untargeted (concludeRollback_untargeted watch err) k''

end Rollback

/-! ### Reading the contract off a trace -/

theorem learned_failed (trace : Trace Calls World) (k : RollbackProgress) :
    ((rollbackContract c).learned k trace).failed =
      (k.failed || trace.any fun e => reportsFailure e.op) := by
  induction trace generalizing k with
  | nil => simp [Contract.learned]
  | cons e trace ih =>
    change ((rollbackContract c).learned (k.after e) trace).failed = _
    rw [ih]
    simp [RollbackProgress.after, Bool.or_assoc]

theorem mem_learned_created {id : String} (trace : Trace Calls World) (k : RollbackProgress) :
    id ∈ ((rollbackContract c).learned k trace).created ↔
      id ∈ k.created ∨ id ∈ trace.filterMap createdBy := by
  induction trace generalizing k with
  | nil => simp [Contract.learned]
  | cons e trace ih =>
    change id ∈ ((rollbackContract c).learned (k.after e) trace).created ↔ _
    rw [ih]
    cases hc : createdBy e with
    | none => simp [RollbackProgress.after, hc]
    | some new => simp [RollbackProgress.after, hc, or_assoc, or_left_comm]

end RollbackTarget

namespace RollbackTarget

/-- The update runs to its end, then the rollback until it removed a container. -/
def updateThenRollback : List (Bool × Turn) :=
  List.replicate 8 (false, .undisturbed) ++ (false, .creating "c1") ::
    List.replicate 17 (false, .undisturbed) ++ List.replicate 10 (true, .undisturbed)

/-- The rollback runs until it removed a container. -/
def rollbackAlone : List (Bool × Turn) := List.replicate 10 (true, .undisturbed)

end RollbackTarget

end Doupro
