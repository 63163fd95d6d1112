import Doupro.Updater.WatchIdentity

/-!
# Whether an operation leaves a container under the name

Between the removal of the old container and the creation of the next one nothing
carries the name. An operation whose context ends there, or whose revert cannot pull,
stops in that gap; so does one whose container Docker deletes when it is stopped.
-/

namespace Doupro

open Interaction

namespace OperationCall

def ctx : OperationCall → Context
  | .update req => req.ctx
  | .rollback req => req.ctx

def containerID : OperationCall → String
  | .update req => req.containerID
  | .rollback req => req.containerID

end OperationCall

/-- No container with `AutoRemove` ends on its own. -/
def SparesAutoRemove (w : World) (event : EnvEvent) : Prop :=
  match event with
  | .exit id _ false => ∀ spec ∈ w.engine.specs, spec.id = id → spec.hostConfig.autoRemove = false
  | _ => True

/-- A stop does not make Docker delete the container. -/
def StopKeeps (e : Event Calls World) : Prop :=
  match e.op with
  | .docker _ (.stop id _) => ∀ spec ∈ e.world.engine.specs, spec.id = id →
    spec.hostConfig.autoRemove = true → (e.world.engine.states id).running = false
  | _ => True

/-- A call that leaves no gap under a name: a stop does not delete the container, a create
is made on a live context, a pull fails only while something carries the name. -/
def LeavesNoGap (name : String) (e : Event Calls World) : Prop :=
  StopKeeps e ∧ match e.op with
    | .docker ctx (.create _ _ _ _) => e.world.contextEnded ctx = false
    | .docker _ (.pull _) => CallFailed e → e.world.engine.Carries name
    | _ => True

/-- The create call of a container's own plan. -/
def ownCreate (ctx : Context) (original : ContainerSpec) : Call :=
  .docker ctx (.create original.config
    (Updater.preserveAnonymousVolumes original.hostConfig original.mounts)
    (Updater.networkConfigOf original.networks) original.name)

/-- The host on which containers are deleted by `Remove` only. -/
def keepingHost : Machine Calls World := (system SparesAutoRemove).restrict StopKeeps

theorem SparesAutoRemove.apply_frame {w : World} {event : EnvEvent}
    (h : SparesAutoRemove w event) : World.Frame Eq w (event.apply w) := by
  have hframe := event.apply_frame w
  refine ⟨hframe.store, ?_, hframe.tags, hframe.issued, hframe.clock, hframe.ended⟩
  cases event with
  | tick | contextEnds | publish | settle => rfl
  | restart id =>
    simp only [EnvEvent.apply]
    split <;> rfl
  | exit id code policyRestarts =>
    simp only [EnvEvent.apply]
    split
    · rfl
    · next spec hfind =>
      obtain ⟨hmem, hid⟩ := w.engine.find_eq_some.mp hfind
      cases policyRestarts with
      | true => rfl
      | false =>
        have hkeep : spec.hostConfig.autoRemove = false := h spec hmem hid
        change w.engine.specs = (w.engine.exited spec _ _).specs
        rw [Engine.exited_specs, hkeep]
        rfl

theorem keepingHost_hosts : Hosts keepingHost Eq where
  refl _ := rfl
  trans := Eq.trans
  shrinks h := h ▸ List.Subset.refl _
  rely := by
    intro w w' h
    induction h with
    | refl => exact ⟨rfl, rfl, rfl, rfl, le_refl _, List.Subset.refl _⟩
    | @tail w₁ w₂ _ hstep ih =>
      obtain ⟨event, hspares, rfl⟩ := hstep
      have h := hspares.apply_frame
      exact ⟨h.store.trans ih.store, ih.specs.trans h.specs, h.tags.trans ih.tags,
        h.issued.trans ih.issued, le_trans ih.clock h.clock, List.Subset.trans ih.ended h.ended⟩
  step h := h.1
  stop := by
    intro w ctx id timeout reply w' h
    obtain ⟨-, -, ⟨err, -, rfl⟩ | ⟨-, -, spec, hmem, hid, hspecs | ⟨hauto, hrunning⟩⟩⟩ := step_stop h.1
    · rfl
    · exact hspecs.symm
    · have hstopped := h.2 spec hmem hid hauto
      rw [hrunning] at hstopped
      cases hstopped

namespace Updater

variable {M : Machine Calls World} {ctx : Context} {before : InspectResponse} {w w' : World}
  {trace : Trace Calls World}

theorem carries_of_specs {name : String} (hspecs : w'.engine.specs = w.engine.specs)
    (h : w.engine.Carries name) : w'.engine.Carries name := by
  rw [Engine.carries_iff] at h ⊢
  rw [hspecs]
  exact h

theorem ReplacementRun.carries (hM : Hosts M Eq) {plan : RecreationPlan}
    {result : RecreationResult} {out : RecreationResult × Option GoError}
    (h : ReplacementRun M Eq ctx plan result w trace out w') :
    (∃ err, out = (result, some (.wrap "create container" err)) ∧
      trace = [⟨w', createCall ctx plan, .error err⟩] ∧ w'.engine.specs = w.engine.specs) ∨
    w'.engine.Carries plan.name := by
  cases h with
  | refused hframe => exact .inl ⟨_, rfl, rfl, hframe.specs.symm⟩
  | @created w₀ w₁ _ spec rest _ hframe hlive hcreate hrest hid hverdict =>
    refine .inr ((Engine.carries_iff _).mpr ⟨spec, ?_, hcreate.named⟩)
    rw [← (hrest.frame hM).specs, hcreate.specs]
    exact List.mem_append_right _ List.mem_cons_self

/-- After a recreation the name is carried, unless the create call was refused once the
old container was gone. -/
theorem RecreateRun.carries (hM : Hosts M Eq) {oldID targetImage : String}
    {out : RecreationResult × Option GoError}
    (h : RecreateRun M Eq ctx oldID before targetImage w trace out w')
    (hcarried : w.engine.Carries (trimSlash before.name)) :
    w'.engine.Carries (trimSlash before.name) ∨
    (out.1.originalRemoved = true ∧ out.1.id = "" ∧ ∃ label cause, out.2 = some (.wrap label cause)) := by
  cases h with
  | unplanned => exact .inl hcarried
  | unpulled _ hframe => exact .inl (carries_of_specs hframe.specs.symm hcarried)
  | pulled hplan hpulled hrun =>
    have hspecs := (hpulled.leaves hM).2.2.1
    have hcarried := carries_of_specs hspecs.symm hcarried
    cases hrun with
    | halted h => exact .inl (carries_of_specs h.specs.symm hcarried)
    | replaced hcleared hreplaced =>
      rcases hreplaced.carries hM with ⟨err, rfl, -, hsame⟩ | hmade
      · by_cases hold : oldID = ""
        · have hcleared := hcleared.specs
          rw [if_pos hold] at hcleared
          exact .inl (carries_of_specs (hsame.trans (hcleared ▸ rfl)) hcarried)
        · refine .inr ⟨?_, ?_, _, _, rfl⟩ <;> simp [clearedResult, hold]
      · exact .inl (plan_name hplan ▸ hmade)

/-- A revert that leaves no gap ends with the name carried. -/
theorem RecreateRun.carries_own (hM : Hosts M Eq) {original : ContainerSpec} {liveID : String}
    {out : RecreationResult × Option GoError} {w₀ : World}
    (h : RecreateRun M Eq ctx liveID (w₀.engine.inspectResponse original) original.config.image w
      trace out w')
    (hplanned : ∃ plan, buildRecreationPlan (w₀.engine.inspectResponse original)
      original.config.image = .ok plan)
    (hlive : liveID = "" ∨ w.engine.Carries original.name)
    (hown : ∀ e ∈ trace, e.op = ownCreate ctx original → e.world.contextEnded ctx = false →
      ¬ CallFailed e)
    (hgap : ∀ e ∈ trace, LeavesNoGap original.name e) : w'.engine.Carries original.name := by
  have hname : trimSlash (w₀.engine.inspectResponse original).name = original.name :=
    trimSlash_slash original.name
  cases h with
  | unplanned hplan =>
    obtain ⟨plan, hok⟩ := hplanned
    rw [hplan] at hok
    cases hok
  | unpulled => exact (hgap _ List.mem_cons_self).2 trivial
  | @pulled plan pulls tail _ w₁ _ hplan hpulled hrun =>
    have hspecs := (hpulled.leaves hM).2.2.1
    cases hrun with
    | halted h =>
      rcases hlive with hlive | hcarried
      · exact absurd hlive h.nonempty
      · exact carries_of_specs (hspecs.trans h.specs).symm hcarried
    | @replaced pre rest _ w₂ _ hcleared hreplaced =>
      rcases hreplaced.carries hM with ⟨err, -, rfl, -⟩ | hmade
      · have hmem : (⟨w', createCall ctx plan, .error err⟩ : Event Calls World) ∈
            pulls ++ (pre ++ [⟨w', createCall ctx plan, .error err⟩]) := by simp
        have hcall : createCall ctx plan = ownCreate ctx original := by
          obtain ⟨config, hostConfig, state, hconfig, hhost, -, -, rfl⟩ := buildRecreationPlan_ok hplan
          obtain rfl := Option.some_inj.mp hconfig
          obtain rfl := Option.some_inj.mp hhost
          simp only [createCall, ownCreate, hname]
          rfl
        exact absurd trivial (hown _ hmem hcall (hgap _ hmem).2)
      · have hmade : w'.engine.Carries (trimSlash (w₀.engine.inspectResponse original).name) :=
          plan_name hplan ▸ hmade
        exact hname ▸ hmade

/-- What the two assumptions of the claim say about a stretch of a run. -/
structure Gapless (ctx : Context) (original : ContainerSpec) (trace : Trace Calls World) : Prop where
  own : ∀ e ∈ trace, e.op = ownCreate ctx original → e.world.contextEnded ctx = false →
    ¬ CallFailed e
  gap : ∀ e ∈ trace, LeavesNoGap original.name e

theorem Gapless.left {original : ContainerSpec} {first rest : Trace Calls World}
    (h : Gapless ctx original (first ++ rest)) : Gapless ctx original first :=
  ⟨fun e he => h.own e (List.mem_append_left _ he), fun e he => h.gap e (List.mem_append_left _ he)⟩

theorem Gapless.right {original : ContainerSpec} {first rest : Trace Calls World}
    (h : Gapless ctx original (first ++ rest)) : Gapless ctx original rest :=
  ⟨fun e he => h.own e (List.mem_append_right _ he), fun e he => h.gap e (List.mem_append_right _ he)⟩

theorem RevertRun.carries (hM : Hosts M Eq) {original : ContainerSpec} {liveID : String}
    {w₀ : World} {op : FailedOperation} (hbefore : op.before = w₀.engine.inspectResponse original)
    {out : Option GoError} (h : RevertRun M Eq ctx op liveID w trace out w')
    (hplanned : ∃ plan, buildRecreationPlan op.before (configImage op.before) = .ok plan)
    (hlive : liveID = "" ∨ w.engine.Carries original.name) (hgap : Gapless ctx original trace) :
    w'.engine.Carries original.name := by
  rw [hbefore] at hplanned
  cases h with
  | failed hrecreate hrest _ =>
    rw [hbefore] at hrecreate
    have h := hrecreate.carries_own hM hplanned hlive hgap.left.own hgap.left.gap
    exact carries_of_specs (hrest.frame hM).specs.symm h
  | unrecorded hrecreate hread hrely =>
    rw [hbefore] at hrecreate
    have h := hrecreate.carries_own hM hplanned hlive hgap.left.left.own hgap.left.left.gap
    exact carries_of_specs ((hread.frame hM).trans hM (hM.rely hrely)).specs.symm h
  | reverted hrecreate hread hrely hrest =>
    rw [hbefore] at hrecreate
    have h := hrecreate.carries_own hM hplanned hlive hgap.left.left.own hgap.left.left.gap
    have hread := ((hread.frame hM).trans hM (hM.rely hrely)).specs
    exact carries_of_specs (hread.trans (hrest.frame hM).specs).symm h

theorem AttemptRun.carries (hM : Hosts M Eq)
    {Commits : RecreationResult → World → Trace Calls World → World → Prop}
    (hcommits : ∀ {result w commit w'}, Commits result w commit w' →
      w'.engine.specs = w.engine.specs) {kind originalID targetImage : String}
    {requester : Requester} {original : ContainerSpec} {w₀ : World}
    (hbefore : before = w₀.engine.inspectResponse original) {out : Option GoError}
    (h : AttemptRun M Eq Commits ctx kind originalID before targetImage requester w trace out w')
    (hcarried : w.engine.Carries original.name) (hgap : Gapless ctx original trace) :
    w'.engine.Carries original.name := by
  have hname : trimSlash before.name = original.name := by
    rw [hbefore]
    exact trimSlash_slash original.name
  rw [← hname] at hcarried
  cases h with
  | panicked hrecreate _ =>
    rcases hrecreate.carries hM hcarried with h | ⟨-, -, label, cause, h⟩
    · exact hname ▸ h
    · cases h
  | recovered hrecreate _ hreport hrecover =>
    have hframe := (hreport.frame hM).specs
    cases hrecover with
    | kept hkept hrest _ =>
      rcases hrecreate.carries hM hcarried with h | ⟨hremoved, -⟩
      · exact hname ▸ carries_of_specs (hframe.trans (hrest.frame hM).specs).symm h
      · rw [hkept] at hremoved
        cases hremoved
    | removed hremoved hrevert =>
      obtain ⟨plan, hplan⟩ := hrecreate.planned (.inl hremoved)
      refine hrevert.carries hM hbefore (buildRecreationPlan_retarget hplan _) ?_ hgap.right
      rcases hrecreate.carries hM hcarried with h | ⟨-, hid, -⟩
      · exact .inr (hname ▸ carries_of_specs hframe.symm h)
      · exact .inl hid
  | uncommitted hrecreate hcommit =>
    obtain ⟨commit, rest, cause, w₁, rfl, hframe, -, -, hrevert⟩ := hcommit
    obtain ⟨plan, hplan⟩ := hrecreate.planned (.inr rfl)
    refine hrevert.carries hM hbefore (buildRecreationPlan_retarget hplan _) ?_ hgap.right.right
    rcases hrecreate.carries hM hcarried with h | ⟨-, -, label, cause, h⟩
    · exact .inr (hname ▸ carries_of_specs hframe.specs.symm h)
    · cases h
  | committed hrecreate _ hcommit =>
    rcases hrecreate.carries hM hcarried with h | ⟨-, -, label, cause, h⟩
    · exact hname ▸ carries_of_specs (hcommits hcommit) h
    · cases h

/-- An operation whose attempt keeps the name carried keeps it to its end. -/
theorem OperationRun.carries (hM : Hosts M Eq)
    {Attempts : InspectResponse → World → Trace Calls World → Option GoError → World → Prop}
    {id : String} {original : ContainerSpec} {out : Option GoError}
    (hattempts : ∀ {before : InspectResponse} {w₀ w : World} {trace out w'},
      before = w₀.engine.inspectResponse original → Attempts before w trace out w' →
      w.engine.Carries original.name →
      Gapless ctx original trace → w'.engine.Carries original.name)
    (h : OperationRun M Attempts ctx id w trace out w') (horiginal : original ∈ w.engine.specs)
    (hid : original.id = id) (hgap : Gapless ctx original trace) :
    w'.engine.Carries original.name := by
  have hcarried : w.engine.Carries original.name :=
    (Engine.carries_iff _).mpr ⟨original, horiginal, rfl⟩
  cases h with
  | early hquiet _ _ => exact carries_of_specs (hquiet.frame hM).specs.symm hcarried
  | attempted hopened hrely hattempt hclosing _ =>
    obtain ⟨w₀, spec, hframe, hmem, hspec, hbefore⟩ := hopened.original hM
    obtain rfl : spec = original := List.inj_on_of_nodup_map w.engine.ids_nodup
      (hM.shrinks hframe.specs hmem) horiginal (hspec.trans hid.symm)
    have hstart := (hopened.quiet.frame hM).trans hM (hM.rely hrely)
    rw [List.append_cons] at hgap
    have h := hattempts hbefore hattempt (carries_of_specs hstart.specs.symm hcarried)
      hgap.left.right
    exact carries_of_specs (hclosing.frame hM).specs.symm h

end Updater

/-- An update or rollback that leaves no gap under the name returns with a container
carrying the name of the original. -/
theorem operation_keeps_name (call : OperationCall) {w w' : World} {trace : Trace Calls World}
    {out : Option GoError} (hrun : (system SparesAutoRemove).Runs call.program w trace out w')
    {original : ContainerSpec} (horiginal : original ∈ w.engine.specs)
    (hid : original.id = call.containerID)
    (hown : ∀ e ∈ trace, e.op = ownCreate call.ctx original →
      e.world.contextEnded call.ctx = false → ¬ CallFailed e)
    (hgap : ∀ e ∈ trace, LeavesNoGap original.name e) : w'.engine.Carries original.name := by
  have hkeeps : keepingHost.Runs call.program w trace out w' :=
    Machine.runs_restrict.mpr ⟨hrun, fun e he => (hgap e he).1⟩
  have hgapless : Updater.Gapless call.ctx original trace := ⟨hown, hgap⟩
  cases call with
  | update req =>
    refine (Updater.update_runs keepingHost_hosts hkeeps).carries keepingHost_hosts ?_ horiginal hid
      hgapless
    rintro before w₀ w trace out w' hbefore ⟨definedImage, hattempt⟩ hcarried hgap
    refine hattempt.carries keepingHost_hosts ?_ hbefore hcarried hgap
    intro result w commit w' hcommit
    cases hcommit with
    | armed _ _ hframe => exact hframe.specs.symm
    | stopped _ _ _ hframe => exact hframe.specs.symm
  | rollback req =>
    refine (Updater.rollback_runs keepingHost_hosts hkeeps).carries keepingHost_hosts ?_ horiginal hid
      hgapless
    rintro before w₀ w trace out w' hbefore ⟨rec, -, hattempt⟩ hcarried hgap
    refine hattempt.carries keepingHost_hosts ?_ hbefore hcarried hgap
    intro result w commit w' hcommit
    cases hcommit with
    | completed _ hframe => exact hframe.specs.symm

/-! ### A context that ends in the gap -/

instance (e : Event Calls World) : Decidable (StopKeeps e) :=
  decidable_of_iff ((match e.op with
    | .docker _ (.stop id _) => decide (∀ spec ∈ e.world.engine.specs, spec.id = id →
      spec.hostConfig.autoRemove = true → (e.world.engine.states id).running = false)
    | _ => true : Bool) = true) (by unfold StopKeeps; split <;> simp)

instance (name : String) (e : Event Calls World) : Decidable (LeavesNoGap name e) :=
  decidable_of_iff (StopKeeps e ∧ (match e.op with
    | .docker ctx (.create _ _ _ _) => decide (e.world.contextEnded ctx = false)
    | .docker _ (.pull _) => decide (CallFailed e → e.world.engine.Carries name)
    | _ => true : Bool) = true) (by unfold LeavesNoGap; split <;> simp only [decide_eq_true_eq])

/-- The image reference a create call asks for. -/
def createImage : Call → Option String
  | .docker _ (.create config _ _ _) => some config.image
  | _ => none

namespace Updater

/-- The request's context ends right after the removal of `c0`. -/
def contextEndsInGap : Nat → Turn := script [(8, { events := [.contextEnds 0] })]

/-- Only calls on the ended context fail, and still nothing carries the name at the end. -/
theorem operation_keeps_name_ended : ∃ trace out w',
    (system SparesAutoRemove).Runs (OperationCall.update updateWeb).program webWorld trace out w' ∧
    webSpec ∈ webWorld.engine.specs ∧ webSpec.id = updateWeb.containerID ∧
    (∀ e ∈ trace, CallFailed e → e.op.context.any e.world.contextEnded = true) ∧
    ¬ w'.engine.Carries webSpec.name := by
  have hrun : (system SparesAutoRemove).Runs (update updateWeb) webWorld
      ((update updateWeb).play webWorld contextEndsInGap).trace _ _ :=
    (update updateWeb).play_runs_in webWorld
      (script_events (by simp [SparesAutoRemove]))
  refine ⟨_, _, _, hrun, List.mem_cons_self, rfl, ?_, ?_⟩
  · decide +kernel
  · decide +kernel

/-- A create call that fails on a live context is followed by a revert. -/
theorem operation_keeps_name_reverted : ∃ trace out w',
    (system SparesAutoRemove).Runs (OperationCall.update updateWeb).program webWorld trace out w' ∧
    w'.engine.Carries webSpec.name := by
  have hrun : (system SparesAutoRemove).Runs (update updateWeb) webWorld
      ((update updateWeb).play webWorld createFailsOnce).trace _ _ :=
    (update updateWeb).play_runs_in webWorld (script_events (by simp [Turn.creating]))
  have hown : ∀ e ∈ ((update updateWeb).play webWorld createFailsOnce).trace,
      createImage e.op = some "web:1" → ¬ CallFailed e := by decide +kernel
  have hgap : ∀ e ∈ ((update updateWeb).play webWorld createFailsOnce).trace,
      LeavesNoGap "web" e := by decide +kernel
  have horiginal : webSpec ∈ webWorld.engine.specs := List.mem_cons_self
  refine ⟨_, _, _, hrun, operation_keeps_name (.update updateWeb) hrun horiginal rfl ?_ hgap⟩
  intro e he hcall _
  exact hown e he (congrArg createImage hcall)

end Updater
end Doupro
