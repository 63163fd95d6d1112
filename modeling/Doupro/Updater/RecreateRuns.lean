import Doupro.System.Frames
import Doupro.Updater.Recreate

/-!
# Every run of a recreation

`recreate_runs` says once what a recreation can do to the host: which calls it got to,
which container is gone, which one is there instead and what the caller is told. The
results about updates and rollbacks are case analyses of it.
-/

namespace Doupro

open Interaction

namespace Updater

variable {M : Machine Calls World} {R : List ContainerSpec → List ContainerSpec → Prop}

/-! ### From the create call on -/

def createCall (ctx : Context) (plan : RecreationPlan) : Call :=
  .docker ctx (.create plan.config plan.hostConfig plan.networkConfig plan.name)

/-- The calls start the container and wait for it. -/
def Waited (M : Machine Calls World) (ctx : Context) (newID : String) (rest : Trace Calls World)
    (verdict : Option GoError) : Prop :=
  ∃ w₀ w₁ w₂ wait, rest = ⟨w₀, .docker ctx (.start newID), .ok ()⟩ :: wait ∧
    M.Runs (Client.waitHealthy ctx newID defaultHealthTimeout defaultStabilityWindow) w₁ wait
      verdict w₂

/-- How starting the container that was created can end. -/
def Started (M : Machine Calls World) (ctx : Context) (newID : String) (rest : Trace Calls World)
    (out : RecreationResult × Option GoError) (w' : World) : Prop :=
  match out.2 with
  | none => ∃ front spec, Waited M ctx newID front none ∧ spec ∈ w'.engine.specs ∧
      spec.id = newID ∧
      rest = front ++ [⟨w', .docker ctx (.inspect newID), .ok (w'.engine.inspectResponse spec)⟩] ∧
      out.1.state = (w'.engine.states newID).status.text
  | some _ => (∃ e ∈ rest, CallFailed e) ∨ ∃ err, Waited M ctx newID rest (some err)

/-- Why a recreation gave up on a container it had created. -/
def GaveUp (M : Machine Calls World) (ctx : Context) (plan : RecreationPlan) (newID : String)
    (rest : Trace Calls World) : Prop :=
  (∃ e ∈ rest, CallFailed e) ∨
  ∃ w info tail, rest = ⟨w, .docker ctx (.inspect newID), .ok info⟩ :: tail ∧
    ((validateRecreation plan info ≠ none ∧ tail = []) ∨ (validateRecreation plan info = none ∧
      plan.wasRunning = true ∧ ∃ err, Waited M ctx newID tail (some err)))

/-- What the caller is told about a container that was created. -/
def Verdict (M : Machine Calls World) (ctx : Context) (plan : RecreationPlan) (newID : String)
    (rest : Trace Calls World) (out : RecreationResult × Option GoError) (w' : World) : Prop :=
  match out.2 with
  | none => ∃ w info tail, rest = ⟨w, .docker ctx (.inspect newID), .ok info⟩ :: tail ∧
      validateRecreation plan info = none ∧
      ((plan.wasRunning = false ∧ tail = [] ∧ out.1.state = "created") ∨
        (plan.wasRunning = true ∧ Started M ctx newID tail out w'))
  | some _ => GaveUp M ctx plan newID rest

/-- How the part of a recreation from the create call on can go. -/
inductive ReplacementRun (M : Machine Calls World)
    (R : List ContainerSpec → List ContainerSpec → Prop) (ctx : Context) (plan : RecreationPlan)
    (result : RecreationResult) (w : World) :
    Trace Calls World → RecreationResult × Option GoError → World → Prop
  | refused {w₀ : World} {err : GoError} (hframe : World.Frame R w w₀) :
    ReplacementRun M R ctx plan result w [⟨w₀, createCall ctx plan, .error err⟩]
      (result, some (.wrap "create container" err)) w₀
  | created {w₀ w₁ w' : World} {spec : ContainerSpec} {rest : Trace Calls World}
    {out : RecreationResult × Option GoError} (hframe : World.Frame R w w₀)
    (hlive : w₀.contextEnded ctx = false)
    (hcreate : w₀.Creates plan.config plan.hostConfig plan.name spec w₁)
    (hrest : Quietly M w₁ rest w')
    (hid : out.1 =
      { result with id := spec.id, state := out.1.state, status := out.1.status })
    (hverdict : Verdict M ctx plan spec.id rest out w') :
    ReplacementRun M R ctx plan result w (⟨w₀, createCall ctx plan, .ok spec.id⟩ :: rest) out w'

theorem startRecreated_runs (hM : Hosts M R) {ctx : Context} {result : RecreationResult}
    {w w' : World} {trace : Trace Calls World} {out : RecreationResult × Option GoError}
    (hrun : M.Runs (startRecreated ctx result) w trace out w') :
    (∀ e ∈ trace, e.op.Quiet) ∧
      out.1 = { result with state := out.1.state, status := out.1.status } ∧
      Started M ctx result.id trace out w' := by
  obtain ⟨w₀, reply, w₁, rest, -, -, rfl, h₁⟩ := Machine.runs_request_bind.mp hrun
  clear hrun
  cases reply with
  | error err =>
    obtain ⟨rfl, rfl, rfl⟩ := h₁
    exact ⟨by simp [Call.Quiet], rfl, .inl ⟨_, List.mem_cons_self, trivial⟩⟩
  | ok started =>
    obtain ⟨wait, verdict, w₂, tail, hwait, h₂, rfl⟩ := Machine.runs_bind.mp h₁
    clear h₁
    have hquiet : ∀ e ∈ wait, e.op.Quiet := fun e he => Call.quiet_of_observes
      (Machine.runs_uses (Client.waitHealthy_observes _ _ _ _) hwait e he)
    cases verdict with
    | some err =>
      obtain ⟨rfl, rfl, rfl⟩ := h₂
      refine ⟨?_, rfl, .inr ⟨err, w₀, w₁, w', wait, by simp, hwait⟩⟩
      simpa [Call.Quiet] using hquiet
    | none =>
      obtain ⟨w₃, reply, w₄, rest, -, hstep, rfl, h₃⟩ := Machine.runs_request_bind.mp h₂
      clear h₂
      obtain ⟨rfl, hreply⟩ := step_inspect (hM.step hstep)
      have hall : ∀ e ∈ (⟨w₀, .docker ctx (.start result.id), .ok started⟩ : Event Calls World) ::
          (wait ++ [⟨w₄, .docker ctx (.inspect result.id), reply⟩]), e.op.Quiet := by
        simpa [Call.Quiet, or_imp, forall_and] using hquiet
      rcases hreply with ⟨err, rfl⟩ | ⟨spec, hmem, hid, -, rfl⟩
      · obtain ⟨rfl, rfl, rfl⟩ := h₃
        refine ⟨hall, rfl, .inl ⟨⟨w', .docker ctx (.inspect result.id), .error err⟩, ?_, trivial⟩⟩
        exact List.mem_cons_of_mem _ (List.mem_append_right _ List.mem_cons_self)
      · obtain ⟨rfl, rfl, rfl⟩ := h₃
        refine ⟨hall, rfl, _, spec, ⟨w₀, w₁, w₂, wait, rfl, hwait⟩, hmem, hid, rfl, ?_⟩
        rw [← hid]

theorem createReplacement_runs (hM : Hosts M R) {ctx : Context} {plan : RecreationPlan}
    {result : RecreationResult} {w w' : World} {trace : Trace Calls World}
    {out : RecreationResult × Option GoError}
    (hrun : M.Runs (createReplacement ctx plan result) w trace out w') :
    ReplacementRun M R ctx plan result w trace out w' := by
  obtain ⟨w₀, reply, w₁, rest, hrely, hstep, rfl, h₁⟩ := Machine.runs_request_bind.mp hrun
  clear hrun
  have hframe := hM.rely hrely
  rcases step_create (hM.step hstep) with ⟨err, rfl, rfl⟩ | ⟨spec, hlive, rfl, hcreate⟩
  · obtain ⟨rfl, rfl, rfl⟩ := h₁
    exact .refused hframe
  · have hpath := Machine.runs_path h₁
    obtain ⟨w₂, reply, w₃, rest, hrely, hstep, rfl, h₂⟩ := Machine.runs_request_bind.mp h₁
    clear h₁
    obtain ⟨rfl, hreply⟩ := step_inspect (hM.step hstep)
    rcases hreply with ⟨err, rfl⟩ | ⟨found, hmem, hid, -, rfl⟩
    · obtain ⟨rfl, rfl, rfl⟩ := h₂
      exact .created hframe hlive hcreate ⟨hpath, by simp [Call.Quiet]⟩ rfl
        (.inl ⟨_, List.mem_cons_self, trivial⟩)
    · cases hvalid : validateRecreation plan (w₃.engine.inspectResponse found) with
      | some err =>
        have hgave : GaveUp M ctx plan spec.id
            [⟨w₃, .docker ctx (.inspect spec.id), .ok (w₃.engine.inspectResponse found)⟩] :=
          .inr ⟨w₃, _, [], rfl, .inl ⟨by rw [hvalid]; simp, rfl⟩⟩
        simp only [hvalid] at h₂
        cases err <;>
          (obtain ⟨rfl, rfl, rfl⟩ := h₂
           exact .created hframe hlive hcreate ⟨hpath, by simp [Call.Quiet]⟩ rfl hgave)
      | none =>
        simp only [hvalid] at h₂
        split at h₂
        · next hrunning =>
          obtain ⟨hquiet, hout, hstarted⟩ := startRecreated_runs hM h₂
          refine .created hframe hlive hcreate ⟨hpath, ?_⟩ (by rw [hout]) ?_
          · exact List.forall_mem_cons.mpr ⟨trivial, hquiet⟩
          unfold Verdict
          cases herr : out.2 with
          | none => exact ⟨w₃, _, rest, rfl, hvalid, .inr ⟨hrunning, hstarted⟩⟩
          | some err =>
            simp only [Started, herr] at hstarted
            rcases hstarted with ⟨e, hmem, hfailed⟩ | hwait
            · exact .inl ⟨e, List.mem_cons_of_mem _ hmem, hfailed⟩
            · exact .inr ⟨w₃, _, rest, rfl, .inr ⟨hvalid, hrunning, hwait⟩⟩
        · next hstopped =>
          obtain ⟨rfl, rfl, rfl⟩ := h₂
          exact .created hframe hlive hcreate ⟨hpath, by simp [Call.Quiet]⟩ rfl
            ⟨w', _, [], rfl, hvalid, .inl ⟨by simpa using hstopped, rfl, rfl⟩⟩

/-! ### Up to the create call -/

/-- The call pulls an image. -/
def isPull : Call → Bool
  | .docker _ (.pull _) => true
  | _ => false

theorem isPull_keepsHost {call : Call} (h : call.KeepsHost) : isPull call = false := by
  unfold isPull
  split
  · exact h.elim
  · rfl

/-- What a recreation pulls first: the target image, unless it is an image ID. -/
inductive Pulled (R : List ContainerSpec → List ContainerSpec → Prop) (ctx : Context)
    (targetImage : String) (w : World) : Trace Calls World → World → Prop
  | imageID (h : hasPrefix targetImage "sha256:" = true) : Pulled R ctx targetImage w [] w
  | tag {w₀ : World} {image : String} (h : hasPrefix targetImage "sha256:" = false)
    (hframe : World.Frame R w w₀) (hlive : w₀.contextEnded ctx = false)
    (himage : w₀.engine.registry targetImage = some image) :
    Pulled R ctx targetImage w [⟨w₀, .docker ctx (.pull targetImage), .ok ()⟩]
      { w₀ with engine.tags := Function.update w₀.engine.tags targetImage (some image) }

/-- The host when a recreation is about to create the new container. -/
structure Cleared (R : List ContainerSpec → List ContainerSpec → Prop) (oldID : String)
    (w : World) (pre : Trace Calls World) (w₁ : World) : Prop where
  store : w₁.store = w.store
  tags : w₁.engine.tags = w.engine.tags
  issued : w₁.engine.issued = w.engine.issued
  silent : ∀ e ∈ pre, ¬ CallFailed e ∧ createdBy e = none ∧ isPull e.op = false ∧
    inspectedBy e = none
  specs : if oldID = "" then w₁ = w
    else ∃ specs, R w.engine.specs specs ∧ (∃ spec ∈ specs, spec.id = oldID) ∧
      w₁.engine.specs = Engine.specsWithout oldID specs

/-- A recreation that failed with the old container still there. -/
structure Halted (R : List ContainerSpec → List ContainerSpec → Prop) (oldID : String) (w : World)
    (trace : Trace Calls World) (out : RecreationResult × Option GoError) (w' : World) : Prop where
  store : w'.store = w.store
  issued : w'.engine.issued = w.engine.issued
  specs : R w.engine.specs w'.engine.specs
  nonempty : oldID ≠ ""
  removed : out.1.originalRemoved = false
  failed : ∃ label cause, out.2 = some (.wrap label cause)
  call : ∃ e ∈ trace, CallFailed e

/-- The result a recreation carries into the create call. -/
def clearedResult (oldID : String) (plan : RecreationPlan) : RecreationResult :=
  if oldID = "" then {} else { originalStopped := plan.wasRunning, originalRemoved := true }

inductive ReplaceRun (M : Machine Calls World) (R : List ContainerSpec → List ContainerSpec → Prop)
    (ctx : Context) (oldID : String) (plan : RecreationPlan) (w : World) :
    Trace Calls World → RecreationResult × Option GoError → World → Prop
  | halted {trace : Trace Calls World} {out : RecreationResult × Option GoError} {w' : World}
    (h : Halted R oldID w trace out w') : ReplaceRun M R ctx oldID plan w trace out w'
  | replaced {pre rest : Trace Calls World} {out : RecreationResult × Option GoError}
    {w₁ w' : World} (hcleared : Cleared R oldID w pre w₁)
    (hrun : ReplacementRun M R ctx plan (clearedResult oldID plan) w₁ rest out w') :
    ReplaceRun M R ctx oldID plan w (pre ++ rest) out w'

theorem removeOriginal_runs (hM : Hosts M R) {ctx : Context} {oldID : String} (hold : oldID ≠ "")
    {plan : RecreationPlan} {w w' : World} {trace : Trace Calls World}
    {out : RecreationResult × Option GoError}
    (hrun : M.Runs (removeOriginal ctx oldID plan) w trace out w') :
    ReplaceRun M R ctx oldID plan w trace out w' := by
  obtain ⟨w₀, reply, w₁, rest, hrely, hstep, rfl, h₁⟩ := Machine.runs_request_bind.mp hrun
  clear hrun
  have hframe := hM.rely hrely
  rcases step_remove (hM.step hstep) with
    ⟨err, rfl, rfl⟩ | ⟨-, rfl, hold', hspecs, htags, hissued, hstore, -, -⟩
  · obtain ⟨rfl, rfl, rfl⟩ := h₁
    exact .halted ⟨hframe.store, hframe.issued, hframe.specs, hold, rfl, ⟨_, _, rfl⟩,
      _, List.mem_cons_self, trivial⟩
  · have hcleared : Cleared R oldID w [⟨w₀, .docker ctx (.remove oldID true), .ok ()⟩] w₁ := by
      refine ⟨hstore.trans hframe.store, htags.trans hframe.tags, hissued.trans hframe.issued, ?_, ?_⟩
      · simp [CallFailed, createdBy, isPull, inspectedBy]
      · rw [if_neg hold]
        exact ⟨_, hframe.specs, hold', hspecs⟩
    refine .replaced hcleared (createReplacement_runs hM ?_)
    rw [clearedResult, if_neg hold]
    exact h₁

theorem replaceOriginal_runs (hM : Hosts M R) {ctx : Context} {oldID : String}
    {plan : RecreationPlan} {w w' : World} {trace : Trace Calls World}
    {out : RecreationResult × Option GoError}
    (hrun : M.Runs (replaceOriginal ctx oldID plan) w trace out w') :
    ReplaceRun M R ctx oldID plan w trace out w' := by
  unfold replaceOriginal at hrun
  split at hrun
  · next hempty =>
    have hcleared : Cleared R oldID w [] w := ⟨rfl, rfl, rfl, by simp, by rw [if_pos hempty]⟩
    refine .replaced hcleared (createReplacement_runs hM ?_)
    rw [clearedResult, if_pos hempty]
    exact hrun
  · next hold =>
    split at hrun
    · obtain ⟨w₀, reply, w₁, rest, hrely, hstep, rfl, h₁⟩ := Machine.runs_request_bind.mp hrun
      clear hrun
      obtain ⟨hstop, -, hreply⟩ := step_stop (hM.step hstep)
      have hframe : World.Frame R w w₁ := (hM.rely hrely).trans hM
        ⟨hstop.store, hM.stop hstep, hstop.tags, hstop.issued, hstop.clock, hstop.ended⟩
      rcases hreply with ⟨err, rfl, rfl⟩ | ⟨-, rfl, -⟩
      · obtain ⟨rfl, rfl, rfl⟩ := h₁
        exact .halted ⟨hframe.store, hframe.issued, hframe.specs, hold, rfl, ⟨_, _, rfl⟩,
          _, List.mem_cons_self, trivial⟩
      · cases removeOriginal_runs hM hold h₁ with
        | halted h =>
          obtain ⟨e, he, hfailed⟩ := h.call
          exact .halted ⟨h.store.trans hframe.store, h.issued.trans hframe.issued,
            hM.trans hframe.specs h.specs, hold, h.removed, h.failed,
            e, List.mem_cons_of_mem _ he, hfailed⟩
        | @replaced pre rest _ w₂ _ hcleared hrest =>
          rw [← List.cons_append]
          refine .replaced ⟨hcleared.store.trans hframe.store,
            hcleared.tags.trans hframe.tags, hcleared.issued.trans hframe.issued, ?_, ?_⟩ hrest
          · exact List.forall_mem_cons.mpr
              ⟨by simp [CallFailed, createdBy, isPull, inspectedBy], hcleared.silent⟩
          · have hspecs := hcleared.specs
            rw [if_neg hold] at hspecs ⊢
            obtain ⟨specs, hchanged, hmem, heq⟩ := hspecs
            exact ⟨specs, hM.trans hframe.specs hchanged, hmem, heq⟩
    · exact removeOriginal_runs hM hold hrun

/-! ### The whole recreation -/

inductive RecreateRun (M : Machine Calls World) (R : List ContainerSpec → List ContainerSpec → Prop)
    (ctx : Context) (oldID : String) (before : InspectResponse) (targetImage : String) (w : World) :
    Trace Calls World → RecreationResult × Option GoError → World → Prop
  | unplanned {err : GoError} (hplan : buildRecreationPlan before targetImage = .error err) :
    RecreateRun M R ctx oldID before targetImage w [] ({}, some err) w
  | unpulled {plan : RecreationPlan} {w' : World} {err : GoError}
    (hplan : buildRecreationPlan before targetImage = .ok plan) (hframe : World.Frame R w w') :
    RecreateRun M R ctx oldID before targetImage w
      [⟨w', .docker ctx (.pull targetImage), .error err⟩]
      ({}, some (.wrap ("pull " ++ targetImage) err)) w'
  | pulled {plan : RecreationPlan} {pulls rest : Trace Calls World}
    {out : RecreationResult × Option GoError} {w₁ w' : World}
    (hplan : buildRecreationPlan before targetImage = .ok plan)
    (hpulled : Pulled R ctx targetImage w pulls w₁)
    (hrun : ReplaceRun M R ctx oldID plan w₁ rest out w') :
    RecreateRun M R ctx oldID before targetImage w (pulls ++ rest) out w'

theorem recreate_runs (hM : Hosts M R) {ctx : Context} {oldID : String} {before : InspectResponse}
    {targetImage : String} {w w' : World} {trace : Trace Calls World}
    {out : RecreationResult × Option GoError}
    (hrun : M.Runs (recreate ctx oldID before targetImage) w trace out w') :
    RecreateRun M R ctx oldID before targetImage w trace out w' := by
  unfold recreate at hrun
  split at hrun
  · next err hplan =>
    obtain ⟨rfl, rfl, rfl⟩ := hrun
    exact .unplanned hplan
  · next plan hplan =>
    split at hrun
    · next hdigest =>
      have hpulled : Pulled R ctx targetImage w [] w := .imageID hdigest
      exact .pulled hplan hpulled (replaceOriginal_runs hM hrun)
    · next htag =>
      obtain ⟨w₀, reply, w₁, rest, hrely, hstep, rfl, h₁⟩ := Machine.runs_request_bind.mp hrun
      clear hrun
      have hframe := hM.rely hrely
      rcases step_pull (hM.step hstep) with ⟨err, rfl, rfl⟩ | ⟨image, himage, hlive, rfl, rfl⟩
      · obtain ⟨rfl, rfl, rfl⟩ := h₁
        exact .unpulled hplan hframe
      · exact .pulled hplan (.tag (by simpa using htag) hframe hlive himage)
          (replaceOriginal_runs hM h₁)

/-! ### What a recreation leaves behind -/

/-- A container made since, under the name of the original. -/
structure Made (before : InspectResponse) (w : World) (id : String) (w' : World) : Prop where
  fresh : id ∉ w.engine.issued
  issued : id ∈ w'.engine.issued
  named : ∀ spec ∈ w'.engine.specs, spec.id = id → spec.name = trimSlash before.name

theorem Pulled.leaves (hM : Hosts M R) {ctx : Context} {targetImage : String} {w w₁ : World}
    {pulls : Trace Calls World} (h : Pulled R ctx targetImage w pulls w₁) :
    w₁.store = w.store ∧ World.Grows w w₁ ∧ R w.engine.specs w₁.engine.specs ∧
      w₁.engine.issued = w.engine.issued := by
  cases h with
  | imageID => exact ⟨rfl, .of_frame hM (.refl hM w), hM.refl _, rfl⟩
  | tag _ hframe =>
    have h := World.Grows.of_frame hM hframe
    exact ⟨hframe.store, ⟨h.specs, h.issued⟩, hframe.specs, hframe.issued⟩

theorem Cleared.grows (hM : Hosts M R) {oldID : String} {w w₁ : World} {pre : Trace Calls World}
    (h : Cleared R oldID w pre w₁) : World.Grows w w₁ where
  specs spec hmem := by
    have hspecs := h.specs
    split at hspecs
    · exact .inl (hspecs ▸ hmem)
    · obtain ⟨specs, hchanged, -, heq⟩ := hspecs
      rw [heq] at hmem
      exact .inl (hM.shrinks hchanged (Engine.mem_specsWithout.mp hmem).1)
  issued := h.issued ▸ List.Subset.refl _

theorem ReplacementRun.leaves (hM : Hosts M R) {ctx : Context} {plan : RecreationPlan}
    {result : RecreationResult} {w w' : World} {trace : Trace Calls World}
    {out : RecreationResult × Option GoError}
    (h : ReplacementRun M R ctx plan result w trace out w') :
    w'.store = w.store ∧ World.Grows w w' := by
  cases h with
  | refused hframe => exact ⟨hframe.store, .of_frame hM hframe⟩
  | created hframe _ hcreate hrest =>
    have hlater := hrest.frame hM
    exact ⟨hlater.store.trans (hcreate.store.trans hframe.store),
      ((World.Grows.of_frame hM hframe).trans (.of_creates hcreate)).trans (.of_frame hM hlater)⟩

/-- What a recreation that got past its plan, or the removal, was planned from. -/
theorem RecreateRun.planned {ctx : Context} {oldID targetImage : String} {before : InspectResponse}
    {w w' : World} {trace : Trace Calls World} {out : RecreationResult × Option GoError}
    (h : RecreateRun M R ctx oldID before targetImage w trace out w')
    (hout : out.1.originalRemoved = true ∨ out.2 = none) :
    ∃ plan, buildRecreationPlan before targetImage = .ok plan := by
  cases h with
  | unplanned => rcases hout with h | h <;> cases h
  | unpulled hplan => exact ⟨_, hplan⟩
  | pulled hplan => exact ⟨_, hplan⟩

/-- A recreation writes no row, and the containers it leaves are old or new. -/
theorem RecreateRun.leaves (hM : Hosts M R) {ctx : Context} {oldID targetImage : String}
    {before : InspectResponse} {w w' : World} {trace : Trace Calls World}
    {out : RecreationResult × Option GoError}
    (h : RecreateRun M R ctx oldID before targetImage w trace out w') :
    w'.store = w.store ∧ World.Grows w w' := by
  cases h with
  | unplanned => exact ⟨rfl, .of_frame hM (.refl hM w)⟩
  | unpulled _ hframe => exact ⟨hframe.store, .of_frame hM hframe⟩
  | pulled _ hpulled hrun =>
    obtain ⟨hstore, hgrows, -, -⟩ := hpulled.leaves hM
    cases hrun with
    | halted h =>
      refine ⟨h.store.trans hstore, hgrows.trans ⟨fun spec hmem => ?_, ?_⟩⟩
      · exact .inl (hM.shrinks h.specs hmem)
      · exact h.issued ▸ List.Subset.refl _
    | replaced hcleared hreplaced =>
      obtain ⟨hstore', hgrows'⟩ := hreplaced.leaves hM
      exact ⟨hstore'.trans (hcleared.store.trans hstore),
        (hgrows.trans (hcleared.grows hM)).trans hgrows'⟩

/-- What a recreation that succeeded made. -/
theorem RecreateRun.made (hM : Hosts M R) {ctx : Context} {oldID targetImage : String}
    {before : InspectResponse} {w w' : World} {trace : Trace Calls World}
    {result : RecreationResult}
    (h : RecreateRun M R ctx oldID before targetImage w trace (result, none) w') :
    Made before w result.id w' := by
  cases h with
  | pulled hplan hpulled hrun =>
    obtain ⟨-, -, -, hissued⟩ := hpulled.leaves hM
    cases hrun with
    | halted h =>
      obtain ⟨label, cause, h⟩ := h.failed
      cases h
    | @replaced pre rest _ w₂ _ hcleared hreplaced =>
      cases hreplaced with
      | @created w₃ w₄ _ spec rest _ hframe hlive hcreate hrest hid hverdict =>
        have hid : result.id = spec.id := congrArg RecreationResult.id hid
        have hlater := hrest.frame hM
        rw [hid]
        refine ⟨?_, ?_, fun other hmem hother => ?_⟩
        · rw [← hissued, ← hcleared.issued, ← hframe.issued]
          exact hcreate.fresh
        · rw [hlater.issued, hcreate.issued]
          exact List.mem_cons_self
        · have hmem := hM.shrinks hlater.specs hmem
          have hspec : spec ∈ w₄.engine.specs :=
            hcreate.specs ▸ List.mem_append_right _ List.mem_cons_self
          obtain rfl := List.inj_on_of_nodup_map w₄.engine.ids_nodup hmem hspec hother
          exact hcreate.named.trans (plan_name hplan)

end Updater
end Doupro
