import Doupro.Updater.ParentKept

/-!
# Every run of the self-update helper

The original is set aside under the recovery name, then the replacement decides: the
original is removed, or the replacement is and the original gets its name back.
-/

namespace Doupro

open Interaction

namespace Updater

variable {ctx : Context} {targetImage token : String} {plan : RecreationPlan}
  {parent : ContainerSpec} {running : Bool} {w w₁ w' : World} {trace : Trace Calls World} {out : Option GoError}

/-- The event a call wrote to the log. -/
def emittedBy (e : Event Calls World) : Option LogEvent :=
  match e.op with
  | .emit event => some event
  | _ => none

/-- What a stretch of a run wrote to the log. -/
def emitted (trace : Trace Calls World) : List LogEvent := trace.filterMap emittedBy

theorem emittedBy_observes {e : Event Calls World} (h : e.op.Observes) : emittedBy e = none := by
  unfold emittedBy
  split
  · next heq =>
    rw [heq] at h
    exact h.elim
  · rfl

/-- A stretch of a run of the helper that neither removes the original nor writes to the log. -/
def Cautious (parent : ContainerSpec) (trace : Trace Calls World) : Prop :=
  ∀ e ∈ trace, ¬ e.op.Removes parent.id ∧ emittedBy e = none

theorem Cautious.append {first rest : Trace Calls World} (h : Cautious parent first)
    (h' : Cautious parent rest) : Cautious parent (first ++ rest) :=
  List.forall_mem_append.mpr ⟨h, h'⟩

theorem Cautious.emitted (h : Cautious parent trace) : emitted trace = [] :=
  List.filterMap_eq_nil_iff.mpr fun e he => (h e he).2

/-! ### The replacement -/

/-- The replacement was started and found ready, if the daemon had been running. -/
def Ready (ctx : Context) (plan : RecreationPlan) (newID : String) (rest : Trace Calls World) :
    Prop :=
  (plan.wasRunning = false ∧ rest = []) ∨
  (plan.wasRunning = true ∧ Waited openSystem ctx newID rest none)

/-- How the replacement can come about. -/
inductive StartRun (ctx : Context) (plan : RecreationPlan) (w : World) :
    Trace Calls World → String × Option GoError → World → Prop
  | refused {w' : World} {err : GoError} (hframe : World.Frame Sheds w w') :
    StartRun ctx plan w [⟨w', createCall ctx plan, .error err⟩] ("", some err) w'
  | created {w₀ w₁ w' : World} {spec : ContainerSpec} {rest : Trace Calls World}
    {verdict : Option GoError} (hframe : World.Frame Sheds w w₀)
    (hcreate : w₀.Creates plan.config plan.hostConfig plan.name spec w₁)
    (hrest : Quietly openSystem w₁ rest w') (hsilent : ∀ e ∈ rest, emittedBy e = none)
    (hready : verdict = none → Ready ctx plan spec.id rest) :
    StartRun ctx plan w (⟨w₀, createCall ctx plan, .ok spec.id⟩ :: rest) (spec.id, verdict) w'

theorem startReplacement_runs {out : String × Option GoError}
    (hrun : openSystem.Runs (startReplacement ctx plan) w trace out w') :
    StartRun ctx plan w trace out w' := by
  obtain ⟨w₀, reply, w₁, rest, hrely, hstep, rfl, h₁⟩ := Machine.runs_request_bind.mp hrun
  clear hrun
  have hframe := openSystem_hosts.rely hrely
  rcases step_create hstep with ⟨err, rfl, rfl⟩ | ⟨spec, -, rfl, hcreate⟩
  · obtain ⟨rfl, rfl, rfl⟩ := h₁
    exact .refused hframe
  · simp only at h₁
    split at h₁
    · next hrunning =>
      obtain ⟨w₂, reply, w₃, tail, hrely₂, hstep₂, rfl, h₂⟩ := Machine.runs_request_bind.mp h₁
      clear h₁
      cases reply with
      | error err =>
        obtain ⟨rfl, rfl, rfl⟩ := h₂
        have hquiet : Quietly openSystem w₁ [⟨w₂, .docker ctx (.start spec.id), .error err⟩] w' :=
          .cons hrely₂ hstep₂ trivial .nil
        exact .created hframe hcreate hquiet (by simp [emittedBy]) (by simp)
      | ok started =>
        obtain ⟨wait, verdict, w₄, last, hwait, h₃, rfl⟩ := Machine.runs_bind.mp h₂
        clear h₂
        obtain ⟨rfl, rfl, rfl⟩ := h₃
        rw [List.append_nil]
        have hobserves := Machine.runs_uses (Client.waitHealthy_observes _ _ _ _) hwait
        have hquiet : Quietly openSystem w₃ wait w' := .of_runs hwait
          (Program.uses_mono (fun _ => Call.quiet_of_observes) (Client.waitHealthy_observes _ _ _ _))
        refine .created hframe hcreate (.cons hrely₂ hstep₂ trivial hquiet) ?_ ?_
        · exact List.forall_mem_cons.mpr ⟨rfl, fun e he => emittedBy_observes (hobserves e he)⟩
        · rintro rfl
          exact .inr ⟨hrunning, w₂, w₃, w', wait, rfl, hwait⟩
    · next hstopped =>
      obtain ⟨rfl, rfl, rfl⟩ := h₁
      exact .created hframe hcreate .nil (by simp) fun _ => .inl ⟨by simpa using hstopped, rfl⟩

/-- Making the replacement touches no container that was there. -/
theorem StartRun.cautious {started : String × Option GoError}
    (h : StartRun ctx plan w trace started w') : Cautious parent trace := by
  cases h with
  | refused => simp [Cautious, Call.Removes, emittedBy, createCall]
  | created _ _ hrest hsilent _ =>
    refine List.forall_mem_cons.mpr ⟨⟨id, rfl⟩, fun e he => ⟨fun hremoves => ?_, hsilent e he⟩⟩
    have hquiet := hrest.2 e he
    unfold Call.Removes at hremoves
    split at hremoves
    · next heq =>
      rw [heq] at hquiet
      exact hquiet
    · exact hremoves

/-! ### Up to the rename -/

/-- The call stopped a container. -/
def Stops (id : String) (e : Event Calls World) : Prop :=
  match e with
  | ⟨_, .docker _ (.stop stopped _), .ok _⟩ => stopped = id
  | _ => False

/-- The call is one to start a container again, whatever became of the caller's context. -/
def StartsAgain (id : String) (e : Event Calls World) : Prop :=
  e.op = .docker .background (.start id)

/-- A stretch of a run of the helper that left every container in place. -/
structure Reached (parent : ContainerSpec) (w : World) (first : Trace Calls World) (w₁ : World) :
    Prop where
  cautious : Cautious parent first
  specs : Sheds w.engine.specs w₁.engine.specs
  issued : w₁.engine.issued = w.engine.issued

theorem Reached.next {first : Trace Calls World} {w₂ : World} (h : Reached parent w first w₁)
    (hframe : World.Frame Sheds w₁ w₂) {e : Event Calls World}
    (he : ¬ e.op.Removes parent.id ∧ emittedBy e = none) : Reached parent w (first ++ [e]) w₂ where
  cautious := h.cautious.append (List.forall_mem_singleton.mpr he)
  specs := h.specs.trans hframe.specs
  issued := hframe.issued.trans h.issued

/-- The host when the original carries the recovery name. -/
structure Aside (parent : ContainerSpec) (recovery : String) (w w₁ : World) : Prop where
  specs : Sheds (w.engine.specs.map (Engine.renamedSpec parent.id recovery)) w₁.engine.specs
  issued : w₁.engine.issued = w.engine.issued

/-- A plan for a container that was running or not. -/
structure PlanOf (parent : ContainerSpec) (targetImage : String) (running : Bool)
    (plan : RecreationPlan) : Prop where
  name : plan.name = parent.name
  image : plan.config.image = targetImage
  autoRemove : plan.hostConfig.autoRemove = parent.hostConfig.autoRemove
  wasRunning : plan.wasRunning = running

/-- How a run of the helper can go. -/
inductive HelperRun (ctx : Context) (parent : ContainerSpec) (targetImage token : String)
    (running : Bool) (w : World) : Trace Calls World → Option GoError → World → Prop
  | untouched {trace : Trace Calls World} {err : GoError} {w' : World}
    (hreached : Reached parent w trace w')
    (hresumed : (∃ e ∈ trace, Stops parent.id e) → ∃ e ∈ trace, StartsAgain parent.id e) :
    HelperRun ctx parent targetImage token running w trace (some err) w'
  | swapped {plan : RecreationPlan} {setup start last : Trace Calls World} {newID : String}
    {createErr out : Option GoError} {w₁ w₂ w' : World}
    (hplan : PlanOf parent targetImage running plan) (hcautious : Cautious parent setup)
    (haside : Aside parent (recoveryName plan token) w w₁)
    (hstart : StartRun ctx plan w₁ start (newID, createErr) w₂)
    (hlast : openSystem.Runs (match createErr with
      | none => dropParent ctx parent.id targetImage plan
      | some err => undoReplacement parent.id newID targetImage plan err) w₂ last out w') :
    HelperRun ctx parent targetImage token running w (setup ++ (start ++ last)) out w'

theorem setAside_runs {first : Trace Calls World} (hreached : Reached parent w first w₁)
    (hplan : PlanOf parent targetImage running plan)
    (hstops : (∃ e ∈ first, Stops parent.id e) → plan.wasRunning = true)
    (hrun : openSystem.Runs (setAside ctx parent.id targetImage token plan) w₁ trace out w') :
    HelperRun ctx parent targetImage token running w (first ++ trace) out w' := by
  obtain ⟨w₂, reply, w₃, rest, hrely, hstep, rfl, h₁⟩ := Machine.runs_request_bind.mp hrun
  clear hrun
  have hframe := openSystem_hosts.rely hrely
  rcases step_rename hstep with ⟨err, rfl, rfl⟩ | ⟨rfl, -, hspecs, hissued⟩
  · have hrenamed : Reached parent w (first ++ [⟨w₃, .docker ctx (.rename parent.id
        (recoveryName plan token)), .error err⟩]) w₃ := hreached.next hframe ⟨id, rfl⟩
    simp only at h₁
    split at h₁
    · obtain ⟨w₄, reply, w₅, tail, hrely₄, hstep₄, rfl, rfl, rfl, rfl⟩ :=
        Machine.runs_request_bind.mp h₁
      have hstarted := (openSystem_hosts.rely hrely₄).trans openSystem_hosts
        (step_quiet (by trivial) hstep₄).1
      rw [List.append_cons]
      refine .untouched (hrenamed.next hstarted ⟨id, rfl⟩) fun _ =>
        ⟨⟨w₄, .docker .background (.start parent.id), reply⟩, ?_, rfl⟩
      exact List.mem_append_right _ List.mem_cons_self
    · next hstopped =>
      obtain ⟨rfl, rfl, rfl⟩ := h₁
      refine .untouched hrenamed ?_
      rintro ⟨e, he, hstop⟩
      rcases List.mem_append.mp he with he | he
      · exact absurd (hstops ⟨e, he, hstop⟩) hstopped
      · obtain rfl := List.mem_singleton.mp he
        exact hstop.elim
  · obtain ⟨start, ⟨newID, createErr⟩, w₄, last, hstart, hlast, rfl⟩ := Machine.runs_bind.mp h₁
    have hcautious : Cautious parent (first ++ [⟨w₂, .docker ctx (.rename parent.id
        (recoveryName plan token)), .ok ()⟩]) :=
      hreached.cautious.append (List.forall_mem_singleton.mpr ⟨id, rfl⟩)
    rw [List.append_cons]
    refine .swapped hplan hcautious ⟨?_, ?_⟩ (startReplacement_runs hstart) ?_
    · rw [hspecs]
      exact (hreached.specs.trans hframe.specs).renamed _ _
    · exact hissued.trans (hframe.issued.trans hreached.issued)
    · cases createErr <;> exact hlast

theorem replaceParent_runs {first : Trace Calls World} (hreached : Reached parent w first w₁)
    (hplan : PlanOf parent targetImage running plan) (hstops : ∀ e ∈ first, ¬ Stops parent.id e)
    (hrun : openSystem.Runs (replaceParent ctx parent.id targetImage token plan) w₁ trace out w') :
    HelperRun ctx parent targetImage token running w (first ++ trace) out w' := by
  unfold replaceParent at hrun
  split at hrun
  · next hrunning =>
    obtain ⟨w₂, reply, w₃, rest, hrely, hstep, rfl, h₁⟩ := Machine.runs_request_bind.mp hrun
    clear hrun
    have hframe := (openSystem_hosts.rely hrely).trans openSystem_hosts (step_stop hstep).1
    cases reply with
    | error err =>
      obtain ⟨rfl, rfl, rfl⟩ := h₁
      refine .untouched (hreached.next hframe ⟨id, rfl⟩) ?_
      rintro ⟨e, he, hstop⟩
      rcases List.mem_append.mp he with he | he
      · exact absurd hstop (hstops e he)
      · obtain rfl := List.mem_singleton.mp he
        exact hstop.elim
    | ok stopped =>
      rw [List.append_cons]
      exact setAside_runs (hreached.next hframe ⟨id, rfl⟩) hplan (fun _ => hrunning) h₁
  · exact setAside_runs hreached hplan (fun ⟨e, he, hstop⟩ => absurd hstop (hstops e he)) hrun

/-- The container was running when a run first looked at it. -/
def foundRunning (id : String) (trace : Trace Calls World) : Bool :=
  (trace.head?.map fun e => (e.world.engine.states id).running).getD false

theorem runSelfUpdateHelper_runs (hparent : parent ∈ w.engine.specs)
    (hrun : openSystem.Runs (runSelfUpdateHelper ctx parent.id targetImage token) w trace out w') :
    HelperRun ctx parent targetImage token (foundRunning parent.id trace) w trace out w' := by
  obtain ⟨w₀, reply, w₁, rest, hrely, hstep, rfl, h₁⟩ := Machine.runs_request_bind.mp hrun
  clear hrun
  have hframe := openSystem_hosts.rely hrely
  have hreached : Reached parent w [⟨w₀, .docker ctx (.inspect parent.id), reply⟩] w₁ :=
    ⟨List.forall_mem_singleton.mpr ⟨id, rfl⟩, (step_inspect hstep).1 ▸ hframe.specs,
      (step_inspect hstep).1 ▸ hframe.issued⟩
  have hstops : ∀ e ∈ [(⟨w₀, .docker ctx (.inspect parent.id), reply⟩ : Event Calls World)],
      ¬ Stops parent.id e := List.forall_mem_singleton.mpr id
  obtain ⟨rfl, ⟨err, rfl⟩ | ⟨found, hmem, hid, -, rfl⟩⟩ := step_inspect hstep
  · obtain ⟨rfl, rfl, rfl⟩ := h₁
    exact .untouched hreached fun ⟨e, he, hstop⟩ => absurd hstop (hstops e he)
  · obtain rfl : found = parent :=
      List.inj_on_of_nodup_map w.engine.ids_nodup (hframe.specs.1.subset hmem) hparent hid
    cases hplan : buildRecreationPlan (w₁.engine.inspectResponse found) targetImage with
    | error err =>
      simp only [hplan] at h₁
      obtain ⟨rfl, rfl, rfl⟩ := h₁
      exact .untouched hreached fun ⟨e, he, hstop⟩ => absurd hstop (hstops e he)
    | ok plan =>
      simp only [hplan] at h₁
      obtain ⟨hname, himage, hauto, hrunning⟩ := helperPlan found.id hplan
      exact replaceParent_runs hreached ⟨hname, himage, hauto, hrunning⟩ hstops h₁

/-! ### The two ends -/

/-- How the end of a self-update whose replacement is ready can go. -/
inductive DropRun (ctx : Context) (parentID targetImage : String) (plan : RecreationPlan)
    (w : World) : Trace Calls World → Option GoError → World → Prop
  | kept {w' : World} {err : GoError} (hframe : World.Frame Sheds w w') :
    DropRun ctx parentID targetImage plan w [⟨w', .docker ctx (.remove parentID true), .error err⟩]
      (some (.wrap "remove recovery container" err)) w'
  | dropped {w₀ w₁ w' : World} (hframe : World.Frame Sheds w w₀)
    (hspecs : Sheds (Engine.specsWithout parentID w₀.engine.specs) w'.engine.specs) :
    DropRun ctx parentID targetImage plan w
      [⟨w₀, .docker ctx (.remove parentID true), .ok ()⟩,
        ⟨w₁, .emit (resultEvent .info "self_update.succeeded" plan.name targetImage
          "DoUpRo self-update succeeded"), ()⟩] none w'

theorem dropParent_runs {parentID : String}
    (hrun : openSystem.Runs (dropParent ctx parentID targetImage plan) w trace out w') :
    DropRun ctx parentID targetImage plan w trace out w' := by
  obtain ⟨w₀, reply, w₁, rest, hrely, hstep, rfl, h₁⟩ := Machine.runs_request_bind.mp hrun
  clear hrun
  have hframe := openSystem_hosts.rely hrely
  rcases step_remove hstep with ⟨err, rfl, rfl⟩ | ⟨-, rfl, -, hspecs, -⟩
  · obtain ⟨rfl, rfl, rfl⟩ := h₁
    exact .kept hframe
  · obtain ⟨w₂, reply, w₃, tail, hrely₂, hstep₂, rfl, rfl, rfl, rfl⟩ :=
      Machine.runs_request_bind.mp h₁
    obtain rfl := step_emit hstep₂
    exact .dropped hframe (hspecs ▸ (openSystem_hosts.rely hrely₂).specs)

/-- How the original can be put back. -/
inductive RestoreRun (parentID targetImage : String) (plan : RecreationPlan) (createErr : GoError)
    (w : World) : Trace Calls World → GoError → World → Prop
  | stranded {w' : World} {err : GoError} (hframe : World.Frame Sheds w w') :
    RestoreRun parentID targetImage plan createErr w
      [⟨w', .docker .background (.rename parentID plan.name), .error err⟩]
      (.wrap ("replacement failed (" ++ createErr.message ++ ") and recovery rename failed") err) w'
  | unstarted {w₀ w₁ w' : World} {err : GoError} (hframe : World.Frame Sheds w w₀)
    (hname : plan.name ∉ w₀.engine.specs.map ContainerSpec.name)
    (hspecs : Sheds (w₀.engine.specs.map (Engine.renamedSpec parentID plan.name)) w'.engine.specs) :
    RestoreRun parentID targetImage plan createErr w
      [⟨w₀, .docker .background (.rename parentID plan.name), .ok ()⟩,
        ⟨w₁, .docker .background (.start parentID), .error err⟩]
      (.wrap ("replacement failed (" ++ createErr.message ++ ") and recovery start failed") err) w'
  | restored {w₀ w₂ w' : World} (started : Trace Calls World) (hframe : World.Frame Sheds w w₀)
    (hname : plan.name ∉ w₀.engine.specs.map ContainerSpec.name)
    (hspecs : Sheds (w₀.engine.specs.map (Engine.renamedSpec parentID plan.name)) w'.engine.specs)
    (hstarted : if plan.wasRunning then
      ∃ w₁, started = [⟨w₁, .docker .background (.start parentID), .ok ()⟩] else started = []) :
    RestoreRun parentID targetImage plan createErr w
      (⟨w₀, .docker .background (.rename parentID plan.name), .ok ()⟩ :: (started ++
        [⟨w₂, .emit (resultEvent .error "self_update.failed" plan.name targetImage
          ("replacement failed and original container was restored: " ++ createErr.message)), ()⟩]))
      (.wrap "replacement failed; original container restored" createErr) w'

theorem restoreParent_runs {parentID : String} {createErr : GoError}
    (hrun : openSystem.Runs (restoreParent parentID targetImage plan createErr) w trace out w') :
    ∃ err, out = some err ∧ RestoreRun parentID targetImage plan createErr w trace err w' := by
  obtain ⟨w₀, reply, w₁, rest, hrely, hstep, rfl, h₁⟩ := Machine.runs_request_bind.mp hrun
  clear hrun
  have hframe := openSystem_hosts.rely hrely
  rcases step_rename hstep with ⟨err, rfl, rfl⟩ | ⟨rfl, hname, hspecs, -⟩
  · obtain ⟨rfl, rfl, rfl⟩ := h₁
    exact ⟨_, rfl, .stranded hframe⟩
  · simp only at h₁
    split at h₁
    · next hrunning =>
      obtain ⟨w₂, reply, w₃, tail, hrely₂, hstep₂, rfl, h₂⟩ := Machine.runs_request_bind.mp h₁
      clear h₁
      have hstart := (step_quiet (by trivial) hstep₂).2
      have hkept := (openSystem_hosts.rely hrely₂).specs
      rw [hspecs, ← hstart] at hkept
      cases reply with
      | error err =>
        obtain ⟨rfl, rfl, rfl⟩ := h₂
        exact ⟨_, rfl, .unstarted hframe hname hkept⟩
      | ok started =>
        obtain ⟨w₄, reply, w₅, last, hrely₄, hstep₄, rfl, rfl, rfl, rfl⟩ :=
          Machine.runs_request_bind.mp h₂
        obtain rfl := step_emit hstep₄
        refine ⟨_, rfl, .restored [_] hframe hname
          (hkept.trans (openSystem_hosts.rely hrely₄).specs) ?_⟩
        rw [if_pos hrunning]
        exact ⟨w₂, rfl⟩
    · next hstopped =>
      obtain ⟨w₂, reply, w₃, tail, hrely₂, hstep₂, rfl, rfl, rfl, rfl⟩ :=
        Machine.runs_request_bind.mp h₁
      obtain rfl := step_emit hstep₂
      refine ⟨_, rfl, .restored [] hframe hname
        (hspecs ▸ (openSystem_hosts.rely hrely₂).specs) ?_⟩
      rw [if_neg hstopped]

end Updater
end Doupro
