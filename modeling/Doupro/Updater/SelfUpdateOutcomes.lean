import Doupro.Updater.GuardProtocol
import Doupro.Updater.SelfUpdateHelperRuns

/-!
# What a self-update leaves behind

The helper ends in one of six ways, and in five of them the daemon's container is still
there; it is gone only if the replacement was ready.
-/

namespace Doupro

open Interaction

namespace Updater

variable {ctx : Context} {targetImage token : String} {plan : RecreationPlan}
  {parent spec : ContainerSpec} {running : Bool} {w w₁ w₂ w' : World} {trace : Trace Calls World}
  {out : Option GoError}

/-- A container made to replace another under its name. -/
structure Replaces (parent : ContainerSpec) (targetImage : String) (w : World)
    (spec : ContainerSpec) : Prop where
  name : spec.name = parent.name
  image : spec.config.image = targetImage
  autoRemove : spec.hostConfig.autoRemove = parent.hostConfig.autoRemove
  fresh : spec.id ∉ w.engine.issued

/-- The containers after the original was set aside. -/
def asideSpecs (parent : ContainerSpec) (token : String) (w : World) : List ContainerSpec :=
  w.engine.specs.map (Engine.renamedSpec parent.id (parent.name ++ "-doupro-recovery-" ++ token))

theorem mem_asideSpecs_issued (h : spec ∈ asideSpecs parent token w) :
    spec.id ∈ w.engine.issued := by
  obtain ⟨old, hold, rfl⟩ := List.mem_map.mp h
  rw [Engine.renamedSpec_id]
  exact w.engine.ids_issued old hold

/-- How a run of the helper can end: what is on the host, what was logged, what is returned. -/
inductive HelperOutcome (parent : ContainerSpec) (targetImage token : String) (w : World)
    (trace : Trace Calls World) : Option GoError → World → Prop
  /-- Nothing was renamed. -/
  | untouched {err : GoError} {w' : World} (hspecs : Sheds w.engine.specs w'.engine.specs)
    (hresumed : (∃ e ∈ trace, Stops parent.id e) → ∃ e ∈ trace, StartsAgain parent.id e)
    (hlog : emitted trace = []) : HelperOutcome parent targetImage token w trace (some err) w'
  /-- The replacement has taken the place of the original. -/
  | replaced {spec : ContainerSpec} {w' : World} (hspec : Replaces parent targetImage w spec)
    (hspecs : Sheds (Engine.specsWithout parent.id w.engine.specs ++ [spec]) w'.engine.specs)
    (hlog : emitted trace = [resultEvent .info "self_update.succeeded" parent.name targetImage
      "DoUpRo self-update succeeded"]) : HelperOutcome parent targetImage token w trace none w'
  /-- The replacement is ready, and the original still there under the recovery name. -/
  | kept {spec : ContainerSpec} {err : GoError} {w' : World}
    (hspec : Replaces parent targetImage w spec)
    (hspecs : Sheds (asideSpecs parent token w ++ [spec]) w'.engine.specs)
    (hlog : emitted trace = []) : HelperOutcome parent targetImage token w trace
      (some (.wrap "remove recovery container" err)) w'
  /-- The replacement is gone and the original has its name back. -/
  | restored {cause : GoError} {w' : World} (hspecs : Sheds w.engine.specs w'.engine.specs)
    (hresumed : foundRunning parent.id trace = true →
      ∃ e ∈ trace, StartsAgain parent.id e ∧ ¬ CallFailed e)
    (hlog : emitted trace = [resultEvent .error "self_update.failed" parent.name targetImage
      ("replacement failed and original container was restored: " ++ cause.message)]) :
    HelperOutcome parent targetImage token w trace
      (some (.wrap "replacement failed; original container restored" cause)) w'
  /-- The original has its name back but did not start. -/
  | unstarted {cause err : GoError} {w' : World} (hspecs : Sheds w.engine.specs w'.engine.specs)
    (hlog : emitted trace = []) : HelperOutcome parent targetImage token w trace
      (some (.wrap ("replacement failed (" ++ cause.message ++ ") and recovery start failed") err)) w'
  /-- The original keeps the recovery name. -/
  | stranded {added : List ContainerSpec} {cause err : GoError} {w' : World}
    (hlength : added.length ≤ 1) (hadded : ∀ spec ∈ added, Replaces parent targetImage w spec)
    (hspecs : Sheds (asideSpecs parent token w ++ added) w'.engine.specs)
    (hlog : emitted trace = []) : HelperOutcome parent targetImage token w trace
      (some (.wrap ("replacement failed (" ++ cause.message ++ ") and recovery rename failed") err))
      w'

/-! ### The host along the way -/

theorem StartRun.specs {newID : String} {createErr : Option GoError}
    (hplan : PlanOf parent targetImage running plan)
    (haside : Aside parent (recoveryName plan token) w w₁)
    (h : StartRun ctx plan w₁ trace (newID, createErr) w₂) :
    (newID = "" ∧ createErr.isSome ∧ Sheds (asideSpecs parent token w) w₂.engine.specs) ∨
    ∃ spec, newID = spec.id ∧ spec.id ≠ "" ∧ Replaces parent targetImage w spec ∧
      Sheds (asideSpecs parent token w ++ [spec]) w₂.engine.specs := by
  have hset := haside.specs
  rw [recoveryName, hplan.name] at hset
  cases h with
  | refused hframe => exact .inl ⟨rfl, rfl, hset.trans hframe.specs⟩
  | @created w₀ w₃ _ spec _ _ hframe hcreate hrest _ _ =>
    refine .inr ⟨spec, rfl, hcreate.nonempty, ⟨hcreate.named.trans hplan.name,
      hcreate.configImage.trans hplan.image, hcreate.autoRemove.trans hplan.autoRemove, ?_⟩, ?_⟩
    · have hfresh := hcreate.fresh
      rwa [hframe.issued, haside.issued] at hfresh
    · have hmade := (hset.trans hframe.specs).append [spec]
      rw [← hcreate.specs] at hmade
      exact hmade.trans (hrest.frame openSystem_hosts).specs

/-- A replacement is another container than those that were there. -/
theorem Replaces.ne_aside (hspec : Replaces parent targetImage w spec) {other : ContainerSpec}
    (h : other ∈ asideSpecs parent token w) : other.id ≠ spec.id :=
  fun hid => hspec.fresh (hid ▸ mem_asideSpecs_issued h)

theorem Replaces.ne_parent (hspec : Replaces parent targetImage w spec)
    (hparent : parent ∈ w.engine.specs) : spec.id ≠ parent.id :=
  fun hid => hspec.fresh (hid ▸ w.engine.ids_issued parent hparent)

/-- What is left of a failed replacement when the original is put back. -/
structure Undone (parent : ContainerSpec) (targetImage token : String) (w : World)
    (first : Trace Calls World) (left : List ContainerSpec) (w₁ : World) : Prop where
  cautious : Cautious parent first
  length : left.length ≤ 1
  replaces : ∀ spec ∈ left, Replaces parent targetImage w spec
  specs : Sheds (asideSpecs parent token w ++ left) w₁.engine.specs

theorem undoReplacement_runs (hparent : parent ∈ w.engine.specs) {start : Trace Calls World}
    {newID : String} {createErr : GoError} (hplan : PlanOf parent targetImage running plan)
    (haside : Aside parent (recoveryName plan token) w w₁)
    (hstart : StartRun ctx plan w₁ start (newID, some createErr) w₂)
    (hrun : openSystem.Runs (undoReplacement parent.id newID targetImage plan createErr) w₂ trace
      out w') :
    ∃ first rest left w₃ err, trace = first ++ rest ∧
      Undone parent targetImage token w first left w₃ ∧ out = some err ∧
      RestoreRun parent.id targetImage plan createErr w₃ rest err w' := by
  rcases hstart.specs hplan haside with ⟨rfl, -, hspecs⟩ | ⟨spec, rfl, hnonempty, hspec, hspecs⟩
  · obtain ⟨err, rfl, hrestore⟩ := restoreParent_runs hrun
    exact ⟨[], trace, [], w₂, err, rfl, ⟨by simp [Cautious], by simp, by simp,
      by rwa [List.append_nil]⟩, rfl, hrestore⟩
  · unfold undoReplacement at hrun
    rw [if_pos hnonempty] at hrun
    obtain ⟨w₃, reply, w₄, rest, hrely, hstep, rfl, h₁⟩ := Machine.runs_request_bind.mp hrun
    obtain ⟨err, rfl, hrestore⟩ := restoreParent_runs h₁
    have hmet := hspecs.trans (openSystem_hosts.rely hrely).specs
    have hcautious : Cautious parent [⟨w₃, .docker .background (.remove spec.id true), reply⟩] :=
      List.forall_mem_singleton.mpr ⟨hspec.ne_parent hparent, rfl⟩
    rcases step_remove hstep with ⟨cause, -, rfl⟩ | ⟨-, -, -, hremoved, -⟩
    · exact ⟨_, rest, [spec], w₄, err, rfl, ⟨hcautious, by simp,
        List.forall_mem_singleton.mpr hspec, hmet⟩, rfl, hrestore⟩
    · refine ⟨_, rest, [], w₄, err, rfl, ⟨hcautious, by simp, by simp, ?_⟩, rfl, hrestore⟩
      have hleft := hmet.without spec.id
      rw [Engine.specsWithout_fresh fun other hother => hspec.ne_aside hother] at hleft
      rw [List.append_nil, hremoved]
      exact hleft

/-- The original has its name back once no replacement carries it. -/
theorem Undone.renamed (hparent : parent ∈ w.engine.specs) {first : Trace Calls World}
    {left : List ContainerSpec} (h : Undone parent targetImage token w first left w₁)
    (hframe : World.Frame Sheds w₁ w₂) (hname : parent.name ∉ w₂.engine.specs.map ContainerSpec.name)
    (hback : Sheds (w₂.engine.specs.map (Engine.renamedSpec parent.id parent.name))
      w'.engine.specs) : Sheds w.engine.specs w'.engine.specs := by
  have hspecs := h.specs.trans hframe.specs
  have hset : Sheds (asideSpecs parent token w) w₂.engine.specs := by
    match left, h.length, h.replaces with
    | [], _, _ => rwa [List.append_nil] at hspecs
    | [spec], _, hleft =>
      refine hspecs.of_gone fun hmem => hname ?_
      rw [← (hleft spec List.mem_cons_self).name]
      exact List.mem_map_of_mem hmem
  have hown : ∀ spec ∈ w.engine.specs, spec.id = parent.id → spec.name = parent.name :=
    fun spec hmem hid => congrArg ContainerSpec.name
      (List.inj_on_of_nodup_map w.engine.ids_nodup hmem hparent hid)
  have hrenamed := hset.renamed parent.id parent.name
  rw [asideSpecs, Engine.renamed_back _ hown] at hrenamed
  exact hrenamed.trans hback

/-! ### Every run -/

theorem emitted_append {first rest : Trace Calls World} :
    emitted (first ++ rest) = emitted first ++ emitted rest :=
  List.filterMap_append

/-- How a self-update ends whose replacement is ready. -/
theorem dropParent_outcome (hparent : parent ∈ w.engine.specs)
    (hplan : PlanOf parent targetImage running plan) (hspec : Replaces parent targetImage w spec)
    (hspecs : Sheds (asideSpecs parent token w ++ [spec]) w₁.engine.specs)
    {last : Trace Calls World} (hlog : emitted trace = emitted last)
    (hlast : DropRun ctx parent.id targetImage plan w₁ last out w') :
    HelperOutcome parent targetImage token w trace out w' := by
  cases hlast with
  | kept hframe => exact .kept hspec (hspecs.trans hframe.specs) hlog
  | dropped hframe hdropped =>
    refine .replaced hspec ?_ (hlog.trans ?_)
    · have hleft := (hspecs.trans hframe.specs).without parent.id
      rw [Engine.specsWithout_append_new (hspec.ne_parent hparent), asideSpecs,
        Engine.specsWithout_renamed] at hleft
      exact hleft.trans hdropped
    · rw [hplan.name]
      rfl

/-- How a self-update ends whose replacement failed. -/
theorem restoreParent_outcome (hparent : parent ∈ w.engine.specs)
    (hplan : PlanOf parent targetImage (foundRunning parent.id trace) plan)
    {first last : Trace Calls World} {left : List ContainerSpec}
    (hundone : Undone parent targetImage token w first left w₁)
    (hlog : emitted trace = emitted last) (hmem : ∀ e ∈ last, e ∈ trace) {createErr err : GoError}
    (hlast : RestoreRun parent.id targetImage plan createErr w₁ last err w') :
    HelperOutcome parent targetImage token w trace (some err) w' := by
  cases hlast with
  | stranded hframe =>
    exact .stranded hundone.length hundone.replaces (hundone.specs.trans hframe.specs) hlog
  | unstarted hframe hname hback =>
    rw [hplan.name] at hname hback
    exact .unstarted (hundone.renamed hparent hframe hname hback) hlog
  | @restored w₂ w₃ _ started hframe hname hback hstarted =>
    rw [hplan.name] at hname hback
    refine .restored (hundone.renamed hparent hframe hname hback) ?_ ?_
    · intro hfound
      rw [if_pos (hplan.wasRunning.trans hfound)] at hstarted
      obtain ⟨w₄, rfl⟩ := hstarted
      refine ⟨⟨w₄, .docker .background (.start parent.id), .ok ()⟩, hmem _ ?_, rfl, id⟩
      simp
    · have hstart : emitted started = [] := by
        split at hstarted
        · obtain ⟨w₄, rfl⟩ := hstarted
          rfl
        · subst hstarted
          rfl
      refine hlog.trans ?_
      rw [← List.singleton_append, emitted_append, emitted_append, hstart, hplan.name]
      rfl

/-- Every run of the helper ends in one of six ways: nothing was renamed; the replacement
took over; it took over but the original could not be removed; the original was restored,
was restored but not started, or kept the recovery name. -/
theorem selfUpdateHelper_outcome (hparent : parent ∈ w.engine.specs)
    (hrun : openSystem.Runs (runSelfUpdateHelper ctx parent.id targetImage token) w trace out w') :
    HelperOutcome parent targetImage token w trace out w' := by
  cases runSelfUpdateHelper_runs hparent hrun with
  | untouched hreached hresumed => exact .untouched hreached.specs hresumed hreached.cautious.emitted
  | @swapped plan setup start last newID createErr _ w₁ w₂ _ hplan hcautious haside hstart hlast =>
    have hlog : emitted (setup ++ (start ++ last)) = emitted last := by
      rw [← List.append_assoc, emitted_append,
        (hcautious.append hstart.cautious).emitted, List.nil_append]
    cases createErr with
    | none =>
      obtain ⟨-, hnone, -⟩ | ⟨spec, -, -, hspec, hspecs⟩ := hstart.specs hplan haside
      · cases hnone
      · exact dropParent_outcome hparent hplan hspec hspecs hlog (dropParent_runs hlast)
    | some cause =>
      obtain ⟨first, rest, left, w₃, err, rfl, hundone, rfl, hrestore⟩ :=
        undoReplacement_runs hparent hplan haside hstart hlast
      have hrest : emitted (first ++ rest) = emitted rest := by
        rw [emitted_append, hundone.cautious.emitted, List.nil_append]
      exact restoreParent_outcome hparent hplan hundone (hlog.trans hrest) (by simp +contextual)
        hrestore

/-- The daemon's container, and the target image already pulled. -/
def pulledDaemonWorld : World where
  engine := Engine.ofContainer daemonSpec { status := .running } [("doupro:2", "sha256:e")] []
  store := {}

/-- The helper of a daemon, in a world that plays along by a script. -/
def helperRun (turns : List (Nat × Turn)) : Played (Option GoError) :=
  (runSelfUpdateHelper (.request 0) "d0" "doupro:2" "7").play pulledDaemonWorld (script turns)

theorem selfUpdateHelper_outcome_replaced :
    (helperRun [(3, .creating "d1")]).value = none ∧
    (helperRun [(3, .creating "d1")]).world.engine.specs.map ContainerSpec.id = ["d1"] ∧
    HelperOutcome daemonSpec "doupro:2" "7" pulledDaemonWorld (helperRun [(3, .creating "d1")]).trace
      (helperRun [(3, .creating "d1")]).value (helperRun [(3, .creating "d1")]).world := by
  refine ⟨by decide +kernel, by decide +kernel, ?_⟩
  exact selfUpdateHelper_outcome List.mem_cons_self (Go.play_runs _ _ _)

/-- What was done before the original may be removed: a container with its name was created
from the target image and, if the original had been running, started and found ready. -/
def ReplacementReady (ctx : Context) (parent : ContainerSpec) (targetImage : String)
    (running : Bool) (front : Trace Calls World) : Prop :=
  ∃ setup w₀ plan newID rest,
    front = setup ++ ⟨w₀, createCall ctx plan, .ok newID⟩ :: rest ∧
    PlanOf parent targetImage running plan ∧ Ready ctx plan newID rest

/-- How a run of the helper comes to its end: the original is removed last, if at all. -/
inductive RemovalRun (ctx : Context) (parent : ContainerSpec) (targetImage : String)
    (running : Bool) (front : Trace Calls World) : Trace Calls World → Option GoError → Prop
  | never {err : GoError} : RemovalRun ctx parent targetImage running front [] (some err)
  | refused {w : World} {err cause : GoError}
    (hready : ReplacementReady ctx parent targetImage running front) :
    RemovalRun ctx parent targetImage running front
      [⟨w, .docker ctx (.remove parent.id true), .error cause⟩] (some err)
  | done {w₁ w₂ : World} {event : LogEvent}
    (hready : ReplacementReady ctx parent targetImage running front) :
    RemovalRun ctx parent targetImage running front
      [⟨w₁, .docker ctx (.remove parent.id true), .ok ()⟩, ⟨w₂, .emit event, ()⟩] none

theorem RestoreRun.keeps {createErr err : GoError}
    (h : RestoreRun parent.id targetImage plan createErr w trace err w') :
    ∀ e ∈ trace, ¬ e.op.Removes parent.id := by
  cases h with
  | stranded => simp [Call.Removes]
  | unstarted => simp [Call.Removes]
  | restored started hframe hname hback hstarted =>
    split at hstarted
    · obtain ⟨w₁, rfl⟩ := hstarted
      simp [Call.Removes]
    · subst hstarted
      simp [Call.Removes]

theorem selfUpdateHelper_removal (hparent : parent ∈ w.engine.specs)
    (hrun : openSystem.Runs (runSelfUpdateHelper ctx parent.id targetImage token) w trace out w') :
    ∃ front last, trace = front ++ last ∧ (∀ e ∈ front, ¬ e.op.Removes parent.id) ∧
      RemovalRun ctx parent targetImage (foundRunning parent.id trace) front last out := by
  cases runSelfUpdateHelper_runs hparent hrun with
  | untouched hreached _ =>
    exact ⟨trace, [], by simp, fun e he => (hreached.cautious e he).1, .never⟩
  | @swapped plan setup start last newID createErr _ w₁ w₂ _ hplan hcautious haside hstart hlast =>
    have hkeeps : ∀ e ∈ setup ++ start, ¬ e.op.Removes parent.id := fun e he =>
      (hcautious.append hstart.cautious e he).1
    cases createErr with
    | none =>
      refine ⟨setup ++ start, last, by simp, hkeeps, ?_⟩
      have hready : ReplacementReady ctx parent targetImage
          (foundRunning parent.id (setup ++ (start ++ last))) (setup ++ start) := by
        cases hstart with
        | created hframe hcreate hrest hsilent hready =>
          exact ⟨setup, _, plan, _, _, rfl, hplan, hready rfl⟩
      cases dropParent_runs hlast with
      | kept hframe => exact .refused hready
      | dropped hframe hspecs => exact .done hready
    | some cause =>
      obtain ⟨first, rest, left, w₃, err, rfl, hundone, rfl, hrestore⟩ :=
        undoReplacement_runs hparent hplan haside hstart hlast
      refine ⟨setup ++ (start ++ (first ++ rest)), [], by simp, ?_, .never⟩
      rw [← List.append_assoc, ← List.append_assoc, List.append_assoc (setup ++ start)]
      refine List.forall_mem_append.mpr ⟨hkeeps, List.forall_mem_append.mpr ⟨?_, hrestore.keeps⟩⟩
      exact fun e he => (hundone.cautious e he).1

/-- The removal of the original is a call that nothing but the log follows. -/
theorem RemovalRun.first_removal {front last before after : Trace Calls World} {e : Event Calls World}
    (hfront : ∀ e ∈ front, ¬ e.op.Removes parent.id)
    (h : RemovalRun ctx parent targetImage running front last out)
    (htrace : front ++ last = before ++ e :: after) (he : e.op.Removes parent.id) :
    ReplacementReady ctx parent targetImage running before := by
  have hlate : ∃ more, before = front ++ more ∧ last = more ++ e :: after := by
    rcases List.append_eq_append_iff.mp htrace with ⟨more, hbefore, hlast⟩ | ⟨more, hfirst, hrest⟩
    · exact ⟨more, hbefore, hlast⟩
    · cases more with
      | nil => exact ⟨[], by simpa using hfirst.symm, by simpa using hrest.symm⟩
      | cons first rest =>
        obtain ⟨rfl, -⟩ := List.cons.inj hrest
        exact absurd he (hfront e (by simp [hfirst]))
  obtain ⟨more, rfl, hlast⟩ := hlate
  cases h with
  | never => simp at hlast
  | refused hready =>
    cases more with
    | nil => rwa [List.append_nil]
    | cons first rest => simp at hlast
  | done hready =>
    match more, hlast with
    | [], _ => rwa [List.append_nil]
    | [first], hlast =>
      obtain ⟨-, hlog⟩ := List.cons.inj hlast
      obtain ⟨rfl, -⟩ := List.cons.inj hlog
      exact he.elim
    | first :: second :: rest, hlast => simp at hlast

end Updater
end Doupro
