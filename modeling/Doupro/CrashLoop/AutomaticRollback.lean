import Doupro.CrashLoop.Monitor
import Doupro.System.Steady
import Doupro.Updater.Waits

/-!
# What an automatic rollback ends with

The rollback recreates the container from the snapshot its wait left: stopped if the
snapshot says so, and not at all from a state no plan can be built for. Neither is an error
of Docker or of the store. The main result says when it ends with the recorded image running.
-/

namespace Doupro

open Interaction

namespace Updater

variable {M : Machine Calls World} {R : List ContainerSpec → List ContainerSpec → Prop}
  {ctx : Context} {plan : RecreationPlan} {id : String}

/-! ### The calls after a container was created -/

/-- The calls on the created container when none of them fails, and whether they succeed. -/
inductive Checked (M : Machine Calls World) (ctx : Context) (plan : RecreationPlan) (id : String) :
    Trace Calls World → Bool → Prop
  | unlike {w : World} {info : InspectResponse} (h : validateRecreation plan info ≠ none) :
    Checked M ctx plan id [⟨w, .docker ctx (.inspect id), .ok info⟩] false
  | stopped {w : World} {info : InspectResponse} (h : validateRecreation plan info = none)
    (hwas : plan.wasRunning = false) :
    Checked M ctx plan id [⟨w, .docker ctx (.inspect id), .ok info⟩] true
  | unhealthy {w : World} {info : InspectResponse} {front : Trace Calls World} {err : GoError}
    (h : validateRecreation plan info = none) (hwas : plan.wasRunning = true)
    (hwait : Waited M ctx id front (some err)) :
    Checked M ctx plan id (⟨w, .docker ctx (.inspect id), .ok info⟩ :: front) false
  | started {w w₁ : World} {info last : InspectResponse} {front : Trace Calls World}
    (h : validateRecreation plan info = none) (hwas : plan.wasRunning = true)
    (hwait : Waited M ctx id front none) :
    Checked M ctx plan id (⟨w, .docker ctx (.inspect id), .ok info⟩ ::
      (front ++ [⟨w₁, .docker ctx (.inspect id), .ok last⟩])) true

/-- A recreation whose plan can be built and whose calls do not fail gets to its checks. -/
theorem RecreateRun.checked {oldID targetImage : String} {before : InspectResponse} {w w' : World}
    {trace : Trace Calls World} {out : RecreationResult × Option GoError} (hM : Hosts M R)
    (h : RecreateRun M R ctx oldID before targetImage w trace out w')
    (hplan : buildRecreationPlan before targetImage = .ok plan)
    (hcalls : ∀ e ∈ trace, ¬ CallFailed e) :
    ∃ pre w₀ id rest, trace = pre ++ ⟨w₀, createCall ctx plan, .ok id⟩ :: rest ∧
      inspections pre = [] ∧ w₀.engine.issued = w.engine.issued ∧
      Checked M ctx plan id rest out.2.isNone := by
  cases h with
  | unplanned hfailed =>
    rw [hplan] at hfailed
    cases hfailed
  | unpulled => exact absurd trivial (hcalls _ List.mem_cons_self)
  | @pulled plan' pulls rest out w₁ _ hplan' hpulled hrun =>
    obtain rfl : plan' = plan := Except.ok.inj (hplan'.symm.trans hplan)
    obtain ⟨-, -, -, hissued⟩ := hpulled.leaves hM
    have hpulls : inspections pulls = [] := by cases hpulled <;> rfl
    cases hrun with
    | halted h =>
      obtain ⟨e, he, hfailed⟩ := h.call
      exact absurd hfailed (hcalls e (List.mem_append_right _ he))
    | @replaced pre tail _ w₂ _ hcleared hreplaced =>
      have hpre : inspections pre = [] :=
        List.filterMap_eq_nil_iff.mpr fun e he => (hcleared.silent e he).2.2.2
      have hfront : inspections (pulls ++ pre) = [] := by
        rw [inspections_append]
        exact List.append_eq_nil_iff.mpr ⟨hpulls, hpre⟩
      cases hreplaced with
      | @refused _ err _ =>
        exact absurd trivial (hcalls ⟨w', createCall ctx plan', .error err⟩ (by simp))
      | @created w₃ w₄ _ spec rest _ hframe hlive hcreate hrest hid hverdict =>
        refine ⟨pulls ++ pre, w₃, spec.id, rest, by simp, hfront,
          (hframe.issued.trans hcleared.issued).trans hissued, ?_⟩
        have hrest : ∀ e ∈ rest, ¬ CallFailed e := fun e he =>
          hcalls e (by simp [he])
        unfold Verdict at hverdict
        cases hout : out.2 with
        | none =>
          rw [hout] at hverdict
          obtain ⟨w₅, info, tail, rfl, hvalid, ⟨hwas, rfl, -⟩ | ⟨hwas, hstarted⟩⟩ := hverdict
          · exact .stopped hvalid hwas
          · unfold Started at hstarted
            rw [hout] at hstarted
            obtain ⟨front, made, hwait, -, -, rfl, -⟩ := hstarted
            exact .started hvalid hwas hwait
        | some err =>
          rw [hout] at hverdict
          rcases hverdict with ⟨e, he, hfailed⟩ |
            ⟨w₅, info, tail, rfl, ⟨hvalid, rfl⟩ | ⟨hvalid, hwas, err', hwait⟩⟩
          · exact absurd hfailed (hrest e he)
          · exact .unlike hvalid
          · exact .unhealthy hvalid hwas hwait

/-- What Docker reports of a container that came up: it is what the plan asks for, and a
health check it has turns healthy. -/
def CameUp (plan : RecreationPlan) : List InspectResponse → Prop
  | fidelity :: first :: polls => validateRecreation plan fidelity = none ∧
      (first.health = none ∨ ∃ info ∈ polls, info.health = some "healthy")
  | _ => False

variable {issued : List String} {spec : ContainerSpec} {w w' : World} {front : Trace Calls World}

/-- What the wait after a start decides about a container that keeps running. -/
theorem waited_reports {verdict : Option GoError} (hfresh : spec.id ∉ issued)
    (hwait : Waited (steadySystem issued) .background spec.id front verdict)
    (hpath : (steadySystem issued).Path w front w') (hcalls : ∀ e ∈ front, ¬ CallFailed e)
    {status : ContainerStatus} (h : World.Holds spec status w) :
    World.Holds spec .running w' ∧ ∃ first polls, inspections front = first :: polls ∧
      (verdict = none ↔ first.health = none ∨ ∃ info ∈ polls, info.health = some "healthy") := by
  obtain ⟨w₀, w₁, w₂, wait, rfl, hruns⟩ := hwait
  obtain ⟨w₃, hrely, hstep, hwaiting⟩ := hpath
  have hstarted := (h.rely hfresh hrely).start hstep
  have hwatches := Machine.runs_uses (Client.waitHealthy_watches _ _ _ _) hruns
  refine ⟨hstarted.path hfresh hwaiting fun e he =>
    Call.keepsStates_of_observes (Call.observes_of_watches (hwatches e he)), ?_⟩
  change ∃ first polls, inspections wait = first :: polls ∧ _
  have hup : ∀ info ∈ inspections wait, info.running = true := by
    intro info hinfo
    obtain ⟨e, he, hinspected⟩ := List.mem_filterMap.mp hinfo
    exact inspectedBy_running hfresh hwaiting hwatches hstarted he hinspected
  exact Client.waitHealthy_passes (system_hosts _) hruns
    (fun e he => hcalls e (List.mem_cons_of_mem _ he)) hup

/-- The checks pass exactly as Docker's reports say, and the container they pass on ends
running if the original ran. -/
theorem Checked.cameUp {rest : Trace Calls World} {passed : Bool}
    (h : Checked (steadySystem issued) .background plan spec.id rest passed)
    (hfresh : spec.id ∉ issued) (hpath : (steadySystem issued).Path w rest w')
    (hcalls : ∀ e ∈ rest, ¬ CallFailed e) (hholds : World.Holds spec .created w) :
    (CameUp plan (inspections rest) ↔ passed = true ∧ plan.wasRunning = true) ∧
      (passed = true → World.Holds spec (if plan.wasRunning then .running else .created) w') := by
  have hinspect : ∀ {w₁ w₂ : World} {info : InspectResponse} {tail : Trace Calls World},
      (steadySystem issued).Path w (⟨w₁, .docker .background (.inspect spec.id), .ok info⟩ :: tail)
        w₂ → ∃ w₃, World.Holds spec .created w₃ ∧ (steadySystem issued).Path w₃ tail w₂ := by
    rintro w₁ w₂ info tail ⟨w₃, hrely, hstep, htail⟩
    have hcall : (Call.docker .background (.inspect spec.id)).KeepsStates := trivial
    exact ⟨w₃, (hholds.rely hfresh hrely).congr (step_keepsStates hcall hstep), htail⟩
  cases h with
  | unlike h =>
    rw [inspections_inspect]
    simp [CameUp]
  | stopped h hwas =>
    obtain ⟨w₃, hholds, rfl⟩ := hinspect hpath
    rw [inspections_inspect]
    simpa [CameUp, hwas] using hholds
  | unhealthy h hwas hwait =>
    obtain ⟨w₃, hholds, htail⟩ := hinspect hpath
    obtain ⟨-, first, polls, hreports, hpasses⟩ := waited_reports hfresh hwait htail
      (fun e he => hcalls e (List.mem_cons_of_mem _ he)) hholds
    have hnot := not_iff_not.mpr hpasses
    simp only [reduceCtorEq, not_false_eq_true, true_iff] at hnot
    rw [inspections_inspect, hreports]
    simpa [CameUp, h] using hnot
  | @started w₁ w₂ info last front h hwas hwait =>
    obtain ⟨w₃, hholds, htail⟩ := hinspect hpath
    obtain ⟨w₄, hfront, hlast⟩ := Machine.path_append.mp htail
    obtain ⟨hrunning, first, polls, hreports, hpasses⟩ := waited_reports hfresh hwait hfront
      (fun e he => hcalls e (List.mem_cons_of_mem _ (List.mem_append_left _ he))) hholds
    have hpassed := hpasses.mp rfl
    have hall : inspections (⟨w₁, .docker .background (.inspect spec.id), .ok info⟩ ::
        (front ++ [⟨w₂, .docker .background (.inspect spec.id), .ok last⟩])) =
        info :: first :: (polls ++ [last]) := by
      rw [inspections_inspect, inspections_append, hreports]
      rfl
    refine ⟨?_, fun _ => ?_⟩
    · rw [hall]
      refine iff_of_true ⟨h, ?_⟩ ⟨rfl, hwas⟩
      rcases hpassed with hnone | ⟨info', hinfo', hhealthy⟩
      · exact .inl hnone
      · exact .inr ⟨info', List.mem_append_left _ hinfo', hhealthy⟩
    · rw [if_pos hwas]
      exact hrunning.path hfresh hlast (by simp [Call.KeepsStates])

/-- What a recreation made, if its checks passed, and what Docker reported of it. -/
theorem recreated_status {oldID image : String} {before : InspectResponse} {w₁ w₂ : World}
    {trace : Trace Calls World} {out : RecreationResult × Option GoError}
    (hplan : buildRecreationPlan before image = .ok plan)
    (hrecreate : RecreateRun (steadySystem issued) R .background oldID before image w₁ trace out w₂)
    (hM : Hosts (steadySystem issued) R) (hissued : w₁.engine.issued = issued)
    (hpath : (steadySystem issued).Path w trace w') (hcalls : ∀ e ∈ trace, ¬ CallFailed e) :
    (CameUp plan (inspections trace) ↔ out.2 = none ∧ plan.wasRunning = true) ∧
      (out.2 = none → ∃ spec, spec.id ∉ issued ∧ spec.name = plan.name ∧
        spec.config.image = image ∧ (hasPrefix image "sha256:" = true → spec.image = image) ∧
        World.Holds spec (if plan.wasRunning then .running else .created) w') := by
  obtain ⟨pre, w₀, id, rest, rfl, hpre, hsame, hchecked⟩ := hrecreate.checked hM hplan hcalls
  obtain ⟨w₃, -, w₄, hrely, hstep, hrest⟩ := Machine.path_append.mp hpath
  rcases step_create hstep with ⟨err, herr, -⟩ | ⟨spec, -, hreply, hcreate⟩
  · cases herr
  obtain rfl := Except.ok.inj hreply
  have hfresh : spec.id ∉ issued := by
    rw [← hissued, ← hsame]
    exact hcreate.fresh
  have hholds : World.Holds spec .created w₄ :=
    ⟨hcreate.specs ▸ List.mem_append_right _ List.mem_cons_self, hcreate.state⟩
  obtain ⟨hcame, hstatus⟩ := hchecked.cameUp hfresh hrest
    (fun e he => hcalls e (by simp [he])) hholds
  have hreports : inspections (pre ++ ⟨w₀, createCall .background plan, .ok spec.id⟩ :: rest) =
      inspections rest := by
    rw [inspections_append, hpre]
    rfl
  rw [Option.isNone_iff_eq_none] at hcame hstatus
  rw [hreports]
  refine ⟨hcame, fun hout => ⟨spec, hfresh, hcreate.named, hcreate.configImage.trans (plan_image hplan),
    fun hdigest => ?_, hstatus hout⟩⟩
  have himage := hcreate.image
  rw [plan_image hplan, Engine.resolve, if_pos hdigest] at himage
  exact (Option.some.inj himage).symm

/-! ### Reading the attempt off the trace -/

/-- What Docker reported between the first two log entries of an operation. -/
def attemptReports (trace : Trace Calls World) : List InspectResponse :=
  inspections ((trace.dropWhile fun e => !isEmit e.op).tail.takeWhile fun e => !isEmit e.op)

theorem attemptReports_opened {opening : Trace Calls World} (w : World) (event : LogEvent)
    (rest : Trace Calls World) (hunlogged : ∀ e ∈ opening, isEmit e.op = false) :
    attemptReports (opening ++ ⟨w, .emit event, ()⟩ :: rest) =
      inspections (rest.takeWhile fun e => !isEmit e.op) := by
  unfold attemptReports
  rw [List.dropWhile_append_of_pos (by simpa using hunlogged)]
  simp [isEmit]

theorem isEmit_onDocker {call : Call} (h : OnDocker call) : isEmit call = false := by
  unfold isEmit
  split
  · exact h.elim
  · rfl

theorem inspections_offDocker {trace : Trace Calls World} (h : ∀ e ∈ trace, e.op.OffDocker) :
    inspections trace = [] := by
  refine List.filterMap_eq_nil_iff.mpr fun e he => ?_
  have hoff := h e he
  unfold inspectedBy
  split
  · exact hoff.elim
  · rfl

/-- Neither a log entry nor calls to other servers add to the reports of an attempt. -/
theorem inspections_attempt {back : Trace Calls World} (hfront : ∀ e ∈ front, OnDocker e.op)
    (hback : (∀ e ∈ back, e.op.OffDocker) ∨ ∃ e rest, back = e :: rest ∧ isEmit e.op = true) :
    inspections ((front ++ back).takeWhile fun e => !isEmit e.op) = inspections front := by
  have hsilent : ∀ e ∈ front, (!isEmit e.op) = true := fun e he => by
    rw [isEmit_onDocker (hfront e he)]
    rfl
  rw [List.takeWhile_append_of_pos hsilent, inspections_append]
  rcases hback with hoff | ⟨e, rest, rfl, hemit⟩
  · have hnone : inspections (back.takeWhile fun e => !isEmit e.op) = [] :=
      inspections_offDocker fun e he => hoff e ((List.takeWhile_sublist _).subset he)
    rw [hnone, List.append_nil]
  · simp [hemit]

theorem Opened.prepend {opening lookup : Trace Calls World} {before : InspectResponse}
    {w₁ w₂ : World} (h : Opened M ctx id w₁ opening before w₂) (hquiet : Quietly M w lookup w₁)
    (hunlogged : ∀ e ∈ lookup, isEmit e.op = false) :
    Opened M ctx id w (lookup ++ opening) before w₂ := by
  refine ⟨hquiet.append h.quiet, List.forall_mem_append.mpr ⟨hunlogged, h.unlogged⟩, ?_⟩
  obtain ⟨earlier, w₀, spec, later, rfl, hmem, hid, hbefore, ⟨w₃, hpath, hrely⟩, hlater⟩ := h.snapshot
  exact ⟨lookup ++ earlier, w₀, spec, later, by simp, hmem, hid, hbefore,
    ⟨w₃, Machine.path_append.mpr ⟨w₁, hquiet.1, hpath⟩, hrely⟩, hlater⟩

/-! ### A rollback that fails leaves the watches -/

theorem RevertRun.watches (hM : Hosts M R) {op : FailedOperation} {liveID : String}
    {trace : Trace Calls World} {out : Option GoError}
    (h : RevertRun M R ctx op liveID w trace out w') : w'.store.watches = w.store.watches := by
  cases h with
  | failed hrecreate hrest =>
    rw [(hrest.frame hM).store, (hrecreate.leaves hM).1]
  | unrecorded hrecreate hread hrely =>
    rw [(hM.rely hrely).store, (hread.frame hM).store, (hrecreate.leaves hM).1]
  | reverted hrecreate hread hrely hrest =>
    rw [(hrest.frame hM).store]
    change (Store.replaceContainer _ _ _).watches = _
    rw [Store.replaceContainer_watches, (hM.rely hrely).store, (hread.frame hM).store,
      (hrecreate.leaves hM).1]

/-- Only a commit changes a watch. -/
theorem AttemptRun.watches (hM : Hosts M R)
    {Commits : RecreationResult → World → Trace Calls World → World → Prop}
    {kind originalID targetImage : String} {before : InspectResponse} {requester : Requester}
    {trace : Trace Calls World} {err : GoError}
    (h : AttemptRun M R Commits ctx kind originalID before targetImage requester w trace (some err)
      w') : w'.store.watches = w.store.watches := by
  generalize hout : some err = out at h
  cases h with
  | panicked hrecreate => rw [(hrecreate.leaves hM).1]
  | recovered hrecreate _ hreport hrecover =>
    have hstore := (hreport.frame hM).store.trans (hrecreate.leaves hM).1
    cases hrecover with
    | kept _ hrest => rw [(hrest.frame hM).store, hstore]
    | removed _ hrevert => rw [hrevert.watches hM, hstore]
  | uncommitted hrecreate hcommit =>
    obtain ⟨commit, rest, cause, w₁, rfl, hframe, -, -, hrevert⟩ := hcommit
    rw [hrevert.watches hM, hframe.store, (hrecreate.leaves hM).1]
  | committed => cases hout

/-- An operation that fails after its log entry met a failed call or a recreation that
gave up. -/
theorem AttemptRun.of_failure
    {Commits : RecreationResult → World → Trace Calls World → World → Prop}
    {kind originalID targetImage : String} {before : InspectResponse} {requester : Requester}
    {trace : Trace Calls World} {err : GoError}
    (h : AttemptRun M R Commits ctx kind originalID before targetImage requester w trace (some err)
      w') :
    (∃ e ∈ trace, CallFailed e) ∨ ∃ first tail result cause w₁, trace = first ++ tail ∧
      (∀ e ∈ first, OnDocker e.op) ∧
      RecreateRun M R ctx originalID before targetImage w first (result, some cause) w₁ ∧
      (tail = [] ∨ ∃ e rest, tail = e :: rest ∧ isEmit e.op = true) := by
  generalize hout : some err = out at h
  cases h with
  | panicked hrecreate hdocker =>
    exact .inr ⟨_, [], _, _, _, (List.append_nil _).symm, hdocker, hrecreate, .inl rfl⟩
  | @recovered first rest _ _ _ _ _ _ _ _ hrecreate hdocker hreport hrecover =>
    exact .inr ⟨first, _, _, _, _, List.append_assoc _ _ _, hdocker, hrecreate,
      .inr ⟨_, rest, rfl, rfl⟩⟩
  | uncommitted hrecreate hcommit =>
    obtain ⟨commit, rest, cause, w₁, rfl, -, -, ⟨e, he, hfailed⟩, -⟩ := hcommit
    exact .inl ⟨e, List.mem_append_right _ (List.mem_append_left _ he), hfailed⟩
  | committed => cases hout

end Updater

/-! ### The monitor around the rollback -/

open Updater

/-- A triggered watch and the tracked row of its container, as an update leaves them. -/
structure Protected (w : World) (watch : RollbackWatch) (rec : ContainerRecord) : Prop where
  row : w.store.getRollbackWatch watch.containerName = some watch
  triggered : watch.status = .triggered
  found : Table.lookup ContainerRecord.name watch.containerName w.store.containers = some rec
  tracked : w.store.getContainer rec.id = some rec
  recorded : rec.previousImage ≠ ""
  hosted : ∀ spec ∈ w.engine.specs, spec.id = rec.id → spec.name = watch.containerName

/-- A container of the watch's name runs the image, and its watch is closed. -/
structure Restored (watch : RollbackWatch) (image : String) (w : World) : Prop where
  running : ∃ live, w.engine.named watch.containerName = some live ∧ live.config.image = image ∧
    (hasPrefix image "sha256:" = true → live.image = image) ∧
    (w.engine.states live.id).status = .running
  completed : (w.store.getRollbackWatch watch.containerName).map RollbackWatch.status =
    some .automaticRollback

namespace Protected

variable {w w' : World} {watch : RollbackWatch} {rec : ContainerRecord}
  {M : Machine Calls World} {R : List ContainerSpec → List ContainerSpec → Prop}

theorem frame (hM : Hosts M R) (h : Protected w watch rec) (hframe : World.Frame R w w') :
    Protected w' watch rec where
  row := hframe.store ▸ h.row
  triggered := h.triggered
  found := hframe.store ▸ h.found
  tracked := hframe.store ▸ h.tracked
  recorded := h.recorded
  hosted spec hmem := h.hosted spec (hM.shrinks hframe.specs hmem)

/-- The lookups of the monitor find the watch's row, or one of them fails. -/
theorem monitorRollback_runs (hM : Hosts M R) (h : Protected w watch rec)
    {trace : Trace Calls World} (hrun : M.Runs (Monitor.rollback watch) w trace () w')
    (hcalls : ∀ e ∈ trace, ¬ CallFailed e) :
    ∃ lookup w₁ body out w₂ last, trace = lookup ++ (body ++ last) ∧ Quietly M w lookup w₁ ∧
      (∀ e ∈ lookup, isEmit e.op = false) ∧
      M.Runs (Updater.rollback (Monitor.rollbackRequest rec.id)) w₁ body out w₂ ∧
      M.Runs (Monitor.concludeRollback watch out) w₂ last () w' := by
  obtain ⟨lookup, found, w₁, rest, hlookup, h₁, rfl⟩ := Machine.runs_bind.mp hrun
  clear hrun
  obtain ⟨w₂, named, w₃, last, hrely₂, hstep₂, rfl, h₂⟩ := Machine.runs_request_bind.mp hlookup
  have hframe₂ := hM.rely hrely₂
  rcases step_store (hM.step hstep₂) with ⟨err, rfl, rfl⟩ | ⟨result, store, -, hp, rfl, rfl⟩
  · exact absurd trivial
      (hcalls ⟨w₃, .store .background (.containerIDByName watch.containerName), .error err⟩ (by simp))
  simp only [Store.perform, hframe₂.store, h.found] at hp
  obtain ⟨rfl, rfl⟩ := Prod.mk.inj (Except.ok.inj hp)
  obtain ⟨w₄, got, w₅, tail, hrely₄, hstep₄, rfl, h₃⟩ := Machine.runs_request_bind.mp h₂
  have hframe₄ := hM.rely hrely₄
  obtain ⟨rfl, hgot⟩ := step_getContainer (hM.step hstep₄)
  have hquiet : Quietly M w [⟨w₂, .store .background (.containerIDByName watch.containerName),
      .ok rec.id⟩, ⟨w₅, .store .background (.getContainer rec.id), got⟩] w₅ :=
    .cons hrely₂ hstep₂ trivial (.cons hrely₄ hstep₄ trivial .nil)
  rcases hgot with ⟨err, rfl⟩ | ⟨row, hrow, rfl⟩
  · exact absurd trivial
      (hcalls ⟨w₅, .store .background (.getContainer rec.id), .error err⟩ (by simp [h₃.1]))
  rw [hframe₄.store] at hrow
  obtain rfl : rec = row := Option.some.inj (h.tracked.symm.trans hrow)
  obtain ⟨rfl, rfl, rfl⟩ := h₃
  obtain ⟨body, out, w₆, last, hbody, hlast, rfl⟩ := Machine.runs_bind.mp h₁
  exact ⟨_, w₁, body, out, w₆, last, rfl, hquiet, by simp [isEmit], hbody, hlast⟩

end Protected

section Outcome

variable {w w' : World} {watch : RollbackWatch} {rec : ContainerRecord} {issued : List String}
  {M : Machine Calls World} {R : List ContainerSpec → List ContainerSpec → Prop}
  {trace : Trace Calls World}

/-- The monitor closes a watch as failed, or leaves it as it is. -/
theorem concludeRollback_runs (hM : Hosts M R) {out : Option GoError}
    (hrun : M.Runs (Monitor.concludeRollback watch out) w trace () w') :
    (∀ e ∈ trace, e.op.OffDocker) ∧
      (w'.store.getRollbackWatch watch.containerName = w.store.getRollbackWatch watch.containerName ∨
        out ≠ none ∧ (w'.store.getRollbackWatch watch.containerName).map RollbackWatch.status ≠
          some .automaticRollback) := by
  have hunchanged : ∀ {w₁ : World}, M.Runs (Interaction.Program.ret ()) w trace () w₁ →
      (∀ e ∈ trace, e.op.OffDocker) ∧ w₁ = w := by
    rintro w₁ ⟨rfl, -, rfl⟩
    exact ⟨by simp, rfl⟩
  unfold Monitor.concludeRollback at hrun
  split at hrun
  · obtain ⟨hoff, rfl⟩ := hunchanged hrun
    exact ⟨hoff, .inl rfl⟩
  · obtain ⟨hoff, rfl⟩ := hunchanged hrun
    exact ⟨hoff, .inl rfl⟩
  · split at hrun
    · obtain ⟨hoff, rfl⟩ := hunchanged hrun
      exact ⟨hoff, .inl rfl⟩
    · have hoff := Machine.runs_uses (P := Call.OffDocker)
        (by exact ⟨trivial, fun _ => ⟨trivial, fun _ => trivial⟩⟩) hrun
      refine ⟨hoff, ?_⟩
      obtain ⟨w₁, reply, w₂, rest, hrely₁, hstep₁, rfl, h₁⟩ := Machine.runs_request_bind.mp hrun
      obtain ⟨w₃, _, w₄, rest, hrely₃, hstep₃, rfl, h₂⟩ := Machine.runs_request_bind.mp h₁
      obtain ⟨-, -, rfl⟩ := h₂
      obtain rfl := step_emit (hM.step hstep₃)
      have hstore := (hM.rely hrely₃).store
      rcases step_write () (fun _ _ => rfl) (hM.step hstep₁) with
        ⟨err, rfl, rfl⟩ | ⟨-, rfl, rfl⟩
      · left
        rw [hstore, (hM.rely hrely₁).store]
      · right
        refine ⟨by simp, ?_⟩
        rw [hstore]
        change ((w₁.store.completeRollbackWatch watch.containerName .rollbackFailed).getRollbackWatch
          watch.containerName).map _ ≠ _
        rw [Store.getRollbackWatch_completeRollbackWatch, Option.map_map]
        cases w₁.store.getRollbackWatch watch.containerName with
        | none => simp
        | some row => simp

/-- The wait of the rollback left a container that runs, and its replacement came up. -/
def CanRestore (image : String) (trace : Trace Calls World) : Prop :=
  ∃ before plan, snapshotOf trace = some before ∧
    before.state.map ContainerState.status = some .running ∧
    buildRecreationPlan before image = .ok plan ∧ CameUp plan (attemptReports trace)

/-- A rollback that fails closes the watch as failed or leaves it triggered. -/
theorem not_restored (hM : Hosts M R) {w₁ : World} {err : GoError} (h : Protected w watch rec)
    (hwatches : w₁.store.watches = w.store.watches) {last : Trace Calls World} {image : String}
    (hlast : M.Runs (Monitor.concludeRollback watch (some err)) w₁ last () w') :
    ¬ Restored watch image w' := by
  intro hrestored
  rcases (concludeRollback_runs hM hlast).2 with hsame | ⟨-, hclosed⟩
  · have hrow : w'.store.getRollbackWatch watch.containerName = some watch := by
      rw [hsame, ← h.row]
      unfold Store.getRollbackWatch
      rw [hwatches]
    have hcompleted := hrestored.completed
    rw [hrow, Option.map_some, h.triggered] at hcompleted
    cases hcompleted
  · exact hclosed hrestored.completed

/-- The row a committed automatic rollback leaves. -/
theorem getRollbackWatch_committed {s : Store} {oldID name : String} {row : ContainerRecord}
    (hname : row.name = name) (h : s.getRollbackWatch name = some watch)
    {marked : Except GoError Unit} {id : String} {now : Time} :
    ((markAvailable marked id now (s.replaceContainerAndCompleteRollback oldID row
      .automaticRollback)).getRollbackWatch name).map RollbackWatch.status =
        some .automaticRollback := by
  have hrow : (s.replaceContainerAndCompleteRollback oldID row .automaticRollback).getRollbackWatch
      name = some { watch with status := .automaticRollback } := by
    unfold Store.replaceContainerAndCompleteRollback
    rw [hname, Store.getRollbackWatch_completeRollbackWatch]
    change Option.map _ (s.getRollbackWatch name) = _
    rw [h]
    rfl
  have hmarked : (markAvailable marked id now (s.replaceContainerAndCompleteRollback oldID row
      .automaticRollback)).getRollbackWatch name = some { watch with status := .automaticRollback } := by
    cases marked with
    | ok _ => exact hrow
    | error _ => exact hrow
  rw [hmarked]
  rfl

end Outcome

/-- Whether the rollback can restore the image, from the pieces of its trace. -/
theorem canRestore_iff {before : InspectResponse} {image : String}
    {trace first : Trace Calls World} (hsnapshot : snapshotOf trace = some before)
    (hreports : attemptReports trace = inspections first) :
    CanRestore image trace ↔ before.state.map ContainerState.status = some .running ∧
      ∃ plan, buildRecreationPlan before image = .ok plan ∧ CameUp plan (inspections first) := by
  unfold CanRestore
  rw [hsnapshot, hreports]
  constructor
  · rintro ⟨before', plan, hbefore, hstatus, hplan, hcame⟩
    obtain rfl := Option.some.inj hbefore
    exact ⟨hstatus, plan, hplan, hcame⟩
  · rintro ⟨hstatus, plan, hplan, hcame⟩
    exact ⟨before, plan, rfl, hstatus, hplan, hcame⟩

/-- A container keeps its place and its status while the store is written. -/
theorem named_of_holds {w : World} {spec : ContainerSpec} {status : ContainerStatus}
    (h : World.Holds spec status w) : w.engine.named spec.name = some spec :=
  (w.engine.named_eq_some).mpr ⟨h.mem, rfl⟩

/-- The row an update leaves of `webSpec`. -/
def updatedWebRecord : ContainerRecord := { webRecord with previousImage := "sha256:p" }

theorem triggeredWorld_protected (engine : Engine) (hspecs : engine.specs = [webSpec]) :
    Protected { triggeredWorld with engine } triggeredWatch updatedWebRecord where
  row := rfl
  triggered := rfl
  found := rfl
  tracked := rfl
  recorded := by decide
  hosted spec hmem _ := by
    change spec ∈ engine.specs at hmem
    rw [hspecs, List.mem_singleton] at hmem
    exact hmem ▸ rfl

/-- `c0` crashed for the third time and has no restart policy. -/
def exitedWorld : World :=
  { triggeredWorld with engine := triggeredWorld.engine.withState "c0" { status := .exited } }

/-- The rollback creates `c1` in the given call. -/
def restoresAt (call : Nat) : Nat → Turn := script [(call, .creating "c1")]

theorem restoresAt_steady (issued : List String) (call n : Nat) :
    ∀ event ∈ (restoresAt call n).events, ∀ w, EnvEvent.SparesNew issued w event :=
  script_events (P := fun event => ∀ w, EnvEvent.SparesNew issued w event)
    (by simp [Turn.creating]) n

end Doupro
