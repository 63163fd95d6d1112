import Doupro.Updater.OperationRuns

/-!
# The watch a successful update arms

The health wait decides on Docker's running flag, the commit on the state text of the
inspect that follows it. A replacement that is restarting at that inspect passes the
first and fails the second, so its update succeeds without a watch.
-/

namespace Doupro.Updater

open Interaction

variable {M : Machine Calls World} {R : List ContainerSpec → List ContainerSpec → Prop}

/-- The last inspect before an operation starts to commit. -/
def commitSnapshot (trace : Trace Calls World) : Option InspectResponse :=
  lastInspected (trace.takeWhile fun e => !isCommit e.op)

/-- A watch that protects a container with the configured threshold and window. -/
def Protects (settings : Nat × Nat) (id : String) (watch : RollbackWatch) : Prop :=
  watch.status = .active ∧ watch.containerID = id ∧ watch.crashCount = 0 ∧
    watch.threshold = settings.1 ∧
    watch.windowExpiresAt = watch.updateAppliedAt + settings.2 * minute

theorem status_running_iff (status : ContainerStatus) :
    status.text = "running" ↔ status = .running := by
  cases status <;> decide

/-- A successful recreation of a running container ends on the inspect its result tells. -/
theorem RecreateRun.started {ctx : Context} {oldID targetImage : String}
    {before : InspectResponse} {w w' : World} {trace : Trace Calls World}
    {result : RecreationResult}
    (h : RecreateRun M R ctx oldID before targetImage w trace (result, none) w')
    (hrunning : before.running = true) :
    ∃ earlier info state, trace = earlier ++ [⟨w', .docker ctx (.inspect result.id), .ok info⟩] ∧
      info.state = some state ∧ result.state = state.status.text ∧
      trace.filterMap createdBy = [result.id] := by
  cases h with
  | @pulled plan pulls rest _ w₁ _ hplan hpulled hrun =>
    cases hrun with
    | halted h =>
      obtain ⟨label, cause, h⟩ := h.failed
      cases h
    | @replaced pre tail _ w₂ _ hcleared hreplaced =>
      cases hreplaced with
      | @created w₃ w₄ _ spec last _ hframe hlive hcreate hrest hid hverdict =>
        have hid : result.id = spec.id := congrArg RecreationResult.id hid
        have hwas : plan.wasRunning = true := by
          obtain ⟨config, hostConfig, state, -, -, hstate, -, rfl⟩ := buildRecreationPlan_ok hplan
          simpa [InspectResponse.running, hstate] using hrunning
        obtain ⟨w₅, info, tail, rfl, -, ⟨hstopped, -⟩ | ⟨-, hstarted⟩⟩ := hverdict
        · rw [hwas] at hstopped
          cases hstopped
        obtain ⟨front, made, -, hmem, hmade, rfl, hstate⟩ := hstarted
        refine ⟨pulls ++ (pre ++ ⟨w₃, createCall ctx plan, .ok spec.id⟩ ::
            ⟨w₅, .docker ctx (.inspect spec.id), .ok info⟩ :: front),
          w'.engine.inspectResponse made, w'.engine.states made.id, by simp [hid], rfl,
          by rw [hstate, hmade], ?_⟩
        have hpulls : pulls.filterMap createdBy = [] := by
          cases hpulled with
          | imageID => rfl
          | tag => rfl
        have hpre : pre.filterMap createdBy = [] :=
          List.filterMap_eq_nil_iff.mpr fun e he => (hcleared.silent e he).2.1
        have hlast := List.filterMap_eq_nil_iff.mpr
          fun e he => createdBy_keepsHost (hrest.keepsHost e he)
        rw [List.filterMap_append, List.filterMap_append, hpulls, hpre, List.filterMap_cons, hlast,
          hid]
        rfl

theorem filterMap_createdBy_keepsHost {trace : Trace Calls World}
    (h : ∀ e ∈ trace, e.op.KeepsHost) : trace.filterMap createdBy = [] :=
  List.filterMap_eq_nil_iff.mpr fun e he => createdBy_keepsHost (h e he)

/-- The commit of an update starts with the call that marks it and touches no container. -/
theorem UpdateCommits.calls {req : UpdateRequest} {before : InspectResponse}
    {definedImage : String} {result : RecreationResult} {w w' : World} {trace : Trace Calls World}
    (h : UpdateCommits M R req before definedImage result w trace w') :
    (∃ e rest, trace = e :: rest ∧ isCommit e.op = true) ∧ ∀ e ∈ trace, e.op.KeepsHost := by
  cases h with
  | armed _ hkeeps => exact ⟨⟨_, _, rfl, rfl⟩, List.forall_mem_cons.mpr ⟨trivial, hkeeps⟩⟩
  | stopped _ _ hkeeps =>
    exact ⟨⟨_, _, rfl, rfl⟩, List.forall_mem_cons.mpr ⟨trivial, List.forall_mem_cons.mpr
      ⟨trivial, hkeeps⟩⟩⟩

/-- The arming transaction leaves a watch that protects the replacement. -/
theorem protects_armed (s : Store) (oldID : String) (rec : ContainerRecord) (appliedAt : Time)
    (settings : Nat × Nat) (restartCount : Nat) :
    ∃ watch ∈ (s.replaceContainerAndArmRollback oldID rec appliedAt (settings.2 * minute)
      settings.1 restartCount).watches, Protects settings rec.id watch :=
  have harmed := (s.replaceContainer oldID rec).getRollbackWatch_armRollbackWatch rec.name rec.id
    appliedAt (settings.2 * minute) settings.1 restartCount
  ⟨_, Table.lookup_mem harmed, rfl, rfl, rfl, rfl, rfl⟩

/-- Closing a watch leaves every watch with the container it had. -/
theorem closeWatch_containerID {completed : Except GoError Unit} {name : String} {s : Store}
    {watch : RollbackWatch} (h : watch ∈ (closeWatch completed name s).watches) :
    ∃ old ∈ s.watches, watch.containerID = old.containerID := by
  cases completed with
  | error err => exact ⟨watch, h, rfl⟩
  | ok _ =>
    obtain ⟨old, hold, rfl⟩ := Table.mem_updateWhere.mp h
    refine ⟨old, hold, ?_⟩
    split <;> rfl

/-- An update of a running container that succeeds leaves a watch on the replacement
exactly if the replacement was running at the last inspect before the commit. -/
theorem update_arms_watch {req : UpdateRequest} {w w' : World} {trace : Trace Calls World}
    (hrun : openSystem.Runs (update req) w trace none w')
    (hwatches : ∀ watch ∈ w.store.watches, watch.containerID ∈ w.engine.issued)
    {before : InspectResponse} (hbefore : snapshotOf trace = some before)
    (hrunning : before.running = true) :
    ∃ newID info state, trace.filterMap createdBy = [newID] ∧
      commitSnapshot trace = some info ∧ info.state = some state ∧
      ((∃ watch ∈ w'.store.watches, Protects w.store.getCrashLoopSettings newID watch) ↔
        state.status = .running) := by
  cases update_runs openSystem_hosts hrun with
  | early _ hfailed _ =>
    obtain ⟨err, h, -⟩ := hfailed
    cases h
  | @attempted opening rest closing before' event _ w₁ w₂ w₃ _ hopened hrely hattempt hclosing _ =>
    have hsnapshot : snapshotOf (opening ++ ⟨w₂, .emit event, ()⟩ :: (rest ++ closing)) =
        some before' := snapshotOf_opened w₂ event (rest ++ closing) hopened
    rw [← List.cons_append, ← List.append_assoc] at hsnapshot
    obtain rfl : before' = before := Option.some_inj.mp (hsnapshot.symm.trans hbefore)
    obtain ⟨definedImage, hattempt⟩ := hattempt
    obtain ⟨first, commit, result, w₄, rfl, hdocker, hrecreate, hcommit⟩ := hattempt.of_success
    obtain ⟨earlier, info, state, rfl, hstate, hresult, hcreated⟩ := hrecreate.started hrunning
    obtain ⟨⟨e, tail, rfl, hfirst⟩, hkeeps⟩ := hcommit.calls
    refine ⟨result.id, info, state, ?_, ?_, hstate, ?_⟩
    · have hopening := filterMap_createdBy_keepsHost hopened.quiet.keepsHost
      have hcommitted := filterMap_createdBy_keepsHost hkeeps
      have hend := filterMap_createdBy_keepsHost hclosing.keepsHost
      rw [List.filterMap_append, List.filterMap_append, hopening, List.filterMap_cons,
        List.filterMap_append, hcreated, hcommitted, hend]
      rfl
    · have hbeforeCommit : ∀ e ∈ opening ++ ⟨w₂, .emit event, ()⟩ ::
          (earlier ++ [⟨w₄, .docker req.ctx (.inspect result.id), .ok info⟩]),
          (!isCommit e.op) = true := by
        refine List.forall_mem_append.mpr ⟨fun e he => ?_, List.forall_mem_cons.mpr ⟨rfl, ?_⟩⟩
        · simp [isCommit_quiet (hopened.quiet.2 e he)]
        · exact fun e he => by simp [isCommit_onDocker (hdocker e he)]
      have hsplit : opening ++ ⟨w₂, .emit event, ()⟩ ::
          (earlier ++ [⟨w₄, .docker req.ctx (.inspect result.id), .ok info⟩] ++ e :: tail) ++
            closing =
          (opening ++ ⟨w₂, .emit event, ()⟩ ::
            (earlier ++ [⟨w₄, .docker req.ctx (.inspect result.id), .ok info⟩])) ++
            e :: (tail ++ closing) := by simp
      rw [commitSnapshot, hsplit, List.takeWhile_append_of_pos hbeforeCommit,
        List.takeWhile_cons_of_neg (by simp [hfirst]), List.append_nil]
      have hlast : lastInspected ((opening ++ ⟨w₂, .emit event, ()⟩ :: earlier) ++
          [⟨w₄, .docker req.ctx (.inspect result.id), .ok info⟩]) = some info :=
        lastInspected_eq rfl (by simp)
      simpa using hlast
    · have hstart := (hopened.quiet.frame openSystem_hosts).trans openSystem_hosts
        (openSystem_hosts.rely hrely)
      have hstore : w₄.store = w.store :=
        (hrecreate.leaves openSystem_hosts).1.trans hstart.store
      have hfresh : result.id ∉ w.engine.issued := by
        rw [← hstart.issued]
        exact (hrecreate.made openSystem_hosts).fresh
      have hend : w'.store = w₃.store := (hclosing.frame openSystem_hosts).store
      rw [← status_running_iff, ← hresult]
      cases hcommit with
      | armed hrunning _ hframe =>
        refine iff_of_true ?_ hrunning
        have harmed := hframe.store
        simp only [hstore] at harmed
        rw [hend, harmed]
        exact protects_armed w.store _ _ _ _ _
      | stopped hstopped _ _ hframe =>
        refine iff_of_false ?_ hstopped
        rintro ⟨watch, hmem, -, hwatch, -⟩
        have hclosed := hframe.store
        simp only [hstore] at hclosed
        rw [hend, hclosed] at hmem
        obtain ⟨old, hold, hid⟩ := closeWatch_containerID hmem
        exact hfresh (hwatch ▸ hid ▸ hwatches old hold)

/-! ### A replacement that restarts -/

/-- The replacement crashes once the stability window is over, and its restart policy
restarts it. -/
def replacementCrashes : Nat → Turn :=
  script [(8, .creating "c1"), (16, { events := [.exit "c1" 1 true] })]

/-- The update of a container whose replacement is crash-looping succeeds unprotected. -/
theorem update_arms_watch_restarting : ∃ trace w' before,
    openSystem.Runs (update updateWeb) webWorld trace none w' ∧
    snapshotOf trace = some before ∧ before.running = true ∧
    trace.filterMap createdBy = ["c1"] ∧
    ¬ ∃ watch ∈ w'.store.watches, Protects webWorld.store.getCrashLoopSettings "c1" watch := by
  have hrun := (update updateWeb).play_runs webWorld replacementCrashes
  have hvalue : ((update updateWeb).play webWorld replacementCrashes).value = none := by
    decide +kernel
  have hsnapshot : ((snapshotOf ((update updateWeb).play webWorld replacementCrashes).trace).map
      InspectResponse.running) = some true := by decide +kernel
  have hcreated : ((update updateWeb).play webWorld replacementCrashes).trace.filterMap createdBy =
      ["c1"] := by decide +kernel
  have hwatches : ((update updateWeb).play webWorld replacementCrashes).world.store.watches = [] := by
    decide +kernel
  obtain ⟨before, hbefore, hrunning⟩ := Option.map_eq_some_iff.mp hsnapshot
  rw [hvalue] at hrun
  refine ⟨_, _, before, hrun, hbefore, hrunning, hcreated, ?_⟩
  rw [hwatches]
  simp

/-- A replacement that stays up is protected. -/
theorem update_arms_watch_running : ∃ trace w' newID,
    openSystem.Runs (update updateWeb) webWorld trace none w' ∧
    ∃ watch ∈ w'.store.watches, Protects webWorld.store.getCrashLoopSettings newID watch := by
  have hrun := (update updateWeb).play_runs webWorld replacementStays
  have hvalue : ((update updateWeb).play webWorld replacementStays).value = none := by
    decide +kernel
  have hsnapshot : ((snapshotOf ((update updateWeb).play webWorld replacementStays).trace).map
      InspectResponse.running) = some true := by decide +kernel
  have hcommit : ((commitSnapshot ((update updateWeb).play webWorld replacementStays).trace).bind
      fun info => info.state.map ContainerState.status) = some .running := by decide +kernel
  obtain ⟨before, hbefore, hrunning⟩ := Option.map_eq_some_iff.mp hsnapshot
  rw [hvalue] at hrun
  obtain ⟨newID, info, state, -, hinfo, hstate, harmed⟩ :=
    update_arms_watch hrun (by intro watch h; cases h) hbefore hrunning
  rw [hinfo] at hcommit
  simp only [Option.bind_some, hstate, Option.map_some, Option.some_inj] at hcommit
  exact ⟨_, _, newID, hrun, harmed.mpr hcommit⟩

end Doupro.Updater
