import Doupro.Updater.RevertRuns
import Doupro.Updater.Rollback
import Doupro.Updater.Update

/-!
# Every run of an update and of a rollback

Both operations look the container up, take a snapshot of it, recreate it and commit; a
failed recreation or commit goes through the error paths. `update_runs` and
`rollback_runs` say so for every run.
-/

namespace Doupro

open Interaction

def lastInspected (trace : Trace Calls World) : Option InspectResponse :=
  (trace.filterMap inspectedBy).getLast?

theorem lastInspected_eq {earlier later : Trace Calls World} {e : Event Calls World}
    {info : InspectResponse} (he : inspectedBy e = some info)
    (hlater : ∀ x ∈ later, inspectedBy x = none) :
    lastInspected (earlier ++ e :: later) = some info := by
  have hnone : later.filterMap inspectedBy = [] := by
    rw [List.filterMap_eq_nil_iff]
    exact hlater
  simp [lastInspected, he, hnone]

def isEmit : Call → Bool
  | .emit _ => true
  | _ => false

/-- The snapshot an operation acts on: the last inspect before its first log entry. -/
def snapshotOf (trace : Trace Calls World) : Option InspectResponse :=
  lastInspected (trace.takeWhile fun e => !isEmit e.op)

namespace Updater

variable {M : Machine Calls World} {R : List ContainerSpec → List ContainerSpec → Prop}

/-- A commit that failed, and the revert of what it was to record. -/
def Uncommitted (M : Machine Calls World) (R : List ContainerSpec → List ContainerSpec → Prop)
    (ctx : Context) (kind originalID : String) (before : InspectResponse) (requester : Requester)
    (result : RecreationResult) (w : World) (trace : Trace Calls World) (out : Option GoError)
    (w' : World) : Prop :=
  ∃ commit rest cause w₁, trace = commit ++ rest ∧ World.Frame R w w₁ ∧
    (∀ e ∈ commit, e.op.KeepsHost) ∧ (∃ e ∈ commit, CallFailed e) ∧
    RevertRun M R ctx ⟨kind, originalID, before, trimSlash before.name, requester, cause⟩ result.id
      w₁ rest out w'

/-- How the part of an operation from the recreation on can go. `Commits` says what a
commit that went through leaves behind. -/
inductive AttemptRun (M : Machine Calls World) (R : List ContainerSpec → List ContainerSpec → Prop)
    (Commits : RecreationResult → World → Trace Calls World → World → Prop) (ctx : Context)
    (kind originalID : String) (before : InspectResponse) (targetImage : String)
    (requester : Requester) (w : World) : Trace Calls World → Option GoError → World → Prop
  | panicked {trace : Trace Calls World} {result : RecreationResult} {w' : World}
    (hrecreate : RecreateRun M R ctx originalID before targetImage w trace
      (result, some .nilDereference) w') (hdocker : ∀ e ∈ trace, OnDocker e.op) :
    AttemptRun M R Commits ctx kind originalID before targetImage requester w trace
      (some .nilDereference) w'
  | recovered {trace rest : Trace Calls World} {result : RecreationResult} {event : LogEvent}
    {cause : GoError} {w₁ w₂ w₃ w' : World} {out : Option GoError}
    (hrecreate : RecreateRun M R ctx originalID before targetImage w trace (result, some cause) w₁)
    (hdocker : ∀ e ∈ trace, OnDocker e.op)
    (hreport : Quietly M w₁ [⟨w₂, .emit event, ()⟩] w₃)
    (hrecover : RecoverRun M R ctx
      ⟨kind, originalID, before, trimSlash before.name, requester, cause⟩ result w₃ rest out w') :
    AttemptRun M R Commits ctx kind originalID before targetImage requester w
      (trace ++ [⟨w₂, .emit event, ()⟩] ++ rest) out w'
  | uncommitted {trace rest : Trace Calls World} {result : RecreationResult} {w₁ w' : World}
    {out : Option GoError}
    (hrecreate : RecreateRun M R ctx originalID before targetImage w trace (result, none) w₁)
    (hcommit : Uncommitted M R ctx kind originalID before requester result w₁ rest out w') :
    AttemptRun M R Commits ctx kind originalID before targetImage requester w (trace ++ rest) out w'
  | committed {trace commit : Trace Calls World} {result : RecreationResult} {w₁ w' : World}
    (hrecreate : RecreateRun M R ctx originalID before targetImage w trace (result, none) w₁)
    (hdocker : ∀ e ∈ trace, OnDocker e.op) (hcommit : Commits result w₁ commit w') :
    AttemptRun M R Commits ctx kind originalID before targetImage requester w (trace ++ commit)
      none w'

theorem RevertRun.not_success {ctx : Context} {op : FailedOperation} {liveID : String}
    {w w' : World} {trace : Trace Calls World} : ¬ RevertRun M R ctx op liveID w trace none w' := by
  rintro (⟨-, -, err, h, -⟩)
  cases h

/-- An operation that reports success committed what it recreated. -/
theorem AttemptRun.of_success
    {Commits : RecreationResult → World → Trace Calls World → World → Prop} {ctx : Context}
    {kind originalID : String} {before : InspectResponse} {targetImage : String}
    {requester : Requester} {w w' : World} {trace : Trace Calls World}
    (h : AttemptRun M R Commits ctx kind originalID before targetImage requester w trace none w') :
    ∃ first commit result w₁, trace = first ++ commit ∧ (∀ e ∈ first, OnDocker e.op) ∧
      RecreateRun M R ctx originalID before targetImage w first (result, none) w₁ ∧
      Commits result w₁ commit w' := by
  cases h with
  | recovered _ _ _ hrecover =>
    cases hrecover with
    | kept _ _ hout =>
      obtain ⟨err, h, -⟩ := hout
      cases h
    | removed _ hrevert => exact absurd hrevert RevertRun.not_success
  | uncommitted _ hcommit =>
    obtain ⟨_, _, _, _, -, -, -, -, hrevert⟩ := hcommit
    exact absurd hrevert RevertRun.not_success
  | committed hrecreate hdocker hcommit => exact ⟨_, _, _, _, rfl, hdocker, hrecreate, hcommit⟩

/-- The calls of an operation up to the snapshot it acts on. -/
structure Opened (M : Machine Calls World) (ctx : Context) (id : String) (w : World)
    (opening : Trace Calls World) (before : InspectResponse) (w₁ : World) : Prop where
  quiet : Quietly M w opening w₁
  unlogged : ∀ e ∈ opening, isEmit e.op = false
  snapshot : ∃ earlier w₀ spec later,
    opening = earlier ++ ⟨w₀, .docker ctx (.inspect id), .ok before⟩ :: later ∧
    spec ∈ w₀.engine.specs ∧ spec.id = id ∧ before = w₀.engine.inspectResponse spec ∧
    (∃ w₂, M.Path w earlier w₂ ∧ M.rely w₂ w₀) ∧ ∀ e ∈ later, inspectedBy e = none

/-- Why an operation ended before its first log entry. -/
inductive Prevented (ctx : Context) (id : String) (s : Store) (trace : Trace Calls World) : Prop
  | failed {e : Event Calls World} (he : e ∈ trace) (h : CallFailed e)
  | refused {e : Event Calls World} (he : e ∈ trace) (h : Refused e)
  | ended {w : World} (h : w.contextEnded ctx = true)
  | unrecorded {rec : ContainerRecord} (hrec : s.getContainer id = some rec)
    (h : rec.previousImage = "")

theorem Prevented.mono {ctx : Context} {id : String} {s : Store} {trace trace' : Trace Calls World}
    (h : Prevented ctx id s trace) (hsub : trace ⊆ trace') : Prevented ctx id s trace' := by
  cases h with
  | failed he h => exact .failed (hsub he) h
  | refused he h => exact .refused (hsub he) h
  | ended h => exact .ended h
  | unrecorded hrec h => exact .unrecorded hrec h

/-- How a whole operation can go. -/
inductive OperationRun (M : Machine Calls World)
    (Attempts : InspectResponse → World → Trace Calls World → Option GoError → World → Prop)
    (ctx : Context) (id : String) (w : World) :
    Trace Calls World → Option GoError → World → Prop
  | early {trace : Trace Calls World} {out : Option GoError} {w' : World}
    (hquiet : Quietly M w trace w') (hout : Failed out)
    (hcause : Prevented ctx id w.store trace) :
    OperationRun M Attempts ctx id w trace out w'
  | attempted {opening rest closing : Trace Calls World} {before : InspectResponse}
    {event : LogEvent} {out : Option GoError} {w₁ w₂ w₃ w' : World}
    (hopened : Opened M ctx id w opening before w₁) (hrely : M.rely w₁ w₂)
    (hattempt : Attempts before w₂ rest out w₃) (hclosing : Quietly M w₃ closing w')
    (hoff : ∀ e ∈ closing, e.op.OffDocker) :
    OperationRun M Attempts ctx id w (opening ++ ⟨w₂, .emit event, ()⟩ :: rest ++ closing) out w'

theorem snapshotOf_opened {ctx : Context} {id : String} {w w₁ : World}
    {opening : Trace Calls World} {before : InspectResponse} (w₂ : World) (event : LogEvent)
    (rest : Trace Calls World) (h : Opened M ctx id w opening before w₁) :
    snapshotOf (opening ++ ⟨w₂, .emit event, ()⟩ :: rest) = some before := by
  obtain ⟨earlier, w₀, spec, later, rfl, -, -, -, -, hlater⟩ := h.snapshot
  have htake : (earlier ++ ⟨w₀, .docker ctx (.inspect id), .ok before⟩ :: later ++
      (⟨w₂, .emit event, ()⟩ : Event Calls World) :: rest).takeWhile (fun e => !isEmit e.op) =
      earlier ++ ⟨w₀, .docker ctx (.inspect id), .ok before⟩ :: later := by
    rw [List.takeWhile_append_of_pos (by simpa using h.unlogged)]
    simp [isEmit]
  rw [snapshotOf, htake]
  exact lastInspected_eq rfl hlater

/-- Calls of an operation that neither log nor inspect. -/
def Unlogged (trace : Trace Calls World) : Prop :=
  ∀ e ∈ trace, isEmit e.op = false ∧ inspectedBy e = none

theorem Opened.extend {ctx : Context} {id : String} {w w₁ w₂ : World}
    {opening rest : Trace Calls World} {before : InspectResponse}
    (h : Opened M ctx id w opening before w₁) (hquiet : Quietly M w₁ rest w₂)
    (hunlogged : Unlogged rest) : Opened M ctx id w (opening ++ rest) before w₂ := by
  refine ⟨h.quiet.append hquiet, ?_, ?_⟩
  · exact List.forall_mem_append.mpr ⟨h.unlogged, fun e he => (hunlogged e he).1⟩
  · obtain ⟨earlier, w₀, spec, later, rfl, hmem, hid, hbefore, hpath, hlater⟩ := h.snapshot
    refine ⟨earlier, w₀, spec, later ++ rest, by simp, hmem, hid, hbefore, hpath, ?_⟩
    exact List.forall_mem_append.mpr ⟨hlater, fun e he => (hunlogged e he).2⟩

/-- A later inspect replaces the snapshot. -/
theorem Opened.inspect {ctx : Context} {id : String} {w w₁ w₂ : World}
    {opening : Trace Calls World} {spec : ContainerSpec} (hquiet : Quietly M w opening w₁)
    (hunlogged : ∀ e ∈ opening, isEmit e.op = false) (hrely : M.rely w₁ w₂)
    (hstep : M.step w₂ (.docker ctx (.inspect id)) (.ok (w₂.engine.inspectResponse spec)) w₂)
    (hmem : spec ∈ w₂.engine.specs) (hid : spec.id = id) :
    Opened M ctx id w (opening ++ [⟨w₂, .docker ctx (.inspect id),
      .ok (w₂.engine.inspectResponse spec)⟩]) (w₂.engine.inspectResponse spec) w₂ := by
  refine ⟨hquiet.append (.cons hrely hstep trivial .nil), ?_,
    opening, w₂, spec, [], rfl, hmem, hid, rfl, ⟨w₁, hquiet.1, hrely⟩, by simp⟩
  exact List.forall_mem_append.mpr ⟨hunlogged, by simp [isEmit]⟩

/-- The container of the snapshot was there when the operation started. -/
theorem Opened.original {ctx : Context} {id : String} {w w₁ : World}
    {opening : Trace Calls World} {before : InspectResponse} (hM : Hosts M R)
    (h : Opened M ctx id w opening before w₁) : ∃ w₀ spec, World.Frame R w w₀ ∧
      spec ∈ w₀.engine.specs ∧ spec.id = id ∧ before = w₀.engine.inspectResponse spec := by
  obtain ⟨earlier, w₀, spec, later, rfl, hmem, hid, hbefore, ⟨w₂, hpath, hrely⟩, -⟩ := h.snapshot
  have hquiet : Quietly M w earlier w₂ :=
    ⟨hpath, fun e he => h.quiet.2 e (List.mem_append_left _ he)⟩
  exact ⟨w₀, spec, (hquiet.frame hM).trans hM (hM.rely hrely), hmem, hid, hbefore⟩

/-! ### The guard -/

theorem beginOperation_quiet (name kind : String) (actor : Actor) (actorID : String) :
    (beginOperation name kind actor actorID).Uses Call.Quiet := by
  refine Program.uses_bind ((Program.uses_request _).mpr trivial) fun current => ?_
  cases current with
  | none => trivial
  | some current =>
    refine Program.uses_bind ((Program.uses_request _).mpr trivial) fun _ => ?_
    split <;> trivial

/-- A guarded operation is refused, or runs between the two calls of the guard. -/
theorem withOperation_runs {name kind : String} {actor : Actor} {actorID : String}
    {operation : Go (Option GoError)} {w w' : World} {trace : Trace Calls World}
    {out : Option GoError}
    (hrun : M.Runs (withOperation name kind actor actorID operation) w trace out w')
    (ctx : Context) (id : String) (s : Store) :
    (Quietly M w trace w' ∧ Failed out ∧ Prevented ctx id s trace) ∨
    ∃ w₀ w₁ w₂ rest closing, M.rely w w₀ ∧ M.step w₀ (.beginOperation name kind) none w₁ ∧
      M.Runs operation w₁ rest out w₂ ∧ Quietly M w₂ closing w' ∧
      (∀ e ∈ closing, e.op.OffDocker) ∧
      trace = ⟨w₀, .beginOperation name kind, none⟩ :: rest ++ closing := by
  obtain ⟨first, refused, w₁, rest, hfirst, h₁, rfl⟩ := Machine.runs_bind.mp hrun
  clear hrun
  have hquiet := Quietly.of_runs hfirst (beginOperation_quiet name kind actor actorID)
  obtain ⟨w₀, current, w₂, tail, hrely, hstep, rfl, h₂⟩ := Machine.runs_request_bind.mp hfirst
  cases current with
  | some current =>
    obtain ⟨_, _, w₃, _, -, -, rfl, h₃⟩ := Machine.runs_request_bind.mp h₂
    have hrefused : Failed refused := by
      split at h₃ <;> exact ⟨_, h₃.2.1, rfl⟩
    obtain ⟨err, rfl, herr⟩ := hrefused
    obtain ⟨rfl, rfl, rfl⟩ := h₁
    rw [List.append_nil]
    exact .inl ⟨hquiet, ⟨err, rfl, herr⟩, .refused List.mem_cons_self trivial⟩
  | none =>
    obtain ⟨rfl, rfl, rfl⟩ := h₂
    obtain ⟨body, result, w₃, tail, hbody, h₄, rfl⟩ := Machine.runs_bind.mp h₁
    have hend := Quietly.of_runs h₄ ⟨trivial, fun _ => trivial⟩
    obtain ⟨_, _, w₄, _, -, -, rfl, h₅⟩ := Machine.runs_request_bind.mp h₄
    obtain ⟨rfl, rfl, rfl⟩ := h₅
    exact .inr ⟨w₀, _, w₃, body, _, hrely, hstep, hbody, hend, by simp [Call.OffDocker], by simp⟩

/-! ### Update -/

/-- The first calls of the two commits of an update and of the commit of a rollback. -/
def isCommit : Call → Bool
  | .store _ .getCrashLoopSettings | .store _ (.replaceContainer _ _)
  | .store _ (.replaceContainerAndCompleteRollback _ _ _) => true
  | _ => false

theorem isCommit_onDocker {call : Call} (h : OnDocker call) : isCommit call = false := by
  unfold isCommit
  split <;> first | rfl | exact h.elim

theorem isCommit_quiet {call : Call} (h : call.Quiet) : isCommit call = false := by
  unfold isCommit
  split <;> first | rfl | exact h.elim

/-- The store after a stopped update closed an older watch, if it could. -/
def closeWatch (completed : Except GoError Unit) (name : String) (s : Store) : Store :=
  match completed with
  | .ok _ => s.completeRollbackWatch name .notRunning
  | .error _ => s

/-- What the commit of an update leaves behind. -/
inductive UpdateCommits (M : Machine Calls World)
    (R : List ContainerSpec → List ContainerSpec → Prop) (req : UpdateRequest)
    (before : InspectResponse) (definedImage : String) (result : RecreationResult) (w : World) :
    Trace Calls World → World → Prop
  | armed {w₀ w' : World} {reply : Except GoError (Nat × Nat)} {rest : Trace Calls World}
    {appliedAt : Time} {restartCount : Nat} (hstate : result.state = "running")
    (hkeeps : ∀ e ∈ rest, e.op.KeepsHost)
    (hframe : World.Frame R
      { w with
        store := w.store.replaceContainerAndArmRollback req.containerID
          (updatedRecord before definedImage result) appliedAt
          (w.store.getCrashLoopSettings.2 * minute) w.store.getCrashLoopSettings.1 restartCount }
      w') :
    UpdateCommits M R req before definedImage result w
      (⟨w₀, .store req.ctx .getCrashLoopSettings, reply⟩ :: rest) w'
  | stopped {w₀ w₁ w' : World} {completed : Except GoError Unit} {rest : Trace Calls World}
    (hstate : result.state ≠ "running") (hmet : w₀.store = w.store)
    (hkeeps : ∀ e ∈ rest, e.op.KeepsHost)
    (hframe : World.Frame R
      { w with
        store := closeWatch completed (trimSlash before.name)
          (w.store.replaceContainer req.containerID (updatedRecord before definedImage result)) }
      w') :
    UpdateCommits M R req before definedImage result w
      (⟨w₀, .store req.ctx (.replaceContainer req.containerID
          (updatedRecord before definedImage result)), .ok ()⟩ ::
        ⟨w₁, .store req.ctx (.completeRollbackWatch (trimSlash before.name) .notRunning),
          completed⟩ :: rest) w'

section Update

variable {req : UpdateRequest} {before : InspectResponse} {definedImage : String}
  {result : RecreationResult} {w w' : World} {trace : Trace Calls World} {out : Option GoError}

theorem reportUpdated_quiet (req : UpdateRequest) (before : InspectResponse) :
    (reportUpdated req before).Uses Call.Quiet :=
  ⟨trivial, fun _ => ⟨trivial, fun _ => trivial⟩⟩

theorem reportUpdated_out (hrun : M.Runs (reportUpdated req before) w trace out w') :
    out = none := by
  obtain ⟨_, _, _, _, -, -, -, h₁⟩ := Machine.runs_request_bind.mp hrun
  obtain ⟨_, _, _, _, -, -, -, h₂⟩ := Machine.runs_request_bind.mp h₁
  exact h₂.2.1

/-- A failed call of the commit, and the revert after it. -/
theorem revertUncommitted_runs (hM : Hosts M R) {w₀ : World} {commit : Trace Calls World}
    (hframe : World.Frame R w w₀) (hcommit : ∀ e ∈ commit, e.op.KeepsHost)
    (hfailed : ∃ e ∈ commit, CallFailed e) {err : GoError}
    (hrun : M.Runs (revertUncommitted req before result err) w₀ trace out w') :
    Uncommitted M R req.ctx "update" req.containerID before req.requester result w (commit ++ trace)
      out w' := by
  obtain ⟨w₁, _, w₂, rest, hrely, hstep, rfl, h₁⟩ := Machine.runs_request_bind.mp hrun
  obtain rfl := step_emit (hM.step hstep)
  refine ⟨_, rest, _, w₂, List.append_cons commit _ rest, hframe.trans hM (hM.rely hrely), ?_, ?_,
    revert_runs hM h₁⟩
  · exact List.forall_mem_append.mpr ⟨hcommit, List.forall_mem_singleton.mpr trivial⟩
  · obtain ⟨e, he, hfail⟩ := hfailed
    exact ⟨e, List.mem_append_left _ he, hfail⟩

theorem commitProtected_runs (hM : Hosts M R) (hstate : result.state = "running")
    (hrun : M.Runs (commitProtected req before result (updatedRecord before definedImage result)) w
      trace out w') :
    (out = none ∧ UpdateCommits M R req before definedImage result w trace w') ∨
    Uncommitted M R req.ctx "update" req.containerID before req.requester result w trace out w' := by
  obtain ⟨w₀, settings, w₁, rest, hrely, hstep, rfl, h₁⟩ := Machine.runs_request_bind.mp hrun
  clear hrun
  have hframe := hM.rely hrely
  rcases step_store (hM.step hstep) with ⟨err, rfl, rfl⟩ | ⟨result', store, -, hp, rfl, rfl⟩
  · right
    change Uncommitted M R _ _ _ _ _ _ w ([_] ++ rest) out w'
    refine revertUncommitted_runs hM hframe ?_ ?_ h₁
    · simp [Call.KeepsHost]
    · exact ⟨_, List.mem_cons_self, trivial⟩
  · simp only [Store.perform] at hp
    obtain ⟨rfl, rfl⟩ := Prod.mk.inj (Except.ok.inj hp)
    obtain ⟨w₂, inspected, w₃, rest, hrely, hstep, rfl, h₂⟩ := Machine.runs_request_bind.mp h₁
    clear h₁
    obtain ⟨rfl, -⟩ := step_inspect (hM.step hstep)
    have hsettings := hframe.store
    have hframe := hframe.trans hM (hM.rely hrely)
    obtain ⟨w₄, appliedAt, w₅, rest, hrely, hstep, rfl, h₃⟩ := Machine.runs_request_bind.mp h₂
    clear h₂
    obtain ⟨-, rfl⟩ := step_now (hM.step hstep)
    have hframe := hframe.trans hM (hM.rely hrely)
    obtain ⟨w₆, armed, w₇, rest, hrely, hstep, rfl, h₄⟩ := Machine.runs_request_bind.mp h₃
    clear h₃
    have hframe := hframe.trans hM (hM.rely hrely)
    rcases step_write () (fun _ _ => rfl) (hM.step hstep) with ⟨err, rfl, rfl⟩ | ⟨-, rfl, rfl⟩
    · right
      change Uncommitted M R _ _ _ _ _ _ w ([_, _, _, _] ++ rest) out w'
      refine revertUncommitted_runs hM hframe ?_ ?_ h₄
      · simp [Call.KeepsHost]
      · exact ⟨_, List.mem_append_right [_, _, _] List.mem_cons_self, trivial⟩
    · have hquiet := Quietly.of_runs h₄ ⟨trivial, fun _ => reportUpdated_quiet req before⟩
      obtain ⟨_, _, _, _, -, -, rfl, h₅⟩ := Machine.runs_request_bind.mp h₄
      have hdone := (hframe.withStore _).trans hM (hquiet.frame hM)
      rw [hframe.store, hsettings] at hdone
      refine .inl ⟨reportUpdated_out h₅, .armed hstate ?_ hdone⟩
      exact List.forall_mem_cons.mpr ⟨trivial, List.forall_mem_cons.mpr ⟨trivial,
        List.forall_mem_cons.mpr ⟨trivial, hquiet.keepsHost⟩⟩⟩

theorem commitStopped_runs (hM : Hosts M R) (hstate : result.state ≠ "running")
    (hrun : M.Runs (commitStopped req before result (updatedRecord before definedImage result)) w
      trace out w') :
    (out = none ∧ UpdateCommits M R req before definedImage result w trace w') ∨
    Uncommitted M R req.ctx "update" req.containerID before req.requester result w trace out w' := by
  obtain ⟨w₀, replaced, w₁, rest, hrely, hstep, rfl, h₁⟩ := Machine.runs_request_bind.mp hrun
  clear hrun
  have hframe := hM.rely hrely
  rcases step_replaceContainer (hM.step hstep) with ⟨err, rfl, rfl⟩ | ⟨-, rfl, rfl⟩
  · right
    change Uncommitted M R _ _ _ _ _ _ w ([_] ++ rest) out w'
    refine revertUncommitted_runs hM hframe ?_ ?_ h₁
    · simp [Call.KeepsHost]
    · exact ⟨_, List.mem_cons_self, trivial⟩
  · obtain ⟨w₂, completed, w₃, rest, hrely, hstep, rfl, h₂⟩ := Machine.runs_request_bind.mp h₁
    clear h₁
    have hquiet := Quietly.of_runs h₂ (reportUpdated_quiet req before)
    have hframe := (hframe.withStore _).trans hM (hM.rely hrely)
    have hclosed : w₃ = { w₂ with store := closeWatch completed (trimSlash before.name) w₂.store } := by
      rcases step_write () (fun _ _ => rfl) (hM.step hstep) with
        ⟨err, rfl, rfl⟩ | ⟨-, rfl, rfl⟩ <;> rfl
    have hdone := (hframe.withStore _).trans hM (hclosed ▸ hquiet.frame hM)
    rw [hframe.store, (hM.rely ‹M.rely w w₀›).store] at hdone
    exact .inl ⟨reportUpdated_out h₂,
      .stopped hstate (hM.rely ‹M.rely w w₀›).store hquiet.keepsHost hdone⟩

/-- The part of an update after its log entry. -/
abbrev UpdateAttempts (M : Machine Calls World)
    (R : List ContainerSpec → List ContainerSpec → Prop) (req : UpdateRequest)
    (before : InspectResponse) (w : World) (trace : Trace Calls World) (out : Option GoError)
    (w' : World) : Prop :=
  ∃ definedImage, AttemptRun M R (UpdateCommits M R req before definedImage) req.ctx "update"
    req.containerID before req.targetImage req.requester w trace out w'

theorem updateInspected_runs (hM : Hosts M R)
    (hrun : M.Runs (updateInspected req before) w trace out w') :
    ∃ lookup w₁ w₂ event rest, Quietly M w lookup w₁ ∧ Unlogged lookup ∧ M.rely w₁ w₂ ∧
      trace = lookup ++ ⟨w₂, .emit event, ()⟩ :: rest ∧
      UpdateAttempts M R req before w₂ rest out w' := by
  obtain ⟨w₀, recorded, w₁, rest, hrely, hread, rfl, h₁⟩ := Machine.runs_request_bind.mp hrun
  clear hrun
  obtain ⟨w₂, _, w₃, rest, hrely', hstep, rfl, h₂⟩ := Machine.runs_request_bind.mp h₁
  clear h₁
  obtain rfl := step_emit (hM.step hstep)
  refine ⟨[_], w₁, w₃, _, rest, .cons hrely hread trivial .nil, ?_, hrely', rfl,
    definedImageOf req.targetImage recorded, ?_⟩
  · simp [Unlogged, isEmit, inspectedBy]
  obtain ⟨first, ⟨result, err⟩, w₄, tail, hfirst, h₃, rfl⟩ := Machine.runs_bind.mp h₂
  clear h₂
  have hrecreate := recreate_runs hM hfirst
  have hrecover : ∀ cause : GoError, ∀ hcause : M.Runs (do
      Go.emit (updateEvent req before .error "update.failed"
        ("update failed for " ++ trimSlash before.name ++ ", reverting to previous image: " ++
          cause.message))
      recover req.ctx ⟨"update", req.containerID, before, trimSlash before.name, req.requester,
        cause⟩ result) w₄ tail out w',
      ∃ event rest w₅ w₆, tail = [⟨w₅, .emit event, ()⟩] ++ rest ∧
        Quietly M w₄ [⟨w₅, .emit event, ()⟩] w₆ ∧ RecoverRun M R req.ctx
        ⟨"update", req.containerID, before, trimSlash before.name, req.requester, cause⟩ result w₆
        rest out w' := by
    intro cause hcause
    obtain ⟨w₅, _, w₆, rest, hrely, hstep, rfl, h₄⟩ := Machine.runs_request_bind.mp hcause
    exact ⟨_, rest, w₅, w₆, rfl, .cons hrely hstep trivial .nil, recover_runs hM h₄⟩
  have hdocker := Machine.runs_uses (recreate_onDocker _ _ _ _) hfirst
  cases err with
  | none =>
    have hcommitted : (out = none ∧ UpdateCommits M R req before (definedImageOf req.targetImage recorded) result
          w₄ tail w') ∨
        Uncommitted M R req.ctx "update" req.containerID before req.requester result w₄ tail out w' := by
      simp only [] at h₃
      split at h₃
      · next hstate => exact commitProtected_runs hM hstate h₃
      · next hstate => exact commitStopped_runs hM hstate h₃
    rcases hcommitted with ⟨rfl, hcommit⟩ | hfailed
    · exact .committed hrecreate hdocker hcommit
    · exact .uncommitted hrecreate hfailed
  | some cause =>
    cases cause with
    | nilDereference =>
      obtain ⟨rfl, rfl, rfl⟩ := h₃
      simpa using AttemptRun.panicked hrecreate hdocker
    | _ =>
      obtain ⟨event, rest, w₅, w₆, rfl, hreport, hrecovered⟩ := hrecover _ h₃
      rw [← List.append_assoc]
      exact .recovered hrecreate hdocker hreport hrecovered

theorem update_runs (hM : Hosts M R) (hrun : M.Runs (update req) w trace out w') :
    OperationRun M (UpdateAttempts M R req) req.ctx req.containerID w trace out w' := by
  obtain ⟨w₀, recorded, w₁, rest, hrely, hread, rfl, h₁⟩ := Machine.runs_request_bind.mp hrun
  clear hrun
  rcases withOperation_runs h₁ req.ctx req.containerID w.store with ⟨hquiet, hfailed, hcause⟩ |
    ⟨w₂, w₃, w₄, body, closing, hbegin, hstep, h₂, hclosing, hoff, rfl⟩
  · exact .early (.cons hrely hread trivial hquiet) hfailed
      (hcause.mono (List.subset_cons_self _ _))
  · clear h₁
    have hopen : Quietly M w [⟨w₀, .store req.ctx (.getContainer req.containerID), recorded⟩,
        ⟨w₂, .beginOperation _ _, none⟩] w₃ :=
      .cons hrely hread trivial (.cons hbegin hstep trivial .nil)
    obtain ⟨w₅, reply, w₆, rest, hrely', hinspect, rfl, h₃⟩ := Machine.runs_request_bind.mp h₂
    clear h₂
    obtain ⟨rfl, hreply⟩ := step_inspect (hM.step hinspect)
    rcases hreply with ⟨err, rfl⟩ | ⟨spec, hmem, hid, -, rfl⟩
    · obtain ⟨rfl, rfl, rfl⟩ := h₃
      have hquiet := (hopen.append (.cons hrely' hinspect trivial .nil)).append hclosing
      exact .early (by simpa using hquiet) ⟨_, rfl, rfl⟩
        (.failed (e := ⟨w₄, .docker req.ctx (.inspect req.containerID), .error err⟩) (by simp) trivial)
    · obtain ⟨lookup, w₇, w₈, event, rest, hlookup, hunlogged, hrely₈, rfl, hattempt⟩ :=
        updateInspected_runs hM h₃
      have hopened := (Opened.inspect hopen (by simp [isEmit]) hrely' hinspect hmem hid).extend
        hlookup hunlogged
      have h : OperationRun M (UpdateAttempts M R req) req.ctx req.containerID w
          (_ ++ ⟨w₈, .emit event, ()⟩ :: rest ++ closing) out w' :=
        .attempted hopened hrely₈ hattempt hclosing hoff
      simpa using h

/-- An update of `webSpec`, for scripted runs. -/
def updateWeb : UpdateRequest := ⟨.request 0, "c0", "web:2", ⟨.user, "admin"⟩⟩

/-- The create call of an update to `web:2` fails once, the one of the revert goes through. -/
def createFailsOnce : Nat → Turn :=
  script [(8, { choice := { fault := some (.external "driver failed") } }), (11, .creating "c1")]

/-- The replacement comes up and stays up. -/
def replacementStays : Nat → Turn := script [(8, .creating "c1")]

end Update

/-! ### Rollback -/

/-- The store after a rollback marked an update as available again, if it could. -/
def markAvailable (marked : Except GoError Unit) (id : String) (now : Time) (s : Store) : Store :=
  match marked with
  | .ok _ => s.setUpdateAvailable id true now
  | .error _ => s

/-- What the commit of a rollback leaves behind. -/
inductive RollbackCommits (R : List ContainerSpec → List ContainerSpec → Prop)
    (req : RollbackRequest) (rec : ContainerRecord) (before : InspectResponse)
    (result : RecreationResult) (w : World) : Trace Calls World → World → Prop
  | completed {w₀ w₁ w' : World} {marked : Except GoError Unit} {rest : Trace Calls World}
    {now : Time} (hoff : ∀ e ∈ rest, e.op.OffDocker)
    (hframe : World.Frame R
      { w with
        store := markAvailable marked result.id now
          (w.store.replaceContainerAndCompleteRollback req.containerID
            (rolledBackRecord rec before result) (rollbackStatus req)) }
      w') :
    RollbackCommits R req rec before result w
      (⟨w₀, .store req.ctx (.replaceContainerAndCompleteRollback req.containerID
          (rolledBackRecord rec before result) (rollbackStatus req)), .ok ()⟩ ::
        ⟨w₁, .store req.ctx (.setUpdateAvailable result.id true), marked⟩ :: rest) w'

/-- The part of a rollback after its log entry. -/
abbrev RollbackAttempts (M : Machine Calls World)
    (R : List ContainerSpec → List ContainerSpec → Prop) (req : RollbackRequest)
    (rec : ContainerRecord) (before : InspectResponse) (w : World) (trace : Trace Calls World)
    (out : Option GoError) (w' : World) : Prop :=
  AttemptRun M R (RollbackCommits R req rec before) req.ctx (rollbackType req) req.containerID
    before rec.previousImage req.requester w trace out w'

/-- A rollback acts on the row the store had of its container. -/
abbrev RollbackAttemptsOf (M : Machine Calls World)
    (R : List ContainerSpec → List ContainerSpec → Prop) (req : RollbackRequest) (s : Store)
    (before : InspectResponse) (w : World) (trace : Trace Calls World) (out : Option GoError)
    (w' : World) : Prop :=
  ∃ rec, s.getContainer req.containerID = some rec ∧ RollbackAttempts M R req rec before w trace out w'

section Rollback

variable {req : RollbackRequest} {rec : ContainerRecord} {before : InspectResponse}
  {result : RecreationResult} {w w' : World} {trace : Trace Calls World} {out : Option GoError}

theorem commitRollback_runs (hM : Hosts M R)
    (hrun : M.Runs (commitRollback req rec before result) w trace out w') :
    (out = none ∧ RollbackCommits R req rec before result w trace w') ∨
    Uncommitted M R req.ctx (rollbackType req) req.containerID before req.requester result w trace
      out w' := by
  obtain ⟨w₀, replaced, w₁, rest, hrely, hstep, rfl, h₁⟩ := Machine.runs_request_bind.mp hrun
  clear hrun
  have hframe := hM.rely hrely
  rcases step_write () (fun _ _ => rfl) (hM.step hstep) with ⟨err, rfl, rfl⟩ | ⟨-, rfl, rfl⟩
  · right
    obtain ⟨w₂, _, w₃, rest, hrely, hstep, rfl, h₂⟩ := Machine.runs_request_bind.mp h₁
    obtain rfl := step_emit (hM.step hstep)
    refine ⟨[_, _], rest, _, w₃, rfl, hframe.trans hM (hM.rely hrely), ?_, ?_, revert_runs hM h₂⟩
    · simp [Call.KeepsHost]
    · exact ⟨_, List.mem_cons_self, trivial⟩
  · obtain ⟨w₂, marked, w₃, rest, hrely, hstep, rfl, h₂⟩ := Machine.runs_request_bind.mp h₁
    clear h₁
    have hmarked : w₃ = { w₂ with store := markAvailable marked result.id w₂.clock w₂.store } := by
      rcases step_store (hM.step hstep) with ⟨err, rfl, rfl⟩ | ⟨done, store, -, hp, rfl, rfl⟩
      · rfl
      · obtain ⟨rfl, rfl⟩ := Prod.mk.inj (Except.ok.inj hp)
        rfl
    have hquiet : Quietly M w₃ rest w' ∧ (∀ e ∈ rest, e.op.OffDocker) ∧ out = none := by
      cases marked with
      | error err =>
        refine ⟨Quietly.of_runs h₂ ⟨trivial, fun _ => ⟨trivial, fun _ => ⟨trivial, fun _ => trivial⟩⟩⟩,
          fun e he => Machine.runs_uses
            (by exact ⟨trivial, fun _ => ⟨trivial, fun _ => ⟨trivial, fun _ => trivial⟩⟩⟩) h₂ e he, ?_⟩
        obtain ⟨_, _, _, _, -, -, -, h₃⟩ := Machine.runs_request_bind.mp h₂
        obtain ⟨_, _, _, _, -, -, -, h₄⟩ := Machine.runs_request_bind.mp h₃
        obtain ⟨_, _, _, _, -, -, -, h₅⟩ := Machine.runs_request_bind.mp h₄
        exact h₅.2.1
      | ok _ =>
        refine ⟨Quietly.of_runs h₂ ⟨trivial, fun _ => ⟨trivial, fun _ => trivial⟩⟩,
          fun e he => Machine.runs_uses (by exact ⟨trivial, fun _ => ⟨trivial, fun _ => trivial⟩⟩) h₂
            e he, ?_⟩
        obtain ⟨_, _, _, _, -, -, -, h₃⟩ := Machine.runs_request_bind.mp h₂
        obtain ⟨_, _, _, _, -, -, -, h₄⟩ := Machine.runs_request_bind.mp h₃
        exact h₄.2.1
    have hframe := (hframe.withStore _).trans hM (hM.rely hrely)
    have hdone := (hframe.withStore _).trans hM (hmarked ▸ hquiet.1.frame hM)
    rw [hframe.store, (hM.rely ‹M.rely w w₀›).store] at hdone
    exact .inl ⟨hquiet.2.2, .completed hquiet.2.1 hdone⟩

theorem rollbackInspected_runs (hM : Hosts M R)
    (hrun : M.Runs (rollbackInspected req rec before) w trace out w') :
    ∃ w₀ event rest, M.rely w w₀ ∧ trace = ⟨w₀, .emit event, ()⟩ :: rest ∧
      RollbackAttempts M R req rec before w₀ rest out w' := by
  obtain ⟨w₀, _, w₁, rest, hrely, hstep, rfl, h₁⟩ := Machine.runs_request_bind.mp hrun
  clear hrun
  obtain rfl := step_emit (hM.step hstep)
  refine ⟨w₁, _, rest, hrely, rfl, ?_⟩
  obtain ⟨first, ⟨result, err⟩, w₂, tail, hfirst, h₂, rfl⟩ := Machine.runs_bind.mp h₁
  clear h₁
  have hrecreate := recreate_runs hM hfirst
  have hrecover : ∀ cause : GoError, ∀ hcause : M.Runs (do
      Go.emit (rollbackEvent req rec (trimSlash before.name) .error (rollbackType req ++ ".failed")
        ("rollback failed for " ++ trimSlash before.name ++ ", reverting to current image: " ++
          cause.message))
      recover req.ctx ⟨rollbackType req, req.containerID, before, trimSlash before.name,
        req.requester, cause⟩ result) w₂ tail out w',
      ∃ event rest w₃ w₄, tail = [⟨w₃, .emit event, ()⟩] ++ rest ∧
        Quietly M w₂ [⟨w₃, .emit event, ()⟩] w₄ ∧ RecoverRun M R req.ctx
        ⟨rollbackType req, req.containerID, before, trimSlash before.name, req.requester, cause⟩
        result w₄ rest out w' := by
    intro cause hcause
    obtain ⟨w₃, _, w₄, rest, hrely, hstep, rfl, h₃⟩ := Machine.runs_request_bind.mp hcause
    exact ⟨_, rest, w₃, w₄, rfl, .cons hrely hstep trivial .nil, recover_runs hM h₃⟩
  have hdocker := Machine.runs_uses (recreate_onDocker _ _ _ _) hfirst
  cases err with
  | none =>
    rcases commitRollback_runs hM h₂ with ⟨rfl, hcommit⟩ | hfailed
    · exact .committed hrecreate hdocker hcommit
    · exact .uncommitted hrecreate hfailed
  | some cause =>
    cases cause with
    | nilDereference =>
      obtain ⟨rfl, rfl, rfl⟩ := h₂
      simpa using AttemptRun.panicked hrecreate hdocker
    | _ =>
      obtain ⟨event, rest, w₃, w₄, rfl, hreport, hrecovered⟩ := hrecover _ h₂
      rw [← List.append_assoc]
      exact .recovered hrecreate hdocker hreport hrecovered

theorem step_getContainer {w w' : World} {ctx : Context} {id : String}
    {reply : Except GoError ContainerRecord}
    (h : openSystem.step w (.store ctx (.getContainer id)) reply w') :
    w' = w ∧ ((∃ err, reply = .error err) ∨
      ∃ rec, w.store.getContainer id = some rec ∧ reply = .ok rec) := by
  rcases step_store h with ⟨err, rfl, rfl⟩ | ⟨result, store, -, hperform, rfl, rfl⟩
  · exact ⟨rfl, .inl ⟨err, rfl⟩⟩
  · obtain ⟨hrec, rfl⟩ := Store.perform_getContainer.mp hperform
    exact ⟨rfl, .inr ⟨result, hrec, rfl⟩⟩

/-- The wait of an automatic rollback only moves the snapshot on. -/
theorem awaitSettled_runs (hM : Hosts M R) {ctx : Context} {id : String} {deadline : Time}
    {turns : Nat} {w₁ w₂ : World} {opening : Trace Calls World}
    {settled : Except GoError InspectResponse} (hopened : Opened M ctx id w opening before w₁)
    (hrun : M.Runs (awaitSettled ctx id deadline turns before) w₁ trace settled w₂) :
    (∃ err, settled = .error err ∧ err.isReverted = false ∧ Prevented ctx id w.store trace) ∨
    ∃ after, settled = .ok after ∧ Opened M ctx id w (opening ++ trace) after w₂ := by
  induction turns generalizing before opening w₁ trace with
  | zero =>
    obtain ⟨rfl, rfl, rfl⟩ := hrun
    exact .inr ⟨before, rfl, by simpa using hopened⟩
  | succ turns ih =>
    unfold awaitSettled at hrun
    split at hrun
    · obtain ⟨rfl, rfl, rfl⟩ := hrun
      exact .inr ⟨before, rfl, by simpa using hopened⟩
    obtain ⟨w₃, now, w₄, rest, hrely₃, hstep₃, rfl, h₁⟩ := Machine.runs_request_bind.mp hrun
    clear hrun
    have hopened := hopened.extend (.cons hrely₃ hstep₃ trivial .nil)
      (by simp [Unlogged, isEmit, inspectedBy])
    split at h₁
    · obtain ⟨rfl, rfl, rfl⟩ := h₁
      exact .inr ⟨before, rfl, hopened⟩
    obtain ⟨w₅, now, w₆, rest, hrely₅, hstep₅, rfl, h₂⟩ := Machine.runs_request_bind.mp h₁
    clear h₁
    obtain ⟨w₇, slept, w₈, rest, hrely₇, hstep₇, rfl, h₃⟩ := Machine.runs_request_bind.mp h₂
    clear h₂
    have hopened := hopened.extend (.cons hrely₅ hstep₅ trivial (.cons hrely₇ hstep₇ trivial .nil))
      (by simp [Unlogged, isEmit, inspectedBy])
    cases slept with
    | some err =>
      obtain ⟨rfl, rfl, rfl⟩ := h₃
      rcases step_sleepUntil (hM.step hstep₇) with ⟨h, hended, -⟩ | ⟨h, -⟩ <;> cases h
      exact .inl ⟨_, rfl, rfl, .ended hended⟩
    | none =>
      obtain ⟨w₉, reply, w₁₀, rest, hrely₉, hstep₉, rfl, h₄⟩ := Machine.runs_request_bind.mp h₃
      clear h₃
      obtain ⟨rfl, hreply⟩ := step_inspect (hM.step hstep₉)
      rcases hreply with ⟨err, rfl⟩ | ⟨spec, hmem, hid, -, rfl⟩
      · obtain ⟨rfl, rfl, rfl⟩ := h₄
        exact .inl ⟨_, rfl, rfl,
          .failed (e := ⟨w₂, .docker ctx (.inspect id), .error err⟩) (by simp) trivial⟩
      · have hopened := Opened.inspect hopened.quiet hopened.unlogged hrely₉ hstep₉ hmem hid
        rcases ih hopened h₄ with ⟨err, rfl, herr, hcause⟩ | ⟨after, rfl, hsettled⟩
        · refine .inl ⟨err, rfl, herr, hcause.mono fun e he => ?_⟩
          simp [he]
        · exact .inr ⟨after, rfl, by simpa using hsettled⟩

theorem settledBefore_runs (hM : Hosts M R) {w₁ w₂ : World} {opening : Trace Calls World}
    {settled : Except GoError InspectResponse}
    (hopened : Opened M req.ctx req.containerID w opening before w₁)
    (hrun : M.Runs (settledBefore req before) w₁ trace settled w₂) :
    (∃ err, settled = .error err ∧ err.isReverted = false ∧
      Prevented req.ctx req.containerID w.store trace) ∨
    ∃ after, settled = .ok after ∧
      Opened M req.ctx req.containerID w (opening ++ trace) after w₂ := by
  unfold settledBefore at hrun
  split at hrun
  · obtain ⟨w₃, now, w₄, rest, hrely, hstep, rfl, h₁⟩ := Machine.runs_request_bind.mp hrun
    have hopened := hopened.extend (.cons hrely hstep trivial .nil)
      (by simp [Unlogged, isEmit, inspectedBy])
    rcases awaitSettled_runs hM hopened h₁ with ⟨err, rfl, herr, hcause⟩ | ⟨after, rfl, hsettled⟩
    · exact .inl ⟨err, rfl, herr, hcause.mono (List.subset_cons_self _ _)⟩
    · exact .inr ⟨after, rfl, by simpa using hsettled⟩
  · obtain ⟨rfl, rfl, rfl⟩ := hrun
    exact .inr ⟨before, rfl, by simpa using hopened⟩

theorem rollback_runs (hM : Hosts M R) (hrun : M.Runs (rollback req) w trace out w') :
    OperationRun M (RollbackAttemptsOf M R req w.store) req.ctx req.containerID w trace out w' := by
  obtain ⟨w₀, found, w₁, rest, hrely, hread, rfl, h₁⟩ := Machine.runs_request_bind.mp hrun
  clear hrun
  obtain ⟨rfl, hfound⟩ := step_getContainer (hM.step hread)
  have hlookup : Quietly M w [⟨w₁, .store req.ctx (.getContainer req.containerID), found⟩] w₁ :=
    .cons hrely hread trivial .nil
  rcases hfound with ⟨err, rfl⟩ | ⟨rec, hrec, rfl⟩
  · obtain ⟨rfl, rfl, rfl⟩ := h₁
    exact .early hlookup ⟨_, rfl, rfl⟩ (.failed List.mem_cons_self trivial)
  rw [(hM.rely hrely).store] at hrec
  simp only [] at h₁
  split at h₁
  · next hprevious =>
    obtain ⟨rfl, rfl, rfl⟩ := h₁
    exact .early hlookup ⟨_, rfl, rfl⟩ (.unrecorded hrec hprevious)
  rcases withOperation_runs h₁ req.ctx req.containerID w.store with ⟨hquiet, hfailed, hcause⟩ |
    ⟨w₂, w₃, w₄, body, closing, hbegin, hstep, h₂, hclosing, hoff, rfl⟩
  · exact .early (hlookup.append hquiet) hfailed (hcause.mono (List.subset_cons_self _ _))
  clear h₁
  have hopen := hlookup.append (.cons hbegin hstep trivial .nil)
  obtain ⟨w₅, reply, w₆, rest, hrely₅, hinspect, rfl, h₃⟩ := Machine.runs_request_bind.mp h₂
  clear h₂
  obtain ⟨rfl, hreply⟩ := step_inspect (hM.step hinspect)
  rcases hreply with ⟨err, rfl⟩ | ⟨spec, hmem, hid, -, rfl⟩
  · obtain ⟨rfl, rfl, rfl⟩ := h₃
    have hquiet := (hopen.append (.cons hrely₅ hinspect trivial .nil)).append hclosing
    exact .early (by simpa using hquiet) ⟨_, rfl, rfl⟩
      (.failed (e := ⟨w₄, .docker req.ctx (.inspect req.containerID), .error err⟩) (by simp) trivial)
  have hopened := Opened.inspect hopen (by simp [isEmit]) hrely₅ hinspect hmem hid
  obtain ⟨wait, settled, w₇, rest, hwait, h₄, rfl⟩ := Machine.runs_bind.mp h₃
  clear h₃
  rcases settledBefore_runs hM hopened hwait with
    ⟨err, rfl, herr, hcause⟩ | ⟨before, rfl, hsettled⟩
  · obtain ⟨rfl, rfl, rfl⟩ := h₄
    have hobserves := Machine.runs_uses (settledBefore_observes _ _) hwait
    have hquiet := (hopened.quiet.append ⟨Machine.runs_path hwait,
      fun e he => Call.quiet_of_observes (hobserves e he)⟩).append hclosing
    refine .early (by simpa using hquiet) ⟨_, rfl, herr⟩ (hcause.mono fun e he => ?_)
    simp [he]
  · obtain ⟨w₈, event, rest, hrely₈, rfl, hattempt⟩ := rollbackInspected_runs hM h₄
    have h : OperationRun M (RollbackAttemptsOf M R req w.store) req.ctx req.containerID w
        (_ ++ ⟨w₈, .emit event, ()⟩ :: rest ++ closing) out w' :=
      .attempted hsettled hrely₈ ⟨rec, hrec, hattempt⟩ hclosing hoff
    simpa using h

end Rollback

end Updater
end Doupro
