import Doupro.Updater.RecreateRuns
import Doupro.Updater.Revert

/-!
# Every run of the error paths

What `recover` and `revert` leave behind, in terms of the recreation they contain.
-/

namespace Doupro.Updater

open Interaction

variable {M : Machine Calls World} {R : List ContainerSpec → List ContainerSpec → Prop}

/-- The operation failed and does not claim to have reverted. -/
def Failed (out : Option GoError) : Prop := ∃ err, out = some err ∧ err.isReverted = false

inductive RevertRun (M : Machine Calls World) (R : List ContainerSpec → List ContainerSpec → Prop)
    (ctx : Context) (op : FailedOperation) (liveID : String) (w : World) :
    Trace Calls World → Option GoError → World → Prop
  | failed {trace rest : Trace Calls World} {result : RecreationResult} {err : GoError}
    {w₁ w' : World} {out : Option GoError}
    (hrecreate : RecreateRun M R ctx liveID op.before (configImage op.before) w trace
      (result, some err) w₁)
    (hrest : Quietly M w₁ rest w') (hout : Failed out) :
    RevertRun M R ctx op liveID w (trace ++ rest) out w'
  | unrecorded {trace read : Trace Calls World} {result : RecreationResult} {rec : ContainerRecord}
    {err : GoError} {w₁ w₂ w' : World}
    (hrecreate : RecreateRun M R ctx liveID op.before (configImage op.before) w trace
      (result, none) w₁)
    (hread : Quietly M w₁ read w₂) (hrely : M.rely w₂ w') :
    RevertRun M R ctx op liveID w
      (trace ++ read ++ [⟨w', .store ctx (.replaceContainer op.originalID rec), .error err⟩])
      (some (.wrap "record reverted container" err)) w'
  | reverted {trace read rest : Trace Calls World} {result : RecreationResult}
    {recorded : Except GoError ContainerRecord} {w₁ w₂ w₃ w' : World}
    (hrecreate : RecreateRun M R ctx liveID op.before (configImage op.before) w trace
      (result, none) w₁)
    (hread : Quietly M w₁ read w₂) (hrely : M.rely w₂ w₃)
    (hrest : Quietly M
      { w₃ with
        store := w₃.store.replaceContainer op.originalID (revertedRecord op result recorded) }
      rest w') :
    RevertRun M R ctx op liveID w
      (trace ++ read ++ ⟨w₃, .store ctx (.replaceContainer op.originalID
        (revertedRecord op result recorded)), .ok ()⟩ :: rest)
      (some (.reverted op.kind op.cause)) w'

/-- A statement without a result either fails or writes. -/
theorem step_write {w w' : World} {ctx : Context} {call : StoreCall} {write : Store → Store}
    (done : call.Result) (hwrite : ∀ s now, Store.perform s now call = .ok (done, write s))
    {reply : Except GoError call.Result} (h : openSystem.step w (.store ctx call) reply w') :
    (∃ err, reply = .error err ∧ w' = w) ∨
    (w.contextEnded ctx = false ∧ reply = .ok done ∧ w' = { w with store := write w.store }) := by
  rcases step_store h with ⟨err, rfl, rfl⟩ | ⟨result, store, hlive, hperform, rfl, rfl⟩
  · exact .inl ⟨err, rfl, rfl⟩
  · rw [hwrite] at hperform
    obtain ⟨rfl, rfl⟩ := Prod.mk.inj (Except.ok.inj hperform)
    exact .inr ⟨hlive, rfl, rfl⟩

theorem step_replaceContainer {w w' : World} {ctx : Context} {oldID : String}
    {rec : ContainerRecord} {reply : Except GoError Unit}
    (h : openSystem.step w (.store ctx (.replaceContainer oldID rec)) reply w') :
    (∃ err, reply = .error err ∧ w' = w) ∨ (w.contextEnded ctx = false ∧ reply = .ok () ∧
      w' = { w with store := w.store.replaceContainer oldID rec }) :=
  step_write () (fun _ _ => rfl) h

theorem revert_runs (hM : Hosts M R) {ctx : Context} {op : FailedOperation} {liveID : String}
    {w w' : World} {trace : Trace Calls World} {out : Option GoError}
    (hrun : M.Runs (revert ctx op liveID) w trace out w') :
    RevertRun M R ctx op liveID w trace out w' := by
  obtain ⟨first, ⟨result, revertErr⟩, w₁, rest, hfirst, h₁, rfl⟩ := Machine.runs_bind.mp hrun
  clear hrun
  have hrecreate := recreate_runs hM hfirst
  cases revertErr with
  | some err =>
    simp only [] at h₁
    split at h₁
    · obtain ⟨rfl, rfl, rfl⟩ := h₁
      exact .failed hrecreate .nil ⟨_, rfl, rfl⟩
    · have hrest := Quietly.of_runs h₁ ⟨trivial, fun _ => ⟨trivial, fun _ => trivial⟩⟩
      obtain ⟨_, _, w₂, _, -, -, rfl, h₂⟩ := Machine.runs_request_bind.mp h₁
      obtain ⟨_, _, w₃, _, -, -, rfl, h₃⟩ := Machine.runs_request_bind.mp h₂
      obtain ⟨rfl, rfl, rfl⟩ := h₃
      exact .failed hrecreate hrest ⟨_, rfl, rfl⟩
  | none =>
    obtain ⟨w₂, recorded, w₃, rest, hrely, hstep, rfl, h₂⟩ := Machine.runs_request_bind.mp h₁
    clear h₁
    have hread : Quietly M w₁ [⟨w₂, .store ctx (.getContainer op.originalID), recorded⟩] w₃ :=
      .cons hrely hstep trivial .nil
    obtain ⟨w₄, reply, w₅, rest, hrely, hstep, rfl, h₃⟩ := Machine.runs_request_bind.mp h₂
    clear h₂
    rcases step_replaceContainer (hM.step hstep) with ⟨err, rfl, rfl⟩ | ⟨-, rfl, rfl⟩
    · obtain ⟨rfl, rfl, rfl⟩ := h₃
      simpa using RevertRun.unrecorded hrecreate hread hrely
    · have hrest := Quietly.of_runs h₃ ⟨trivial, fun _ => trivial⟩
      obtain ⟨_, _, w₆, _, -, -, rfl, h₄⟩ := Machine.runs_request_bind.mp h₃
      obtain ⟨rfl, rfl, rfl⟩ := h₄
      simpa using RevertRun.reverted hrecreate hread hrely hrest

inductive RecoverRun (M : Machine Calls World) (R : List ContainerSpec → List ContainerSpec → Prop)
    (ctx : Context) (op : FailedOperation) (result : RecreationResult) (w : World) :
    Trace Calls World → Option GoError → World → Prop
  | kept {trace : Trace Calls World} {out : Option GoError} {w' : World}
    (hkept : result.originalRemoved = false) (hrest : Quietly M w trace w') (hout : Failed out) :
    RecoverRun M R ctx op result w trace out w'
  | removed {trace : Trace Calls World} {out : Option GoError} {w' : World}
    (hremoved : result.originalRemoved = true)
    (hrevert : RevertRun M R ctx op result.id w trace out w') :
    RecoverRun M R ctx op result w trace out w'

theorem failBeforeRemoval_quiet (ctx : Context) (op : FailedOperation) (result : RecreationResult) :
    (failBeforeRemoval ctx op result).Uses Call.Quiet := by
  unfold failBeforeRemoval
  split
  · refine ⟨trivial, fun reply => ?_⟩
    cases reply with
    | error err => exact ⟨trivial, fun _ => trivial⟩
    | ok _ => trivial
  · trivial

theorem failBeforeRemoval_failed {ctx : Context} {op : FailedOperation} {result : RecreationResult}
    {w w' : World} {trace : Trace Calls World} {out : Option GoError}
    (hrun : M.Runs (failBeforeRemoval ctx op result) w trace out w') : Failed out := by
  unfold failBeforeRemoval at hrun
  split at hrun
  · obtain ⟨_, reply, _, _, -, -, rfl, h₁⟩ := Machine.runs_request_bind.mp hrun
    cases reply with
    | error err =>
      obtain ⟨_, _, _, _, -, -, rfl, h₂⟩ := Machine.runs_request_bind.mp h₁
      exact ⟨_, h₂.2.1, rfl⟩
    | ok _ => exact ⟨_, h₁.2.1, rfl⟩
  · exact ⟨_, hrun.2.1, rfl⟩

theorem recover_runs (hM : Hosts M R) {ctx : Context} {op : FailedOperation}
    {result : RecreationResult} {w w' : World} {trace : Trace Calls World} {out : Option GoError}
    (hrun : M.Runs (recover ctx op result) w trace out w') :
    RecoverRun M R ctx op result w trace out w' := by
  unfold recover at hrun
  split at hrun
  · next hkept =>
    exact .kept (by simpa using hkept)
      (Quietly.of_runs hrun (failBeforeRemoval_quiet ctx op result)) (failBeforeRemoval_failed hrun)
  · next hremoved => exact .removed (by simpa using hremoved) (revert_runs hM hrun)

end Doupro.Updater
