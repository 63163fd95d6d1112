import Doupro.Updater.OperationRuns
import Mathlib.Tactic.Linarith

/-!
# The two waits

The health wait after a start and the wait of an automatic rollback poll until a deadline.
Their loops are bounded by fuel; the bound is never what ends them. What the health wait
decides is read off what Docker reported during it.
-/

namespace Doupro

open Interaction

variable {M : Machine Calls World} {R : List ContainerSpec → List ContainerSpec → Prop}
  {w w' : World} {trace : Trace Calls World} {ctx : Context} {id : String}

/-! ### Fuel -/

namespace Client

/-- Polls beyond the deadline are never made. -/
theorem pollHealth_fuel (hM : Hosts M R) {timeout : Duration} {deadline tick : Time}
    {polls extra : Nat} (hdeadline : deadline < tick + polls * pollInterval) {out : Option GoError} :
    M.Runs (pollHealth ctx id timeout deadline (polls + extra + 1) tick) w trace out w' ↔
      M.Runs (pollHealth ctx id timeout deadline (polls + 1) tick) w trace out w' := by
  induction polls generalizing w trace tick with
  | zero =>
    rw [Nat.zero_add, Nat.zero_add]
    refine Machine.runs_request_congr fun w₁ slept w₂ hrely₁ hstep₁ rest => ?_
    rcases step_sleepUntil (hM.step hstep₁) with ⟨rfl, -, -⟩ | ⟨rfl, rfl⟩
    · rfl
    refine Machine.runs_request_congr fun w₃ reply w₄ hrely₃ hstep₃ rest => ?_
    obtain ⟨rfl, -⟩ := step_inspect (hM.step hstep₃)
    cases reply with
    | error err => rfl
    | ok info =>
      cases hverdict : pollVerdict id info with
      | some verdict => simp only [hverdict]
      | none =>
        simp only [hverdict]
        refine Machine.runs_request_congr fun w₅ now w₆ hrely₅ hstep₅ rest => ?_
        obtain ⟨rfl, rfl⟩ := step_now (hM.step hstep₅)
        have hclock : tick ≤ w₆.clock :=
          le_trans (le_max_right w₁.clock tick)
            (le_trans (hM.rely hrely₃).clock (hM.rely hrely₅).clock)
        have hlate : deadline < w₆.clock := lt_of_lt_of_le (by simpa using hdeadline) hclock
        simp only [if_pos hlate]
  | succ polls ih =>
    rw [Nat.add_right_comm polls 1 extra]
    refine Machine.runs_request_congr fun w₁ slept w₂ hrely₁ hstep₁ rest => ?_
    cases slept with
    | some err => rfl
    | none =>
      refine Machine.runs_request_congr fun w₃ reply w₄ hrely₃ hstep₃ rest => ?_
      cases reply with
      | error err => rfl
      | ok info =>
        cases hverdict : pollVerdict id info with
        | some verdict => simp only [hverdict]
        | none =>
          simp only [hverdict]
          refine Machine.runs_request_congr fun w₅ now w₆ hrely₅ hstep₅ rest => ?_
          split
          · rfl
          · have hnext : deadline < tick + pollInterval + polls * pollInterval := by
              push_cast at hdeadline
              linarith
            exact ih hnext

end Client

namespace Updater

/-- Turns beyond the deadline are never taken. -/
theorem awaitSettled_fuel (hM : Hosts M R) {deadline : Time} {turns extra : Nat}
    (hdeadline : deadline ≤ w.clock + turns * settleInterval) {before : InspectResponse}
    {settled : Except GoError InspectResponse} :
    M.Runs (awaitSettled ctx id deadline (turns + extra + 1) before) w trace settled w' ↔
      M.Runs (awaitSettled ctx id deadline (turns + 1) before) w trace settled w' := by
  induction turns generalizing w trace before with
  | zero =>
    rw [Nat.zero_add, Nat.zero_add]
    unfold awaitSettled
    split
    · rfl
    refine Machine.runs_request_congr fun w₁ now w₂ hrely₁ hstep₁ rest => ?_
    obtain ⟨rfl, rfl⟩ := step_now (hM.step hstep₁)
    have hlate : deadline ≤ w₂.clock :=
      le_trans (by simpa using hdeadline) (hM.rely hrely₁).clock
    simp only [if_pos hlate]
  | succ turns ih =>
    rw [Nat.add_right_comm turns 1 extra]
    unfold awaitSettled
    split
    · rfl
    refine Machine.runs_request_congr fun w₁ now₁ w₂ hrely₁ hstep₁ rest => ?_
    obtain ⟨rfl, rfl⟩ := step_now (hM.step hstep₁)
    split
    · rfl
    refine Machine.runs_request_congr fun w₃ now₃ w₄ hrely₃ hstep₃ rest => ?_
    obtain ⟨rfl, rfl⟩ := step_now (hM.step hstep₃)
    refine Machine.runs_request_congr fun w₅ slept w₆ hrely₅ hstep₅ rest => ?_
    rcases step_sleepUntil (hM.step hstep₅) with ⟨rfl, -, -⟩ | ⟨rfl, rfl⟩
    · rfl
    refine Machine.runs_request_congr fun w₇ reply w₈ hrely₇ hstep₇ rest => ?_
    obtain ⟨rfl, -⟩ := step_inspect (hM.step hstep₇)
    cases reply with
    | error err => rfl
    | ok before =>
      refine ih ?_
      have hslept : w.clock + settleInterval ≤ w₈.clock := by
        have h₁ := (hM.rely hrely₁).clock
        have h₃ := (hM.rely hrely₃).clock
        have h₇ := (hM.rely hrely₇).clock
        have hmax := le_max_right w₅.clock (w₄.clock + settleInterval)
        simp only at h₇
        linarith
      push_cast at hdeadline
      linarith

end Updater

/-! ### What the health wait decides -/

/-- What Docker reported in a stretch of a run. -/
def inspections (trace : Trace Calls World) : List InspectResponse := trace.filterMap inspectedBy

section inspections

variable {front rest : Trace Calls World}

@[simp] theorem inspections_nil : inspections [] = [] := rfl

theorem inspections_append : inspections (front ++ rest) = inspections front ++ inspections rest :=
  List.filterMap_append

theorem inspections_inspect {info : InspectResponse} :
    inspections (⟨w, .docker ctx (.inspect id), .ok info⟩ :: rest) = info :: inspections rest := rfl

theorem inspections_inspect_error {err : GoError} :
    inspections (⟨w, .docker ctx (.inspect id), .error err⟩ :: rest) = inspections rest := rfl

@[simp] theorem inspections_now {t : Time} :
    inspections (⟨w, .now, t⟩ :: rest) = inspections rest := rfl

@[simp] theorem inspections_sleepUntil {deadline : Time} {err : Option GoError} :
    inspections (⟨w, .sleepUntil ctx deadline, err⟩ :: rest) = inspections rest := rfl

end inspections

namespace Client

theorem pollVerdict_healthy {info : InspectResponse} :
    pollVerdict id info = some none ↔ info.health = some "healthy" := by
  unfold pollVerdict
  split
  · simpa
  · next h =>
    simp only [h, iff_false]
    split
    · simp
    · split <;> simp

/-- The polls pass exactly if one of them reports a healthy container. -/
theorem pollHealth_passes {timeout : Duration} {deadline tick : Time} {polls : Nat}
    {out : Option GoError}
    (hrun : M.Runs (pollHealth ctx id timeout deadline polls tick) w trace out w') :
    out = none ↔ ∃ info ∈ inspections trace, info.health = some "healthy" := by
  induction polls generalizing w trace tick with
  | zero =>
    obtain ⟨rfl, rfl, rfl⟩ := hrun
    simp
  | succ polls ih =>
    obtain ⟨w₁, slept, w₂, rest, -, -, rfl, h₁⟩ := Machine.runs_request_bind.mp hrun
    cases slept with
    | some err =>
      obtain ⟨rfl, rfl, rfl⟩ := h₁
      simp
    | none =>
      obtain ⟨w₃, reply, w₄, rest, -, -, rfl, h₂⟩ := Machine.runs_request_bind.mp h₁
      cases reply with
      | error err =>
        obtain ⟨rfl, rfl, rfl⟩ := h₂
        rw [inspections_sleepUntil, inspections_inspect_error]
        simp
      | ok info =>
        have hverdict : pollVerdict id info = some none ↔ info.health = some "healthy" :=
          pollVerdict_healthy
        cases hpoll : pollVerdict id info with
        | some verdict =>
          simp only [hpoll] at h₂
          obtain ⟨rfl, rfl, rfl⟩ := h₂
          rw [hpoll, Option.some_inj] at hverdict
          rw [inspections_sleepUntil, inspections_inspect]
          simpa using hverdict
        | none =>
          simp only [hpoll] at h₂
          have hnot : ¬ info.health = some "healthy" := by
            rw [← hverdict, hpoll]
            simp
          obtain ⟨w₅, now, w₆, rest, -, -, rfl, h₃⟩ := Machine.runs_request_bind.mp h₂
          rw [inspections_sleepUntil, inspections_inspect, inspections_now]
          split at h₃
          · obtain ⟨rfl, rfl, rfl⟩ := h₃
            simpa using hnot
          · rw [ih h₃]
            simp [hnot]

/-- While the container runs and no call fails, the wait passes exactly if the container
has no health check or a poll reports it healthy. -/
theorem waitHealthy_passes (hM : Hosts M R) {timeout window : Duration} {out : Option GoError}
    (hrun : M.Runs (waitHealthy .background id timeout window) w trace out w')
    (hcalls : ∀ e ∈ trace, ¬ CallFailed e)
    (hup : ∀ info ∈ inspections trace, info.running = true) :
    ∃ first polls, inspections trace = first :: polls ∧
      (out = none ↔ first.health = none ∨ ∃ info ∈ polls, info.health = some "healthy") := by
  obtain ⟨w₁, now₁, w₂, rest, -, -, rfl, h₁⟩ := Machine.runs_request_bind.mp hrun
  obtain ⟨w₃, now₃, w₄, rest, -, -, rfl, h₂⟩ := Machine.runs_request_bind.mp h₁
  obtain ⟨w₅, reply, w₆, rest, -, -, rfl, h₃⟩ := Machine.runs_request_bind.mp h₂
  clear hrun h₁ h₂
  cases reply with
  | error err => exact absurd trivial (hcalls ⟨w₅, .docker .background (.inspect id), .error err⟩ (by simp))
  | ok first =>
    refine ⟨first, inspections rest, rfl, ?_⟩
    cases hhealth : first.health with
    | some text =>
      have hcheck : hasHealthcheck (.ok first) = true := by simp [hasHealthcheck, hhealth]
      simp only [hcheck, if_true] at h₃
      rw [pollHealth_passes h₃]
      simp
    | none =>
      have hcheck : hasHealthcheck (.ok first) = false := by simp [hasHealthcheck, hhealth]
      simp only [hcheck, Bool.false_eq_true, if_false] at h₃
      obtain ⟨w₇, now₇, w₈, rest, -, -, rfl, h₄⟩ := Machine.runs_request_bind.mp h₃
      obtain ⟨w₉, slept, w₁₀, rest, -, hstep, rfl, h₅⟩ := Machine.runs_request_bind.mp h₄
      clear h₃ h₄
      rcases step_sleepUntil (hM.step hstep) with ⟨-, hended, -⟩ | ⟨rfl, rfl⟩
      · cases hended
      obtain ⟨w₁₁, reply, w₁₂, rest, -, -, rfl, h₆⟩ := Machine.runs_request_bind.mp h₅
      cases reply with
      | error err =>
        exact absurd trivial (hcalls ⟨w₁₁, .docker .background (.inspect id), .error err⟩ (by simp))
      | ok info =>
        have hrunning : info.running = true :=
          hup info (List.mem_cons_of_mem first List.mem_cons_self)
        simp only [hrunning, not_true_eq_false, if_false] at h₆
        obtain ⟨rfl, rfl, rfl⟩ := h₆
        simp

end Client
end Doupro
