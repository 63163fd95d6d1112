import Doupro.Updater.Waits

/-!
# The health wait on a timeline

What happens to a container while `WaitHealthy` waits, at every instant, against the few instants
at which it inspects the container.
-/

namespace Doupro

open Go Interaction

/-- What Docker has of a container at an instant, and how often its process was started before. -/
structure Moment where
  state : ContainerState
  starts : Nat := 1

/-- The history of a container. Docker reports no health without a health check. -/
structure Timeline where
  healthcheck : Bool
  moment : Time → Moment
  unchecked : healthcheck = false → ∀ t, (moment t).state.health = none

/-- The instants of the inspects, and which of them Docker answered. -/
def inspects (trace : Trace Calls World) : List (Time × Bool) :=
  trace.filterMap fun e => match e.op with
    | .docker _ (.inspect _) => some (e.world.clock, (inspectedBy e).isSome)
    | _ => none

/-- The instants slept for. -/
def sleeps (trace : Trace Calls World) : List Time :=
  trace.filterMap fun e => match e.op with
    | .sleepUntil _ deadline => some deadline
    | _ => none

namespace Timeline

variable (T : Timeline)

/-- The container runs all the time, in the same process. -/
def Steady (start stop : Time) : Prop :=
  ∀ t, start ≤ t → t ≤ stop →
    (T.moment t).state.status = .running ∧ (T.moment t).starts = (T.moment start).starts

def Follows (id : String) (w : World) : Prop := w.engine.states id = (T.moment w.clock).state

/-- The calls of a process, each of which may fail, while a container has this history. -/
def machine (id : String) : Machine Calls World where
  rely w w' := openSystem.rely w w' ∧ T.Follows id w'
  step := openSystem.step

/-- What a wait without an error stands for: Docker reported a healthy container, or there is no
health check and the container ran from the call to the end of the window. -/
def Ready (start : Time) (trace : Trace Calls World) : Prop :=
  (T.healthcheck = true ∧ ∃ info ∈ inspections trace, info.health = some "healthy") ∨
    (T.healthcheck = false ∧ ∀ stop ∈ sleeps trace, T.Steady start stop)

/-- What an inspect shows of the container, if it is answered. -/
def shown (sample : Time × Bool) : Option ContainerState :=
  if sample.2 then some (T.moment sample.1).state else none

/-- The first inspect shows no health check and the second, after the window, a container that
counts as running; but there is a health check that does not report it healthy, or the container
stopped or restarted before the window ended. -/
def Misleads (start : Time) (trace : Trace Calls World) : Prop :=
  ∃ first last state, inspects trace = [first, last] ∧
    (T.shown first).bind ContainerState.health = none ∧
    T.shown last = some state ∧ state.running = true ∧
    (T.healthcheck = true → state.health ≠ some "healthy") ∧
    (T.healthcheck = false → ∃ stop ∈ sleeps trace, ¬ T.Steady start stop)

variable {T} {id : String} {ctx : Context} {w w' w₁ : World} {trace : Trace Calls World}
  {timeout window : Duration} {out : Option GoError}

theorem hosts : Hosts (T.machine id) Sheds where
  refl := Sheds.refl
  trans := Sheds.trans
  shrinks h := h.1.subset
  rely h := World.Drifts.frame h.1
  step h := h
  stop h := (step_stop h).1.specs

/-- An inspect that is answered shows the container as it is at that instant. -/
theorem step_inspect {reply : Except GoError InspectResponse} (hrely : (T.machine id).rely w w₁)
    (hstep : (T.machine id).step w₁ (.docker ctx (.inspect id)) reply w') :
    w' = w₁ ∧ ((∃ err, reply = .error err) ∨
      ∃ info, reply = .ok info ∧ info.state = some (T.moment w₁.clock).state) := by
  obtain ⟨rfl, hreply⟩ := Doupro.step_inspect hstep
  refine ⟨rfl, hreply.imp_right ?_⟩
  rintro ⟨spec, -, rfl, -, rfl⟩
  exact ⟨_, rfl, congrArg some hrely.2⟩

theorem shown_health {reply : Except GoError InspectResponse} {t : Time}
    (hreply : (∃ err, reply = .error err) ∨
      ∃ info, reply = .ok info ∧ info.state = some (T.moment t).state) :
    (T.shown (t, reply.toOption.isSome)).bind ContainerState.health =
      reply.toOption.bind InspectResponse.health := by
  rcases hreply with ⟨err, rfl⟩ | ⟨info, rfl, hstate⟩
  · rfl
  · simp [shown, Except.toOption, InspectResponse.health, hstate]

/-- The window ends with one inspect, unless the context ends first, and the wait passes if that
inspect shows a container that counts as running. -/
theorem awaitStability_runs
    (hrun : (T.machine id).Runs (Client.awaitStability ctx id window) w trace out w') :
    ∃ stop, sleeps trace = [stop] ∧
      ((inspects trace = [] ∧ inspections trace = [] ∧ out ≠ none) ∨
        ∃ last, inspects trace = [last] ∧
          (∀ health, (∃ info ∈ inspections trace, info.health = some health) ↔
            (T.shown last).bind ContainerState.health = some health) ∧
          (out = none ↔ ∃ state, T.shown last = some state ∧ state.running = true)) := by
  obtain ⟨w₁, now, w₂, rest, -, -, rfl, h₁⟩ := Machine.runs_request_bind.mp hrun
  obtain ⟨w₃, slept, w₄, rest, -, -, rfl, h₂⟩ := Machine.runs_request_bind.mp h₁
  refine ⟨now + window, ?_⟩
  cases slept with
  | some err =>
    obtain ⟨rfl, rfl, rfl⟩ := h₂
    exact ⟨rfl, .inl ⟨rfl, rfl, by simp⟩⟩
  | none =>
    obtain ⟨w₅, reply, w₆, rest, hrely, hstep, rfl, h₃⟩ := Machine.runs_request_bind.mp h₂
    obtain ⟨rfl, hreply⟩ := step_inspect hrely hstep
    clear hrun h₁ h₂
    rcases hreply with ⟨err, rfl⟩ | ⟨info, rfl, hstate⟩
    · obtain ⟨rfl, rfl, rfl⟩ := h₃
      refine ⟨rfl, .inr ⟨(w'.clock, false), rfl, ?_, ?_⟩⟩
      · rw [inspections_now, inspections_sleepUntil, inspections_inspect_error]
        simp [shown]
      · simp [shown]
    · have hrunning : info.running = (T.moment w₆.clock).state.running := by
        rw [InspectResponse.running, hstate]
        rfl
      have hhealth : info.health = (T.moment w₆.clock).state.health := by
        rw [InspectResponse.health, hstate]
        rfl
      by_cases hup : info.running = true
      · simp only [hup, not_true_eq_false, if_false] at h₃
        obtain ⟨rfl, rfl, rfl⟩ := h₃
        refine ⟨rfl, .inr ⟨(w'.clock, true), rfl, ?_, ?_⟩⟩
        · rw [inspections_now, inspections_sleepUntil, inspections_inspect]
          simp [shown, hhealth]
        · simpa [shown, hrunning] using hup
      · simp only [hup] at h₃
        obtain ⟨rfl, rfl, rfl⟩ := h₃
        refine ⟨rfl, .inr ⟨(w'.clock, true), rfl, ?_, ?_⟩⟩
        · rw [inspections_now, inspections_sleepUntil, inspections_inspect]
          simp [shown, hhealth]
        · simpa [shown, hrunning] using hup

/-- The wait is sound just when its inspects do not mislead it. -/
theorem waitHealthy_ready_iff
    (hrun : (T.machine id).Runs (Client.waitHealthy ctx id timeout window) w trace out w') :
    (out = none → T.Ready w.clock trace) ↔ ¬ T.Misleads w.clock trace := by
  obtain ⟨w₁, now₁, w₂, rest, -, -, rfl, h₁⟩ := Machine.runs_request_bind.mp hrun
  obtain ⟨w₃, now₃, w₄, rest, -, -, rfl, h₂⟩ := Machine.runs_request_bind.mp h₁
  obtain ⟨w₅, first, w₆, rest, hrely, hstep, rfl, h₃⟩ := Machine.runs_request_bind.mp h₂
  obtain ⟨rfl, hfirst⟩ := step_inspect hrely hstep
  have hshown := shown_health hfirst
  clear hrun h₁ h₂
  set trace : Trace Calls World := ⟨w₁, .now, now₁⟩ :: ⟨w₃, .now, now₃⟩ ::
    ⟨w₆, .docker ctx (.inspect id), first⟩ :: rest
  have hinspects : inspects trace = (w₆.clock, first.toOption.isSome) :: inspects rest := rfl
  have hslept : sleeps trace = sleeps rest := rfl
  have hmem : ∀ info, info ∈ inspections trace ↔ first.toOption = some info ∨ info ∈ inspections rest := by
    intro info
    cases first with
    | error err =>
      change info ∈ inspections rest ↔ _
      simp [Except.toOption]
    | ok other =>
      change info ∈ other :: inspections rest ↔ _
      simp [Except.toOption, eq_comm]
  by_cases hcheck : Client.hasHealthcheck first = true
  · simp only [hcheck, if_true] at h₃
    have hpolls := Client.pollHealth_passes h₃
    have hhealth : (first.toOption.bind InspectResponse.health).isSome = true := by
      cases first with
      | error err => cases hcheck
      | ok info => exact hcheck
    rw [← hshown] at hhealth
    have hchecked : T.healthcheck = true := by
      by_contra hnot
      have hnone := T.unchecked (by simpa using hnot) w₆.clock
      unfold shown at hhealth
      split at hhealth
      · simp [hnone] at hhealth
      · cases hhealth
    constructor
    · rintro - ⟨sample, last, state, hlist, hnone, -⟩
      obtain ⟨rfl, -⟩ := List.cons.inj (hinspects.symm.trans hlist)
      rw [hnone] at hhealth
      cases hhealth
    · intro _ hout
      obtain ⟨info, hinfo, hhealthy⟩ := hpolls.mp hout
      exact .inl ⟨hchecked, info, (hmem info).mpr (.inr hinfo), hhealthy⟩
  · simp only [hcheck, Bool.false_eq_true, if_false] at h₃
    have hnone : first.toOption.bind InspectResponse.health = none := by
      cases first with
      | error err => rfl
      | ok info =>
        change info.health = none
        simpa [Client.hasHealthcheck] using hcheck
    obtain ⟨stop, hsleeps, hwindow⟩ := awaitStability_runs h₃
    rcases hwindow with ⟨hquiet, -, hfailed⟩ | ⟨last, hlast, hseen, hout⟩
    · constructor
      · rintro - ⟨sample, last, state, hlist, -⟩
        rw [hinspects, hquiet] at hlist
        cases hlist
      · exact fun _ hout => absurd hout hfailed
    · rw [hlast] at hinspects
      constructor
      · rintro hready ⟨sample, other, state, hlist, -, hstate, hup, hhealthy, hsteady⟩
        obtain rfl : last = other := by
          rw [hinspects] at hlist
          simpa using (List.cons.inj hlist).2
        rcases hready (hout.mpr ⟨state, hstate, hup⟩) with ⟨hchecked, info, hinfo, hreported⟩ |
          ⟨hunchecked, hran⟩
        · rcases (hmem info).mp hinfo with hfirst | hinfo
          · rw [hfirst, Option.bind_some, hreported] at hnone
            cases hnone
          · have hreported := (hseen "healthy").mp ⟨info, hinfo, hreported⟩
            rw [hstate] at hreported
            exact hhealthy hchecked hreported
        · obtain ⟨stop, hstop, hnot⟩ := hsteady hunchecked
          exact hnot (hran stop hstop)
      · intro hnot hpassed
        obtain ⟨state, hstate, hup⟩ := hout.mp hpassed
        by_contra hready
        refine hnot ⟨_, last, state, hinspects, hshown.trans hnone, hstate, hup, ?_, ?_⟩
        · intro hchecked hhealthy
          obtain ⟨info, hinfo, hreported⟩ := (hseen "healthy").mpr (by rw [hstate]; exact hhealthy)
          exact hready (.inl ⟨hchecked, info, (hmem info).mpr (.inr hinfo), hreported⟩)
        · intro hunchecked
          by_contra hall
          push Not at hall
          exact hready (.inr ⟨hunchecked, hall⟩)

/-! ### Waits that are misled -/

/-- A scripted run whose calls all meet the timeline is a run on the timeline. -/
theorem play_runs {α : Type} (p : Go α) (w : World) {turns : Nat → Turn}
    (h : ∀ e ∈ (p.play w turns).trace, T.Follows id e.world) :
    (T.machine id).Runs p w (p.play w turns).trace (p.play w turns).value (p.play w turns).world := by
  induction p generalizing w turns with
  | ret a => exact ⟨rfl, rfl, rfl⟩
  | call op next ih =>
    obtain ⟨hfirst, hrest⟩ := List.forall_mem_cons.mp h
    exact ⟨_, _, _, _, ⟨Turn.drifts_meet (fun _ _ _ => trivial) w, hfirst⟩, ⟨(turns 0).choice, rfl⟩, rfl,
      ih _ _ hrest⟩

/-- The health check of the container fails all along. -/
def unhealthy : Timeline where
  healthcheck := true
  moment _ := { state := { status := .running, health := some "unhealthy" } }
  unchecked := nofun

/-- The process of the container ends after a second; the container is started again after
another. -/
def restarted : Timeline where
  healthcheck := false
  moment t :=
    if t < 1000000000 then { state := { status := .running } }
    else if t < 2000000000 then { state := { status := .exited } }
    else { state := { status := .running }, starts := 2 }
  unchecked _ t := by
    split
    · rfl
    · split <;> rfl

def unhealthyWorld : World :=
  { webWorld with
    engine := Engine.ofContainer webSpec { status := .running, health := some "unhealthy" } [] [] }

/-- The first inspect fails. -/
def unhealthyWait : Played (Option GoError) :=
  (Client.waitHealthy .background "c0" (60 * second) (10 * second)).play unhealthyWorld
    (script [(2, { choice := { fault := some .notFound } })])

def restartedWait : Played (Option GoError) :=
  (Client.waitHealthy .background "c0" (60 * second) (10 * second)).play webWorld (script [])

instance (T : Timeline) (id : String) (w : World) : Decidable (T.Follows id w) :=
  inferInstanceAs (Decidable (_ = _))

theorem unhealthyWait_runs : (unhealthy.machine "c0").Runs
    (Client.waitHealthy .background "c0" (60 * second) (10 * second)) unhealthyWorld
    unhealthyWait.trace unhealthyWait.value unhealthyWait.world :=
  play_runs _ _ (by decide +kernel)

theorem restartedWait_runs : (restarted.machine "c0").Runs
    (Client.waitHealthy .background "c0" (60 * second) (10 * second)) webWorld
    restartedWait.trace restartedWait.value restartedWait.world :=
  play_runs _ _ (by decide +kernel)

/-- A container whose health check fails passes when the first inspect does, and one that was
restarted passes when it is up again at the end of the window. -/
theorem wait_misled :
    ((unhealthy.machine "c0").Runs
      (Client.waitHealthy .background "c0" (60 * second) (10 * second)) unhealthyWorld
      unhealthyWait.trace none unhealthyWait.world ∧
      ¬ unhealthy.Ready unhealthyWorld.clock unhealthyWait.trace) ∧
    (restarted.machine "c0").Runs
      (Client.waitHealthy .background "c0" (60 * second) (10 * second)) webWorld
      restartedWait.trace none restartedWait.world ∧
      ¬ restarted.Ready webWorld.clock restartedWait.trace := by
  refine ⟨⟨unhealthyWait_runs, ?_⟩, restartedWait_runs, ?_⟩
  · rintro (⟨-, hhealthy⟩ | ⟨hunchecked, -⟩)
    · revert hhealthy
      decide +kernel
    · cases hunchecked
  · rintro (⟨hchecked, -⟩ | ⟨-, hsteady⟩)
    · cases hchecked
    · have hstop := hsteady 10000000000 (by decide +kernel) 1000000000 (by decide) (by decide)
      revert hstop
      decide

theorem waitHealthy_ready_iff_restarted :
    (restartedWait.value = none → restarted.Ready webWorld.clock restartedWait.trace) ↔
      ¬ restarted.Misleads webWorld.clock restartedWait.trace :=
  waitHealthy_ready_iff restartedWait_runs

end Timeline

end Doupro
