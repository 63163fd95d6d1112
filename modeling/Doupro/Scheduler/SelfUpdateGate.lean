import Doupro.Scheduler.Predictor

/-!
# The self-update gate

A scheduler whose plans hold nothing to do by the horizon updates nothing by the horizon. It
holds if the texts of the instants compare as the instants do, and every delay is a delay.
-/

namespace Doupro.Scheduler

open Go Interaction

/-- Plans on which the executors read instants and delays as the predictor does. -/
structure Dependable (p : Plans) (now horizon : Time) : Prop where
  dated : ∀ sc ∈ p.schedules, sc.enabled = true → sc.kind ≠ .relative →
    ∀ next, sc.nextRunAt = some next → horizon < next →
      ∀ t, now ≤ t → t ≤ horizon → Time.columnLE next t = false
  delayed : ∀ sc ∈ p.schedules, sc.enabled = true → sc.kind = .relative → sc.relativePolicy = .delayed →
    ∀ rec, p.Targets sc rec → isSkipped rec = false →
      ∀ delay, Duration.parse sc.relativeAfter = .ok delay →
        ∀ found, p.candidate rec.id (scopeOf sc) = some found → horizon < found.detectedAt + delay →
          0 < delay

/-- Only a party that knows the horizon has passed updates anything or writes to the plans; what it
knows of the time is the latest reading of the clock. -/
def idling (p : Plans) (horizon : Time) : Contract Services World Time where
  allowed k op := match op with
    | .call call => call.Keeps Store.plans ∨ horizon < k
    | _ => horizon < k
  expects k e := match e with
    | ⟨_, .call .now, reply⟩ => k ≤ (show Time from reply)
    | ⟨_, .call (.store _ call), reply⟩ => k ≤ horizon →
      ∀ result, (show Except GoError call.Result from reply) = .ok result → p.Answers call result
    | _ => True
  next k e := match e with
    | ⟨_, .call .now, reply⟩ => max k (show Time from reply)
    | _ => k

section Obeys

variable {M : Machine Services World} {p : Plans} {base horizon k : Time} {ctx : Context} {α β : Type}
  {Q : Time → α → Prop}

theorem lt_next {e : Event Services World} (hk : horizon < k) : horizon < (idling p horizon).next k e := by
  dsimp only [idling]
  split
  · exact lt_max_of_lt_left hk
  · exact hk

/-- Past the horizon everything is allowed. -/
theorem late_obeys (q : Daemon α) (hk : horizon < k) :
    M.obeys (idling p horizon) q k fun k' _ => horizon < k' := by
  induction q generalizing k with
  | ret a => exact hk
  | call op next ih =>
    refine ⟨?_, fun w r w' _ _ => ih r (lt_next hk)⟩
    cases op with
    | call call => exact .inr hk
    | _ => exact hk

theorem now_bind {f : Time → Daemon α} (h : ∀ t, k ≤ t → M.obeys (idling p horizon) (f t) t Q) :
    M.obeys (idling p horizon) (liftM Go.now >>= f) k Q := by
  refine ⟨.inl trivial, fun w t w' _ hle => ?_⟩
  change M.obeys (idling p horizon) (f t) (max k t) Q
  rw [max_eq_right hle]
  exact h t hle

/-- A call that neither reads the clock nor writes to the plans. -/
def Still : Call → Prop
  | .emit _ | .notify _ | .maintenanceActive | .store _ .getCheckIntervalMinutes => True
  | _ => False

theorem still_bind {q : Go β} {f : β → Daemon α} (hq : q.Uses Still)
    (h : ∀ a, M.obeys (idling p horizon) (f a) k Q) :
    M.obeys (idling p horizon) (liftM q >>= f) k Q := by
  change M.obeys (idling p horizon) ((Daemon.ofGo q).bind f) k Q
  induction q with
  | ret a => exact h a
  | call op next ih =>
    obtain ⟨hop, hnext⟩ := hq
    cases op with
    | emit | notify | maintenanceActive => exact ⟨.inl trivial, fun w r w' _ _ => ih r (hnext r)⟩
    | store ctx call =>
      cases call with
      | getCheckIntervalMinutes =>
        exact ⟨.inl (keeps_of_reads (show Reads (.store ctx _) from trivial)),
          fun w r w' _ _ => ih r (hnext r)⟩
      | _ => exact hop.elim
    | _ => exact hop.elim

/-- A reading of the plans. -/
theorem read_bind {call : StoreCall} {f : Except GoError call.Result → Daemon α}
    (hread : Reads (.store ctx call))
    (h : ∀ reply, (k ≤ horizon → ∀ result, reply = .ok result → p.Answers call result) →
      M.obeys (idling p horizon) (f reply) k Q) :
    M.obeys (idling p horizon) (liftM (store ctx call) >>= f) k Q :=
  ⟨.inl (keeps_of_reads hread), fun _ reply _ _ hexp => h reply hexp⟩

/-! ### The executors idle -/

/-- Either the horizon has passed, or no update was attempted. -/
def Idled (base horizon : Time) (k : Time) (result : Option (Nat × Bool)) : Prop :=
  horizon < k ∨ (base ≤ k ∧ result = some (0, false))

theorem waits_obeys {delay : Duration} {candidate : UpdateCandidate} {f : Bool → Daemon α}
    (hwaiting : ∀ t, k ≤ t → M.obeys (idling p horizon) (f true) t Q)
    (hready : (delay ≤ 0 → M.obeys (idling p horizon) (f false) k Q) ∧
      ∀ t, k ≤ t → candidate.detectedAt + delay ≤ t → M.obeys (idling p horizon) (f false) t Q) :
    M.obeys (idling p horizon) (liftM (waits delay candidate) >>= f) k Q := by
  unfold waits
  split
  · next hnone => exact hready.1 hnone
  · refine now_bind (f := fun t => f (decide (t < candidate.detectedAt + delay))) fun t hle => ?_
    cases hlt : decide (t < candidate.detectedAt + delay) with
    | true => exact hwaiting t hle
    | false => exact hready.2 t hle (not_lt.mp (of_decide_eq_false hlt))

theorem parsed_of_delayOf {sc : Schedule} {delay : Duration} (hpolicy : sc.relativePolicy = .delayed)
    (h : delayOf sc = some delay) : Duration.parse sc.relativeAfter = .ok delay := by
  unfold delayOf at h
  rw [if_neg (not_not.mpr hpolicy)] at h
  cases hparse : Duration.parse sc.relativeAfter with
  | error text =>
    rw [hparse] at h
    cases h
  | ok found =>
    rw [hparse] at h
    exact congrArg Except.ok (Option.some.inj h)

theorem applyEach_idles {sc : Schedule} {delay : Duration} (hdep : Dependable p base horizon)
    (hsc : sc ∈ p.schedules) (henabled : sc.enabled = true) (hkind : sc.kind = .relative)
    (hpassed : Passed p base horizon sc) (hdelay : delayOf sc = some delay)
    (targets : List ContainerRecord) (htargets : ∀ rec ∈ targets, p.Targets sc rec) (hk : base ≤ k) :
    M.obeys (idling p horizon) (applyEach ctx sc delay targets 0) k (Idled base horizon) := by
  induction targets generalizing k with
  | nil => exact .inr ⟨hk, rfl⟩
  | cons rec rest ih =>
    by_cases hlate : horizon < k
    · exact Machine.obeys_mono (late_obeys _ hlate) fun _ _ h => .inl h
    obtain ⟨htarget, hrest⟩ := List.forall_mem_cons.mp htargets
    unfold applyEach
    split
    · exact ih hrest hk
    next hopen =>
    rw [Bool.not_eq_true] at hopen
    refine read_bind trivial fun reply hanswers => ?_
    cases reply with
    | error err => exact ih hrest hk
    | ok found =>
      have hfound := (hanswers (not_lt.mp hlate) found rfl).candidate
      have hwaits := hpassed.relative hkind rec htarget hopen
      unfold Waits at hwaits
      split at hwaits
      · exact absurd (hwaits.trans_le hk) hlate
      next hdelayed =>
      have hparsed := parsed_of_delayOf (not_not.mp hdelayed) hdelay
      have hdue := hwaits delay hparsed found hfound
      refine waits_obeys (fun t hle => ih hrest (hk.trans hle)) ⟨fun hnone => ?_, fun t hle hready => ?_⟩
      · have hpos := hdep.delayed sc hsc henabled hkind (not_not.mp hdelayed) rec htarget hopen delay
          hparsed found hfound hdue
        exact absurd hpos (not_lt.mpr hnone)
      · exact Machine.obeys_mono (late_obeys _ (hdue.trans_le hready)) fun _ _ h => .inl h

theorem applyToTargets_idles {sc : Schedule} {delay : Duration} (hdep : Dependable p base horizon)
    (hsc : sc ∈ p.schedules) (henabled : sc.enabled = true) (hkind : sc.kind = .relative)
    (hpassed : Passed p base horizon sc) (hdelay : delayOf sc = some delay) (hk : base ≤ k)
    (hearly : k ≤ horizon) :
    M.obeys (idling p horizon) (applyToTargets ctx sc delay) k (Idled base horizon) := by
  have hresolve : M.obeys (idling p horizon) (Daemon.ofGo (resolveTargets ctx sc)) k fun k' found =>
      k' = k ∧ ∀ targets, found = .ok targets → ∀ rec, rec ∈ targets ↔ p.Targets sc rec :=
    Daemon.obeys_ofGo (N := ⟨fun _ _ => True, fun _ _ _ _ => True⟩) (fun _ _ _ _ _ => trivial)
      (resolveTargets_obeys (C := Daemon.onCalls (idling p horizon)) (fun _ hread => .inl (keeps_of_reads hread)) (fun _ _ _ _ => rfl)
        (fun _ _ _ _ h => h hearly) ctx sc)
  refine Machine.obeys_bind.mpr (Machine.obeys_mono hresolve ?_)
  rintro _ found ⟨rfl, htargets⟩
  cases found with
  | error err =>
    exact still_bind (q := emit _) ⟨trivial, fun _ => trivial⟩ fun _ => .inr ⟨hk, rfl⟩
  | ok targets =>
    exact applyEach_idles hdep hsc henabled hkind hpassed hdelay targets
      (fun rec hrec => (htargets targets rfl rec).mp hrec) hk

variable (s : Scheduler)

/-- The policies one after another. -/
theorem runPolicies_idles (hdep : Dependable p base horizon) (hclear : Clear p base horizon)
    (rows : List Schedule) (hrows : ∀ sc ∈ rows, sc ∈ p.schedules) (hk : base ≤ k) :
    M.obeys (idling p horizon) (s.runPolicies ctx rows) k fun _ _ => True := by
  induction rows generalizing k with
  | nil => trivial
  | cons sc rest ih =>
    obtain ⟨hsc, hrest⟩ := List.forall_mem_cons.mp hrows
    have hanyway : ∀ {t : Time}, horizon < t → ∀ q : Daemon (Option Unit),
        M.obeys (idling p horizon) q t fun _ _ => True := fun hlate q =>
      Machine.obeys_mono (late_obeys q hlate) fun _ _ _ => trivial
    unfold runPolicies
    split
    · exact ih hrest hk
    next hrel =>
    obtain ⟨henabled, hkind⟩ := not_or.mp hrel
    rw [not_not] at henabled hkind
    refine still_bind (q := s.currentCheckInterval ctx) ?_ fun interval => ?_
    · refine Program.uses_bind ((Program.uses_request _).mpr trivial) fun minutes => ?_
      split <;> trivial
    refine now_bind fun t hle => ?_
    by_cases hlate : horizon < t
    · exact hanyway hlate _
    split
    · exact ih hrest (hk.trans hle)
    cases hdelay : delayOf sc with
    | none => exact ih hrest (hk.trans hle)
    | some delay =>
      refine Machine.obeys_bind.mpr (Machine.obeys_mono (applyToTargets_idles hdep hsc henabled hkind
        (hclear sc hsc henabled) hdelay (hk.trans hle) (not_lt.mp hlate)) ?_)
      rintro k' result (hlater | ⟨hk', rfl⟩)
      · exact hanyway hlater _
      · exact ih hrest hk'

theorem runRelativePolicies_idles (hdep : Dependable p base horizon) (hclear : Clear p base horizon)
    (hk : base ≤ k) : M.obeys (idling p horizon) (s.runRelativePolicies ctx) k fun _ _ => True := by
  by_cases hlate : horizon < k
  · exact Machine.obeys_mono (late_obeys _ hlate) fun _ _ _ => trivial
  refine still_bind (q := maintenanceActive) ⟨trivial, fun _ => trivial⟩ fun active => ?_
  split
  · trivial
  refine read_bind trivial fun reply hanswers => ?_
  cases reply with
  | error err => exact still_bind (q := emit _) ⟨trivial, fun _ => trivial⟩ fun _ => trivial
  | ok rows =>
    exact s.runPolicies_idles hdep hclear rows
      (fun sc => ((hanswers (not_lt.mp hlate) rows rfl).schedules sc).mp) hk

/-- What is left of a list of due schedules are relative ones, unless the horizon has passed. -/
theorem executeAll_idles (rows : List Schedule)
    (hrows : ∀ sc ∈ rows, sc.kind ≠ .relative → horizon < k) :
    M.obeys (idling p horizon) (s.executeAll ctx rows) k fun k' _ => horizon < k' ∨ k' = k := by
  induction rows with
  | nil => exact .inr rfl
  | cons sc rest ih =>
    obtain ⟨hfirst, hrest⟩ := List.forall_mem_cons.mp hrows
    by_cases hlate : horizon < k
    · exact Machine.obeys_mono (late_obeys _ hlate) fun _ _ h => .inl h
    have hkind : sc.kind = .relative := not_not.mp fun h => hlate (hfirst h)
    have hskip : s.executeDue ctx sc = pure (some ()) := by
      unfold executeDue
      rw [hkind]
    unfold executeAll
    rw [hskip]
    exact ih hrest

theorem runDueSchedules_idles (hdep : Dependable p base horizon) (hclear : Clear p base horizon)
    (hk : base ≤ k) : M.obeys (idling p horizon) (s.runDueSchedules ctx) k fun k' _ =>
      horizon < k' ∨ base ≤ k' := by
  refine still_bind (q := maintenanceActive) ⟨trivial, fun _ => trivial⟩ fun active => ?_
  split
  · exact .inr hk
  refine now_bind fun t hle => ?_
  refine read_bind trivial fun reply hanswers => ?_
  cases reply with
  | error err =>
    exact still_bind (q := emit _) ⟨trivial, fun _ => trivial⟩ fun _ => .inr (hk.trans hle)
  | ok rows =>
    refine Machine.obeys_mono (s.executeAll_idles rows fun sc hsc hkind => ?_) ?_
    · by_contra hearly
      obtain ⟨hplan, hdue⟩ := (hanswers (not_lt.mp hearly) rows rfl).due sc hsc
      obtain ⟨henabled, hnext⟩ := (Bool.and_eq_true _ _).mp hdue
      obtain ⟨next, hnext, hcolumn⟩ := (Option.any_eq_true _ _).mp hnext
      have hlater := (hclear sc hplan henabled).planned next hnext
      have hnot := hdep.dated sc hplan henabled hkind next hnext hlater t (hk.trans hle)
        (not_lt.mp hearly)
      exact Bool.false_ne_true (hnot.symm.trans hcolumn)
    · rintro k' _ (hlate | rfl)
      · exact .inl hlate
      · exact .inr (hk.trans hle)

theorem dueTick_idles (hdep : Dependable p base horizon) (hclear : Clear p base horizon)
    (hk : base ≤ k) : M.obeys (idling p horizon) (s.dueTick ctx) k fun _ _ => True := by
  refine Machine.obeys_bind.mpr (Machine.obeys_mono (s.runDueSchedules_idles hdep hclear hk) ?_)
  intro k' result hk'
  cases result with
  | none => trivial
  | some _ =>
    rcases hk' with hlate | hk'
    · exact Machine.obeys_mono (late_obeys _ hlate) fun _ _ _ => trivial
    · exact s.runRelativePolicies_idles hdep hclear hk'

end Obeys

/-! ### The plans and the clock -/

/-- The scheduler among others who do whatever they do, but leave the plans alone. -/
def atRest : Machine Services World := (crowd Store.plans).layered Service.run

/-- Asking for an update. -/
def AsksUpdate (e : Event Services World) : Prop := ∃ req, e.op = .update req

/-- The plans are as they were until the horizon, and no update was asked for before it. -/
structure Idle (p : Plans) (horizon : Time) (w : World) (k : Time)
    (past : List (Unit × Event Services World)) : Prop where
  clock : k ≤ w.clock
  plans : k ≤ horizon → w.store.plans = p
  late : ∀ entry ∈ past, AsksUpdate entry.2 → horizon < entry.2.world.clock

section Rest

variable {p : Plans} {horizon k : Time} {w w₁ : World} {past : List (Unit × Event Services World)}

theorem Idle.onward (h : Idle p horizon w k past) {k' : Time} {e : Event Services World}
    (hclock : k' ≤ w₁.clock) (hplans : k' ≤ horizon → w₁.store.plans = p)
    (hlate : AsksUpdate e → horizon < e.world.clock) : Idle p horizon w₁ k' (past ++ [((), e)]) where
  clock := hclock
  plans := hplans
  late entry hentry hasks := by
    rcases List.mem_append.mp hentry with hold | hnew
    · exact h.late entry hold hasks
    · obtain rfl := List.mem_singleton.mp hnew
      exact hlate hasks

theorem Idle.step (h : Idle p horizon w k past) {op : Service} {r : op.Reply}
    (hstep : atRest.step w op r w₁) (hallowed : (idling p horizon).allowed k op) :
    (idling p horizon).expects k ⟨w, op, r⟩ ∧
      Idle p horizon w₁ ((idling p horizon).next k ⟨w, op, r⟩) (past ++ [((), ⟨w, op, r⟩)]) := by
  have hafter : w.clock ≤ w₁.clock := by
    obtain ⟨trace, hrun⟩ := hstep
    exact crowd_clock hrun
  have hpast : ∀ {e : Event Services World}, horizon < k → e.world = w → Idle p horizon w₁ k (past ++ [((), e)]) :=
    fun hlate hw => h.onward (h.clock.trans hafter) (fun hk => absurd hlate (not_lt.mpr hk))
      fun _ => hw ▸ hlate.trans_le h.clock
  cases op with
  | update | rollback | startSelfUpdate => exact ⟨trivial, hpast hallowed rfl⟩
  | call call =>
    obtain ⟨trace, w₀, _, w₁, _, hrely, hcall, -, -, rfl, rfl⟩ := hstep
    replace hcall : openSystem.step w₀ call r w₁ := hcall
    have hmet := World.Bustles.clock hrely
    have hstays : k ≤ horizon → w₀.store.plans = p ∧ w₁.store.plans = p := by
      intro hk
      have hplans := (World.Bustles.store hrely).trans (h.plans hk)
      rcases hallowed with hkeeps | hlate
      · exact ⟨hplans, (step_keeps hkeeps hcall).trans hplans⟩
      · exact absurd hlate (not_lt.mpr hk)
    have hcalm : ∀ reply, Idle p horizon w₁ k (past ++ [((), ⟨w, .call call, reply⟩)]) := fun reply =>
      h.onward (h.clock.trans hafter) (fun hk => (hstays hk).2) fun ⟨req, hop⟩ => by cases hop
    cases call with
    | now =>
      obtain ⟨rfl, rfl⟩ := step_now hcall
      refine ⟨h.clock.trans hmet, h.onward (max_le (h.clock.trans hmet) (le_refl _)) ?_ ?_⟩
      · exact fun hk => (hstays ((le_max_left _ _).trans hk)).2
      · rintro ⟨req, hop⟩
        cases hop
    | store ctx call =>
      refine ⟨fun hk result hreply => ?_, hcalm _⟩
      rcases step_store hcall with ⟨err, rfl, -⟩ | ⟨found, store, -, hok, rfl, -⟩
      · cases hreply
      · obtain rfl := Except.ok.inj hreply
        exact ⟨_, _, _, (hstays hk).1, hok⟩
    | _ => exact ⟨trivial, hcalm _⟩

end Rest

/-- What a tick runs of the schedules. -/
def IsPass (s : Scheduler) (ctx : Context) (pass : Daemon (Option Unit)) : Prop :=
  pass = s.runDueSchedules ctx ∨ pass = s.runRelativePolicies ctx ∨ pass = s.dueTick ctx

/-- On these plans no pass of the scheduler asks for an update by the horizon. -/
def Quiescent (p : Plans) (now horizon : Time) : Prop :=
  ∀ (s : Scheduler) (ctx : Context) (pass : Daemon (Option Unit)), IsPass s ctx pass →
    ∀ (w w' : World) (history : List (Unit × Event Services World))
      (pool' : Unit → Daemon (Option Unit)), w.store.plans = p → now ≤ w.clock →
      atRest.PoolRuns (fun _ => pass) w history pool' w' →
      ∀ entry ∈ history, AsksUpdate entry.2 → horizon < entry.2.world.clock

theorem quiescent_of_clear {p : Plans} {now horizon : Time} (hdep : Dependable p now horizon)
    (hclear : Clear p now horizon) : Quiescent p now horizon := by
  intro s ctx pass hpass w w' history pool' hplans hnow hrun
  have hobeys : atRest.obeys (idling p horizon) pass now fun _ _ => True := by
    rcases hpass with rfl | rfl | rfl
    · exact Machine.obeys_mono (s.runDueSchedules_idles hdep hclear (le_refl now)) fun _ _ _ => trivial
    · exact s.runRelativePolicies_idles hdep hclear (le_refl now)
    · exact s.dueTick_idles hdep hclear (le_refl now)
  obtain ⟨k, hidle, -⟩ := Machine.PoolRuns.contracts (A := fun _ _ => True)
    (C := fun _ => idling p horizon) (Q := fun _ _ _ => True)
    (J := fun w k past => Idle p horizon w (k ()) past)
    (fun {w₀ w₁ w₂ k past} i {op r} hJ hrely hstep _ hallowed => by
      obtain rfl : w₁ = w₀ := hrely
      rw [Function.update_self]
      exact hJ.step hstep hallowed)
    hrun (Machine.throughout_trivial [] history) (fun _ => hobeys) ⟨hnow, fun _ => hplans, by simp⟩
  exact hidle.late

/-- When `SelfUpdateBlockers` finds no blocker, read every candidate that is there, and the plans are
dependable, then no watch is triggered and the scheduler updates nothing by the horizon. -/
theorem noBlockers_quiescent {ctx : Context} {horizon : Time} {w w' : World} {trace : Trace Calls World}
    (hrun : openSystem.Runs (selfUpdateBlockers ctx horizon) w trace (.ok []) w')
    (hfound : ∀ e ∈ trace, FindsCandidate w.store e)
    (hdep : Dependable w.store.plans w'.clock horizon) :
    (∀ watch ∈ w.store.watches, watch.status ≠ .triggered) ∧
      Quiescent w.store.plans w'.clock horizon := by
  obtain ⟨hnone, hclear⟩ := clear_of_noBlockers hrun hfound
  refine ⟨fun watch hwatch htriggered => ?_, quiescent_of_clear hdep hclear⟩
  have hlisted : watch ∈ w.store.listRollbackWatches .triggered :=
    (List.perm_insertionSort _ _).mem_iff.mpr (List.mem_filter.mpr ⟨hwatch, by simp [htriggered]⟩)
  rw [hnone] at hlisted
  cases hlisted

/-! ### A fraction of a second -/

/-- A one-off update of `webSpec` planned for an instant. -/
def plannedAt (next : Time) : Schedule where
  id := 1
  kind := .once
  containerName := "web"
  pinnedImage := "web:2"
  nextRunAt := some next

def plannedHorizon : Time := 1700000000 * second + 500 * millisecond

/-- The horizon is now. -/
def plannedWorld (next : Time) : World :=
  { webWorld with
    clock := plannedHorizon
    store := { containers := [webRecord], schedules := [plannedAt next] } }

/-- What the predictor does undisturbed. -/
def predicted (w : World) : Played (Except GoError (List String)) :=
  Go.play (selfUpdateBlockers .background plannedHorizon) w fun _ => .undisturbed

theorem predicted_runs {w : World} (h : (predicted w).value = .ok []) :
    openSystem.Runs (selfUpdateBlockers .background plannedHorizon) w (predicted w).trace (.ok [])
      (predicted w).world :=
  h ▸ Go.play_runs _ w fun _ => .undisturbed

/-- Planned an hour after the horizon. -/
def hourWorld : World := plannedWorld (plannedHorizon + 60 * minute)

theorem noBlockers_quiescent_hour :
    (∀ watch ∈ hourWorld.store.watches, watch.status ≠ .triggered) ∧
      Quiescent hourWorld.store.plans (predicted hourWorld).world.clock plannedHorizon := by
  refine noBlockers_quiescent (predicted_runs (by decide +kernel)) (by decide +kernel) ⟨?_, ?_⟩
  · intro sc hsc henabled hkind next hnext hlater t hle hge
    obtain rfl := List.mem_singleton.mp hsc
    obtain rfl := Option.some.inj hnext
    have hnow : (predicted hourWorld).world.clock = plannedHorizon := by decide +kernel
    rw [le_antisymm hge (hnow ▸ hle)]
    decide +kernel
  · intro sc hsc henabled hkind
    obtain rfl := List.mem_singleton.mp hsc
    cases hkind

/-- Planned ten milliseconds after the horizon: the texts of the two instants compare the other way. -/
def earlyWorld : World := plannedWorld (plannedHorizon + 10 * millisecond)

theorem noBlockers_early :
    ¬ ∀ (ctx : Context) (horizon : Time) (w w' : World) (trace : Trace Calls World),
      openSystem.Runs (selfUpdateBlockers ctx horizon) w trace (.ok []) w' →
        (∀ watch ∈ w.store.watches, watch.status ≠ .triggered) ∧
          Quiescent w.store.plans w'.clock horizon := by
  intro hall
  have hquiet := (hall _ _ _ _ _ (predicted_runs (w := earlyWorld) (by decide +kernel))).2
    plainScheduler .background _ (.inl rfl) earlyWorld _ _ _ rfl (by decide +kernel)
    (Service.script_runs (List.replicate 5 false ++ [false]) _ _)
  have hawaited : Service.awaited ((Service.script (List.replicate 5 false)
      (plainScheduler.runDueSchedules .background) earlyWorld).2.1 ()) =
      some (updateRequest .background (plannedAt 0) "c0" "web:2") := by decide +kernel
  have hentry := Service.mem_script _ [] false hawaited
  exact absurd (hquiet _ hentry ⟨_, rfl⟩) (by decide +kernel)

end Doupro.Scheduler
