import Doupro.Scheduler.Plans
import Doupro.System.Crowd

/-!
# What `SelfUpdateBlockers` has seen when it finds no blocker

No watch is triggered, no enabled schedule has a next run by the horizon, and no target of a
relative policy is due by then, as far as its candidates could be read.
-/

namespace Doupro.Scheduler

open Go Interaction

/-- A reply of the store that the given state explains. -/
def AnsweredFrom (s : Store) : Event Calls World → Prop
  | ⟨_, .store _ call, reply⟩ => ∀ result, (show Except GoError call.Result from reply) = .ok result →
      ∃ now after, s.perform now call = .ok (result, after)
  | _ => True

/-- A candidate that cannot be read is not there. -/
def FindsCandidate (s : Store) : Event Calls World → Prop
  | ⟨_, .store _ (.getUpdateCandidate id scope), reply⟩ =>
    (show Except GoError UpdateCandidate from reply).isOk = false → s.plans.candidate id scope = none
  | _ => True

instance (s : Store) (e : Event Calls World) : Decidable (FindsCandidate s e) :=
  decidable_of_iff ((match e with
    | ⟨_, .store _ (.getUpdateCandidate id scope), reply⟩ =>
      decide ((show Except GoError UpdateCandidate from reply).isOk = false →
        s.plans.candidate id scope = none)
    | _ => true : Bool) = true) (by unfold FindsCandidate; split <;> simp only [decide_eq_true_eq])

/-- A reading of the clock not after an instant. -/
def ReadBy (base : Time) : Event Calls World → Prop
  | ⟨_, .now, reply⟩ => (show Time from reply) ≤ base
  | _ => True

/-- The predictor reads a store at rest, until an instant. -/
def consulting (s : Store) (base : Time) : Contract Calls World Unit where
  allowed _ _ := True
  expects _ e := AnsweredFrom s e ∧ FindsCandidate s e ∧ ReadBy base e
  next k _ := k

/-- A target that a relative schedule does not take by the horizon. -/
def Waits (p : Plans) (now horizon : Time) (sc : Schedule) (rec : ContainerRecord) : Prop :=
  if sc.relativePolicy ≠ .delayed then horizon < now
  else ∀ delay, Duration.parse sc.relativeAfter = .ok delay →
    ∀ found, p.candidate rec.id (scopeOf sc) = some found → horizon < found.detectedAt + delay

/-- A schedule that the predictor lets pass. -/
structure Passed (p : Plans) (now horizon : Time) (sc : Schedule) : Prop where
  planned : ∀ next, sc.nextRunAt = some next → horizon < next
  relative : sc.kind = .relative → ∀ rec, p.Targets sc rec → isSkipped rec = false →
    Waits p now horizon sc rec

/-- The plans hold nothing for the scheduler to do by the horizon. -/
def Clear (p : Plans) (now horizon : Time) : Prop :=
  ∀ sc ∈ p.schedules, sc.enabled = true → Passed p now horizon sc

theorem Waits.mono {p : Plans} {now later horizon : Time} {sc : Schedule} {rec : ContainerRecord}
    (h : Waits p now horizon sc rec) (hle : now ≤ later) : Waits p later horizon sc rec := by
  unfold Waits at h ⊢
  split
  · rw [if_pos ‹_›] at h
    exact h.trans_le hle
  · rwa [if_neg ‹_›] at h

theorem Clear.mono {p : Plans} {now later horizon : Time} (h : Clear p now horizon)
    (hle : now ≤ later) : Clear p later horizon := fun sc hsc henabled =>
  have hpassed := h sc hsc henabled
  ⟨hpassed.planned, fun hkind rec htarget hopen => (hpassed.relative hkind rec htarget hopen).mono hle⟩

section Obeys

variable {M : Machine Calls World} {s : Store} {base horizon now : Time} {ctx : Context}

theorem answers_of_answeredFrom {w : World} {call : StoreCall} {reply : Except GoError call.Result}
    (h : AnsweredFrom s ⟨w, .store ctx call, reply⟩) :
    ∀ result, reply = .ok result → s.plans.Answers call result := fun result hreply =>
  have ⟨now, after, hok⟩ := h result hreply
  ⟨s, now, after, rfl, hok⟩

theorem dueAt_consults (horizon : Time) (sc : Schedule) (rec : ContainerRecord) :
    M.obeys (consulting s base) (dueAt ctx now sc rec) () fun _ due =>
      ∀ at', due = .ok at' → (∀ t ∈ at', horizon < t) → Waits s.plans now horizon sc rec := by
  unfold dueAt Waits
  split
  · intro at' h hlate
    obtain rfl := Except.ok.inj h
    exact hlate now rfl
  split
  · exact fun _ h => by cases h
  · next delay hdelay =>
    refine ⟨trivial, fun w found w' _ hfound => ?_⟩
    cases found with
    | error err =>
      intro at' _ _ delay' hparsed found hcandidate
      rw [hfound.2.1 rfl] at hcandidate
      cases hcandidate
    | ok candidate =>
      intro at' h hlate delay' hparsed found hcandidate
      obtain rfl := Except.ok.inj h
      obtain rfl := Except.ok.inj (hdelay.symm.trans hparsed)
      rw [(answers_of_answeredFrom hfound.1 _ rfl).candidate] at hcandidate
      obtain rfl := Option.some.inj hcandidate
      exact hlate _ rfl

theorem targetBlockers_consults (sc : Schedule) (targets : List ContainerRecord) :
    M.obeys (consulting s base) (targetBlockers ctx horizon now sc targets) () fun _ found =>
      found = .ok [] → ∀ rec ∈ targets, isSkipped rec = false → Waits s.plans now horizon sc rec := by
  induction targets with
  | nil => exact fun _ => by simp
  | cons rec rest ih =>
    unfold targetBlockers
    split
    · next hskipped =>
      refine Machine.obeys_mono ih fun _ found h hempty => List.forall_mem_cons.mpr ⟨fun hopen => ?_, h hempty⟩
      rw [hskipped] at hopen
      cases hopen
    · refine Machine.obeys_bind.mpr (Machine.obeys_mono (dueAt_consults horizon sc rec) ?_)
      intro _ due hdue
      cases due with
      | error err => exact fun h => by cases h
      | ok due =>
        refine Machine.obeys_bind.mpr (Machine.obeys_mono ih ?_)
        intro _ later hlater
        cases later with
        | error err => exact fun h => by cases h
        | ok later =>
          intro hempty
          obtain ⟨hnone, rfl⟩ := List.append_eq_nil_iff.mp (Except.ok.inj hempty)
          refine List.forall_mem_cons.mpr ⟨fun _ => hdue due rfl fun t ht => ?_, hlater rfl⟩
          obtain rfl : due = some t := ht
          rw [List.map_eq_nil_iff, Option.toList_eq_nil_iff, Option.filter_eq_none_iff] at hnone
          simpa using hnone t rfl

theorem blockersOf_consults (sc : Schedule) :
    M.obeys (consulting s base) (blockersOf ctx horizon now sc) () fun _ found =>
      found = .ok [] → sc.enabled = true → Passed s.plans now horizon sc := by
  unfold blockersOf
  split
  · next hdisabled => exact fun _ henabled => absurd henabled hdisabled
  split
  · exact fun h => by cases h
  · next hlater =>
    have hplanned : ∀ next, sc.nextRunAt = some next → horizon < next := by
      intro next hnext
      by_contra hearly
      refine hlater next ?_
      simp [hnext, not_lt.mp hearly]
    split
    · next hkind => exact fun _ _ => ⟨hplanned, fun h => absurd h hkind⟩
    · refine Machine.obeys_bind.mpr (Machine.obeys_mono (resolveTargets_obeys
        (C := consulting s base) (p := s.plans) (fun _ _ => trivial) (fun _ _ _ _ => rfl)
        (fun _ _ _ _ h => answers_of_answeredFrom h.1) ctx sc) ?_)
      rintro _ found ⟨-, htargets⟩
      cases found with
      | error err => exact fun h => by cases h
      | ok targets =>
        refine Machine.obeys_mono (targetBlockers_consults sc targets) fun _ found h hempty _ => ?_
        exact ⟨hplanned, fun _ rec htarget => h hempty rec ((htargets targets rfl rec).mpr htarget)⟩

theorem scheduleBlockers_consults (rows : List Schedule) :
    M.obeys (consulting s base) (scheduleBlockers ctx horizon now rows) () fun _ found =>
      found = .ok [] → ∀ sc ∈ rows, sc.enabled = true → Passed s.plans now horizon sc := by
  induction rows with
  | nil => exact fun _ => by simp
  | cons sc rest ih =>
    refine Machine.obeys_bind.mpr (Machine.obeys_mono (blockersOf_consults sc) ?_)
    intro _ found hfirst
    cases found with
    | error err => exact fun h => by cases h
    | ok found =>
      refine Machine.obeys_bind.mpr (Machine.obeys_mono ih ?_)
      intro _ later hlater
      cases later with
      | error err => exact fun h => by cases h
      | ok later =>
        intro hempty
        obtain ⟨rfl, rfl⟩ := List.append_eq_nil_iff.mp (Except.ok.inj hempty)
        exact List.forall_mem_cons.mpr ⟨hfirst rfl, hlater rfl⟩

theorem selfUpdateBlockers_consults :
    M.obeys (consulting s base) (selfUpdateBlockers ctx horizon) () fun _ found =>
      found = .ok [] → s.listRollbackWatches .triggered = [] ∧ Clear s.plans base horizon := by
  refine Machine.obeys_request_bind.mpr ⟨trivial, fun w triggered w' _ htriggered => ?_⟩
  cases triggered with
  | error err => exact fun h => by cases h
  | ok triggered =>
    have hnone : triggered = s.listRollbackWatches .triggered := by
      obtain ⟨_, _, hok⟩ := htriggered.1 triggered rfl
      exact (Prod.mk.inj (Except.ok.inj hok)).1.symm
    dsimp only
    split
    · next hsome => exact fun h => absurd (List.map_eq_nil_iff.mp (Except.ok.inj h)) hsome
    · next hempty =>
      refine ⟨trivial, fun w rows w' _ hrows => ?_⟩
      cases rows with
      | error err => exact fun h => by cases h
      | ok rows =>
        refine ⟨trivial, fun w now w' _ hnow => ?_⟩
        refine Machine.obeys_mono (scheduleBlockers_consults rows) fun _ found h hfound => ?_
        refine ⟨hnone ▸ not_not.mp hempty, Clear.mono (fun sc hsc => ?_) hnow.2.2⟩
        exact h hfound sc (((answers_of_answeredFrom hrows.1 _ rfl).schedules sc).mpr hsc)

end Obeys

theorem answeredFrom_step {s : Store} {e : Event Calls World} {w : World} (hstore : e.world.store = s)
    (hstep : openSystem.step e.world e.op e.reply w) : AnsweredFrom s e := by
  obtain ⟨world, op, reply⟩ := e
  cases op with
  | store ctx call =>
    intro result hreply
    rcases step_store hstep with ⟨err, rfl, -⟩ | ⟨found, store, -, hok, rfl, -⟩
    · cases hreply
    · obtain rfl := Except.ok.inj hreply
      exact ⟨_, _, hstore ▸ hok⟩
  | _ => trivial

theorem readBy_step {base : Time} {e : Event Calls World} {w : World} (hclock : e.world.clock ≤ base)
    (hstep : openSystem.step e.world e.op e.reply w) : ReadBy base e := by
  obtain ⟨world, op, reply⟩ := e
  cases op with
  | now => exact (le_of_eq (step_now hstep).1).trans hclock
  | _ => trivial

/-- A call that reads leaves the store as it was. -/
theorem step_kept {call : Call} {reply : call.Reply} {w w' : World} (hcall : call.Keeps id)
    (h : openSystem.step w call reply w') : w'.store = w.store :=
  step_keeps hcall h

/-- Without blockers there is nothing to do, if every candidate that is there was found. -/
theorem clear_of_noBlockers {ctx : Context} {horizon : Time} {w w' : World} {trace : Trace Calls World}
    (hrun : openSystem.Runs (selfUpdateBlockers ctx horizon) w trace (.ok []) w')
    (hfound : ∀ e ∈ trace, FindsCandidate w.store e) :
    w.store.listRollbackWatches .triggered = [] ∧ Clear w.store.plans w'.clock horizon := by
  have hreads := Machine.runs_uses (selfUpdateBlockers_reads ctx horizon) hrun
  obtain ⟨-, hevents⟩ := Machine.path_events (M := openSystem) (I := fun world => world.store = w.store)
    (R := fun w w' => w.clock ≤ w'.clock) (P := fun e => Reads e.op) (fun _ => le_refl _) le_trans
    (fun w₀ w₁ hrely => ⟨hrely.frame.clock, fun h => hrely.frame.store.trans h⟩)
    (fun w₀ op r w₁ hstep => ⟨step_clock hstep,
      fun hread h => (step_kept (keeps_of_reads hread) hstep).trans h⟩)
    (Machine.runs_path hrun) hreads rfl
  have hconsults : openSystem.obeys (consulting w.store w'.clock) (selfUpdateBlockers ctx horizon) ()
      fun _ found => found = .ok [] → w.store.listRollbackWatches .triggered = [] ∧
        Clear w.store.plans w'.clock horizon := selfUpdateBlockers_consults
  refine Machine.obeys_runs hconsults hrun
    (Contract.expected_of_forall (fun e he _ => ?_) ()) rfl
  obtain ⟨⟨hstore, hclock⟩, w₁, hstep⟩ := hevents e he
  exact ⟨answeredFrom_step hstore hstep, hfound e he, readBy_step hclock hstep⟩

end Doupro.Scheduler
