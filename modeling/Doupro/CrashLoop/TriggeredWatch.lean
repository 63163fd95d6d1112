import Doupro.CrashLoop.Monitor
import Doupro.System.Crowd
import Doupro.Updater.ClosedGate

/-!
# A watch whose rollback is refused

The goroutine of an automatic rollback begins at most one operation, and closes the watch only
if the gate did not turn that one away.
-/

namespace Doupro

open Go Interaction

/-- Where an automatic rollback stands: no operation begun, free to close its watch, or refused. -/
inductive Attempt where
  | fresh
  | free
  | refused

/-- The row of the watch of a container. -/
abbrev watchRow (name : String) (s : Store) : Option RollbackWatch := s.getRollbackWatch name

/-- What a begin that was answered leaves open. -/
def Attempt.answered (reply : Option Operation) : Attempt :=
  if reply.any fun current => current.kind = "self-update" then .refused else .free

/-- One begin at most, and no write to the watch once it was refused. -/
def attempting (name : String) : Contract Calls World Attempt where
  allowed k op := match op with
    | .beginOperation _ _ => k = .fresh
    | .store _ (.completeRollbackWatch _ _) | .store _ (.replaceContainerAndCompleteRollback _ _ _) =>
      k ≠ .refused
    | op => op.Keeps (watchRow name)
  expects _ e := match e with
    | ⟨w, .beginOperation _ _, reply⟩ => w.guard.maintenance = true → Attempt.answered reply = .refused
    | _ => True
  next k e := match e with
    | ⟨_, .beginOperation _ _, reply⟩ => Attempt.answered reply
    | ⟨_, .store _ (.completeRollbackWatch _ _), _⟩
    | ⟨_, .store _ (.replaceContainerAndCompleteRollback _ _ _), _⟩ => .free
    | _ => k

section Obeys

variable {M : Machine Calls World} {name : String} {k : Attempt}

theorem reads_obeys {α : Type} {p : Go α} (hp : p.Uses Scheduler.Reads) :
    M.obeys (attempting name) p k fun k' _ => k' = k := by
  refine Machine.obeys_of_uses_at (fun op hop => ?_) (fun e he => ?_) hp
  · dsimp only [attempting]
    split
    · exact hop.elim
    · exact hop.elim
    · exact hop.elim
    · exact Scheduler.keeps_of_reads hop
  · dsimp only [attempting]
    split <;> first | exact he.elim | rfl

/-- The calls of an operation that was let in. -/
theorem inRollback_obeys {α : Type} {p : Go α} (hp : p.Uses Updater.InRollback) :
    M.obeys (attempting name) p .free fun k' _ => k' = .free := by
  refine Machine.obeys_of_uses_at (fun op hop => ?_) (fun e he => ?_) hp
  · unfold Updater.InRollback at hop
    split at hop
    case h_6 ctx id => exact Scheduler.keeps_of_reads (show Scheduler.Reads (.store ctx (.getContainer id)) from trivial)
    case h_7 | h_9 =>
      intro s now result s' hok
      rw [← (Prod.mk.inj (Except.ok.inj hok)).2]
      rfl
    case h_8 => exact Attempt.noConfusion
    case h_10 => exact hop.elim
    all_goals trivial
  · dsimp only [attempting]
    split <;> first | exact he.elim | rfl

theorem beginOperation_attempts (opName kind : String) (actor : Actor) (actorID : String) :
    M.obeys (attempting name) (Updater.beginOperation opName kind actor actorID) .fresh
      fun k' turned => (turned = none → k' = .free) ∧
        (k' = .refused → turned = some .maintenanceInProgress) := by
  refine Machine.obeys_request_bind.mpr ⟨rfl, fun w reply w' _ _ => ?_⟩
  cases reply with
  | none => exact ⟨fun _ => rfl, fun h => (by cases h)⟩
  | some current =>
    refine Machine.obeys_request_bind.mpr ⟨trivial, fun _ _ _ _ _ => ?_⟩
    change M.obeys (attempting name) _ (Attempt.answered (some current)) _
    split
    · exact ⟨fun h => (by cases h), fun _ => rfl⟩
    · next hkind =>
      refine ⟨fun h => (by cases h), fun h => ?_⟩
      simp [Attempt.answered, hkind] at h

theorem withOperation_attempts (opName kind : String) (actor : Actor) (actorID : String)
    {operation : Go (Option GoError)} (hop : operation.Uses Updater.InRollback) :
    M.obeys (attempting name) (Updater.withOperation opName kind actor actorID operation) .fresh
      fun k' result => k' = .refused → result = some .maintenanceInProgress := by
  refine Machine.obeys_bind.mpr (Machine.obeys_mono (beginOperation_attempts _ _ _ _) ?_)
  rintro k' turned ⟨hfree, hrefused⟩
  cases turned with
  | some err => exact hrefused
  | none =>
    obtain rfl := hfree rfl
    refine Machine.obeys_bind.mpr (Machine.obeys_mono (inRollback_obeys hop) ?_)
    rintro _ result rfl
    exact ⟨trivial, fun _ _ _ _ _ h => by cases h⟩

theorem updaterRollback_attempts (req : Updater.RollbackRequest) :
    M.obeys (attempting name) (Updater.rollback req) .fresh
      fun k' result => k' = .refused → result = some .maintenanceInProgress := by
  refine Machine.obeys_request_bind.mpr
    ⟨Scheduler.keeps_of_reads (show Scheduler.Reads (.store req.ctx (.getContainer _)) from trivial), ?_⟩
  intro w found w' _ _
  cases found with
  | error err => exact fun h => by cases h
  | ok rec =>
    dsimp only
    split
    · exact fun h => by cases h
    · exact withOperation_attempts _ _ _ _ (Updater.rollbackGuarded_calls req rec)

theorem concludeRollback_attempts {watch : RollbackWatch} {result : Option GoError}
    (h : k = .refused → result = some .maintenanceInProgress) :
    M.obeys (attempting name) (Monitor.concludeRollback watch result) k fun _ _ => True := by
  unfold Monitor.concludeRollback
  split
  · trivial
  · trivial
  · next err _ =>
    split
    · trivial
    · next hother =>
      have hopen : k ≠ .refused := by
        intro hk
        obtain rfl := Option.some.inj (h hk)
        exact hother rfl
      exact ⟨hopen, fun _ _ _ _ _ => ⟨trivial, fun _ _ _ _ _ => trivial⟩⟩

theorem rollback_attempts (watch : RollbackWatch) :
    M.obeys (attempting name) (Monitor.rollback watch) .fresh fun _ _ => True := by
  refine Machine.obeys_bind.mpr (Machine.obeys_mono
    (reads_obeys (Scheduler.getContainerByName_reads _ _)) ?_)
  rintro _ found rfl
  cases found with
  | error err => exact concludeRollback_attempts fun h => by cases h
  | ok rec =>
    refine Machine.obeys_bind.mpr (Machine.obeys_mono (updaterRollback_attempts _) ?_)
    exact fun k' result h => concludeRollback_attempts h

end Obeys

/-! ### The row of the watch -/

/-- The row is as it was while the watch may not have been written, and a closed gate was a refusal. -/
structure Attempted (name : String) (start w : World) (k : Attempt)
    (past : List (Unit × Event Calls World)) : Prop where
  row : k ≠ .free → watchRow name w.store = watchRow name start.store
  met : ∀ entry ∈ past, MeetsGate entry.2 → k = .refused

variable {name : String} {start w w₀ w₁ : World} {k : Attempt} {past : List (Unit × Event Calls World)}

theorem answered_closed {opName kind : String} (h : w.guard.maintenance = true) :
    Attempt.answered (w.guard.begin opName kind w.clock).1 = .refused := by
  rw [Updater.begin_closed h]
  simp [Attempt.answered]

theorem Attempted.stays (h : Attempted name start w k past) {e : Event Calls World}
    (hrow : watchRow name w₁.store = watchRow name w.store) (hgate : ¬ MeetsGate e) :
    Attempted name start w₁ k (past ++ [((), e)]) where
  row hk := hrow.trans (h.row hk)
  met entry hentry hmet := by
    rcases List.mem_append.mp hentry with hold | hnew
    · exact h.met entry hold hmet
    · obtain rfl := List.mem_singleton.mp hnew
      exact absurd hmet hgate

/-- A call of an attempt that nothing has refused. -/
theorem Attempted.unrefused (h : Attempted name start w k past) (hk : k ≠ .refused) {k' : Attempt}
    {e : Event Calls World} (hrow : k' ≠ .free → watchRow name w₁.store = watchRow name start.store)
    (hgate : MeetsGate e → k' = .refused) : Attempted name start w₁ k' (past ++ [((), e)]) where
  row := hrow
  met entry hentry hmet := by
    rcases List.mem_append.mp hentry with hold | hnew
    · exact absurd (h.met entry hold hmet) hk
    · obtain rfl := List.mem_singleton.mp hnew
      exact hgate hmet

theorem Attempted.step (h : Attempted name start w k past) (hrely : World.Bustles (watchRow name) w w₀)
    {op : Call} {r : op.Reply} (hstep : openSystem.step w₀ op r w₁)
    (hallowed : (attempting name).allowed k op) :
    (attempting name).expects k ⟨w₀, op, r⟩ ∧
      Attempted name start w₁ ((attempting name).next k ⟨w₀, op, r⟩) (past ++ [((), ⟨w₀, op, r⟩)]) := by
  have hmet := World.Bustles.store hrely
  have hcalm : ∀ e : Event Calls World, op.Keeps (watchRow name) → ¬ MeetsGate e →
      Attempted name start w₁ k (past ++ [((), e)]) := fun e hkeeps hgate =>
    h.stays ((step_keeps hkeeps hstep).trans hmet) hgate
  cases op with
  | beginOperation opName kind =>
    obtain rfl : k = .fresh := hallowed
    obtain ⟨rfl, rfl⟩ := step_beginOperation hstep
    refine ⟨answered_closed, h.unrefused Attempt.noConfusion (fun _ => ?_) answered_closed⟩
    exact hmet.trans (h.row Attempt.noConfusion)
  | store ctx call =>
    cases call with
    | completeRollbackWatch | replaceContainerAndCompleteRollback =>
      exact ⟨trivial, h.unrefused hallowed (fun hfree => absurd rfl hfree) fun hgate => hgate.elim⟩
    | _ => exact ⟨trivial, hcalm _ hallowed id⟩
  | _ => exact ⟨trivial, hcalm _ hallowed id⟩

/-- An automatic rollback that was refused leaves its watch as it was. -/
theorem refusedRollback_spares {watch : RollbackWatch} {w w' : World}
    {history : List (Unit × Event Calls World)} {pool' : Unit → Go Unit}
    (hrun : (crowd (watchRow watch.containerName)).PoolRuns (fun _ => Monitor.rollback watch) w history
      pool' w') {e : Event Calls World} (he : ((), e) ∈ history) (hgate : MeetsGate e) :
    w'.store.getRollbackWatch watch.containerName = w.store.getRollbackWatch watch.containerName := by
  obtain ⟨k, hattempted, -⟩ := Machine.PoolRuns.contracts (A := fun _ _ => True)
    (C := fun _ => attempting watch.containerName) (Q := fun _ _ _ => True)
    (J := fun w' k past => Attempted watch.containerName w w' (k ()) past)
    (fun {w₀ w₁ w₂ k past} i {op r} hJ hrely hstep _ hallowed => by
      rw [Function.update_self]
      exact hJ.step hrely hstep hallowed)
    hrun (Machine.throughout_trivial [] history) (k := fun _ => .fresh)
    (fun _ => rollback_attempts watch) ⟨fun _ => rfl, by simp⟩
  refine hattempted.row ?_
  rw [hattempted.met _ he hgate]
  exact Attempt.noConfusion

end Doupro
