import Doupro.System.Steady
import Doupro.Updater.GuardProtocol
import Doupro.Updater.NameKept

/-!
# The key of an operation

`Update` and `Rollback` work on a container ID but take the guard under the name the store
gives for it. Two operations on one container are kept apart as long as they read the same
key; nothing checks the key again once the guard is taken.
-/

namespace Doupro.Updater

open Go Interaction

/-- What an operation holds of the guard, and the containers it has created. -/
structure Share where
  grip : Grip := {}
  created : List String := []

/-- An operation takes the guard before it creates a container. -/
def operating : Contract Calls World Share where
  allowed k call := match call with
    | .beginOperation _ _ => k.created = []
    | .docker _ (.create _ _ _ _) => k.grip.held ≠ []
    | call => protocol.allowed k.grip call
  expects _ _ := True
  next k e := { grip := k.grip.after e, created := (createdBy e).toList ++ k.created }

/-! ### Operations keep to it -/

section Programs

variable {M : Machine Calls World}

theorem busy_obeys {α : Type} {p : Go α} (hp : p.Uses OffGuard) {k : Share}
    (hbusy : k.grip.held ≠ []) : M.obeys operating p k fun k' _ => k'.grip = k.grip := by
  induction p generalizing k with
  | ret a => rfl
  | call op next ih =>
    have hallowed : operating.allowed k op := by
      cases op with
      | docker ctx call =>
        cases call with
        | create => exact hbusy
        | _ => trivial
      | beginOperation | endOperation | endMaintenance => exact hp.1.elim
      | _ => trivial
    refine ⟨hallowed, fun w r w' _ _ => ?_⟩
    have hgrip : (operating.next k ⟨w, op, r⟩).grip = k.grip := after_offGuard hp.1
    refine Machine.obeys_mono (ih r (hp.2 r) (hgrip ▸ hbusy)) fun k' _ hk' => hk'.trans hgrip

theorem withOperation_operating (name kind : String) (actor : Actor) (actorID : String)
    {operation : Go (Option GoError)} (h : operation.Uses OffGuard) {k : Share}
    (hk : k.created = []) :
    M.obeys operating (withOperation name kind actor actorID operation) k fun _ _ => True := by
  unfold withOperation beginOperation
  rw [Machine.obeys_bind]
  refine Machine.obeys_request_bind.mpr ⟨hk, fun w current w' _ _ => ?_⟩
  cases current with
  | some current =>
    refine Machine.obeys_request_bind.mpr ⟨trivial, fun _ _ _ _ _ => ?_⟩
    split <;> trivial
  | none =>
    change M.obeys operating (operation >>= _) _ _
    refine Machine.obeys_bind.mpr (Machine.obeys_mono (busy_obeys h (List.cons_ne_nil _ _)) ?_)
    intro k' result hgrip
    refine ⟨?_, fun _ _ _ _ _ => trivial⟩
    change k'.grip.Holds name kind
    rw [hgrip]
    exact ⟨_, List.mem_cons_self, rfl⟩

theorem operation_operating (call : OperationCall) :
    M.obeys operating call.program {} fun _ _ => True := by
  cases call with
  | update req =>
    exact ⟨trivial, fun _ _ _ _ _ =>
      withOperation_operating _ _ _ _ (updateGuarded_offGuard req) rfl⟩
  | rollback req =>
    refine Machine.obeys_request_bind.mpr ⟨trivial, fun w found w' _ _ => ?_⟩
    cases found with
    | error err => trivial
    | ok rec =>
      dsimp only
      split
      · trivial
      · exact withOperation_operating _ _ _ _ (Program.uses_mono
          (fun _ => offGuard_of_inRollback) (rollbackGuarded_calls req rec)) rfl

end Programs

/-! ### One operation at a time -/

/-- Others do anything but begin and end operations, and Docker issues no ID twice. -/
def contested : Machine Calls World where
  rely w w' := w'.guard.active = w.guard.active ∧ w.engine.issued ⊆ w'.engine.issued
  step := openSystem.step

/-- Only a create call issues an ID, and it issues one. -/
theorem step_issued_eq {w w' : World} {call : Call} {reply : call.Reply}
    (h : openSystem.step w call reply w') :
    w'.engine.issued = w.engine.issued ∨ ∃ id, w'.engine.issued = id :: w.engine.issued := by
  cases call with
  | docker ctx call =>
    cases call with
    | inspect id => exact .inl (by rw [(step_inspect h).1])
    | pull imageRef =>
      left
      rcases step_pull h with ⟨err, -, hw⟩ | ⟨image, -, -, -, hw⟩ <;> rw [hw]
    | stop id timeout => exact .inl (step_stop h).1.issued
    | remove id force =>
      left
      rcases step_remove h with ⟨err, -, hw⟩ | ⟨-, -, -, -, -, hissued, -⟩
      · rw [hw]
      · exact hissued
    | create config hostConfig networks name =>
      rcases step_create h with ⟨err, -, hw⟩ | ⟨spec, -, -, hmade⟩
      · exact .inl (by rw [hw])
      · exact .inr ⟨spec.id, hmade.issued⟩
    | start id =>
      left
      rcases step_start h with ⟨err, -, hw⟩ | ⟨-, hw⟩
      · rw [hw]
      · rw [hw]
        rfl
    | rename id name =>
      left
      rcases step_docker h with ⟨err, -, hw⟩ | ⟨_, _, engine, -, hperform, -, hw⟩
      · rw [hw]
      · rw [hw]
        simp only [Engine.perform] at hperform
        split at hperform
        · cases hperform
        · split at hperform
          · obtain ⟨-, rfl⟩ := Prod.mk.inj (Except.ok.inj hperform)
            rfl
          · cases hperform
    | list =>
      left
      rcases step_docker h with ⟨err, -, hw⟩ | ⟨_, _, engine, -, hperform, -, hw⟩
      · rw [hw]
      · rw [hw, (Prod.mk.inj (Except.ok.inj hperform)).2]
  | _ =>
    left
    rw [step_keepsStates (by trivial) h]

theorem step_issued {w w' : World} {call : Call} {reply : call.Reply}
    (h : openSystem.step w call reply w') : w.engine.issued ⊆ w'.engine.issued := by
  rcases step_issued_eq h with heq | ⟨id, heq⟩
  · exact heq ▸ List.Subset.refl _
  · exact heq ▸ List.subset_cons_self _ _

section Callers

variable {ι : Type} [DecidableEq ι] (call : ι → OperationCall)

abbrev shareOf (history : List (ι × Event Calls World)) (i : ι) : Share :=
  operating.learnedBy {} history i

/-- An operation was granted the guard and has not released it. -/
def InProgress (history : List (ι × Event Calls World)) (i : ι) : Prop :=
  (shareOf history i).grip.held ≠ []

/-- The containers an operation changes: the one it was called for and those it created. -/
def Changes (history : List (ι × Event Calls World)) (i : ι) (id : String) : Prop :=
  (call i).containerID = id ∨ id ∈ (shareOf history i).created

/-- An operation on a container Docker has made asks for the guard under the key that the other
operations on this container hold. -/
def SameKey (past : List (ι × Event Calls World)) (entry : ι × Event Calls World) : Prop :=
  match entry.2.op with
  | .beginOperation name _ =>
    (call entry.1).containerID ∈ entry.2.world.engine.issued ∧
      ∀ j, Changes call past j (call entry.1).containerID →
        ∀ held ∈ (shareOf past j).grip.held, held.1 = name
  | _ => True

/-- What holds of the guard and the operations in every state. -/
structure Exclusive (w : World) (share : ι → Share) : Prop where
  shared : Shared w.guard fun i => (share i).grip
  issued : ∀ i id, id ∈ (share i).created → id ∈ w.engine.issued
  called : ∀ i, (share i).grip.held ≠ [] → (call i).containerID ∈ w.engine.issued
  alone : ∀ i j id, (share i).grip.held ≠ [] → (share j).grip.held ≠ [] →
    ((call i).containerID = id ∨ id ∈ (share i).created) →
    ((call j).containerID = id ∨ id ∈ (share j).created) → i = j

variable {call} {w w' : World} {share : ι → Share} {i : ι} {op : Call} {r : op.Reply}

theorem createdBy_fresh (hstep : openSystem.step w op r w') {id : String}
    (hid : createdBy ⟨w, op, r⟩ = some id) : id ∉ w.engine.issued ∧ id ∈ w'.engine.issued := by
  unfold createdBy at hid
  split at hid
  · next w₀ ctx config hostConfig networks name reply heq =>
    obtain ⟨rfl, rfl, hreply⟩ := Event.mk.inj heq
    obtain rfl := eq_of_heq hreply
    rcases step_create hstep with ⟨err, rfl, -⟩ | ⟨spec, -, rfl, hmade⟩
    · cases hid
    · obtain rfl := Option.some.inj hid
      exact ⟨hmade.fresh, hmade.issued ▸ List.mem_cons_self⟩
  · cases hid

/-- A caller that holds nothing more than before, and created at most a new container. -/
theorem Exclusive.keeps {k' : Share} (h : Exclusive call w share) (hshared : Shared w'.guard
      fun j => (Function.update share i k' j).grip) (hissued : w.engine.issued ⊆ w'.engine.issued)
    (hheld : k'.grip.held ≠ [] → (share i).grip.held ≠ [])
    (hcreated : ∀ id ∈ k'.created, id ∈ (share i).created ∨
      (id ∉ w.engine.issued ∧ id ∈ w'.engine.issued)) :
    Exclusive call w' (Function.update share i k') := by
  have hbusy : ∀ j, (Function.update share i k' j).grip.held ≠ [] → (share j).grip.held ≠ [] := by
    intro j hj
    by_cases hji : j = i
    · subst hji
      rw [Function.update_self] at hj
      exact hheld hj
    · rwa [Function.update_of_ne hji] at hj
  have hold : ∀ j id, id ∈ (Function.update share i k' j).created → id ∈ (share j).created ∨
      (j = i ∧ id ∉ w.engine.issued ∧ id ∈ w'.engine.issued) := by
    intro j id hid
    by_cases hji : j = i
    · subst hji
      rw [Function.update_self] at hid
      exact (hcreated id hid).imp_right fun hnew => ⟨rfl, hnew⟩
    · rw [Function.update_of_ne hji] at hid
      exact .inl hid
  have hchanges : ∀ j id, ((call j).containerID = id ∨ id ∈ (Function.update share i k' j).created) →
      ((call j).containerID = id ∨ id ∈ (share j).created) ∨ (j = i ∧ id ∉ w.engine.issued) := by
    rintro j id (hid | hid)
    · exact .inl (.inl hid)
    · exact (hold j id hid).imp .inr fun hnew => ⟨hnew.1, hnew.2.1⟩
  have hknown : ∀ j id, (share j).grip.held ≠ [] →
      ((call j).containerID = id ∨ id ∈ (share j).created) → id ∈ w.engine.issued := by
    rintro j id hj (rfl | hid)
    · exact h.called j hj
    · exact h.issued j id hid
  constructor
  · exact hshared
  · intro j id hid
    rcases hold j id hid with hid | ⟨-, -, hid⟩
    · exact hissued (h.issued j id hid)
    · exact hid
  · exact fun j hj => hissued (h.called j (hbusy j hj))
  · intro j l id hj hl hjid hlid
    -- only the caller can have a new container, and nobody else knows its ID
    rcases hchanges j id hjid with hjold | ⟨hji, hjnew⟩ <;>
      rcases hchanges l id hlid with hlold | ⟨hli, hlnew⟩
    · exact h.alone j l id (hbusy j hj) (hbusy l hl) hjold hlold
    · exact absurd (hknown j id (hbusy j hj) hjold) hlnew
    · exact absurd (hknown l id (hbusy l hl) hlold) hjnew
    · rw [hji, hli]

/-- A begin that is granted while the operations on the container hold its key. -/
theorem Exclusive.begins {name kind : String} (h : Exclusive call w share)
    (hnone : (share i).created = []) (hmade : (call i).containerID ∈ w.engine.issued)
    (hsame : ∀ j, ((call j).containerID = (call i).containerID ∨
      (call i).containerID ∈ (share j).created) → ∀ held ∈ (share j).grip.held, held.1 = name)
    (hgranted : (w.guard.begin name kind w.clock).1 = none) {k' : Share}
    (hk' : k' = { grip := { (share i).grip with held :=
      (name, { kind, startedAt := w.clock }) :: (share i).grip.held }, created := [] })
    (hshared : Shared w'.guard fun j => (Function.update share i k' j).grip)
    (hengine : w'.engine = w.engine) : Exclusive call w' (Function.update share i k') := by
  have hfree : ∀ j, ((call j).containerID = (call i).containerID ∨
      (call i).containerID ∈ (share j).created) → (share j).grip.held = [] := by
    intro j hj
    rw [List.eq_nil_iff_forall_not_mem]
    intro held hheld
    exact (begin_granted hgranted).2.1 held ((h.shared.entries held).mpr ⟨j, hheld⟩)
      (hsame j hj held hheld)
  have hcreated : ∀ j, (Function.update share i k' j).created = (share j).created := by
    intro j
    by_cases hji : j = i
    · subst hji
      rw [Function.update_self, hk', hnone]
    · rw [Function.update_of_ne hji]
  have hothers : ∀ j, (Function.update share i k' j).grip.held ≠ [] → j ≠ i →
      (share j).grip.held ≠ [] := by
    intro j hj hji
    rwa [Function.update_of_ne hji] at hj
  constructor
  · exact hshared
  · intro j id hid
    rw [hengine]
    exact h.issued j id (hcreated j ▸ hid)
  · intro j hj
    rw [hengine]
    by_cases hji : j = i
    · exact hji ▸ hmade
    · exact h.called j (hothers j hj hji)
  · intro j l id hj hl hjid hlid
    rw [hcreated] at hjid hlid
    have hmine : ∀ m, m = i → ((call m).containerID = id ∨ id ∈ (share m).created) →
        (call i).containerID = id := by
      rintro m rfl (hid | hid)
      · exact hid
      · rw [hnone] at hid
        cases hid
    by_cases hji : j = i <;> by_cases hli : l = i
    · rw [hji, hli]
    · exact absurd (hfree l (hmine j hji hjid ▸ hlid)) (hothers l hl hli)
    · exact absurd (hfree j (hmine l hli hlid ▸ hjid)) (hothers j hj hji)
    · exact h.alone j l id (hothers j hj hji) (hothers l hl hli) hjid hlid

theorem held_of_not_begin {k : Grip} {e : Event Calls World}
    (h : ∀ name kind, e.op ≠ .beginOperation name kind) : (k.after e).held ⊆ k.held := by
  obtain ⟨w, op, r⟩ := e
  cases op with
  | beginOperation name kind => exact absurd rfl (h name kind)
  | endOperation name kind => exact List.filter_sublist.subset
  | beginMaintenance =>
    change (if _ then { k with maintenance := true } else k : Grip).held ⊆ k.held
    split <;> exact List.Subset.refl _
  | _ => exact List.Subset.refl _

theorem exclusive_call (h : Exclusive call w share) (hallowed : operating.allowed (share i) op)
    (hsame : ∀ name kind, op = .beginOperation name kind →
      (call i).containerID ∈ w.engine.issued ∧ ∀ j, ((call j).containerID = (call i).containerID ∨
        (call i).containerID ∈ (share j).created) → ∀ held ∈ (share j).grip.held, held.1 = name)
    (hstep : openSystem.step w op r w') :
    Exclusive call w' (Function.update share i (operating.next (share i) ⟨w, op, r⟩)) := by
  have hprotocol : protocol.allowed (share i).grip op := by
    cases op with
    | docker ctx call => trivial
    | beginOperation => trivial
    | _ => exact hallowed
  have hshared : Shared w'.guard fun j =>
      (Function.update share i (operating.next (share i) ⟨w, op, r⟩) j).grip := by
    have hgrip : (fun j => (Function.update share i (operating.next (share i) ⟨w, op, r⟩) j).grip) =
        Function.update (fun j => (share j).grip) i ((share i).grip.after ⟨w, op, r⟩) := by
      funext j
      by_cases hji : j = i
      · subst hji
        simp [operating]
      · simp [hji]
    rw [hgrip]
    exact h.shared.step (guardStep_call hprotocol hstep)
  have hother : (∀ name kind, op ≠ .beginOperation name kind) →
      Exclusive call w' (Function.update share i (operating.next (share i) ⟨w, op, r⟩)) := by
    intro hop
    refine h.keeps hshared (step_issued hstep) (fun hbusy hidle => hbusy ?_) fun id hid => ?_
    · have hsub := held_of_not_begin (k := (share i).grip) (e := ⟨w, op, r⟩) hop
      rw [hidle] at hsub
      exact List.subset_nil.mp hsub
    · rcases List.mem_append.mp hid with hnew | hold
      · exact .inr (createdBy_fresh hstep (Option.mem_toList.mp hnew))
      · exact .inl hold
  cases op with
  | beginOperation name kind =>
    obtain ⟨hmade, hkey⟩ := hsame name kind rfl
    have hnone : (share i).created = [] := hallowed
    obtain ⟨rfl, hw⟩ := step_beginOperation hstep
    by_cases hgranted : (w.guard.begin name kind w.clock).1 = none
    · refine h.begins hnone hmade hkey hgranted ?_ hshared (by rw [hw])
      simp [operating, Grip.after, hgranted, createdBy, hnone]
    · refine h.keeps hshared (step_issued hstep) (fun hbusy => ?_) fun id hid => .inl ?_
      · simpa [operating, Grip.after, hgranted] using hbusy
      · simpa [operating, createdBy] using hid
  | _ => exact hother fun _ _ hop => by cases hop

/-- As long as operations on one container read one key, no two of them are in progress at the
same time, in whatever order they, discovery and the rest of the daemon go. -/
theorem one_operation_at_a_time {pool' : ι → Go (Option GoError)} {w w' : World}
    {history : List (ι × Event Calls World)} (hidle : w.guard.active = [])
    (hrun : contested.PoolRuns (fun i => (call i).program) w history pool' w')
    (hkeys : Machine.Throughout (SameKey call) [] history) :
    ∀ i j id, InProgress history i → InProgress history j → Changes call history i id →
      Changes call history j id → i = j := by
  obtain ⟨share, ⟨hexclusive, rfl⟩, -⟩ := Machine.PoolRuns.contracts (A := SameKey call)
    (C := fun _ => operating)
    (J := fun w share past => Exclusive call w share ∧ share = shareOf past)
    (fun {w w₀ w₁ share past} i {op r} hJ hrely hstep hsame hallowed => by
      obtain ⟨hexclusive, rfl⟩ := hJ
      refine ⟨trivial, ?_, (operating.learnedBy_concat _ _ _ _).symm⟩
      have hmet : Exclusive call w₀ (shareOf past) :=
        { shared :=
            { entries := by rw [hrely.1]; exact hexclusive.shared.entries
              distinct := by rw [hrely.1]; exact hexclusive.shared.distinct
              apart := hexclusive.shared.apart }
          issued := fun i id hid => hrely.2 (hexclusive.issued i id hid)
          called := fun i hi => hrely.2 (hexclusive.called i hi)
          alone := hexclusive.alone }
      refine exclusive_call hmet hallowed (fun name kind hop => ?_) hstep
      subst hop
      exact hsame)
    hrun hkeys (fun i => operation_operating (call i))
    ⟨⟨shared_idle hidle, by simp, by simp, by simp⟩, rfl⟩
  exact hexclusive.alone

end Callers

/-! ### Two updates of one container -/

section Examples

instance {ι : Type} [DecidableEq ι] (call : ι → OperationCall)
    (history : List (ι × Event Calls World)) (i : ι) (id : String) :
    Decidable (Changes call history i id) := inferInstanceAs (Decidable (_ ∨ _))

instance {ι : Type} [DecidableEq ι] (history : List (ι × Event Calls World)) (i : ι) :
    Decidable (InProgress history i) := inferInstanceAs (Decidable (¬ _))

instance (call : Bool → OperationCall) (past : List (Bool × Event Calls World))
    (entry : Bool × Event Calls World) : Decidable (SameKey call past entry) := by
  unfold SameKey
  split <;> infer_instance

/-- Two updates of the same container, to different images. -/
def updatingTwice (i : Bool) : OperationCall :=
  .update ⟨.background, "c0", if i then "web:2" else "web:1", ⟨.user, ""⟩⟩

theorem updatingTwice_runs (turns : List (Bool × Choice)) :
    contested.PoolRuns (fun i => (updatingTwice i).program) webWorld
      (playCalls turns (fun i => (updatingTwice i).program) webWorld).1
      (playCalls turns (fun i => (updatingTwice i).program) webWorld).2.1
      (playCalls turns (fun i => (updatingTwice i).program) webWorld).2.2 :=
  playCalls_runs (M := contested) (fun _ => ⟨rfl, List.Subset.refl _⟩) rfl _ _ _

/-- Both read the name; the second is refused the guard. -/
def sameKeys : List (Bool × Choice) := [(true, {}), (false, {}), (true, {}), (false, {})]

theorem one_operation_at_a_time_refused :
    let history := (playCalls sameKeys (fun i => (updatingTwice i).program) webWorld).1
    ∀ i j id, InProgress history i → InProgress history j → Changes updatingTwice history i id →
      Changes updatingTwice history j id → i = j :=
  one_operation_at_a_time rfl (updatingTwice_runs sameKeys) (by decide +kernel)

/-- The read of the name fails for the second update, which takes the guard under the container
ID. -/
def otherKeys : List (Bool × Choice) :=
  [(true, {}), (false, { fault := some (.external "database is locked") }), (true, {}), (false, {})]

/-- Two updates of one container are in progress at the same time. -/
theorem two_operations_at_a_time :
    let history := (playCalls otherKeys (fun i => (updatingTwice i).program) webWorld).1
    (∃ pool' w', contested.PoolRuns (fun i => (updatingTwice i).program) webWorld history pool' w') ∧
      InProgress history true ∧ InProgress history false ∧ Changes updatingTwice history true "c0" ∧
      Changes updatingTwice history false "c0" :=
  ⟨⟨_, _, updatingTwice_runs otherKeys⟩, by decide +kernel⟩

end Examples

end Doupro.Updater
