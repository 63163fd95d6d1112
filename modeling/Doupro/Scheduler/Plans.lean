import Doupro.Interaction.Contracts
import Doupro.Scheduler.Executors
import Doupro.System.World

/-!
# What the scheduler acts on

Its schedules, the containers they are about and the update candidates. A reading of these
tables tells what they hold, whoever reads.
-/

namespace Doupro

open Go Interaction

/-- The tables that decide what the scheduler updates. -/
structure Plans where
  schedules : List Schedule
  containers : List ContainerRecord
  candidates : List UpdateCandidate

def Store.plans (s : Store) : Plans := ⟨s.schedules, s.containers, s.candidates⟩

namespace Plans

variable (p : Plans)

/-- The targets of a schedule. -/
def Targets (sc : Schedule) (rec : ContainerRecord) : Prop :=
  if sc.containerName ≠ "" then
    ∃ row, Table.lookup ContainerRecord.name sc.containerName p.containers = some row ∧
      Table.lookup ContainerRecord.id row.id p.containers = some rec
  else rec ∈ p.containers ∧ rec.stack = sc.stack

/-- The candidate of a container in a scope. -/
def candidate (containerID scope : String) : Option UpdateCandidate :=
  Table.lookup (fun c : UpdateCandidate => (c.containerID, c.scope)) (containerID, scope) p.candidates

/-- A reply that a store with these tables gives. -/
def Answers (call : StoreCall) (result : call.Result) : Prop :=
  ∃ (s : Store) (now : Time) (after : Store), s.plans = p ∧ s.perform now call = .ok (result, after)

variable {p}

theorem Answers.found {name id : String} (h : p.Answers (.containerIDByName name) id) :
    ∃ row, Table.lookup ContainerRecord.name name p.containers = some row ∧ row.id = id := by
  obtain ⟨s, now, after, rfl, hok⟩ := h
  exact (Store.perform_containerIDByName.mp hok).1

theorem Answers.container {id : String} {rec : ContainerRecord} (h : p.Answers (.getContainer id) rec) :
    Table.lookup ContainerRecord.id id p.containers = some rec := by
  obtain ⟨s, now, after, rfl, hok⟩ := h
  exact (Store.perform_getContainer.mp hok).1

theorem Answers.containers {all : List ContainerRecord} (h : p.Answers .listContainers all)
    (rec : ContainerRecord) : rec ∈ all ↔ rec ∈ p.containers := by
  obtain ⟨s, now, after, rfl, hok⟩ := h
  obtain rfl := (Prod.mk.inj (Except.ok.inj hok)).1
  exact (List.perm_insertionSort _ _).mem_iff

theorem Answers.candidate {id scope : String} {found : UpdateCandidate}
    (h : p.Answers (.getUpdateCandidate id scope) found) : p.candidate id scope = some found := by
  obtain ⟨s, now, after, rfl, hok⟩ := h
  exact (Store.perform_getUpdateCandidate.mp hok).1

theorem Answers.due {now : Time} {rows : List Schedule} (h : p.Answers (.dueSchedules now) rows) :
    ∀ sc ∈ rows, sc ∈ p.schedules ∧ Store.isDue now sc = true := by
  obtain ⟨s, clock, after, rfl, hok⟩ := h
  obtain rfl := (Prod.mk.inj (Except.ok.inj hok)).1
  exact fun sc hsc => Store.mem_dueSchedules.mp hsc

theorem Answers.schedules {rows : List Schedule} (h : p.Answers .listSchedules rows) (sc : Schedule) :
    sc ∈ rows ↔ sc ∈ p.schedules := by
  obtain ⟨s, now, after, rfl, hok⟩ := h
  obtain rfl := (Prod.mk.inj (Except.ok.inj hok)).1
  exact Store.mem_listSchedules

end Plans

namespace Scheduler

/-- Whoever reads the tables at rest resolves a schedule to its targets. -/
theorem resolveTargets_obeys {κ : Type} {M : Machine Calls World} {C : Contract Calls World κ} {k : κ}
    {p : Plans} (hallowed : ∀ op, Reads op → C.allowed k op)
    (hnext : ∀ w ctx call reply, C.next k ⟨w, .store ctx call, reply⟩ = k)
    (hanswers : ∀ w ctx call reply, C.expects k ⟨w, .store ctx call, reply⟩ →
      ∀ result, reply = .ok result → p.Answers call result) (ctx : Context) (sc : Schedule) :
    M.obeys C (resolveTargets ctx sc) k fun k' found => k' = k ∧
      ∀ targets, found = .ok targets → ∀ rec, rec ∈ targets ↔ p.Targets sc rec := by
  unfold resolveTargets Monitor.getContainerByName Plans.Targets
  split
  · refine ⟨hallowed _ trivial, fun w found w' _ hfound => ?_⟩
    rw [hnext]
    cases found with
    | error err => exact ⟨rfl, fun _ h => by cases h⟩
    | ok id =>
      refine ⟨hallowed _ trivial, fun w' row w'' _ hrow => ?_⟩
      rw [hnext]
      cases row with
      | error err => exact ⟨rfl, fun _ h => by cases h⟩
      | ok found =>
        refine ⟨rfl, fun targets h rec => ?_⟩
        obtain rfl := Except.ok.inj h
        obtain ⟨named, hnamed, hid⟩ := (hanswers _ _ _ _ hfound _ rfl).found
        have hrow := (hanswers _ _ _ _ hrow _ rfl).container
        constructor
        · intro hrec
          obtain rfl := List.mem_singleton.mp hrec
          exact ⟨named, hnamed, hid ▸ hrow⟩
        · rintro ⟨row, hother, hfetched⟩
          obtain rfl := Option.some.inj (hnamed.symm.trans hother)
          rw [hid, hrow] at hfetched
          exact List.mem_singleton.mpr (Option.some.inj hfetched).symm
  · refine ⟨hallowed _ trivial, fun w found w' _ hfound => ?_⟩
    rw [hnext]
    cases found with
    | error err => exact ⟨rfl, fun _ h => by cases h⟩
    | ok all =>
      refine ⟨rfl, fun targets h rec => ?_⟩
      obtain rfl := Except.ok.inj h
      rw [List.mem_filter, (hanswers _ _ _ _ hfound _ rfl).containers]
      simp

end Scheduler
end Doupro
