import Doupro.Api.Schedules
import Doupro.System.Crowd

/-!
# One-off schedules of a whole stack

`POST schedules` stores one row for each member of the stack, one after another and with no
transaction around them.
-/

namespace Doupro.Api

open Go Interaction

/-- The schedules and the tracked containers. -/
def books (s : Store) : List Schedule × List ContainerRecord := (s.schedules, s.containers)

/-- The request among others, which do not write to `schedules` or `containers` meanwhile. -/
abbrev bookkeeping : Machine Calls World := crowd books

/-- Whether a call stored the schedule it was to store. -/
def storing : Event Calls World → Option Bool
  | ⟨_, .store _ (.createSchedule _), .ok _⟩ => some true
  | ⟨_, .store _ (.createSchedule _), .error _⟩ => some false
  | _ => none

/-- A call that leaves the books as they are. -/
def Spares (call : Call) : Prop :=
  call.Keeps books ∧ ∀ ctx sc, call ≠ .store ctx (.createSchedule sc)

section Runs

variable {α : Type} {w w' : World} {trace : Trace Calls World}

theorem storing_spares {e : Event Calls World} (h : Spares e.op) : storing e = none := by
  obtain ⟨met, op, reply⟩ := e
  unfold storing
  split
  · next heq =>
    obtain ⟨-, rfl, -⟩ := Event.mk.inj heq
    exact absurd rfl (h.2 _ _)
  · next heq =>
    obtain ⟨-, rfl, -⟩ := Event.mk.inj heq
    exact absurd rfl (h.2 _ _)
  · rfl

theorem spares_runs {p : Go α} (hp : p.Uses Spares) {a : α}
    (hrun : bookkeeping.Runs p w trace a w') :
    books w'.store = books w.store ∧ trace.filterMap storing = [] := by
  have hcalls := Machine.runs_uses hp hrun
  refine ⟨Machine.path_invariant (M := bookkeeping) (I := fun v => books v.store = books w.store)
    (P := fun e => Spares e.op) (fun _ _ hI hrely => hrely.store.trans hI)
    (fun _ _ _ _ hspares hI hstep => (step_keeps hspares.1 hstep).trans hI) (Machine.runs_path hrun)
    hcalls rfl, List.filterMap_eq_nil_iff.mpr fun e he => storing_spares (hcalls e he)⟩

theorem pinImage_spares (ctx : Context) (image : String) : (pinImage ctx image).Uses Spares := by
  unfold pinImage
  split
  · exact Program.uses_pure _
  · refine Program.uses_request_bind ⟨trivial, by simp⟩ fun reply => ?_
    cases reply with
    | error err => exact Program.uses_pure _
    | ok digest => exact Program.uses_pure _

/-- Storing a schedule adds its row, or fails. -/
theorem createSchedule_runs {ctx : Context} {sc : Schedule} {f : Except GoError Nat → Go α} {a : α}
    (hrun : bookkeeping.Runs (store ctx (.createSchedule sc) >>= f) w trace a w') :
    (∃ err rest w₁, bookkeeping.Runs (f (.error err)) w₁ rest a w' ∧ books w₁.store = books w.store ∧
      trace.filterMap storing = false :: rest.filterMap storing) ∨
    ∃ id rest w₁, bookkeeping.Runs (f (.ok id)) w₁ rest a w' ∧
      w₁.store.schedules = w.store.schedules ++ [{ sc with id, lastRunAt := none }] ∧
      w₁.store.containers = w.store.containers ∧
      trace.filterMap storing = true :: rest.filterMap storing := by
  obtain ⟨w₀, reply, w₁, rest, hrely, hstep, rfl, hrest⟩ := Machine.runs_request_bind.mp hrun
  have hbooks := hrely.store
  have hstep : openSystem.step w₀ (.store ctx (.createSchedule sc)) reply w₁ := hstep
  rcases step_store hstep with ⟨err, rfl, rfl⟩ | ⟨result, s, -, hperform, rfl, rfl⟩
  · exact .inl ⟨err, rest, _, hrest, hbooks, rfl⟩
  · obtain ⟨rfl, rfl⟩ := Prod.mk.inj (Except.ok.inj hperform)
    obtain ⟨hschedules, hcontainers⟩ := Prod.mk.inj hbooks
    refine .inr ⟨_, rest, _, hrest, ?_, hcontainers, rfl⟩
    rw [← hschedules]
    rfl

/-- The members of a stack. -/
def members (stack : String) (recs : List ContainerRecord) : List ContainerRecord :=
  recs.filter fun rec => rec.stack = stack

/-- The rows that were stored, one for each member up to a failure. -/
theorem createMembers_runs {ctx : Context} {stack : String} {notify : Bool} {runAt : Time}
    {recs : List ContainerRecord} {made : List Schedule} {out : Except Answer (List Schedule)}
    (hrun : bookkeeping.Runs (createMembers ctx stack notify runAt recs made) w trace out w') :
    ∃ rows, w'.store.schedules = w.store.schedules ++ rows ∧ (∀ sc ∈ rows, sc.kind = .once) ∧
      ((out = .ok (made ++ rows) ∧
          rows.map Schedule.containerName = (members stack recs).map ContainerRecord.name ∧
          trace.filterMap storing = List.replicate rows.length true) ∨
        (out = .error (internalError "failed to create schedule") ∧
          trace.filterMap storing = List.replicate rows.length true ++ [false])) := by
  induction recs generalizing w trace made with
  | nil =>
    obtain ⟨rfl, rfl, rfl⟩ := hrun
    exact ⟨[], by simp, by simp, .inl ⟨by simp, rfl, rfl⟩⟩
  | cons rec rest ih =>
    unfold createMembers at hrun
    split at hrun
    · next hother =>
      have hmembers : members stack (rec :: rest) = members stack rest :=
        List.filter_cons_of_neg (by simpa using hother)
      rw [hmembers]
      exact ih hrun
    · next hmember =>
      have hmembers : members stack (rec :: rest) = rec :: members stack rest :=
        List.filter_cons_of_pos (by simpa using hmember)
      obtain ⟨first, pinned, w₁, later, hpin, hlater, rfl⟩ := Machine.runs_bind.mp hrun
      obtain ⟨hbooks, hquiet⟩ := spares_runs (pinImage_spares ctx _) hpin
      obtain ⟨hschedules, -⟩ := Prod.mk.inj hbooks
      rw [List.filterMap_append, hquiet, List.nil_append]
      rcases createSchedule_runs hlater with
        ⟨err, last, w₂, ⟨rfl, rfl, rfl⟩, hsame, hstored⟩ | ⟨id, last, w₂, hlast, hadded, -, hstored⟩
      · refine ⟨[], ?_, by simp, .inr ⟨rfl, hstored⟩⟩
        rw [List.append_nil, ← hschedules]
        exact (Prod.mk.inj hsame).1
      · obtain ⟨rows, hrows, honce, hends⟩ := ih hlast
        refine ⟨{ memberSchedule notify runAt rec pinned with id } :: rows, ?_, List.forall_mem_cons.mpr ⟨rfl, honce⟩, ?_⟩
        · rw [hrows, hadded, hschedules, List.append_assoc]
          rfl
        · rw [hstored, hmembers, List.length_cons, List.replicate_succ, List.map_cons]
          rcases hends with ⟨rfl, hnames, hrest⟩ | ⟨rfl, hrest⟩
          · refine .inl ⟨?_, by rw [List.map_cons, hnames]; rfl, by rw [hrest]⟩
            rw [List.append_assoc]
            rfl
          · exact .inr ⟨rfl, by rw [hrest]; rfl⟩

/-- A run that stores nothing and is refused, one that ends at a member whose schedule could not be
stored, or one that reports a row for every member. -/
theorem createStackSchedules_runs {ctx : Context} {req : ScheduleRequest} {notify : Bool} {runAt : Time}
    {answer : Answer} (hrun : bookkeeping.Runs (createStackSchedules ctx req notify runAt) w trace answer w') :
    ∃ rows, w'.store.schedules = w.store.schedules ++ rows ∧
      (((∃ status code message, answer = .refused status code message) ∧
          ((rows = [] ∧ trace.filterMap storing = []) ∨
            trace.filterMap storing = List.replicate rows.length true ++ [false])) ∨
        (answer = .created rows ∧ (∀ sc ∈ rows, sc.kind = .once) ∧ rows.map Schedule.containerName =
            (members req.stack w.store.listContainers).map ContainerRecord.name ∧
          trace.filterMap storing = List.replicate rows.length true)) := by
  obtain ⟨w₀, reply, w₁, rest, hrely, hstep, rfl, hrest⟩ := Machine.runs_request_bind.mp hrun
  obtain ⟨hschedules, hcontainers⟩ := Prod.mk.inj hrely.store
  have hstep : openSystem.step w₀ (.store ctx .listContainers) reply w₁ := hstep
  rcases step_store hstep with ⟨err, rfl, rfl⟩ | ⟨result, s, -, hperform, rfl, rfl⟩
  · obtain ⟨rfl, rfl, rfl⟩ := hrest
    exact ⟨[], by rw [hschedules, List.append_nil], .inl ⟨⟨_, _, _, rfl⟩, .inl ⟨rfl, rfl⟩⟩⟩
  obtain ⟨rfl, rfl⟩ := Prod.mk.inj (Except.ok.inj hperform)
  have hlisted : w₀.store.listContainers = w.store.listContainers := by
    unfold Store.listContainers
    rw [hcontainers]
  obtain ⟨first, created, w₂, last, hcreate, hlast, rfl⟩ := Machine.runs_bind.mp hrest
  obtain ⟨rows, hrows, honce, hends⟩ := createMembers_runs hcreate
  have hfirst : w₂.store.schedules = w.store.schedules ++ rows := by
    rw [hrows, ← hschedules]
  rw [List.filterMap_cons_none rfl, List.filterMap_append]
  rcases hends with ⟨rfl, hnames, hstored⟩ | ⟨rfl, hstored⟩
  · rw [List.nil_append] at hlast
    dsimp only at hlast
    rw [hlisted] at hnames
    split at hlast
    · next hnone =>
      obtain ⟨rfl, rfl, rfl⟩ := hlast
      refine ⟨rows, hfirst, .inl ⟨⟨_, _, _, rfl⟩, .inl ⟨hnone, ?_⟩⟩⟩
      rw [hstored, hnone]
      rfl
    · obtain ⟨hanswer, hsame, hquiet⟩ : answer = .created rows ∧ books w'.store = books w₂.store ∧
          last.filterMap storing = [] := by
        by_cases hnotify : notify = true
        · rw [if_pos hnotify] at hlast
          obtain ⟨w₃, _, w₄, tail, hrely', hstep', rfl, rfl, rfl, rfl⟩ :=
            Machine.runs_request_bind.mp hlast
          exact ⟨rfl, (step_keeps (by trivial) hstep').trans hrely'.store, rfl⟩
        · rw [if_neg hnotify] at hlast
          obtain ⟨rfl, rfl, rfl⟩ := hlast
          exact ⟨rfl, rfl, rfl⟩
      refine ⟨rows, (Prod.mk.inj hsame).1.trans hfirst, .inr ⟨hanswer, honce, hnames, ?_⟩⟩
      rw [hstored, hquiet, List.append_nil]
  · obtain ⟨rfl, rfl, rfl⟩ := hlast
    refine ⟨rows, hfirst, .inl ⟨⟨_, _, _, rfl⟩, .inr ?_⟩⟩
    rw [hstored, List.filterMap_nil, List.append_nil]

theorem parseRunAt_runs {parsers : Parsers} {req : ScheduleRequest} {out : Except Answer Time}
    (hrun : bookkeeping.Runs (parseRunAt parsers req) w trace out w') :
    (books w'.store = books w.store ∧ trace.filterMap storing = []) ∧
      ∀ answer, out = .error answer → ∃ status code message, answer = .refused status code message := by
  have hspares : (parseRunAt parsers req).Uses Spares := by
    unfold parseRunAt
    split
    · exact Program.uses_pure _
    split
    · exact Program.uses_pure _
    · refine Program.uses_request_bind ⟨trivial, by simp⟩ fun reply => ?_
      split
      · exact Program.uses_pure _
      · exact Program.uses_pure _
  refine ⟨spares_runs hspares hrun, fun answer hanswer => ?_⟩
  unfold parseRunAt at hrun
  split at hrun
  · exact ⟨_, _, _, (Except.error.inj (hanswer.symm.trans hrun.2.1))⟩
  split at hrun
  · exact ⟨_, _, _, (Except.error.inj (hanswer.symm.trans hrun.2.1))⟩
  · obtain ⟨_, _, _, _, -, -, rfl, hrest⟩ := Machine.runs_request_bind.mp hrun
    split at hrest
    · exact ⟨_, _, _, (Except.error.inj (hanswer.symm.trans hrest.2.1))⟩
    · cases hanswer.symm.trans hrest.2.1

/-- A request for a whole stack stores nothing and is refused, or goes on to its members. -/
theorem handleCreateSchedule_runs {parsers : Parsers} {ctx : Context} {req : ScheduleRequest}
    (htype : req.type = "once") (hstack : req.stack ≠ "") {answer : Answer}
    (hrun : bookkeeping.Runs (handleCreateSchedule parsers ctx (some req)) w trace answer w') :
    ((∃ status code message, answer = .refused status code message) ∧ books w'.store = books w.store ∧
      trace.filterMap storing = []) ∨
    ∃ notify runAt w₁ rest, books w₁.store = books w.store ∧
      trace.filterMap storing = rest.filterMap storing ∧
      bookkeeping.Runs (createStackSchedules ctx req notify runAt) w₁ rest answer w' := by
  unfold handleCreateSchedule at hrun
  dsimp only at hrun
  split at hrun
  · obtain ⟨rfl, rfl, rfl⟩ := hrun
    exact .inl ⟨⟨_, _, _, rfl⟩, rfl, rfl⟩
  obtain ⟨first, parsed, w₁, rest, hparse, hrest, rfl⟩ := Machine.runs_bind.mp hrun
  obtain ⟨⟨hbooks, hquiet⟩, hrefused⟩ := parseRunAt_runs hparse
  rw [List.filterMap_append, hquiet, List.nil_append]
  cases parsed with
  | error refused =>
    obtain ⟨rfl, rfl, rfl⟩ := hrest
    exact .inl ⟨hrefused _ rfl, hbooks, rfl⟩
  | ok runAt =>
    dsimp only at hrest
    rw [if_pos hstack] at hrest
    exact .inr ⟨_, runAt, w₁, rest, hbooks, rfl, hrest⟩

end Runs

/-- An error has added no row, and a success one for every member of the stack. -/
def AllOrNothing (stack : String) (start final : Store) : Answer → Prop
  | .created made => final.schedules = start.schedules ++ made ∧ (∀ sc ∈ made, sc.kind = .once) ∧
    made.map Schedule.containerName = (members stack start.listContainers).map ContainerRecord.name
  | .refused _ _ _ => final.schedules = start.schedules
  | _ => False

/-- A schedule of the request was stored, and another could not be. -/
def Interrupted (trace : Trace Calls World) : Prop :=
  true ∈ trace.filterMap storing ∧ false ∈ trace.filterMap storing

/-- The schedules of a stack are made all or none exactly if no member's fails after another's was
stored. -/
theorem createSchedule_allOrNothing_iff {parsers : Parsers} {ctx : Context} {req : ScheduleRequest}
    (htype : req.type = "once") (hstack : req.stack ≠ "") {w w' : World} {trace : Trace Calls World}
    {answer : Answer}
    (hrun : bookkeeping.Runs (handleCreateSchedule parsers ctx (some req)) w trace answer w') :
    AllOrNothing req.stack w.store w'.store answer ↔ ¬ Interrupted trace := by
  unfold Interrupted
  rcases handleCreateSchedule_runs htype hstack hrun with
    ⟨⟨status, code, message, rfl⟩, hbooks, hquiet⟩ | ⟨notify, runAt, w₁, rest, hbooks, hsame, hstacked⟩
  · rw [hquiet]
    exact iff_of_true (Prod.mk.inj hbooks).1 (by simp)
  obtain ⟨hschedules, hcontainers⟩ := Prod.mk.inj hbooks
  have hlisted : w₁.store.listContainers = w.store.listContainers := by
    unfold Store.listContainers
    rw [hcontainers]
  obtain ⟨rows, hrows, hends⟩ := createStackSchedules_runs hstacked
  rw [hschedules] at hrows
  rw [hlisted] at hends
  rw [hsame]
  rcases hends with ⟨⟨status, code, message, rfl⟩, ⟨rfl, hstored⟩ | hstored⟩ |
    ⟨rfl, honce, hnames, hstored⟩
  · rw [hstored]
    exact iff_of_true (by rw [AllOrNothing, hrows, List.append_nil]) (by simp)
  · rw [hstored, AllOrNothing, hrows]
    simp
  · rw [hstored]
    exact iff_of_true ⟨hrows, honce, hnames⟩ (by simp)

/-! ### A request that is cut off between two members -/

/-- A stack of two containers. -/
def stackWorld : World :=
  { webWorld with
    store := {
      containers := [
        { id := "c0", name := "db", stack := "app", state := "running", currentImage := "db:1" },
        { id := "c1", name := "web", stack := "app", state := "running", currentImage := "web:1" }] } }

def stackRequest : ScheduleRequest where
  type := "once"
  stack := "app"
  runAt := "1970-01-01T01:00:00Z"

def oneInstant : Parsers where
  rfc3339 text := if text = "1970-01-01T01:00:00Z" then some (60 * minute) else none
  cron _ := .error "empty spec string"

/-- The second row cannot be stored. -/
def cutOff : Played Answer :=
  (handleCreateSchedule oneInstant .background (some stackRequest)).play stackWorld
    (script [(5, { choice := { fault := some (.external "database is locked") } })])

theorem cutOff_runs : bookkeeping.Runs (handleCreateSchedule oneInstant .background (some stackRequest))
    stackWorld cutOff.trace cutOff.value cutOff.world :=
  crowd_runs .refl (play_runs _ _ _)

theorem cutOff_keeps_first : ¬ ∀ (parsers : Parsers) (ctx : Context) (req : ScheduleRequest),
    req.type = "once" → req.stack ≠ "" → ∀ w w' trace answer,
      bookkeeping.Runs (handleCreateSchedule parsers ctx (some req)) w trace answer w' →
      AllOrNothing req.stack w.store w'.store answer := by
  intro h
  have hrows := h _ _ _ rfl (by decide) _ _ _ _ cutOff_runs
  have hanswer : cutOff.value = internalError "failed to create schedule" := by
    decide +kernel
  rw [hanswer] at hrows
  have hlength : cutOff.world.store.schedules.length = 1 := by decide +kernel
  rw [show cutOff.world.store.schedules = stackWorld.store.schedules from hrows] at hlength
  cases hlength

theorem createSchedule_allOrNothing_iff_cutOff :
    AllOrNothing "app" stackWorld.store cutOff.world.store cutOff.value ↔ ¬ Interrupted cutOff.trace :=
  createSchedule_allOrNothing_iff rfl (by decide) cutOff_runs

end Doupro.Api
