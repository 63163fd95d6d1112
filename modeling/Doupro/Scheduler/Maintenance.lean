import Doupro.CrashLoop.TriggeredWatch
import Doupro.Scheduler.Books
import Doupro.System.Crowd
import Doupro.Updater.ClosedGate

/-!
# Maintenance consumes no work

The rows of the schedules a tick runs, whatever others do in between. The start of a
self-update may close the gate between any two updates of the tick.
-/

namespace Doupro

open Go Interaction

namespace Scheduler

/-! ### The rows of the schedules -/

/-- The scheduler among others who do whatever they do, but edit no schedule. -/
def ticking : Machine Services World := (crowd Store.schedules).layered Service.run

theorem spares_of_inUpdate {call : Call} (h : Updater.InUpdate call) : call.Keeps Store.schedules := by
  cases call with
  | store ctx call =>
    refine fun s now result s' hperform => Store.perform_schedules ?_ hperform
    cases call <;> first | exact h.elim | exact id
  | _ => trivial

theorem update_spares (req : Updater.UpdateRequest) :
    (Updater.update req).Uses (Call.Keeps Store.schedules) := by
  refine Program.uses_bind ((Program.uses_request _).mpr ?_) fun known => ?_
  · exact fun s now result s' => Store.perform_schedules id
  · exact Updater.withOperation_uses (fun _ _ => trivial) (fun _ _ => trivial) (fun _ => trivial) _ _ _ _
      (Program.uses_mono (fun _ => spares_of_inUpdate) (Updater.updateGuarded_calls req))

/-- An update that was refused, for the schedule with an actor ID. -/
def Denied (actorID : String) : Event Services World → Prop
  | ⟨_, .update req, reply⟩ => refused reply = true ∧ req.requester.actorID = actorID
  | _ => False

/-- The schedules of which no row was written are as they were. -/
structure Kept (kinds : Nat → ScheduleKind) (start : List Schedule) (w : World) (k : Books)
    (past : List (Unit × Event Services World)) : Prop where
  keyed : Keyed kinds w.store.schedules
  spared : ∀ sc ∈ start, actorIDOf sc.id ∉ k.written → sc ∈ w.store.schedules
  apart : ∀ actorID ∈ k.refused, actorID ∉ k.written
  noted : ∀ entry ∈ past, ∀ actorID, Denied actorID entry.2 → actorID ∈ k.refused

section Rows

variable {kinds : Nat → ScheduleKind} {start rows : List Schedule} {w w₁ : World} {k : Books}
  {past : List (Unit × Event Services World)}

theorem Keyed.perm {rows' : List Schedule} (h : Keyed kinds rows) (hperm : rows'.Perm rows) :
    Keyed kinds rows' where
  distinct := (hperm.map _).nodup_iff.mpr h.distinct
  kind sc hsc := h.kind sc (hperm.mem_iff.mp hsc)

theorem Keyed.dueSchedules {s : Store} (h : Keyed kinds s.schedules) (now : Time) :
    Keyed kinds (s.dueSchedules now) := by
  have hdue : Keyed kinds (s.schedules.filter (Store.isDue now)) :=
    ⟨h.distinct.sublist (List.filter_sublist.map _), fun sc hsc => h.kind sc (List.mem_filter.mp hsc).1⟩
  exact hdue.perm (List.perm_insertionSort _ _)

theorem Keyed.listSchedules {s : Store} (h : Keyed kinds s.schedules) :
    Keyed kinds s.listSchedules := h.perm (List.perm_insertionSort _ _)

theorem Keyed.updateSchedule {s : Store} (h : Keyed kinds s.schedules) {id : Nat}
    {f : Schedule → Schedule} (hid : ∀ sc, (f sc).id = sc.id) (hkind : ∀ sc, (f sc).kind = sc.kind) :
    Keyed kinds (s.updateSchedule id f).schedules where
  distinct := by
    have hids : (s.updateSchedule id f).schedules.map Schedule.id = s.schedules.map Schedule.id :=
      Table.map_updateWhere _ hid s.schedules
    rw [hids]
    exact h.distinct
  kind sc hsc := by
    obtain ⟨old, hold, rfl⟩ := Table.mem_updateWhere.mp hsc
    split
    · rw [hid, hkind]
      exact h.kind old hold
    · exact h.kind old hold

/-- Steps that write no schedule and refuse no update. -/
theorem Kept.stays (h : Kept kinds start w k past) {e : Event Services World}
    (hrows : w₁.store.schedules = w.store.schedules) (hnone : ∀ actorID, ¬ Denied actorID e) :
    Kept kinds start w₁ k (past ++ [((), e)]) where
  keyed := hrows ▸ h.keyed
  spared := hrows ▸ h.spared
  apart := h.apart
  noted entry hentry actorID hdenied := by
    rcases List.mem_append.mp hentry with hold | hnew
    · exact h.noted entry hold actorID hdenied
    · obtain rfl := List.mem_singleton.mp hnew
      exact absurd hdenied (hnone actorID)

theorem Kept.writes (h : Kept kinds start w k past) {e : Event Services World} {id : Nat}
    {f : Schedule → Schedule} (hid : ∀ sc, (f sc).id = sc.id) (hkind : ∀ sc, (f sc).kind = sc.kind)
    (hrows : w₁.store.schedules = w.store.schedules ∨
      w₁.store.schedules = (w.store.updateSchedule id f).schedules)
    (hallowed : actorIDOf id ∉ k.refused) (hnone : ∀ actorID, ¬ Denied actorID e) :
    Kept kinds start w₁ { k with written := actorIDOf id :: k.written } (past ++ [((), e)]) := by
  have hcalm : Kept kinds start w k (past ++ [((), e)]) := h.stays rfl hnone
  constructor
  · rcases hrows with hsame | hnew
    · exact hsame ▸ h.keyed
    · exact hnew ▸ h.keyed.updateSchedule hid hkind
  · intro sc hsc hwritten
    obtain ⟨hne, hwritten⟩ := not_or.mp (List.mem_cons.not.mp hwritten)
    rcases hrows with hsame | hnew
    · exact hsame ▸ h.spared sc hsc hwritten
    · rw [hnew]
      exact Store.mem_updateSchedule_ne (h.spared sc hsc hwritten) fun heq => hne (heq ▸ rfl)
  · intro actorID hrefused hwritten
    rcases List.mem_cons.mp hwritten with rfl | hold
    · exact hallowed hrefused
    · exact h.apart actorID hrefused hold
  · exact hcalm.noted

theorem Kept.refuses (h : Kept kinds start w k past) {req : Updater.UpdateRequest}
    {reply : Option GoError} (hrows : w₁.store.schedules = w.store.schedules)
    (hallowed : req.requester.actorID ∉ k.written) :
    Kept kinds start w₁ (k.after ⟨w, .update req, reply⟩) (past ++ [((), ⟨w, .update req, reply⟩)]) := by
  cases hreply : refused reply with
  | false =>
    have hafter : k.after ⟨w, .update req, reply⟩ = k := by simp [Books.after, hreply]
    rw [hafter]
    exact h.stays hrows fun actorID hdenied => by simp [Denied, hreply] at hdenied
  | true =>
    have hafter : k.after ⟨w, .update req, reply⟩ =
        { k with refused := req.requester.actorID :: k.refused } := by simp [Books.after, hreply]
    rw [hafter]
    refine ⟨hrows ▸ h.keyed, hrows ▸ h.spared, ?_, ?_⟩
    · exact List.forall_mem_cons.mpr ⟨hallowed, h.apart⟩
    · intro entry hentry actorID hdenied
      rcases List.mem_append.mp hentry with hold | hnew
      · exact List.mem_cons_of_mem _ (h.noted entry hold actorID hdenied)
      · obtain rfl := List.mem_singleton.mp hnew
        exact List.mem_cons.mpr (.inl hdenied.2.symm)

/-- A call of the scheduler itself: what happened before it, and the call. -/
theorem ticking_call {call : Call} {r : call.Reply} (h : ticking.step w (.call call) r w₁) :
    ∃ w₀, w₀.store.schedules = w.store.schedules ∧ openSystem.step w₀ call r w₁ := by
  obtain ⟨trace, w₀, _, w₁, _, hrely, hstep, -, -, rfl, rfl⟩ := h
  exact ⟨w₀, World.Bustles.store hrely, hstep⟩

theorem edit_rows {w₀ : World} {ctx : Context} {call : StoreCall} {r : Except GoError call.Result}
    {id : Nat} {f : Time → Schedule → Schedule} (hmet : w₀.store.schedules = w.store.schedules)
    (hperform : ∀ s now result s', Store.perform s now call = .ok (result, s') →
      s' = s.updateSchedule id (f now)) (h : openSystem.step w₀ (.store ctx call) r w₁) :
    w₁.store.schedules = w.store.schedules ∨
      w₁.store.schedules = (w.store.updateSchedule id (f w₀.clock)).schedules := by
  rcases step_store h with ⟨err, -, rfl⟩ | ⟨result, store, -, hok, -, rfl⟩
  · exact .inl hmet
  · right
    rw [hperform _ _ _ _ hok]
    simp only [Store.updateSchedule, hmet]

theorem Kept.step (h : Kept kinds start w k past) {op : Service} {r : op.Reply}
    (hstep : ticking.step w op r w₁) (hallowed : (bookkeeping kinds).allowed k op) :
    (bookkeeping kinds).expects k ⟨w, op, r⟩ ∧
      Kept kinds start w₁ (k.after ⟨w, op, r⟩) (past ++ [((), ⟨w, op, r⟩)]) := by
  cases op with
  | rollback | startSelfUpdate => exact hallowed.elim
  | update req =>
    obtain ⟨trace, hrun⟩ := hstep
    exact ⟨trivial, h.refuses (crowd_keeps (update_spares req) hrun) hallowed⟩
  | call call =>
    obtain ⟨w₀, hmet, hcall⟩ := ticking_call hstep
    have hcalm : call.Keeps Store.schedules → ∀ e : Event Services World, (∀ actorID, ¬ Denied actorID e) →
        Kept kinds start w₁ k (past ++ [((), e)]) := fun hkeeps e hnone =>
      h.stays ((step_keeps hkeeps hcall).trans hmet) hnone
    cases call with
    | store ctx call =>
      cases call with
      | markScheduleRun scheduleID next =>
        have hperform : ∀ s now result s', Store.perform s now (.markScheduleRun scheduleID next) =
            .ok (result, s') → s' = s.markScheduleRun scheduleID next now :=
          fun s now result s' hok => (Prod.mk.inj (Except.ok.inj hok)).2.symm
        have hrows := edit_rows hmet hperform hcall
        refine ⟨trivial, h.writes ?_ ?_ hrows hallowed fun _ => id⟩ <;> exact fun _ => rfl
      | touchScheduleLastRun scheduleID =>
        have hperform : ∀ s now result s', Store.perform s now (.touchScheduleLastRun scheduleID) =
            .ok (result, s') → s' = s.touchScheduleLastRun scheduleID now :=
          fun s now result s' hok => (Prod.mk.inj (Except.ok.inj hok)).2.symm
        have hrows := edit_rows hmet hperform hcall
        refine ⟨trivial, h.writes ?_ ?_ hrows hallowed fun _ => id⟩ <;> exact fun _ => rfl
      | dueSchedules now =>
        refine ⟨fun rows hreply => ?_, hcalm (fun s now result s' => Store.perform_schedules id) _
          fun _ => id⟩
        rcases step_store hcall with ⟨err, rfl, -⟩ | ⟨result, store, -, hok, rfl, -⟩
        · cases hreply
        · obtain rfl := Except.ok.inj hreply
          obtain ⟨rfl, -⟩ := Prod.mk.inj (Except.ok.inj hok)
          exact Keyed.dueSchedules (hmet ▸ h.keyed) now
      | listSchedules =>
        refine ⟨fun rows hreply => ?_, hcalm (fun s now result s' => Store.perform_schedules id) _
          fun _ => id⟩
        rcases step_store hcall with ⟨err, rfl, -⟩ | ⟨result, store, -, hok, rfl, -⟩
        · cases hreply
        · obtain rfl := Except.ok.inj hreply
          obtain ⟨rfl, -⟩ := Prod.mk.inj (Except.ok.inj hok)
          exact Keyed.listSchedules (hmet ▸ h.keyed)
      | createSchedule | setScheduleEnabled | deleteSchedule => exact hallowed.elim
      | _ => exact ⟨trivial, hcalm (fun s now result s' => Store.perform_schedules id) _ fun _ => id⟩
    | _ => exact ⟨trivial, hcalm trivial _ fun _ => id⟩

end Rows

/-- The kind of the row under an ID. -/
def kindsOf (rows : List Schedule) (id : Nat) : ScheduleKind :=
  ((Table.lookup Schedule.id id rows).map Schedule.kind).getD .once

theorem keyed_of_nodup {rows : List Schedule} (h : (rows.map Schedule.id).Nodup) :
    Keyed (kindsOf rows) rows := by
  refine ⟨h, fun sc hsc => ?_⟩
  unfold kindsOf
  cases hfound : Table.lookup Schedule.id sc.id rows with
  | none => exact absurd rfl (Table.lookup_eq_none.mp hfound sc hsc)
  | some other =>
    rw [List.inj_on_of_nodup_map h hsc (Table.lookup_mem hfound) (Table.lookup_key hfound).symm]
    rfl

theorem denied_of_refusedByGate {e : Event Services World} {req : Updater.UpdateRequest}
    (hop : e.op = .update req) (h : RefusedByGate (crowd Store.schedules) e) :
    Denied req.requester.actorID e := by
  obtain ⟨w, op, reply⟩ := e
  obtain rfl : op = .update req := hop
  obtain ⟨trace, w', hrun, hgate⟩ := h
  rw [Updater.update_refused (M := crowd Store.schedules) rfl hrun hgate]
  exact ⟨rfl, rfl⟩

/-- A schedule one of whose updates a tick got refused keeps its row. -/
theorem tick_spares (s : Scheduler) (ctx : Context) {pass : Daemon (Option Unit)}
    (hpass : pass = s.dueTick ctx ∨ pass = s.runRelativePolicies ctx) {w w' : World}
    {history : List (Unit × Event Services World)} {pool' : Unit → Daemon (Option Unit)}
    (hids : (w.store.schedules.map Schedule.id).Nodup)
    (hrun : ticking.PoolRuns (fun _ => pass) w history pool' w') {e : Event Services World}
    (he : ((), e) ∈ history) {req : Updater.UpdateRequest} (hop : e.op = .update req)
    (hrefused : RefusedByGate (crowd Store.schedules) e) {sc : Schedule}
    (hsc : sc ∈ w.store.schedules) (hactor : req.requester.actorID = actorIDOf sc.id) :
    sc ∈ w'.store.schedules := by
  have hobeys : ticking.obeys (bookkeeping (kindsOf w.store.schedules)) pass {} fun _ _ => True := by
    rcases hpass with rfl | rfl
    · exact s.dueTick_books ctx
    · refine s.runRelativePolicies_books ctx fun actorID hmentions => ?_
      rcases hmentions with h | h <;> cases h
  obtain ⟨k, hkept, -⟩ := Machine.PoolRuns.contracts (A := fun _ _ => True)
    (C := fun _ => bookkeeping (kindsOf w.store.schedules)) (Q := fun _ _ _ => True)
    (J := fun w' k past => Kept (kindsOf w.store.schedules) w.store.schedules w' (k ()) past)
    (fun {w₀ w₁ w₂ k past} i {op r} hJ hrely hstep _ hallowed => by
      obtain rfl : w₁ = w₀ := hrely
      rw [Function.update_self]
      exact hJ.step hstep hallowed)
    hrun (Machine.throughout_trivial [] history) (fun _ => hobeys)
    ⟨keyed_of_nodup hids, fun sc hsc _ => hsc, by simp, by simp⟩
  refine hkept.spared sc hsc (hkept.apart _ ?_)
  exact hkept.noted _ he _ (hactor ▸ denied_of_refusedByGate hop hrefused)

/-! ### A pass that is cut short -/

/-- Whether an update was refused; nothing may be called once one was. -/
def cutShort : Contract Services World Bool where
  allowed k _ := k = false
  expects _ _ := True
  next k e := match e with
    | ⟨_, .update _, reply⟩ => k || refused reply
    | _ => k

section CutShort

variable {M : Machine Services World} {α β : Type} {Q : Bool → α → Prop}

theorem go_bind (p : Go β) {f : β → Daemon α} (h : ∀ a, M.obeys cutShort (f a) false Q) :
    M.obeys cutShort (liftM p >>= f) false Q := by
  change M.obeys cutShort ((Daemon.ofGo p).bind f) false Q
  induction p with
  | ret a => exact h a
  | call op next ih => exact ⟨rfl, fun w r w' _ _ => ih r⟩

theorem cut_bind {req : Updater.UpdateRequest} {f : Option GoError → Daemon α}
    (hrefused : ∀ err, refused err = true → M.obeys cutShort (f err) true Q)
    (haccepted : ∀ err, refused err = false → M.obeys cutShort (f err) false Q) :
    M.obeys cutShort (Daemon.update req >>= f) false Q := by
  refine ⟨rfl, fun _ err _ _ _ => ?_⟩
  change M.obeys cutShort (f err) (refused err) Q
  cases herr : refused err with
  | true => exact hrefused err herr
  | false => exact haccepted err herr

theorem applyEach_cutShort (ctx : Context) (sc : Schedule) (delay : Duration)
    (targets : List ContainerRecord) (applied : Nat) :
    M.obeys cutShort (applyEach ctx sc delay targets applied) false
      fun k result => ∀ applied, result = some (applied, false) → k = false := by
  induction targets generalizing applied with
  | nil => exact fun _ _ => rfl
  | cons rec rest ih =>
    unfold applyEach
    split
    · exact ih applied
    refine go_bind _ fun candidate => ?_
    cases candidate with
    | error err => exact ih applied
    | ok candidate =>
      refine go_bind (waits delay candidate) fun waiting => ?_
      split
      · exact ih applied
      refine cut_bind (fun err herr => ?_) fun err herr => ?_
      · split
        · exact fun _ h => absurd h (by simp)
        · rw [if_pos herr]
          exact fun _ h => absurd h (by simp)
      · split
        · exact fun _ _ => rfl
        · rw [if_neg (by simp [herr])]
          refine go_bind _ fun _ => ?_
          split
          · exact go_bind _ fun _ => ih _
          · exact ih _

theorem applyToTargets_cutShort (ctx : Context) (sc : Schedule) (delay : Duration) :
    M.obeys cutShort (applyToTargets ctx sc delay) false
      fun k result => ∀ applied, result = some (applied, false) → k = false := by
  refine go_bind _ fun targets => ?_
  cases targets with
  | error err => exact go_bind _ fun _ _ _ => rfl
  | ok targets => exact applyEach_cutShort ctx sc delay targets 0

variable (s : Scheduler)

theorem runPolicies_cutShort (ctx : Context) (rows : List Schedule) :
    M.obeys cutShort (s.runPolicies ctx rows) false fun _ _ => True := by
  induction rows with
  | nil => trivial
  | cons sc rest ih =>
    unfold runPolicies
    split
    · exact ih
    refine go_bind _ fun interval => go_bind _ fun now => ?_
    split
    · exact ih
    cases delayOf sc with
    | none => exact ih
    | some delay =>
      refine Machine.obeys_bind.mpr (Machine.obeys_mono (applyToTargets_cutShort ctx sc delay) ?_)
      intro k result hopen
      rcases result with _ | ⟨applied, _ | _⟩
      · trivial
      · obtain rfl := hopen applied rfl
        dsimp only
        split
        · exact go_bind _ fun _ => ih
        · exact ih
      · trivial

theorem runRelativePolicies_cutShort (ctx : Context) :
    M.obeys cutShort (s.runRelativePolicies ctx) false fun _ _ => True := by
  refine go_bind _ fun active => ?_
  split
  · trivial
  refine go_bind _ fun rows => ?_
  cases rows with
  | error err => exact go_bind _ fun _ => trivial
  | ok rows => exact s.runPolicies_cutShort ctx rows

theorem closed_once_refused {k : Bool} {before : Trace Services World} {e : Event Services World}
    {actorID : String} (h : Denied actorID e) : cutShort.learned k (before ++ [e]) = true := by
  rw [Contract.learned, List.foldl_append]
  unfold Denied at h
  split at h
  · simp [cutShort, h.1]
  · exact h.elim

/-- A refusal ends a pass over the relative policies: nothing is called after it. -/
theorem relative_stops_refused (ctx : Context) {w w' : World}
    {history : List (Unit × Event Services World)} {pool' : Unit → Daemon (Option Unit)}
    (hrun : ticking.PoolRuns (fun _ => s.runRelativePolicies ctx) w history pool' w')
    {before after : List (Unit × Event Services World)} {e : Event Services World} {actorID : String}
    (hsplit : history = before ++ ((), e) :: after) (hdenied : Denied actorID e) : after = [] := by
  cases after with
  | nil => rfl
  | cons later after =>
    subst hsplit
    have hrespected := Machine.respected_of_obeys (s.runRelativePolicies_cutShort ctx)
      (hrun.admits ())
    have hshape : memberTrace () (before ++ ((), e) :: later :: after) =
        (memberTrace () before ++ [e]) ++ later.2 :: memberTrace () after := by
      simp [memberTrace]
    rw [hshape] at hrespected
    have hopen : cutShort.learned false (memberTrace () before ++ [e]) = false :=
      Contract.respected_append hrespected (Contract.expected_of_forall (fun _ _ _ => trivial) _)
    rw [closed_once_refused hdenied] at hopen
    cases hopen

end CutShort

/-- Whatever else goes on, the start of a self-update included: a schedule one of whose updates met
the closed gate keeps its row, a pass over the relative policies ends there, and a watch whose
rollback met the closed gate keeps its row. -/
theorem maintenance_consumes_nothing :
    (∀ (s : Scheduler) (ctx : Context) (pass : Daemon (Option Unit)),
      pass = s.dueTick ctx ∨ pass = s.runRelativePolicies ctx →
      ∀ (w w' : World) (history : List (Unit × Event Services World))
        (pool' : Unit → Daemon (Option Unit)), (w.store.schedules.map Schedule.id).Nodup →
      ticking.PoolRuns (fun _ => pass) w history pool' w' →
      ∀ (e : Event Services World) (req : Updater.UpdateRequest), ((), e) ∈ history →
        e.op = .update req → RefusedByGate (crowd Store.schedules) e →
        ∀ sc ∈ w.store.schedules, req.requester.actorID = actorIDOf sc.id →
          sc ∈ w'.store.schedules) ∧
    (∀ (s : Scheduler) (ctx : Context) (w w' : World)
      (before after : List (Unit × Event Services World)) (pool' : Unit → Daemon (Option Unit))
      (e : Event Services World),
      ticking.PoolRuns (fun _ => s.runRelativePolicies ctx) w (before ++ ((), e) :: after) pool' w' →
      RefusedByGate (crowd Store.schedules) e → after = []) ∧
    ∀ (watch : RollbackWatch) (w w' : World) (history : List (Unit × Event Calls World))
      (pool' : Unit → Go Unit),
      (crowd (watchRow watch.containerName)).PoolRuns (fun _ => Monitor.rollback watch) w history
        pool' w' →
      ∀ e, ((), e) ∈ history → MeetsGate e →
        w'.store.getRollbackWatch watch.containerName =
          w.store.getRollbackWatch watch.containerName := by
  refine ⟨?_, ?_, ?_⟩
  · intro s ctx pass hpass w w' history pool' hids hrun e req he hop hrefused sc hsc hactor
    exact tick_spares s ctx hpass hids hrun he hop hrefused hsc hactor
  · intro s ctx w w' before after pool' e hrun hrefused
    obtain ⟨req, hop⟩ : ∃ req, e.op = .update req := by
      unfold RefusedByGate at hrefused
      split at hrefused
      · exact ⟨_, rfl⟩
      · exact hrefused.elim
    exact relative_stops_refused s ctx hrun rfl (denied_of_refusedByGate hop hrefused)
  · intro watch w w' history pool' hrun e he hgate
    exact refusedRollback_spares hrun he hgate

/-! ### A gate that closes during a tick -/

/-- A one-off update of `webSpec` that is due. -/
def dueOnce : Schedule where
  id := 1
  kind := .once
  containerName := "web"
  pinnedImage := "web:2"
  nextRunAt := some 0

def dueWorld : World := { webWorld with store := { containers := [webRecord], schedules := [dueOnce] } }

theorem refusedByGate_played {w : World} {closing : Bool} {req : Updater.UpdateRequest}
    (h : ∃ e ∈ (Service.played w closing (.update req)).trace, MeetsGate e) :
    RefusedByGate (crowd Store.schedules)
      ⟨w, .update req, (Service.played w closing (.update req)).value⟩ :=
  ⟨_, _, Service.played_runs w closing (.update req), h⟩

/-- The gate closes when the update of the schedule is about to begin. -/
theorem maintenance_consumes_nothing_once : dueOnce ∈
    (Service.script (List.replicate 5 false ++ [true, false]) (plainScheduler.dueTick .background)
      dueWorld).2.2.store.schedules := by
  have hawaited : Service.awaited ((Service.script (List.replicate 5 false)
      (plainScheduler.dueTick .background) dueWorld).2.1 ()) =
      some (updateRequest .background dueOnce "c0" "web:2") := by decide +kernel
  exact maintenance_consumes_nothing.1 plainScheduler .background _ (.inl rfl) dueWorld _ _ _
    (by decide) (Service.script_runs _ _ _) _ _ (Service.mem_script _ [false] true hawaited)
    rfl (refusedByGate_played (by decide +kernel)) dueOnce (by decide) rfl

end Scheduler
end Doupro
