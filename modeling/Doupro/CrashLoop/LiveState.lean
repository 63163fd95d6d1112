import Doupro.CrashLoop.Monitor
import Doupro.System.Crowd
import Mathlib.Data.List.Induction

/-!
# The live state of a container

`Monitor.Run` handles the events of Docker one after another and stores the state each of them
stands for, without looking at the container. A container lives on between the events, and a stream
that is opened again tells of some of them a second time.
-/

namespace Doupro.Monitor

open Go Interaction

/-! ### The loop of the monitor -/

/-- The select on the stream, and after its end the one on the backoff. What the log says of a
stream that failed is left out. -/
def runLoop (ctx : Context) : (rounds : Nat) → (backoff : Duration) → Go Unit
  | 0, _ => return
  | rounds + 1, backoff => do
    match ← receive ctx with
    | none => return
    | some .expiryTick =>
      let _ ← reconcile ctx
      runLoop ctx rounds backoff
    | some (.event event) =>
      handleEvent ctx event
      runLoop ctx rounds backoff
    | some .streamEnded =>
      match ← sleepUntil ctx ((← now) + backoff) with
      | some _ => return
      | none =>
        let _ ← reconcile ctx
        runLoop ctx rounds (if backoff < 30 * second then backoff * 2 else backoff)

/-- `Monitor.Run`, for a number of rounds. -/
def run (ctx : Context) (rounds : Nat) : Go Unit := do
  recoverTriggered ctx
  let _ ← reconcile ctx
  runLoop ctx rounds second

/-! ### The life of a container -/

/-- A container that waits for its restart counts as exited. -/
inductive Phase where
  | running
  | paused
  | exited
  deriving DecidableEq

def Phase.text : Phase → String
  | .running => "running"
  | .paused => "paused"
  | .exited => "exited"

/-- What Docker logs of a container. -/
inductive Act where
  | start
  /-- The process has ended. -/
  | die
  /-- A request to stop the container is done; others may have started it again. -/
  | stop
  /-- A signal was sent. If it ends the process, an event of its own says so. -/
  | kill
  | pause
  | unpause
  /-- The kernel has killed a process of the container, not necessarily the first. -/
  | oom
  | other (action : String)
  deriving DecidableEq

def Act.action : Act → String
  | .start => "start"
  | .die => "die"
  | .stop => "stop"
  | .kill => "kill"
  | .pause => "pause"
  | .unpause => "unpause"
  | .oom => "oom"
  | .other action => action

/-- How the container is after an event, if the event can follow. -/
def Phase.next : Phase → Act → Option Phase
  | .exited, .start => some .running
  | .running, .die | .paused, .die => some .exited
  | .running, .pause => some .paused
  | .paused, .unpause => some .running
  | φ, .stop | φ, .kill | φ, .oom => some φ
  | φ, .other action =>
    if action ∈ ["start", "die", "stop", "kill", "pause", "unpause", "oom"] then none else some φ
  | _, _ => none

/-- An event of the log, and how the container was when it was logged. -/
structure Entry where
  act : Act
  after : Phase
  deriving DecidableEq

/-- The log follows the container. -/
def Lifecycle : Phase → List Entry → Prop
  | _, [] => True
  | φ, e :: rest => φ.next e.act = some e.after ∧ Lifecycle e.after rest

/-- How the container is after all of its log. -/
def present : Phase → List Entry → Phase
  | φ, [] => φ
  | _, e :: rest => present e.after rest

/-- The streams of a log: the position they have come to, and the events handled so far. A stream
that is opened again starts at a position before the one reached. -/
inductive Delivered (log : List Entry) : Nat → List Entry → Prop
  | opened : Delivered log 0 []
  | next {p : Nat} {es : List Entry} {e : Entry} (h : Delivered log p es) (he : log[p]? = some e) :
    Delivered log (p + 1) (es ++ [e])
  | reconnect {p q : Nat} {es : List Entry} (h : Delivered log p es) (hq : q ≤ p) : Delivered log q es

namespace Entry

/-- What the monitor takes an event for. -/
def told (e : Entry) : Option String := lifecycleState e.act.action

def tells (e : Entry) : Bool := e.told.isSome

/-- A signal, a killed process or an old stop, while the container is alive. -/
def Misleading (e : Entry) : Prop := (e.act = .stop ∨ e.act = .kill ∨ e.act = .oom) ∧ e.after ≠ .exited

instance (e : Entry) : Decidable e.Misleading := inferInstanceAs (Decidable (_ ∧ _))

end Entry

/-- The last event that tells a state. -/
def lastTelling (es : List Entry) : Option Entry := (es.filter Entry.tells).getLast?

section Lifecycle

variable {φ : Phase} {e : Entry} {log es : List Entry}

/-- An event that can follow tells no state and changes none, or tells the state it leaves, or tells
that a living container has exited. -/
theorem told_cases (h : φ.next e.act = some e.after) :
    (e.told = none ∧ e.after = φ) ∨ (e.told = some e.after.text ∧ ¬ e.Misleading) ∨
      (e.told = some Phase.exited.text ∧ e.Misleading) := by
  obtain ⟨act, after⟩ := e
  cases act with
  | other action =>
    have hnext : (if action ∈ ["start", "die", "stop", "kill", "pause", "unpause", "oom"] then none
        else some φ) = some after := by
      cases φ <;> exact h
    split at hnext
    · cases hnext
    · next hother =>
      obtain rfl := Option.some.inj hnext
      refine .inl ⟨?_, rfl⟩
      simp only [List.mem_cons, List.not_mem_nil, or_false, not_or] at hother
      obtain ⟨h₁, h₂, h₃, h₄, h₅, h₆, h₇⟩ := hother
      simp [Entry.told, Act.action, lifecycleState, List.lookup_cons, beq_eq_false_iff_ne.mpr h₁,
        beq_eq_false_iff_ne.mpr h₂, beq_eq_false_iff_ne.mpr h₃, beq_eq_false_iff_ne.mpr h₄,
        beq_eq_false_iff_ne.mpr h₅, beq_eq_false_iff_ne.mpr h₆, beq_eq_false_iff_ne.mpr h₇]
  | start | die | pause | unpause =>
    cases φ <;> cases h <;> exact .inr (.inl ⟨by decide, by decide⟩)
  | stop | kill | oom =>
    obtain rfl : φ = after := by cases φ <;> exact Option.some.inj h
    cases φ with
    | exited => exact .inr (.inl ⟨by decide, by decide⟩)
    | running | paused => exact .inr (.inr ⟨by decide, by decide⟩)

theorem lastTelling_cons : lastTelling (e :: log) =
    (lastTelling log).or (if e.tells then some e else none) := by
  unfold lastTelling
  by_cases htells : e.tells = true
  · rw [List.filter_cons_of_pos htells, List.getLast?_cons, if_pos htells]
    cases (log.filter Entry.tells).getLast? <;> rfl
  · rw [List.filter_cons_of_neg htells, if_neg htells, Option.or_none]

theorem lastTelling_append : lastTelling (es ++ [e]) =
    if e.tells then some e else lastTelling es := by
  unfold lastTelling
  by_cases htells : e.tells = true
  · rw [List.filter_append, List.filter_cons_of_pos htells, if_pos htells]
    simp
  · rw [List.filter_append, List.filter_cons_of_neg htells, if_neg htells]
    simp

/-- A container is how the last event that tells a state has left it. -/
theorem present_eq (h : Lifecycle φ log) : present φ log = ((lastTelling log).map Entry.after).getD φ := by
  induction log generalizing φ with
  | nil => rfl
  | cons e rest ih =>
    rw [present, ih h.2, lastTelling_cons]
    cases lastTelling rest with
    | some later => rfl
    | none =>
      rcases told_cases h.1 with ⟨hnone, hsame⟩ | ⟨htold, -⟩ | ⟨htold, -⟩
      · simp [Entry.tells, hnone, hsame]
      · simp [Entry.tells, htold]
      · simp [Entry.tells, htold]

theorem lifecycle_mem (h : Lifecycle φ log) (he : e ∈ log) : ∃ φ' : Phase, φ'.next e.act = some e.after := by
  induction log generalizing φ with
  | nil => cases he
  | cons first rest ih =>
    rcases List.mem_cons.mp he with rfl | he
    · exact ⟨φ, h.1⟩
    · exact ih h.2 he

end Lifecycle

/-! ### Streams -/

namespace Delivered

variable {log es : List Entry} {p : Nat}

theorem mem (h : Delivered log p es) : ∀ e ∈ es, e ∈ log := by
  induction h with
  | opened => simp
  | next h he ih =>
    intro e hmem
    rcases List.mem_append.mp hmem with hmem | hmem
    · exact ih e hmem
    · exact List.mem_singleton.mp hmem ▸ List.mem_of_getElem? he
  | reconnect h hq ih => exact ih

/-- The last event that told a state is the last one up to some position, at least the one reached. -/
theorem lastTelling_eq (h : Delivered log p es) : ∃ m, p ≤ m ∧ lastTelling es = lastTelling (log.take m) := by
  induction h with
  | opened => exact ⟨0, le_rfl, rfl⟩
  | @next p es e h he ih =>
    obtain ⟨m, hm, hlast⟩ := ih
    have htake : log.take (p + 1) = log.take p ++ [e] := by
      rw [List.take_add_one, he]
      rfl
    by_cases htells : e.tells = true
    · refine ⟨p + 1, le_rfl, ?_⟩
      rw [htake, lastTelling_append, lastTelling_append, if_pos htells, if_pos htells]
    · rcases hm.lt_or_eq with hlt | rfl
      · exact ⟨m, hlt, by rw [lastTelling_append, if_neg htells, hlast]⟩
      · refine ⟨p + 1, le_rfl, ?_⟩
        rw [htake, lastTelling_append, lastTelling_append, if_neg htells, if_neg htells, hlast]
  | reconnect h hq ih =>
    obtain ⟨m, hm, hlast⟩ := ih
    exact ⟨m, hq.trans hm, hlast⟩

/-- A stream that has caught up has told the last state of the log last, whatever it told before. -/
theorem caughtUp (h : Delivered log log.length es) : lastTelling es = lastTelling log := by
  obtain ⟨m, hm, hlast⟩ := h.lastTelling_eq
  rw [hlast, List.take_of_length_le hm]

end Delivered

/-! ### What the monitor stores -/

/-- The stored state of a tracked container. -/
def liveState (id : String) (s : Store) : Option String :=
  (Table.lookup ContainerRecord.id id s.containers).map ContainerRecord.state

/-- The events of a trace. -/
def received : Event Calls World → Option ContainerEvent
  | ⟨_, .receive _, some (.event event)⟩ => some event
  | _ => none

/-- Whether a call stored the state of a container it was to store. -/
def stored (id : String) : Event Calls World → Option Bool
  | ⟨_, .store _ (.setContainerState other _ _), .ok _⟩ => if other = id then some true else none
  | ⟨_, .store _ (.setContainerState other _ _), .error _⟩ => if other = id then some false else none
  | _ => none

/-- The state an event tells of a container. -/
def toldOf (id : String) (event : ContainerEvent) : Option String :=
  if event.containerID = id then lifecycleState event.action else none

/-- A state after a write that may have failed. -/
def keep (state : String) (write : String × Bool) : String := if write.2 then write.1 else state

/-- The calls of the monitor that are neither events nor states. -/
def Call.Watches : Call → Prop
  | .store _ (.expireRollbackWatches _) | .store _ (.listRollbackWatches _)
  | .store _ (.recordCrash _ _ _ _) | .store _ (.setRollbackWatchRestartCount _ _) => True
  | .store _ _ | .receive _ => False
  | _ => True

section Watches

theorem recordCrash_watches (ctx : Context) (name id : String) (eventNano : Int) (crashedAt : Time)
    (source : String) : (recordCrash ctx name id eventNano crashedAt source).Uses Call.Watches := by
  refine Program.uses_request_bind trivial fun reply => ?_
  cases reply with
  | error err => exact Program.uses_ite trivial (Program.uses_request_bind trivial fun _ => trivial)
  | ok reply =>
    refine Program.uses_ite trivial ?_
    cases reply.watch with
    | none => trivial
    | some watch =>
      refine Program.uses_request_bind trivial fun _ => Program.uses_ite ?_ trivial
      exact Program.uses_request_bind trivial fun _ => Program.uses_request_bind trivial fun _ => trivial

theorem recordRestarts_watches (ctx : Context) (watch : RollbackWatch) (now : Time) (delta first : Nat) :
    (recordRestarts ctx watch now delta first).Uses Call.Watches := by
  induction delta generalizing first with
  | zero => trivial
  | succ delta ih => exact Program.uses_bind (recordCrash_watches _ _ _ _ _ _) fun _ => ih _

theorem reconcileWatches_watches (ctx : Context) (now : Time) (watches : List RollbackWatch) :
    (reconcileWatches ctx now watches).Uses Call.Watches := by
  induction watches with
  | nil => trivial
  | cons watch rest ih =>
    refine Program.uses_bind (Program.uses_request_bind trivial fun reply => ?_) fun _ => ih
    cases reply with
    | error err => trivial
    | ok info =>
      exact Program.uses_bind (recordRestarts_watches _ _ _ _ _) fun _ =>
        Program.uses_request_bind trivial fun _ => trivial

/-- What `reconcile` does with the list of watches. -/
theorem listed_watches {ctx : Context} {now : Time} {f : Except GoError (List RollbackWatch) → Go Time}
    (herror : ∀ err, f (.error err) = pure now) (hnil : f (.ok []) = pure now)
    (hcons : ∀ watch rest, f (.ok (watch :: rest)) = reconcileWatches ctx now (watch :: rest) >>= fun _ =>
      pure (sinceOf (watch.updateAppliedAt - second) (watch :: rest))) :
    (store ctx (.listRollbackWatches .active) >>= f).Uses Call.Watches := by
  refine Program.uses_request_bind trivial fun reply => ?_
  rcases reply with err | _ | ⟨watch, rest⟩
  · exact (herror err).symm ▸ trivial
  · exact hnil.symm ▸ trivial
  · rw [hcons]
    exact Program.uses_bind (reconcileWatches_watches _ _ _) fun _ => trivial

theorem reconcile_watches (ctx : Context) : (reconcile ctx).Uses Call.Watches := by
  refine Program.uses_request_bind trivial fun now => Program.uses_request_bind trivial fun reply => ?_
  cases reply with
  | error err => exact listed_watches (fun _ => rfl) rfl fun _ _ => rfl
  | ok expired =>
    simp only []
    split
    · exact Program.uses_request_bind trivial fun _ => listed_watches (fun _ => rfl) rfl fun _ _ => rfl
    · exact listed_watches (fun _ => rfl) rfl fun _ _ => rfl

theorem recoverTriggered_watches (ctx : Context) : (recoverTriggered ctx).Uses Call.Watches := by
  refine Program.uses_request_bind trivial fun reply => ?_
  cases reply with
  | error err => trivial
  | ok watches =>
    induction watches with
    | nil => trivial
    | cons watch rest ih =>
      refine Program.uses_bind (Program.uses_request_bind trivial fun _ =>
        Program.uses_request_bind trivial fun _ => trivial) fun _ => ih

/-- Statements on watches leave the containers alone. -/
theorem Call.Watches.keeps {call : Call} (h : Call.Watches call) (id : String) :
    call.Keeps (liveState id) := by
  cases call with
  | store ctx statement =>
    intro s now result s' hperform
    have hcontainers : s'.containers = s.containers := by
      cases statement with
      | expireRollbackWatches | listRollbackWatches | setRollbackWatchRestartCount =>
        obtain ⟨-, rfl⟩ := Prod.mk.inj (Except.ok.inj hperform)
        rfl
      | recordCrash name containerID eventNano crashedAt =>
        obtain ⟨watches, rfl⟩ := Store.perform_recordCrash_frame hperform
        rfl
      | _ => exact h.elim
    unfold liveState
    rw [hcontainers]
  | _ => trivial

end Watches

section Runs

variable {id : String} {w w' : World} {trace : Trace Calls World}

/-- A part of a run stores the states it was told, but for the writes that fail. -/
def Stores (id : String) (tells : List String) (w : World) (trace : Trace Calls World) (w' : World) : Prop :=
  ∃ writes : List (String × Bool), writes.map Prod.fst = tells ∧
    writes.map Prod.snd = trace.filterMap (stored id) ∧
    ∀ state, liveState id w.store = some state → liveState id w'.store = some (writes.foldl keep state)

theorem Stores.append {tells tells' : List String} {w₁ : World} {rest : Trace Calls World}
    (h : Stores id tells w trace w₁) (h' : Stores id tells' w₁ rest w') :
    Stores id (tells ++ tells') w (trace ++ rest) w' := by
  obtain ⟨writes, rfl, hstored, hstate⟩ := h
  obtain ⟨writes', rfl, hstored', hstate'⟩ := h'
  refine ⟨writes ++ writes', by simp, by simp [hstored, hstored'], fun state h => ?_⟩
  rw [List.foldl_append]
  exact hstate' _ (hstate state h)

theorem Stores.quiet (hstored : trace.filterMap (stored id) = [])
    (hstate : liveState id w'.store = liveState id w.store) : Stores id [] w trace w' :=
  ⟨[], rfl, by simp [hstored], fun _ h => hstate.trans h⟩

theorem received_watches {e : Event Calls World} (h : Call.Watches e.op) : received e = none := by
  obtain ⟨met, op, reply⟩ := e
  unfold received
  split
  · next heq =>
    obtain ⟨-, rfl, -⟩ := Event.mk.inj heq
    exact h.elim
  · rfl

theorem stored_watches {e : Event Calls World} (h : Call.Watches e.op) : stored id e = none := by
  obtain ⟨met, op, reply⟩ := e
  unfold stored
  split
  · next heq =>
    obtain ⟨-, rfl, -⟩ := Event.mk.inj heq
    exact h.elim
  · next heq =>
    obtain ⟨-, rfl, -⟩ := Event.mk.inj heq
    exact h.elim
  · rfl

theorem watches_runs {α : Type} {p : Go α} (hp : p.Uses Call.Watches) {a : α}
    (hrun : (crowd (liveState id)).Runs p w trace a w') :
    trace.filterMap received = [] ∧ Stores id [] w trace w' := by
  have hcalls := Machine.runs_uses hp hrun
  refine ⟨List.filterMap_eq_nil_iff.mpr fun e he => received_watches (hcalls e he), .quiet
    (List.filterMap_eq_nil_iff.mpr fun e he => stored_watches (hcalls e he))
    (crowd_keeps (Program.uses_mono (fun _ h => Call.Watches.keeps h id) hp) hrun)⟩

theorem liveState_setContainerState (s : Store) (id other state : String) :
    liveState id (s.setContainerState other state "") =
      if other = id then (liveState id s).map fun _ => state else liveState id s := by
  have hlookup := Table.lookup_updateWhere ContainerRecord.id (fun r => decide (r.id = other))
    (fun r : ContainerRecord => { r with state := state, status := if "" = "" then r.status else "" })
    (fun _ => rfl) id s.containers
  unfold liveState Store.setContainerState
  rw [hlookup]
  cases hrow : Table.lookup ContainerRecord.id id s.containers with
  | none => simp
  | some row =>
    have hid := Table.lookup_key hrow
    by_cases hother : other = id
    · simp [hid, hother]
    · simp [hid, hother, Ne.symm hother]

/-- The write of `syncState`. -/
theorem setContainerState_runs {ctx : Context} {other state : String} {f : Except GoError Unit → Go Unit}
    (hf : ∀ reply, (f reply).Uses Call.Watches) {a : Unit}
    (hrun : (crowd (liveState id)).Runs (store ctx (.setContainerState other state "") >>= f) w trace a w') :
    trace.filterMap received = [] ∧ Stores id (if other = id then [state] else []) w trace w' := by
  obtain ⟨w₀, reply, w₁, rest, hrely, hstep, rfl, hrest⟩ := Machine.runs_request_bind.mp hrun
  have hmet := World.Bustles.store hrely
  obtain ⟨hreceived, hquiet⟩ := watches_runs (hf reply) hrest
  refine ⟨hreceived, ?_⟩
  have hstep : openSystem.step w₀ (.store ctx (.setContainerState other state "")) reply w₁ := hstep
  have hwrite : Stores id (if other = id then [state] else []) w
      [⟨w₀, .store ctx (.setContainerState other state ""), reply⟩] w₁ := by
    rcases step_store hstep with ⟨err, rfl, rfl⟩ | ⟨result, s, -, hperform, rfl, rfl⟩
    · by_cases hother : other = id
      · refine ⟨[(state, false)], by simp [hother], by simp [stored, hother], fun old hold => ?_⟩
        rw [hmet, hold]
        rfl
      · rw [if_neg hother]
        exact .quiet (by simp [stored, hother]) hmet
    · obtain ⟨-, rfl⟩ := Prod.mk.inj (Except.ok.inj hperform)
      by_cases hother : other = id
      · refine ⟨[(state, true)], by simp [hother], by simp [stored, hother], fun old hold => ?_⟩
        rw [liveState_setContainerState, if_pos hother, hmet, hold]
        rfl
      · rw [if_neg hother]
        refine .quiet (by simp [stored, hother]) ?_
        rw [liveState_setContainerState, if_neg hother, hmet]
  have hall := hwrite.append hquiet
  rwa [List.append_nil] at hall

/-- `handleEvent` stores what the event tells, whatever it counts. -/
theorem handleEvent_runs (hid : id ≠ "") {ctx : Context} {event : ContainerEvent} {a : Unit}
    (hrun : (crowd (liveState id)).Runs (handleEvent ctx event) w trace a w') :
    trace.filterMap received = [] ∧ Stores id (toldOf id event).toList w trace w' := by
  obtain ⟨first, _, w₁, rest, hsync, hcount, rfl⟩ := Machine.runs_bind.mp hrun
  obtain ⟨hreceived, hquiet⟩ := watches_runs (by
    exact Program.uses_ite trivial (Program.uses_ite trivial (recordCrash_watches _ _ _ _ _ _))) hcount
  suffices h : first.filterMap received = [] ∧ Stores id (toldOf id event).toList w first w₁ by
    have hall := h.2.append hquiet
    rw [List.append_nil] at hall
    exact ⟨by rw [List.filterMap_append, h.1, hreceived]; rfl, hall⟩
  unfold syncState at hsync
  unfold toldOf
  cases htold : lifecycleState event.action with
  | none =>
    rw [htold] at hsync
    obtain ⟨rfl, rfl, rfl⟩ := hsync
    rw [ite_self]
    exact ⟨rfl, .quiet rfl rfl⟩
  | some state =>
    simp only [htold] at hsync
    split at hsync
    · next hblank =>
      obtain ⟨rfl, rfl, rfl⟩ := hsync
      rw [hblank, if_neg (Ne.symm hid)]
      exact ⟨rfl, .quiet rfl rfl⟩
    · obtain ⟨hsilent, hstores⟩ := setContainerState_runs (by
        intro reply
        cases reply with
        | error err => exact Program.uses_request_bind trivial fun _ => trivial
        | ok _ => trivial) hsync
      refine ⟨hsilent, ?_⟩
      split
      · next hsame => rwa [if_pos hsame] at hstores
      · next hother => rwa [if_neg hother] at hstores

/-- What a part of a run is told and stores. -/
def Follows (id : String) (w : World) (trace : Trace Calls World) (w' : World) : Prop :=
  Stores id ((trace.filterMap received).filterMap (toldOf id)) w trace w'

theorem Follows.append {w₁ : World} {rest : Trace Calls World} (h : Follows id w trace w₁)
    (h' : Follows id w₁ rest w') : Follows id w (trace ++ rest) w' := by
  unfold Follows
  rw [List.filterMap_append, List.filterMap_append]
  exact Stores.append h h'

theorem Follows.watches {α : Type} {p : Go α} (hp : p.Uses Call.Watches) {a : α}
    (hrun : (crowd (liveState id)).Runs p w trace a w') : Follows id w trace w' := by
  obtain ⟨hreceived, hstores⟩ := watches_runs hp hrun
  unfold Follows
  rwa [hreceived]

/-- A call that is neither an event nor a state, and what comes after it. -/
theorem Follows.call {α : Type} {op : Call} {f : op.Reply → Go α} {a : α}
    (hrun : (crowd (liveState id)).Runs (.request (S := Calls) op >>= f) w trace a w')
    (hop : Call.Watches op)
    (h : ∀ {w₁ rest} reply, (crowd (liveState id)).Runs (f reply) w₁ rest a w' → Follows id w₁ rest w') :
    Follows id w trace w' := by
  obtain ⟨w₀, reply, w₁, rest, hrely, hstep, rfl, hrest⟩ := Machine.runs_request_bind.mp hrun
  have hmet := World.Bustles.store hrely
  have hkept : liveState id w₁.store = liveState id w₀.store := step_keeps (hop.keeps id) hstep
  have hquiet : Stores id [] w [⟨w₀, op, reply⟩] w₁ :=
    .quiet (List.filterMap_cons_none (stored_watches hop)) (hkept.trans hmet)
  unfold Follows
  rw [List.filterMap_cons_none (received_watches hop)]
  exact hquiet.append (h reply hrest)

/-- A round of the loop that brings no event. -/
theorem Follows.received {ctx : Context} {w₀ : World} {reply : Option MonitorInput}
    {rest : Trace Calls World} (hmet : liveState id w₀.store = liveState id w.store)
    (hreply : Monitor.received ⟨w₀, .receive ctx, reply⟩ = none) (h : Follows id w₀ rest w') :
    Follows id w (⟨w₀, .receive ctx, reply⟩ :: rest) w' := by
  have hquiet : Stores id [] w [⟨w₀, .receive ctx, reply⟩] w₀ := .quiet rfl hmet
  unfold Follows
  rw [List.filterMap_cons_none hreply]
  exact hquiet.append h

theorem runLoop_runs (hid : id ≠ "") {ctx : Context} {rounds : Nat} {backoff : Duration} {a : Unit}
    (hrun : (crowd (liveState id)).Runs (runLoop ctx rounds backoff) w trace a w') :
    Follows id w trace w' := by
  induction rounds generalizing w trace backoff with
  | zero =>
    obtain ⟨rfl, rfl, rfl⟩ := hrun
    exact .quiet rfl rfl
  | succ rounds ih =>
    obtain ⟨w₀, reply, w₁, rest, hrely, hstep, rfl, hrest⟩ := Machine.runs_request_bind.mp hrun
    have hmet := World.Bustles.store hrely
    have hstep : openSystem.step w₀ (.receive ctx) reply w₁ := hstep
    obtain ⟨rfl, -⟩ := step_receive hstep
    rcases reply with _ | event | _ | _
    · obtain ⟨rfl, rfl, rfl⟩ := hrest
      exact .received hmet rfl (.quiet rfl rfl)
    · obtain ⟨first, _, w₂, last, hhandled, hlast, rfl⟩ := Machine.runs_bind.mp hrest
      obtain ⟨hsilent, hstores⟩ := handleEvent_runs hid hhandled
      have hquiet : Stores id [] w [⟨w₁, .receive ctx, some (.event event)⟩] w₁ := .quiet rfl hmet
      have hevent : Monitor.received ⟨w₁, .receive ctx, some (.event event)⟩ = some event := rfl
      unfold Follows
      rw [List.filterMap_cons_some hevent, List.filterMap_append, hsilent, List.nil_append]
      have hall := (hquiet.append hstores).append (ih hlast)
      cases htold : toldOf id event with
      | none =>
        rw [List.filterMap_cons_none htold]
        rw [htold] at hall
        exact hall
      | some state =>
        rw [List.filterMap_cons_some htold]
        rw [htold] at hall
        exact hall
    · obtain ⟨first, _, w₂, last, hchecked, hlast, rfl⟩ := Machine.runs_bind.mp hrest
      exact .received hmet rfl ((Follows.watches (reconcile_watches ctx) hchecked).append (ih hlast))
    · refine .received hmet rfl ?_
      refine Follows.call hrest trivial fun _ hslept => Follows.call hslept trivial fun woken hwoken => ?_
      cases woken with
      | some err =>
        obtain ⟨rfl, rfl, rfl⟩ := hwoken
        exact .quiet rfl rfl
      | none =>
        obtain ⟨first, _, w₂, last, hchecked, hlast, rfl⟩ := Machine.runs_bind.mp hwoken
        exact (Follows.watches (reconcile_watches ctx) hchecked).append (ih hlast)

/-- All of `Run` stores what the events told. -/
theorem run_runs (hid : id ≠ "") {ctx : Context} {rounds : Nat} {a : Unit}
    (hrun : (crowd (liveState id)).Runs (run ctx rounds) w trace a w') : Follows id w trace w' := by
  obtain ⟨first, _, w₁, rest, hrecovered, hrest, rfl⟩ := Machine.runs_bind.mp hrun
  obtain ⟨second, _, w₂, last, hchecked, hlast, rfl⟩ := Machine.runs_bind.mp hrest
  exact (Follows.watches (recoverTriggered_watches ctx) hrecovered).append
    ((Follows.watches (reconcile_watches ctx) hchecked).append (runLoop_runs hid hlast))

end Runs

/-! ### Right or wrong -/

/-- The events of a container in a trace are those of a stream of its log. -/
def StreamOf (id : String) (trace : Trace Calls World) (es : List Entry) : Prop :=
  ((trace.filterMap received).filter fun event => event.containerID = id).map ContainerEvent.action =
    es.map fun e => e.act.action

instance {id : String} {trace : Trace Calls World} {es : List Entry} : Decidable (StreamOf id trace es) :=
  inferInstanceAs (Decidable (_ = _))

/-- The last event whose state was stored. -/
def lastStored (es : List Entry) (oks : List Bool) : Option Entry :=
  (((es.filter Entry.tells).zip oks).filter Prod.snd).getLast?.map Prod.fst

/-- The stored state is right: if it stems from a misleading event, the container has exited since;
if it stems from another, the container is still as that event left it. -/
def Current (initial : String) (now : Phase) : Option Entry → Prop
  | none => initial = now.text
  | some e => if e.Misleading then now = .exited else now = e.after

section Streams

variable {id : String} {trace : Trace Calls World} {log es : List Entry} {φ : Phase}

theorem StreamOf.told (h : StreamOf id trace es) :
    (trace.filterMap received).filterMap (toldOf id) = es.filterMap Entry.told := by
  have hactions := congrArg (List.filterMap lifecycleState) h
  rw [List.filterMap_map, List.filterMap_map, List.filterMap_filter] at hactions
  refine Eq.trans (List.filterMap_congr fun event _ => ?_) hactions
  simp [toldOf]

/-- The state an event tells, if it tells one. -/
def Entry.text (e : Entry) : String := e.told.getD ""

theorem filterMap_told : es.filterMap Entry.told = (es.filter Entry.tells).map Entry.text := by
  induction es with
  | nil => rfl
  | cons e rest ih =>
    cases htold : e.told with
    | none =>
      rw [List.filterMap_cons_none htold, List.filter_cons_of_neg (by simp [Entry.tells, htold]), ih]
    | some state =>
      rw [List.filterMap_cons_some htold, List.filter_cons_of_pos (by simp [Entry.tells, htold]),
        List.map_cons, ih, Entry.text, htold]
      rfl

/-- Of many writes the last that did not fail stays. -/
theorem foldl_keep (writes : List (Entry × Bool)) (state : String) :
    (writes.map fun write => (write.1.text, write.2)).foldl keep state =
      (((writes.filter Prod.snd).getLast?.map Prod.fst).map Entry.text).getD state := by
  induction writes using List.reverseRecOn with
  | nil => rfl
  | append_singleton writes write ih =>
    rw [List.map_append, List.foldl_append, ih, List.filter_append]
    obtain ⟨e, ok⟩ := write
    cases ok with
    | true => simp [keep]
    | false => simp [keep]

/-- What is stored in the end. -/
theorem Follows.stored {w w' : World} (h : Follows id w trace w') (hstream : StreamOf id trace es)
    {initial : String} (htracked : liveState id w.store = some initial) :
    (es.filter Entry.tells).length = (trace.filterMap (stored id)).length ∧
      liveState id w'.store =
        some (((lastStored es (trace.filterMap (stored id))).map Entry.text).getD initial) := by
  obtain ⟨writes, htold, hstored, hstate⟩ := h
  rw [hstream.told, filterMap_told] at htold
  have hlength : (es.filter Entry.tells).length = (trace.filterMap (Monitor.stored id)).length := by
    have hfirst := congrArg List.length htold
    have hsecond := congrArg List.length hstored
    simp only [List.length_map] at hfirst hsecond
    omega
  refine ⟨hlength, ?_⟩
  have hwrites : writes = ((es.filter Entry.tells).zip (trace.filterMap (Monitor.stored id))).map
      fun write => (write.1.text, write.2) := by
    rw [List.zip_of_prod htold hstored, List.zip_map_left]
    rfl
  rw [hstate initial htracked, hwrites, foldl_keep]
  rfl

/-- If no write failed, the last event whose state was stored is the last that told one. -/
theorem lastStored_eq {oks : List Bool} (hlength : (es.filter Entry.tells).length = oks.length)
    (hall : ∀ ok ∈ oks, ok = true) : lastStored es oks = lastTelling es := by
  have hfilter : ((es.filter Entry.tells).zip oks).filter Prod.snd = (es.filter Entry.tells).zip oks :=
    List.filter_eq_self.mpr fun write hwrite => hall _ (List.of_mem_zip hwrite).2
  rw [lastStored, hfilter, ← List.getLast?_map, List.map_fst_zip (le_of_eq hlength)]
  rfl

theorem Phase.text_inj {φ ψ : Phase} : φ.text = ψ.text ↔ φ = ψ := by
  cases φ <;> cases ψ <;> decide

/-- What an event of a log tells of the container at another time. -/
theorem told_now (hlog : Lifecycle φ log) {e : Entry} (he : e ∈ log) (htells : e.tells = true) (now : Phase) :
    e.text = now.text ↔ if e.Misleading then now = .exited else now = e.after := by
  obtain ⟨φ', hnext⟩ := lifecycle_mem hlog he
  unfold Entry.text
  rcases told_cases hnext with ⟨hnone, -⟩ | ⟨htold, hclear⟩ | ⟨htold, hmisleads⟩
  · simp [Entry.tells, hnone] at htells
  · rw [htold, if_neg hclear, Option.getD_some, Phase.text_inj]
    exact eq_comm
  · rw [htold, if_pos hmisleads, Option.getD_some, Phase.text_inj]
    exact eq_comm

theorem lastStored_mem {oks : List Bool} {e : Entry} (h : lastStored es oks = some e) :
    e ∈ es ∧ e.tells = true := by
  obtain ⟨write, hlast, rfl⟩ := Option.map_eq_some_iff.mp h
  have hwrite := (List.mem_filter.mp (List.mem_of_getLast? hlast)).1
  exact List.mem_filter.mp (List.of_mem_zip hwrite).1

/-- A stream that has caught up is right exactly if the last event of the log that tells a state does
not mislead. -/
theorem current_caughtUp (hlog : Lifecycle φ log) (initial : String) :
    Current initial (present φ log) (lastTelling log) ↔
      (lastTelling log = none → initial = φ.text) ∧ ∀ e, lastTelling log = some e → ¬ e.Misleading := by
  rw [present_eq hlog]
  cases lastTelling log with
  | none =>
    simp only [Current, Option.map_none, Option.getD_none, forall_const, reduceCtorEq, false_imp_iff,
      implies_true, and_true]
  | some e =>
    simp only [Current, Option.map_some, Option.getD_some, reduceCtorEq, false_imp_iff, true_and,
      Option.some.injEq, forall_eq']
    by_cases hmisleads : e.Misleading
    · rw [if_pos hmisleads]
      exact iff_of_false hmisleads.2 (not_not_intro hmisleads)
    · rw [if_neg hmisleads]
      exact iff_of_true trivial hmisleads

variable {first : Phase} {p rounds : Nat} {ctx : Context} {w w' : World} {initial : String}

/-- The stored state of a container is right exactly if the last event that was stored does not mislead
and is not outdated, or misleads about a container that has exited since. Where the stream has come to
the end of the log and every write went through, it is right exactly if the last event of the log that
tells a state does not mislead. -/
theorem liveState_right_iff (hid : id ≠ "") (hlog : Lifecycle first log) (hstream : Delivered log p es)
    (hrun : (crowd (liveState id)).Runs (run ctx rounds) w trace () w') (hevents : StreamOf id trace es)
    (htracked : liveState id w.store = some initial) :
    (liveState id w'.store = some (present first log).text ↔
      Current initial (present first log) (lastStored es (trace.filterMap (stored id)))) ∧
    (p = log.length → (∀ ok ∈ trace.filterMap (stored id), ok = true) →
      (liveState id w'.store = some (present first log).text ↔
        (lastTelling log = none → initial = first.text) ∧
          ∀ e, lastTelling log = some e → ¬ e.Misleading)) := by
  obtain ⟨hlength, hstored⟩ := (run_runs hid hrun).stored hevents htracked
  have hright : liveState id w'.store = some (present first log).text ↔
      Current initial (present first log) (lastStored es (trace.filterMap (stored id))) := by
    rw [hstored, Option.some.injEq]
    cases hlast : lastStored es (trace.filterMap (stored id)) with
    | none => rfl
    | some e =>
      obtain ⟨he, htells⟩ := lastStored_mem hlast
      exact told_now hlog (hstream.mem e he) htells _
  refine ⟨hright, ?_⟩
  rintro rfl hall
  rw [hright, lastStored_eq hlength hall, hstream.caughtUp]
  exact current_caughtUp hlog initial

end Streams

/-! ### A signal that is survived -/

/-- The monitor receives events of the container, one after another. -/
def eventTurns (acts : List Act) : Nat → Turn :=
  script (acts.mapIdx fun i act => (4 + 2 * i, { choice := { input := .event {
    containerID := "c0"
    name := "web"
    action := act.action
    exitCode := ""
    time := 0
    timeNano := 0 } } }))

def eventsPlayed (acts : List Act) : Played Unit :=
  (run .background acts.length).play webWorld (eventTurns acts)

theorem eventsPlayed_runs (acts : List Act) : (crowd (liveState "c0")).Runs (run .background acts.length)
    webWorld (eventsPlayed acts).trace () (eventsPlayed acts).world :=
  crowd_runs .refl (Go.play_runs (run .background acts.length) webWorld (eventTurns acts))

/-- A running container that is told to reload its configuration is shown as exited. -/
theorem survived_signal_misleads : ¬ ∀ (id : String) (first : Phase) (log es : List Entry) (ctx : Context)
    (rounds : Nat) (w w' : World) (trace : Trace Calls World), id ≠ "" → Lifecycle first log →
    Delivered log log.length es → (crowd (liveState id)).Runs (run ctx rounds) w trace () w' →
    StreamOf id trace es → liveState id w.store = some first.text →
    (∀ ok ∈ trace.filterMap (stored id), ok = true) →
    liveState id w'.store = some (present first log).text := by
  intro h
  have hlog : Lifecycle .running [⟨.kill, .running⟩] := ⟨rfl, trivial⟩
  have hdelivered : Delivered [⟨.kill, .running⟩] 1 [⟨.kill, .running⟩] := .next .opened rfl
  have hright := h "c0" .running [⟨.kill, .running⟩] [⟨.kill, .running⟩] .background 1 webWorld
    (eventsPlayed [.kill]).world (eventsPlayed [.kill]).trace (by decide) hlog hdelivered
    (eventsPlayed_runs [.kill]) (by decide +kernel) (by decide +kernel) (by decide +kernel)
  have hwrong : liveState "c0" (eventsPlayed [.kill]).world.store = some "exited" := by decide +kernel
  have hclash : some "exited" = some "running" := hwrong.symm.trans hright
  exact absurd hclash (by decide)

/-- The signal, and a pause after it. -/
def signalAndPause : List Entry := [⟨.kill, .running⟩, ⟨.pause, .paused⟩]

theorem liveState_right_iff_paused :
    (liveState "c0" (eventsPlayed [.kill, .pause]).world.store =
        some (present .running signalAndPause).text ↔
      Current "running" (present .running signalAndPause) (lastStored signalAndPause
        ((eventsPlayed [.kill, .pause]).trace.filterMap (stored "c0")))) ∧
    ¬ (⟨.pause, .paused⟩ : Entry).Misleading := by
  have hlog : Lifecycle .running signalAndPause := ⟨rfl, rfl, trivial⟩
  have hdelivered : Delivered signalAndPause 2 signalAndPause := .next (.next .opened rfl) rfl
  have htracked : liveState "c0" webWorld.store = some "running" := by decide +kernel
  exact ⟨(liveState_right_iff (by decide) hlog hdelivered (eventsPlayed_runs [.kill, .pause])
    (by decide +kernel) htracked).1, by decide⟩

end Doupro.Monitor
