import Doupro.Interaction.Threads
import Doupro.System.Frames
import Doupro.Updater.Update
import Doupro.Updater.SelfUpdate

/-!
# The protocol of the operation guard

Any number of callers begin and end operations and maintenance in any order. What the guard
holds is what its callers were granted and have not given back, so each release concerns the
caller's own entry, and an accepted self-update shuts everyone else out.
-/

namespace Doupro.Updater

open Go Interaction

/-- What a caller was granted and has not given back. -/
structure Grip where
  held : List (String × Operation) := []
  maintenance : Bool := false

namespace Grip

/-- A caller gave back what it held under a name. -/
def released (k : Grip) (name : String) : Grip :=
  { k with held := Table.deleteWhere (fun entry => decide (entry.1 = name)) k.held }

def after (k : Grip) (e : Event Calls World) : Grip :=
  match e with
  | ⟨w, .beginOperation name kind, reply⟩ =>
    if (show Option Operation from reply).isNone then
      { k with held := (name, { kind, startedAt := w.clock }) :: k.held }
    else k
  | ⟨_, .endOperation name _, _⟩ => k.released name
  | ⟨_, .beginMaintenance, reply⟩ =>
    if (show Except (List String) Unit from reply).isOk then { k with maintenance := true } else k
  | ⟨_, .endMaintenance, _⟩ => { k with maintenance := false }
  | _ => k

/-- The caller holds an operation of this kind under a name. -/
def Holds (k : Grip) (name kind : String) : Prop := ∃ op, (name, op) ∈ k.held ∧ op.kind = kind

end Grip

/-- A release for each begin that was granted, and an end of maintenance by its holder only. -/
def protocol : Contract Calls World Grip where
  allowed k call := match call with
    | .endOperation name kind => k.Holds name kind
    | .endMaintenance => k.maintenance = true
    | _ => True
  expects _ _ := True
  next := Grip.after

/-- A call that does not concern the guard. -/
def OffGuard : Call → Prop
  | .beginOperation _ _ | .endOperation _ _ | .beginMaintenance | .endMaintenance => False
  | _ => True

/-! ### The guard and its callers -/

section Sound

variable {ι : Type}

/-- The guard holds exactly the operations its callers hold. -/
structure Shared (g : OperationGuard) (grip : ι → Grip) : Prop where
  entries : ∀ entry, entry ∈ g.active ↔ ∃ i, entry ∈ (grip i).held
  distinct : (g.active.map Prod.fst).Nodup
  apart : ∀ i j a b, a ∈ (grip i).held → b ∈ (grip j).held → a.1 = b.1 → i = j

/-- The guard holds exactly what its callers hold, and nobody holds anything in maintenance. -/
structure Sound (g : OperationGuard) (grip : ι → Grip) : Prop extends Shared g grip where
  gate : g.maintenance = true ↔ ∃ i, (grip i).maintenance = true
  single : ∀ i j, (grip i).maintenance = true → (grip j).maintenance = true → i = j
  idle : g.maintenance = true → g.active = []

theorem shared_idle {g : OperationGuard} (h : g.active = []) :
    Shared g fun _ : ι => ({} : Grip) where
  entries := by simp [h]
  distinct := by simp [h]
  apart := by simp

theorem sound_fresh : Sound {} fun _ : ι => ({} : Grip) where
  toShared := shared_idle rfl
  gate := by simp
  single := by simp
  idle := by simp

variable {g : OperationGuard}

/-- What a begin that is granted does. -/
theorem begin_granted {name kind : String} {now : Time} (h : (g.begin name kind now).1 = none) :
    g.maintenance = false ∧ (∀ entry ∈ g.active, entry.1 ≠ name) ∧
      (g.begin name kind now).2 =
        { g with active := (name, { kind, startedAt := now }) :: g.active } := by
  unfold OperationGuard.begin at h ⊢
  split at h
  · cases h
  · next hopen =>
    split at h
    · cases h
    · next hfree =>
      refine ⟨by simpa using hopen, fun entry hentry hname => ?_, by rw [if_neg hopen]⟩
      have hsome := (List.lookup_eq_none_iff.mp hfree) entry hentry
      simp [hname] at hsome

theorem begin_refused {name kind : String} {now : Time} (h : (g.begin name kind now).1 ≠ none) :
    (g.begin name kind now).2 = g := by
  unfold OperationGuard.begin at h ⊢
  split
  · rfl
  · split
    · rfl
    · next hopen _ hfree =>
      rw [if_neg hopen, hfree] at h
      exact absurd rfl h

variable [DecidableEq ι]

theorem held_update (grip : ι → Grip) (i : ι) (k : Grip) (hk : k.held = (grip i).held) (j : ι) :
    (Function.update grip i k j).held = (grip j).held := by
  by_cases hj : j = i
  · subst hj
    simpa using hk
  · simp [hj]

theorem maintenance_update (grip : ι → Grip) (i : ι) (k : Grip)
    (hk : k.maintenance = (grip i).maintenance) (j : ι) :
    (Function.update grip i k j).maintenance = (grip j).maintenance := by
  by_cases hj : j = i
  · subst hj
    simpa using hk
  · simp [hj]

variable {grip : ι → Grip} {i : ι}

/-- Who holds the gate when only one caller's share of it changed. -/
theorem maintenance_only {k : Grip} (hothers : ∀ j, j ≠ i → (grip j).maintenance = false) (j : ι) :
    (Function.update grip i k j).maintenance = true ↔ j = i ∧ k.maintenance = true := by
  by_cases hj : j = i
  · subst hj
    simp
  · simp [hj, hothers j hj]

theorem Shared.begin (h : Shared g grip) {name kind : String} {now : Time}
    (hgranted : (g.begin name kind now).1 = none) :
    Shared (g.begin name kind now).2 (Function.update grip i
      { grip i with held := (name, { kind, startedAt := now }) :: (grip i).held }) := by
  obtain ⟨-, hfree, hguard⟩ := begin_granted hgranted
  rw [hguard]
  have hheld : ∀ j entry, entry ∈ (Function.update grip i
      { grip i with held := (name, { kind, startedAt := now }) :: (grip i).held } j).held ↔
      (j = i ∧ entry = (name, { kind, startedAt := now })) ∨ entry ∈ (grip j).held := by
    intro j entry
    by_cases hj : j = i
    · subst hj
      simp
    · simp [hj]
  have hnew : ∀ j entry, entry ∈ (grip j).held → entry.1 ≠ name := fun j entry hentry =>
    hfree entry ((h.entries entry).mpr ⟨j, hentry⟩)
  constructor
  · intro entry
    simp only [List.mem_cons, h.entries, hheld]
    constructor
    · rintro (rfl | ⟨j, hj⟩)
      · exact ⟨i, .inl ⟨rfl, rfl⟩⟩
      · exact ⟨j, .inr hj⟩
    · rintro ⟨j, ⟨-, rfl⟩ | hj⟩
      · exact .inl rfl
      · exact .inr ⟨j, hj⟩
  · rw [List.map_cons, List.nodup_cons]
    refine ⟨fun hmem => ?_, h.distinct⟩
    obtain ⟨entry, hentry, hname⟩ := List.mem_map.mp hmem
    exact hfree entry hentry hname
  · intro j l a b ha hb hab
    rcases (hheld j a).mp ha with ⟨hj, ha⟩ | ha <;> rcases (hheld l b).mp hb with ⟨hl, hb⟩ | hb
    · rw [hj, hl]
    · exact absurd (hab.symm.trans (congrArg Prod.fst ha)) (hnew l b hb)
    · exact absurd (hab.trans (congrArg Prod.fst hb)) (hnew j a ha)
    · exact h.apart j l a b ha hb hab

theorem Shared.release (h : Shared g grip) {name kind : String} (hholds : (grip i).Holds name kind) :
    Shared (g.release name) (Function.update grip i ((grip i).released name)) := by
  obtain ⟨op, hop, -⟩ := hholds
  have hheld : ∀ j entry, entry ∈ (Function.update grip i ((grip i).released name) j).held ↔
      entry ∈ (grip j).held ∧ entry.1 ≠ name := by
    intro j entry
    by_cases hj : j = i
    · subst hj
      simp [Grip.released, Table.mem_deleteWhere]
    · rw [Function.update_of_ne hj]
      refine ⟨fun hentry => ⟨hentry, fun hname => ?_⟩, And.left⟩
      exact hj (h.apart j i entry (name, op) hentry hop hname)
  constructor
  · intro entry
    simp only [OperationGuard.release, Table.mem_deleteWhere, h.entries, hheld, decide_eq_false_iff_not]
    exact exists_and_right.symm
  · exact h.distinct.sublist (List.filter_sublist.map _)
  · intro j l a b ha hb hab
    exact h.apart j l a b ((hheld j a).mp ha).1 ((hheld l b).mp hb).1 hab

/-- A change of the gate alone. -/
theorem Shared.gate (h : Shared g grip) (maintenance held : Bool) :
    Shared { g with maintenance } (Function.update grip i { grip i with maintenance := held }) := by
  have hheld := held_update grip i { grip i with maintenance := held } rfl
  constructor
  · simpa only [hheld] using h.entries
  · exact h.distinct
  · simpa only [hheld] using h.apart

theorem Sound.begin (h : Sound g grip) {name kind : String} {now : Time}
    (hgranted : (g.begin name kind now).1 = none) :
    Sound (g.begin name kind now).2 (Function.update grip i
      { grip i with held := (name, { kind, startedAt := now }) :: (grip i).held }) := by
  obtain ⟨hopen, -, hguard⟩ := begin_granted hgranted
  have hgate := maintenance_update grip i
    { grip i with held := (name, { kind, startedAt := now }) :: (grip i).held } rfl
  refine ⟨h.toShared.begin hgranted, ?_, ?_, ?_⟩
  · rw [hguard]
    simpa only [hgate] using h.gate
  · simpa only [hgate] using h.single
  · intro hclosed
    rw [hguard] at hclosed
    exact absurd (hopen.symm.trans hclosed) Bool.false_ne_true

theorem Sound.release (h : Sound g grip) {name kind : String} (hholds : (grip i).Holds name kind) :
    Sound (g.release name) (Function.update grip i ((grip i).released name)) := by
  have hgate := maintenance_update grip i ((grip i).released name) rfl
  refine ⟨h.toShared.release hholds, ?_, ?_, ?_⟩
  · change g.maintenance = true ↔ _
    simpa only [hgate] using h.gate
  · simpa only [hgate] using h.single
  · intro hclosed
    simp [OperationGuard.release, h.idle hclosed, Table.deleteWhere]

theorem Sound.closes (h : Sound g grip) (hopen : g.maintenance = false) (hidle : g.active = []) :
    Sound { g with maintenance := true } (Function.update grip i { grip i with maintenance := true }) := by
  have hothers : ∀ j, j ≠ i → (grip j).maintenance = false := by
    intro j _
    by_contra hj
    rw [Bool.not_eq_false] at hj
    rw [h.gate.mpr ⟨j, hj⟩] at hopen
    cases hopen
  refine ⟨h.toShared.gate true true, ?_, ?_, fun _ => hidle⟩
  · exact ⟨fun _ => ⟨i, (maintenance_only hothers i).mpr ⟨rfl, rfl⟩⟩, fun _ => rfl⟩
  · intro j l hj hl
    rw [((maintenance_only hothers j).mp hj).1, ((maintenance_only hothers l).mp hl).1]

theorem Sound.reopens (h : Sound g grip) (hheld : (grip i).maintenance = true) :
    Sound g.endMaintenance (Function.update grip i { grip i with maintenance := false }) := by
  have hothers : ∀ j, j ≠ i → (grip j).maintenance = false := by
    intro j hj
    by_contra hother
    rw [Bool.not_eq_false] at hother
    exact hj (h.single j i hother hheld)
  have hnone : ∀ j, (Function.update grip i { grip i with maintenance := false } j).maintenance ≠
      true := fun j hj => Bool.false_ne_true ((maintenance_only hothers j).mp hj).2
  refine ⟨h.toShared.gate false false, ?_, ?_, ?_⟩
  · exact ⟨fun hclosed => absurd hclosed Bool.false_ne_true, fun ⟨j, hj⟩ => absurd hj (hnone j)⟩
  · exact fun j l hj => absurd hj (hnone j)
  · exact fun hclosed => absurd hclosed Bool.false_ne_true

end Sound

/-! ### One call -/

variable {allows : World → EnvEvent → Prop}

theorem drifts_guard {w w' : World} (h : World.Drifts allows w w') : w'.guard = w.guard := by
  induction h with
  | refl => rfl
  | @tail w₁ w₂ _ hstep ih =>
    obtain ⟨event, -, rfl⟩ := hstep
    rw [← ih]
    cases event with
    | exit | restart =>
      simp only [EnvEvent.apply]
      split <;> rfl
    | _ => rfl

theorem step_offGuard {w w' : World} {call : Call} {reply : call.Reply} (hcall : OffGuard call)
    (h : (system allows).step w call reply w') : w'.guard = w.guard := by
  cases call with
  | docker ctx call => rcases step_docker h with ⟨err, -, rfl⟩ | ⟨_, _, _, -, -, -, rfl⟩ <;> rfl
  | store ctx call => rcases step_store h with ⟨err, -, rfl⟩ | ⟨_, _, -, -, -, rfl⟩ <;> rfl
  | lookup => rw [step_lookup h]
  | beginOperation | endOperation | beginMaintenance | endMaintenance => exact hcall.elim
  | maintenanceActive => rw [(step_maintenanceActive h).2]
  | now => rw [(step_now h).2]
  | sleepUntil ctx deadline => rcases step_sleepUntil h with ⟨-, -, rfl⟩ | ⟨-, rfl⟩ <;> rfl
  | emit event => rw [step_emit h]
  | notify notification => rw [step_notify h]
  | goRollback watch => rw [step_goRollback h]
  | goShutdown => rw [step_goShutdown h]
  | receive ctx => rw [(step_receive h).1]

theorem after_offGuard {k : Grip} {e : Event Calls World} (h : OffGuard e.op) : k.after e = k := by
  unfold Grip.after
  split
  · exact h.elim
  · exact h.elim
  · exact h.elim
  · exact h.elim
  · rfl

/-- What an allowed call does to the guard and to its caller's share of it. -/
inductive GuardStep (g : OperationGuard) (k : Grip) : OperationGuard → Grip → Prop
  | stays : GuardStep g k g k
  | begins (name kind : String) (now : Time) (hgranted : (g.begin name kind now).1 = none) :
    GuardStep g k (g.begin name kind now).2
      { k with held := (name, { kind, startedAt := now }) :: k.held }
  | releases (name kind : String) (hholds : k.Holds name kind) :
    GuardStep g k (g.release name) (k.released name)
  | closes (hopen : g.maintenance = false) (hidle : g.active = []) :
    GuardStep g k { g with maintenance := true } { k with maintenance := true }
  | reopens (hheld : k.maintenance = true) :
    GuardStep g k g.endMaintenance { k with maintenance := false }

theorem guardStep_call {k : Grip} {w w' : World} {op : Call} {r : op.Reply}
    (hallowed : protocol.allowed k op) (hstep : (system allows).step w op r w') :
    GuardStep w.guard k w'.guard (k.after ⟨w, op, r⟩) := by
  have hoff : OffGuard op → GuardStep w.guard k w'.guard (k.after ⟨w, op, r⟩) := by
    intro hop
    rw [step_offGuard hop hstep, after_offGuard hop]
    exact .stays
  cases op with
  | beginOperation name kind =>
    obtain ⟨rfl, hw⟩ := step_beginOperation hstep
    rw [hw]
    by_cases hgranted : (w.guard.begin name kind w.clock).1 = none
    · have hafter : k.after ⟨w, .beginOperation name kind, (w.guard.begin name kind w.clock).1⟩ =
          { k with held := (name, { kind, startedAt := w.clock }) :: k.held } := by
        simp [Grip.after, hgranted]
      rw [hafter]
      exact .begins name kind w.clock hgranted
    · have hafter : k.after ⟨w, .beginOperation name kind, (w.guard.begin name kind w.clock).1⟩ =
          k := by
        simp [Grip.after, hgranted]
      rw [hafter]
      change GuardStep w.guard k (w.guard.begin name kind w.clock).2 k
      rw [begin_refused hgranted]
      exact .stays
  | endOperation name kind =>
    rw [step_endOperation hstep]
    exact .releases name kind hallowed
  | beginMaintenance =>
    rcases step_beginMaintenance hstep with ⟨⟨active, rfl⟩, hw⟩ | ⟨rfl, hopen, hidle, rfl⟩
    · rw [hw]
      exact .stays
    · exact .closes hopen hidle
  | endMaintenance =>
    rw [step_endMaintenance hstep]
    exact .reopens hallowed
  | _ => exact hoff trivial

section Steps

variable {ι : Type} [DecidableEq ι] {grip : ι → Grip} {g g' : OperationGuard} {i : ι} {k' : Grip}

theorem Shared.step (h : Shared g grip) (hstep : GuardStep g (grip i) g' k') :
    Shared g' (Function.update grip i k') := by
  cases hstep with
  | stays => rwa [Function.update_eq_self]
  | begins name kind now hgranted => exact h.begin hgranted
  | releases name kind hholds => exact h.release hholds
  | closes hopen hidle => exact h.gate true true
  | reopens hheld => exact h.gate false false

theorem Sound.step (h : Sound g grip) (hstep : GuardStep g (grip i) g' k') :
    Sound g' (Function.update grip i k') := by
  cases hstep with
  | stays => rwa [Function.update_eq_self]
  | begins name kind now hgranted => exact h.begin hgranted
  | releases name kind hholds => exact h.release hholds
  | closes hopen hidle => exact h.closes hopen hidle
  | reopens hheld => exact h.reopens hheld

end Steps

/-! ### The updater follows the protocol -/

/-- A program that follows the protocol, holding nothing at first. -/
def Follows {α : Type} (M : Machine Calls World) (p : Go α) : Prop :=
  M.obeys protocol p {} fun _ _ => True

theorem offGuard_obeys {α : Type} {M : Machine Calls World} {p : Go α} (hp : p.Uses OffGuard)
    (k : Grip) : M.obeys protocol p k fun k' _ => k' = k := by
  refine Machine.obeys_of_uses (fun k op hop => ?_) (fun k e he => after_offGuard he) hp k
  cases op with
  | endOperation | endMaintenance => exact hop.elim
  | _ => trivial

theorem offGuard_of_inRollback {call : Call} (h : InRollback call) : OffGuard call := by
  unfold InRollback at h
  split at h <;> trivial

theorem beginOperation_obeys {M : Machine Calls World} (name kind : String) (actor : Actor)
    (actorID : String) (k : Grip) :
    M.obeys protocol (beginOperation name kind actor actorID) k
      fun k' refused => refused = none → k'.Holds name kind := by
  unfold beginOperation
  refine Machine.obeys_request_bind.mpr ⟨trivial, fun w reply w' _ _ => ?_⟩
  cases reply with
  | none => exact fun _ => ⟨_, List.mem_cons_self, rfl⟩
  | some current =>
    refine Machine.obeys_request_bind.mpr ⟨trivial, fun w reply w' _ _ => ?_⟩
    split <;> exact fun h => by cases h

theorem withOperation_follows {M : Machine Calls World} (name kind : String) (actor : Actor)
    (actorID : String) {operation : Go (Option GoError)} (h : operation.Uses OffGuard) (k : Grip) :
    M.obeys protocol (withOperation name kind actor actorID operation) k fun _ _ => True := by
  unfold withOperation
  refine Machine.obeys_bind.mpr (Machine.obeys_mono
    (beginOperation_obeys name kind actor actorID k) ?_)
  intro k' refused hholds
  cases refused with
  | some err => trivial
  | none =>
    change M.obeys protocol (operation >>= _) k' _
    refine Machine.obeys_bind.mpr (Machine.obeys_mono (offGuard_obeys h k') ?_)
    rintro _ result rfl
    exact ⟨hholds rfl, fun _ _ _ _ _ => trivial⟩

theorem offGuard_of_inUpdate {call : Call} (h : InUpdate call) : OffGuard call := by
  unfold InUpdate at h
  split at h <;> first | trivial | exact offGuard_of_inRollback h

theorem updateGuarded_offGuard (req : UpdateRequest) : (updateGuarded req).Uses OffGuard :=
  Program.uses_mono (fun _ => offGuard_of_inUpdate) (updateGuarded_calls req)

theorem update_follows (M : Machine Calls World) (req : UpdateRequest) : Follows M (update req) :=
  ⟨trivial, fun _ _ _ _ _ => withOperation_follows _ _ _ _ (updateGuarded_offGuard req) _⟩

theorem rollback_follows (M : Machine Calls World) (req : RollbackRequest) :
    Follows M (rollback req) := by
  refine Machine.obeys_request_bind.mpr ⟨trivial, fun w found w' _ _ => ?_⟩
  cases found with
  | error err => trivial
  | ok rec =>
    dsimp only
    split
    · trivial
    · exact withOperation_follows _ _ _ _ (Program.uses_mono (fun _ => offGuard_of_inRollback)
        (rollbackGuarded_calls req rec)) _

theorem selfContainerID_offGuard (u : SelfUpdater) (ctx : Context) :
    (selfContainerID u ctx).Uses OffGuard := by
  refine Program.uses_bind ((Program.uses_request _).mpr trivial) fun items => ?_
  cases items <;> trivial

theorem launchHelper_offGuard (u : SelfUpdater) (ctx : Context) (selfID targetImage actorID : String) :
    (launchHelper u ctx selfID targetImage actorID).Uses OffGuard := by
  have hinspect : ∀ {α : Type} {f : Except GoError InspectResponse → Go α}, (∀ r, (f r).Uses OffGuard) →
      (docker ctx (.inspect selfID) >>= f).Uses OffGuard := fun h =>
    Program.uses_bind ((Program.uses_request _).mpr trivial) h
  refine Program.uses_bind ((Program.uses_request _).mpr trivial) fun pulled => ?_
  cases pulled with
  | error err => trivial
  | ok _ =>
    refine Program.uses_bind ((Program.uses_request _).mpr trivial) fun now => ?_
    refine Program.uses_bind (hinspect fun info => by cases info <;> trivial) fun env => ?_
    refine hinspect fun parent => ?_
    cases parent with
    | error err => trivial
    | ok parent =>
      refine Program.uses_bind ((Program.uses_request _).mpr trivial) fun created => ?_
      cases created with
      | error err => trivial
      | ok helperID =>
        refine Program.uses_bind ((Program.uses_request _).mpr trivial) fun started => ?_
        cases started with
        | error err => exact ⟨trivial, fun _ => trivial⟩
        | ok _ =>
          refine Program.uses_bind (hinspect fun info => by cases info <;> trivial) fun name => ?_
          exact ⟨trivial, fun _ => ⟨trivial, fun _ => trivial⟩⟩

theorem offGuard_of_reads {call : Call} (h : Scheduler.Reads call) : OffGuard call := by
  unfold Scheduler.Reads at h
  split at h <;> trivial

theorem prepareSelfUpdate_offGuard (u : SelfUpdater) (ctx : Context)
    (containerID targetImage actorID : String) :
    (prepareSelfUpdate u ctx containerID targetImage actorID).Uses OffGuard := by
  refine Program.uses_bind (selfContainerID_offGuard u ctx) fun identified => ?_
  cases identified with
  | error err => trivial
  | ok selfID =>
    dsimp only
    split
    · trivial
    · split
      · trivial
      · refine Program.uses_bind ((Program.uses_request _).mpr trivial) fun now => ?_
        refine Program.uses_bind (Program.uses_mono (fun _ => offGuard_of_reads)
          (Scheduler.selfUpdateBlockers_reads _ _)) fun blockers => ?_
        cases blockers with
        | error err => trivial
        | ok blockers =>
          dsimp only
          split
          · trivial
          · exact launchHelper_offGuard _ _ _ _ _

/-- An accepted self-update keeps the gate it closed. -/
theorem startSelfUpdate_obeys (M : Machine Calls World) (u : SelfUpdater) (ctx : Context)
    (containerID targetImage actorID : String) (k : Grip) :
    M.obeys protocol (startSelfUpdate u ctx containerID targetImage actorID) k
      fun k' result => result = none → k'.maintenance = true := by
  refine Machine.obeys_request_bind.mpr ⟨trivial, fun w reply w' _ _ => ?_⟩
  cases reply with
  | error active => exact fun h => by cases h
  | ok _ =>
    refine Machine.obeys_bind.mpr (Machine.obeys_mono
      (offGuard_obeys (prepareSelfUpdate_offGuard _ _ _ _ _) _) ?_)
    rintro k' result rfl
    cases result with
    | none => exact fun _ => rfl
    | some err => exact ⟨rfl, fun _ _ _ _ _ h => by cases h⟩

/-! ### Any number of callers -/

section Callers

variable {ι : Type} [DecidableEq ι]

/-- What a member of a pool holds after a history. -/
abbrev gripOf (history : List (ι × Event Calls World)) (i : ι) : Grip :=
  protocol.learnedBy {} history i

theorem pool_sound {α : Type} {Q : ι → Grip → α → Prop} {pool pool' : ι → Go α} {w w' : World}
    {history : List (ι × Event Calls World)}
    (hobeys : ∀ i, (system allows).obeys protocol (pool i) {} (Q i)) (hfresh : w.guard = {})
    (hrun : (system allows).PoolRuns pool w history pool' w') :
    Sound w'.guard (gripOf history) ∧
      ∀ i, (system allows).obeys protocol (pool' i) (gripOf history i) (Q i) := by
  obtain ⟨k, ⟨hsound, rfl⟩, hrest⟩ := Machine.PoolRuns.contracts (A := fun _ _ => True)
    (C := fun _ => protocol)
    (J := fun w k past => Sound w.guard k ∧ k = gripOf past)
    (fun {_ _ _ _ _} i {_ _} hJ hrely hstep _ hallowed => by
      obtain ⟨hsound, rfl⟩ := hJ
      refine ⟨trivial, ?_, (protocol.learnedBy_concat _ _ _ _).symm⟩
      rw [← drifts_guard hrely] at hsound
      exact hsound.step (guardStep_call hallowed hstep))
    hrun (Machine.throughout_trivial [] history) hobeys ⟨hfresh ▸ sound_fresh, rfl⟩
  exact ⟨hsound, hrest⟩

/-- A begin or a beginning of maintenance that was refused, or another call. -/
def TurnedAway : Event Calls World → Prop
  | ⟨_, .beginOperation _ _, reply⟩ => (show Option Operation from reply).isSome
  | ⟨_, .beginMaintenance, reply⟩ => (show Except (List String) Unit from reply).isOk = false
  | _ => True

theorem turnedAway_of_closed {w w' : World} {op : Call} {r : op.Reply}
    (hclosed : w.guard.maintenance = true) (hstep : (system allows).step w op r w') :
    TurnedAway ⟨w, op, r⟩ := by
  cases op with
  | beginOperation name kind =>
    rw [(step_beginOperation hstep).1]
    simp [TurnedAway, OperationGuard.begin, hclosed]
  | beginMaintenance =>
    rcases step_beginMaintenance hstep with ⟨⟨active, rfl⟩, -⟩ | ⟨-, hopen, -, -⟩
    · rfl
    · rw [hclosed] at hopen
      cases hopen
  | _ => trivial

/-- A caller that does not hold the gate leaves it closed. -/
theorem GuardStep.closed {g g' : OperationGuard} {k k' : Grip} (h : GuardStep g k g' k')
    (hclosed : g.maintenance = true) (hk : k.maintenance = false) :
    g'.maintenance = true ∧ k'.maintenance = false := by
  cases h with
  | stays => exact ⟨hclosed, hk⟩
  | begins name kind now hgranted =>
    rw [(begin_granted hgranted).1] at hclosed
    cases hclosed
  | releases name kind hholds => exact ⟨hclosed, hk⟩
  | closes hopen hidle =>
    rw [hopen] at hclosed
    cases hclosed
  | reopens hheld =>
    rw [hheld] at hk
    cases hk

/-- A closed gate stays closed when the caller that closed it is done. -/
theorem closed_for_good {α : Type} {pool pool' : ι → Go α} {w w' : World} {k : ι → Grip} {i : ι}
    {a : α} {later : List (ι × Event Calls World)} (hdone : pool i = pure a)
    (hobeys : ∀ j, (system allows).obeys protocol (pool j) (k j) fun _ _ => True)
    (hclosed : w.guard.maintenance = true) (hothers : ∀ j, j ≠ i → (k j).maintenance = false)
    (hrun : (system allows).PoolRuns pool w later pool' w') : ∀ entry ∈ later, TurnedAway entry.2 := by
  -- the member that is done makes no call, so its contract may forbid every one
  have hpool : ∀ j, (system allows).obeys
      (if j = i then { protocol with allowed := fun _ _ => False } else protocol) (pool j) (k j)
      fun _ _ => True := by
    intro j
    by_cases hj : j = i
    · subst hj
      rw [hdone]
      trivial
    · rw [if_neg hj]
      exact hobeys j
  obtain ⟨_, ⟨-, -, hall⟩, -⟩ := Machine.PoolRuns.contracts (A := fun _ _ => True)
    (C := fun j => if j = i then { protocol with allowed := fun _ _ => False } else protocol)
    (J := fun w k past => w.guard.maintenance = true ∧
      (∀ j, j ≠ i → (k j).maintenance = false) ∧ ∀ entry ∈ past, TurnedAway entry.2)
    (fun {w w₀ w₁ k past} j {op r} hJ hrely hstep _ hallowed => by
      obtain ⟨hclosed, hothers, hall⟩ := hJ
      by_cases hj : j = i
      · rw [if_pos hj] at hallowed
        exact hallowed.elim
      · rw [if_neg hj] at hallowed ⊢
        rw [← drifts_guard hrely] at hclosed
        obtain ⟨hstill, hafter⟩ := (guardStep_call hallowed hstep).closed hclosed (hothers j hj)
        refine ⟨trivial, hstill, fun l hl => ?_, fun entry hentry => ?_⟩
        · by_cases hlj : l = j
          · subst hlj
            rw [Function.update_self]
            exact hafter
          · rw [Function.update_of_ne hlj]
            exact hothers l hl
        · rcases List.mem_append.mp hentry with hold | hnew
          · exact hall entry hold
          · obtain rfl := List.mem_singleton.mp hnew
            exact turnedAway_of_closed hclosed hstep)
    hrun (Machine.throughout_trivial [] later) hpool ⟨hclosed, hothers, by simp⟩
  exact hall

/-- In any interleaving of callers that follow the protocol, the guard holds exactly what they
hold, a release concerns the caller's own entry, and once a self-update is accepted no operation
and no second self-update begins. -/
theorem guard_excludes {pool pool' : ι → Go (Option GoError)} {w w' : World}
    {history : List (ι × Event Calls World)} (hfollows : ∀ i, Follows (system allows) (pool i))
    (hfresh : w.guard = {}) (hrun : (system allows).PoolRuns pool w history pool' w') :
    Sound w'.guard (gripOf history) ∧
    (∀ before i e after name kind, history = before ++ (i, e) :: after →
      e.op = .endOperation name kind → ∀ entry ∈ e.world.guard.active, entry.1 = name →
        entry ∈ (gripOf before i).held) ∧
    ∀ i u ctx containerID targetImage actorID,
      pool i = startSelfUpdate u ctx containerID targetImage actorID → pool' i = pure none →
        ∀ later pool'' w'', (system allows).PoolRuns pool' w' later pool'' w'' →
          ∀ entry ∈ later, TurnedAway entry.2 := by
  obtain ⟨hsound, hrest⟩ := pool_sound hfollows hfresh hrun
  refine ⟨hsound, ?_, ?_⟩
  · rintro before i e after name kind rfl hop entry hentry hname
    obtain ⟨mid, w₁, next, hbefore, hmid, hrely⟩ := hrun.split
    obtain ⟨hsound, hobeys⟩ := pool_sound hfollows hfresh hbefore
    rw [drifts_guard hrely] at hentry
    have hallowed : protocol.allowed (gripOf before i) e.op := by
      have hmember := hobeys i
      rw [hmid] at hmember
      exact hmember.1
    rw [hop] at hallowed
    obtain ⟨op, hheld, -⟩ := hallowed
    obtain ⟨j, hj⟩ := (hsound.entries entry).mp hentry
    rwa [hsound.apart j i _ _ hj hheld hname] at hj
  · intro i u ctx containerID targetImage actorID hstart hdone later pool'' w'' hlater
    -- what the member holds when it returns, from what its own program guarantees
    obtain ⟨-, hreturned⟩ := pool_sound
      (Q := fun j k result => j = i → result = none → k.maintenance = true)
      (fun j => by
        by_cases hj : j = i
        · subst hj
          rw [hstart]
          exact Machine.obeys_mono (startSelfUpdate_obeys _ _ _ _ _ _ _) fun _ _ h _ => h
        · exact Machine.obeys_mono (hfollows j) fun _ _ _ h => absurd h hj) hfresh hrun
    have hheld := hreturned i
    rw [hdone] at hheld
    have hgate : (gripOf history i).maintenance = true := hheld rfl rfl
    refine closed_for_good hdone hrest (hsound.gate.mpr ⟨i, hgate⟩) (fun j hj => ?_) hlater
    by_contra hother
    rw [Bool.not_eq_false] at hother
    exact hj (hsound.single j i hother hgate)

/-! ### A self-update and an update -/

/-- The daemon's own container. -/
def daemonSpec : ContainerSpec where
  id := "d0"
  name := "doupro"
  image := "sha256:d"
  config := { image := "doupro:1", hostname := "d0" }
  hostConfig := {}

def daemonWorld : World where
  engine := Engine.ofContainer daemonSpec { status := .running } [] [("doupro:2", "sha256:e")]
  store := {}

/-- A self-update of the daemon, and an update of its container. -/
def selfUpdating : Bool → Go (Option GoError)
  | true => startSelfUpdate { hostname := "d0" } .background "d0" "doupro:2" "admin"
  | false => update ⟨.background, "d0", "doupro:2", ⟨.user, "admin"⟩⟩

theorem selfUpdating_follows (i : Bool) : Follows openSystem (selfUpdating i) := by
  cases i with
  | true => exact Machine.obeys_mono (startSelfUpdate_obeys _ _ _ _ _ _ _) fun _ _ _ => trivial
  | false => exact update_follows _ _

/-- The self-update from its first call to its acceptance. -/
def acceptedRun : List (Bool × Event Calls World) × (Bool → Go (Option GoError)) × World :=
  playCalls (List.replicate 15 (true, { newID := "h0" })) selfUpdating daemonWorld

/-- After an accepted self-update the update is refused. -/
theorem guard_excludes_accepted :
    (playCalls (List.replicate 3 (false, {})) acceptedRun.2.1 acceptedRun.2.2).2.1 false =
      pure (some .maintenanceInProgress) ∧
    ∀ entry ∈ (playCalls (List.replicate 3 (false, {})) acceptedRun.2.1 acceptedRun.2.2).1,
      TurnedAway entry.2 := by
  refine ⟨Program.eq_pure_of_returned (by decide +kernel), ?_⟩
  exact (guard_excludes selfUpdating_follows rfl (playCalls_runs (fun _ => Relation.ReflTransGen.refl)
    rfl (List.replicate 15 (true, { newID := "h0" })) selfUpdating daemonWorld)).2.2
    true _ _ _ _ _ rfl (Program.eq_pure_of_returned (by decide +kernel)) _ _ _
    (playCalls_runs (fun _ => Relation.ReflTransGen.refl) rfl _ _ _)

end Callers

end Doupro.Updater
