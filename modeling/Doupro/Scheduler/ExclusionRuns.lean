import Doupro.Scheduler.ExcludedTargets

/-!
# Who honours an exclusion

Discovery, changes of the lists, operations and passes in any order. The flags stay right as far
as each writer knows why a container is excluded.
-/

namespace Doupro

open Go Interaction Scheduler

/-! ### Passes -/

/-- An update is of a container that is not excluded. -/
def UpdatesSpare : Event Services World → Prop
  | ⟨w, .update req, _⟩ => ∀ spec ∈ w.engine.specs, spec.id = req.containerID →
      ¬ w.store.exclusions.Covers spec.name spec.config
  | _ => True

instance (e : Event Services World) : Decidable (UpdatesSpare e) :=
  decidable_of_iff ((match e with
    | ⟨w, .update req, _⟩ => decide (∀ spec ∈ w.engine.specs, spec.id = req.containerID →
      ¬ w.store.exclusions.Covers spec.name spec.config)
    | _ => true : Bool) = true) (by unfold UpdatesSpare; split <;> simp)

/-- In the middle of a pass the flags are right, and what was read without one is not excluded. -/
structure InPass (w : World) (cleared : List String) : Prop where
  honoured : Honoured w
  issued : ∀ id ∈ cleared, id ∈ w.engine.issued
  spared : ∀ id ∈ cleared, ∀ spec ∈ w.engine.specs, spec.id = id →
    ¬ w.store.exclusions.Covers spec.name spec.config

theorem InPass.later {w w' : World} {cleared : List String} (h : InPass w cleared)
    (hw' : Honoured w') (hsame : SameLists w w') : InPass w' cleared where
  honoured := hw'
  issued id hid := hsame.grows.issued (h.issued id hid)
  spared id hid spec hspec hspecID := by
    rw [hsame.lists]
    rcases hsame.grows.specs spec hspec with hold | hnew
    · exact h.spared id hid spec hold hspecID
    · exact absurd (hspecID ▸ h.issued id hid) hnew

/-- A row without the flag clears its container. -/
theorem InPass.read {w : World} {cleared : List String} (h : InPass w cleared)
    {row : ContainerRecord} (hrow : w.store.getContainer row.id = some row)
    (hflag : row.excluded = false) : InPass w (row.id :: cleared) where
  honoured := h.honoured
  issued id hid := by
    rcases List.mem_cons.mp hid with rfl | hid
    · exact h.honoured.issued _ (by unfold Store.marksOf; rw [hrow]; rfl)
    · exact h.issued id hid
  spared id hid spec hspec hspecID := by
    rcases List.mem_cons.mp hid with rfl | hid
    · intro hcovers
      have hexcluded := (h.honoured.excluded_iff hspec (hspecID ▸ hrow)).mpr hcovers
      rw [hflag] at hexcluded
      cases hexcluded
    · exact h.spared id hid spec hspec hspecID

theorem InPass.reads {w : World} {cleared : List String} (h : InPass w cleared)
    {rows : List ContainerRecord} (hrows : ∀ row ∈ rows, w.store.getContainer row.id = some row ∧
      row.excluded = false) : InPass w (rows.map ContainerRecord.id ++ cleared) := by
  induction rows with
  | nil => exact h
  | cons row rest ih =>
    obtain ⟨⟨hrow, hflag⟩, hrest⟩ := List.forall_mem_cons.mp hrows
    exact (ih hrest).read hrow hflag

theorem step_service {M : Machine Calls World} {w w' : World} {call : Call} {r : call.Reply}
    (h : (M.layered Service.run).step w (.call call) r w') :
    ∃ w₀, M.rely w w₀ ∧ M.step w₀ call r w' := by
  obtain ⟨trace, w₀, reply, w₁, rest, hrely, hstep, -, -, rfl, rfl⟩ := h
  exact ⟨w₀, hrely, hstep⟩

/-- The calls of a pass keep the flags right, and clear what they read. -/
theorem InPass.call {w w' : World} {cleared : List String} (h : InPass w cleared) {call : Call}
    {r : call.Reply} (hcall : call.SparesMarks)
    (hstep : (plainSystem.layered Service.run).step w (.call call) r w') :
    InPass w' (clear cleared ⟨w, .call call, r⟩) := by
  obtain ⟨w₀, hrely, hstep, -⟩ := step_service hstep
  have hsame := (sameMarks_rely hrely).trans (step_sparesMarks hcall hstep)
  have hlater := h.later (hsame.honoured h.honoured) hsame.sameLists
  cases call with
  | store ctx request =>
    cases request with
    | listContainers =>
      rcases step_store hstep with ⟨err, rfl, -⟩ | ⟨rows, store, -, hperform, rfl, rfl⟩
      · exact hlater
      obtain ⟨rfl, rfl⟩ := Prod.mk.inj (Except.ok.inj hperform)
      refine hlater.reads fun row hrow => ?_
      obtain ⟨hmem, hflag⟩ := List.mem_filter.mp hrow
      exact ⟨Store.getContainer_of_listed hlater.honoured.unique hmem, by simpa using hflag⟩
    | getContainer id =>
      rcases step_store hstep with ⟨err, rfl, -⟩ | ⟨row, store, -, hperform, rfl, rfl⟩
      · exact hlater
      obtain ⟨hfound, rfl⟩ := Store.perform_getContainer.mp hperform
      have hkey : row.id = id := Table.lookup_key hfound
      simp only [clear]
      split
      · exact hlater
      · next hflag => exact hlater.read (hkey ▸ hfound) (by simpa using hflag)
    | _ => exact hlater
  | _ => exact hlater

/-- A pass that goes by the flags keeps them right, and updates no excluded container. -/
theorem pass_honours {α : Type} {p : Daemon α} {w w' : World} {trace : Trace Services World} {a : α}
    (hp : (plainSystem.layered Service.run).obeys sparing p [] fun _ _ => True)
    (h : (plainSystem.layered Service.run).Runs p w trace a w') (hw : Honoured w) :
    Honoured w' ∧ ∀ e ∈ trace, UpdatesSpare e := by
  have hstart : InPass w [] ∧ True :=
    ⟨⟨hw, fun _ hid => absurd hid List.not_mem_nil, fun _ hid => absurd hid List.not_mem_nil⟩, trivial⟩
  have hstep : ∀ {w w' : World} {k : List String} {g : Prop} {op : Service} {r : op.Reply},
      InPass w k ∧ g → sparing.allowed k op → (plainSystem.layered Service.run).step w op r w' →
      True → True ∧ InPass w' (clear k ⟨w, op, r⟩) ∧ g ∧ UpdatesSpare ⟨w, op, r⟩ := by
    rintro w w' k g op r ⟨hpass, hg⟩ hallowed hcall -
    cases op with
    | call call => exact ⟨trivial, hpass.call hallowed hcall, hg, trivial⟩
    | update req =>
      obtain ⟨inner, hrun⟩ := hcall
      have hspared := hpass.spared req.containerID hallowed
      obtain ⟨hw', hlists, hgrows⟩ :=
        operation_honours (.update req) hrun hpass.honoured (.inr hspared)
      exact ⟨trivial, hpass.later hw' ⟨hgrows, hlists⟩, hg, hspared⟩
    | rollback | startSelfUpdate => exact hallowed.elim
  have hrely : ∀ {w w₀ : World} {k : List String} {g : Prop}, InPass w k ∧ g →
      (plainSystem.layered Service.run).rely w w₀ → InPass w₀ k ∧ g := by
    rintro w w₀ k g hJ rfl
    exact hJ
  obtain ⟨⟨hpass, hall⟩, -⟩ := Machine.obeys_invariant (o := fun g e => g ∧ UpdatesSpare e)
    (P := fun _ _ => True) (J := fun w k g => InPass w k ∧ g) hrely hstep hp h
    (Contract.along_trivial _ _) hstart
  exact ⟨hpass.honoured, (Contract.foldl_and.mp hall).2⟩

/-- What goes by the flag. -/
inductive Pass where
  | cron (s : Scheduler) (ctx : Context) (sc : Schedule)
  | relative (s : Scheduler) (ctx : Context)
  | updateAll (updater : Updater.SelfUpdater) (ctx opCtx : Context) (stack actorID : String)

def Pass.program : Pass → Daemon Unit
  | .cron s ctx sc => do
    let _ ← s.executeCron ctx sc
  | .relative s ctx => do
    let _ ← s.runRelativePolicies ctx
  | .updateAll updater ctx opCtx stack actorID => do
    let _ ← Api.handleUpdateAllContainers updater ctx opCtx stack actorID

theorem Pass.sparing {M : Machine Services World} (pass : Pass) :
    M.obeys sparing pass.program [] fun _ _ => True := by
  cases pass with
  | cron s ctx sc =>
    exact Machine.obeys_bind.mpr (Machine.obeys_mono (s.executeCron_sparing ctx sc) fun _ _ _ => trivial)
  | relative s ctx =>
    exact Machine.obeys_bind.mpr
      (Machine.obeys_mono (s.runRelativePolicies_sparing ctx) fun _ _ _ => trivial)
  | updateAll updater ctx opCtx stack actorID =>
    exact Machine.obeys_bind.mpr (Machine.obeys_mono
      (Api.handleUpdateAllContainers_sparing updater ctx opCtx stack actorID) fun _ _ _ => trivial)

/-! ### Everything in any order -/

/-- What writes the flag. -/
inductive FlagWriter where
  | discovery (ctx : Context)
  | settings (ctx : Context) (body : Option Exclusions) (actorID : String)
  | operation (call : OperationCall)

def FlagWriter.program : FlagWriter → Go Unit
  | .discovery ctx => check ctx
  | .settings ctx body actorID => do
    let _ ← Api.handleSetExclusions ctx body actorID
  | .operation call => do
    let _ ← call.program

inductive FlagEntry where
  | writes (writer : FlagWriter) (trace : Trace Calls World)
  | passes (pass : Pass) (trace : Trace Services World)
  /-- Somebody else adds or removes containers. -/
  | others

/-- Each writer knows why a container is excluded: discovery finds the lists, a change of the lists
names every container that opts out, and an operation commits none that is excluded. -/
def FlagEntry.Heeds (w : World) : FlagEntry → Prop
  | .writes (.discovery _) trace => ∀ e ∈ trace, FindsLists e
  | .writes (.settings _ _ _) trace => ListsHeed w trace
  | .writes (.operation call) trace => call.Heeds w trace
  | .passes _ _ | .others => True

/-- Runs one after another, each entered in a world where it meets a condition. -/
inductive FlagRun (M : Machine Calls World) (meets : World → FlagEntry → Prop) :
    World → List FlagEntry → World → Prop
  | nil (w : World) : FlagRun M meets w [] w
  | writes {w w₁ w' : World} (writer : FlagWriter) {trace : Trace Calls World}
    {rest : List FlagEntry} (hrun : M.Runs writer.program w trace () w₁)
    (hmeets : meets w (.writes writer trace)) (hrest : FlagRun M meets w₁ rest w') :
    FlagRun M meets w (.writes writer trace :: rest) w'
  | passes {w w₁ w' : World} (pass : Pass) {trace : Trace Services World} {rest : List FlagEntry}
    (hrun : (M.layered Service.run).Runs pass.program w trace () w₁)
    (hmeets : meets w (.passes pass trace)) (hrest : FlagRun M meets w₁ rest w') :
    FlagRun M meets w (.passes pass trace :: rest) w'
  | others {w w₁ w' : World} {rest : List FlagEntry} (hgrows : World.Grows w w₁)
    (hstore : w₁.store = w.store) (hmeets : meets w .others) (hrest : FlagRun M meets w₁ rest w') :
    FlagRun M meets w (.others :: rest) w'

/-- A run that drops what its program returns. -/
theorem runs_drop {α : Type} {p : Go α} {w w' : World} {trace : Trace Calls World}
    {M : Machine Calls World} (h : M.Runs (p >>= fun _ => pure ()) w trace () w') :
    ∃ a, M.Runs p w trace a w' := by
  obtain ⟨first, a, w₁, rest, hrun, ⟨rfl, -, rfl⟩, rfl⟩ := Machine.runs_bind.mp h
  exact ⟨a, by rwa [List.append_nil]⟩

theorem writer_honours {writer : FlagWriter} {w w' : World} {trace : Trace Calls World}
    (h : plainSystem.Runs writer.program w trace () w') (hw : Honoured w)
    (hheeds : FlagEntry.Heeds w (.writes writer trace)) : Honoured w' := by
  cases writer with
  | discovery ctx => exact (check_honours (plainSystem_runs h) hw hheeds).1
  | settings ctx body actorID =>
    obtain ⟨answer, hrun⟩ := runs_drop h
    exact settings_honours (plainSystem_runs hrun) hw hheeds
  | operation call =>
    obtain ⟨out, hrun⟩ := runs_drop h
    exact (operation_honours call hrun hw hheeds).1

theorem flagRun_honours {w w' : World} {history : List FlagEntry}
    (h : FlagRun plainSystem FlagEntry.Heeds w history w') (hw : Honoured w) :
    Honoured w' ∧ ∀ pass trace, .passes pass trace ∈ history → ∀ e ∈ trace, UpdatesSpare e := by
  induction h with
  | nil w => exact ⟨hw, fun _ _ hmem => absurd hmem List.not_mem_nil⟩
  | writes writer hrun hmeets _ ih =>
    obtain ⟨hw', hlater⟩ := ih (writer_honours hrun hw hmeets)
    refine ⟨hw', fun pass trace hmem => hlater pass trace ?_⟩
    exact (List.mem_cons.mp hmem).resolve_left fun heq => by cases heq
  | passes pass hrun _ _ ih =>
    obtain ⟨hw₁, hspared⟩ := pass_honours pass.sparing hrun hw
    obtain ⟨hw', hlater⟩ := ih hw₁
    refine ⟨hw', fun other trace hmem => ?_⟩
    rcases List.mem_cons.mp hmem with heq | hmem
    · cases heq
      exact hspared
    · exact hlater other trace hmem
  | others hgrows hstore _ _ ih =>
    have hkept := hw.keep (by rw [hstore]; exact hw.unique) hgrows (by rw [hstore])
      fun id => by rw [hstore]
    obtain ⟨hw', hlater⟩ := ih hkept
    refine ⟨hw', fun pass trace hmem => hlater pass trace ?_⟩
    exact (List.mem_cons.mp hmem).resolve_left fun heq => by cases heq

/-- A container that opts out by its label, with an update to be had. -/
def shySpec : ContainerSpec :=
  { webSpec with config := { webSpec.config with labels := some [("doupro.enable", "false")] } }

def shyWorld : World where
  engine := Engine.ofContainer shySpec { status := .running } [("web:1", "sha256:0")]
    [("web:1", "sha256:0"), ("web:2", "sha256:2")]
  store :=
    { containers := [{ webRecord with excluded := true, updateAvailable := true }]
      candidates := [⟨"c0", "major", "web:2", "2", 0⟩] }

theorem shyWorld_honoured : Honoured shyWorld := by
  refine ⟨List.nodup_singleton _, fun id hid => ?_, fun spec hspec marks hmarks => ?_⟩
  · obtain ⟨marks, hmarks⟩ := Option.isSome_iff_exists.mp hid
    obtain ⟨row, hrow, -⟩ := Option.map_eq_some_iff.mp hmarks
    have hmem := Table.lookup_mem hrow
    obtain rfl := List.mem_singleton.mp hmem
    exact List.mem_singleton.mpr (Table.lookup_key hrow).symm
  · obtain rfl := List.mem_singleton.mp hspec
    have hfound : shyWorld.store.marksOf shySpec.id = some ("web", "", true) := by decide
    rw [hfound] at hmarks
    obtain rfl := Option.some.inj hmarks
    decide

/-- The settings are saved with empty lists. -/
def emptied : FlagWriter := .settings .background (some {}) "user"

def everyNight : Pass :=
  .cron plainScheduler .background { id := 1, kind := .cron, containerName := "web" }

def savedRun : Played Unit := emptied.program.play shyWorld (script [])

def nightRun : Trace Services World × Unit × World :=
  everyNight.program.play savedRun.world fun _ _ => .creating "c1"

/-- The lists name the container when they are saved. -/
def namingShy : FlagWriter := .settings .background (some ⟨["web"], []⟩) "user"

def namedRun : Played Unit := namingShy.program.play shyWorld (script [])

end Doupro
