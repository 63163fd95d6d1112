import Doupro.Api.Settings
import Doupro.Scheduler.Check
import Doupro.Scheduler.Executors
import Doupro.Updater.ExcludedFlag

/-!
# Excluded containers

Discovery sets the flag from the labels and the lists, a change of the lists from the lists
alone. The scheduled passes and update-all go by the flag.
-/

namespace Doupro

open Go Interaction Scheduler

/-! ### Discovery -/

theorem sparesMarks_of_checks {call : Call} (h : Checks call) : call.SparesMarks := by
  unfold Checks at h
  split at h <;> first
    | exact h.elim
    | exact ⟨trivial, fun _ _ heq => by cases heq⟩
    | exact ⟨⟨id, rfl⟩, fun _ _ heq => by cases heq; exact id⟩

theorem sparesMarks_emit (event : LogEvent) : Call.SparesMarks (.emit event) :=
  ⟨trivial, fun _ _ heq => by cases heq⟩

/-- What a world becomes while the lists stay as they are. -/
structure SameLists (w w' : World) : Prop where
  grows : World.Grows w w'
  lists : w'.store.exclusions = w.store.exclusions

theorem SameLists.trans {w w₁ w' : World} (h : SameLists w w₁) (h' : SameLists w₁ w') :
    SameLists w w' :=
  ⟨h.grows.trans h'.grows, h'.lists.trans h.lists⟩

theorem SameMarks.sameLists {w w' : World} (h : SameMarks w w') : SameLists w w' :=
  ⟨h.grows, h.lists⟩

/-- A listed container whose row would be right. -/
structure SeenRight (w : World) (c : ListedContainer) : Prop where
  issued : c.id ∈ w.engine.issued
  marks : ∀ spec ∈ w.engine.specs, spec.id = c.id →
    (c.name, c.stack, c.excluded) = spec.marks w.store.exclusions

theorem SeenRight.later {w w' : World} {c : ListedContainer} (h : SeenRight w c)
    (hsame : SameLists w w') : SeenRight w' c where
  issued := hsame.grows.issued h.issued
  marks spec hspec hid := by
    rcases hsame.grows.specs spec hspec with hold | hnew
    · rw [hsame.lists]
      exact h.marks spec hold hid
    · exact absurd (hid ▸ h.issued) hnew

theorem Store.marksOf_upsertSeen (s : Store) (c : ContainerRecord) (id : String) :
    (s.upsertSeen c).marksOf id =
      if id = c.id then some (c.name, c.stack, c.excluded) else s.marksOf id := by
  unfold marksOf
  rw [getContainer_upsertSeen]
  split
  · cases s.getContainer id <;> rfl
  · rfl

theorem step_upsertSeen {w w' : World} {ctx : Context} {c : ListedContainer}
    {reply : Except GoError Unit} (h : openSystem.step w (.store ctx (.upsertSeen (seenRecord c))) reply w')
    (hw : Honoured w) (hc : SeenRight w c) : Honoured w' ∧ SameLists w w' := by
  have hunique := step_uniqueIDs h hw.unique
  rcases step_store h with ⟨err, -, rfl⟩ | ⟨result, store, -, hperform, -, rfl⟩
  · exact ⟨hw, .of_engine rfl, rfl⟩
  obtain ⟨-, rfl⟩ := Prod.mk.inj (Except.ok.inj hperform)
  refine ⟨hw.write hunique (.of_engine rfl) rfl fun id marks hmarks => ?_, .of_engine rfl, rfl⟩
  rw [Store.marksOf_upsertSeen] at hmarks
  split at hmarks
  · next hid =>
    obtain rfl := Option.some.inj hmarks
    exact .inr ⟨hid ▸ hc.issued, fun spec hspec hspecID => hc.marks spec hspec (hspecID.trans hid)⟩
  · exact .inl hmarks

/-- The rows that remain are as they were. -/
theorem Store.marksOf_pruneContainers {s : Store} (h : s.UniqueIDs) (liveIDs : List String)
    (id : String) : ∀ marks ∈ (s.pruneContainers liveIDs).marksOf id, s.marksOf id = some marks := by
  intro marks hmarks
  obtain ⟨row, hrow, rfl⟩ := Option.map_eq_some_iff.mp hmarks
  have hid := Table.lookup_key hrow
  have hmem : row ∈ s.containers := by
    have hleft := Table.lookup_mem hrow
    unfold pruneContainers at hleft
    split at hleft
    · exact hleft
    · exact (Table.mem_deleteWhere.mp hleft).1
  have hfound : s.getContainer id = some row := hid ▸ Table.lookup_of_mem h hmem
  exact Option.map_eq_some_iff.mpr ⟨row, hfound, rfl⟩

theorem step_prune {w w' : World} {ctx : Context} {liveIDs : List String}
    {reply : Except GoError Unit} (h : openSystem.step w (.store ctx (.pruneContainers liveIDs)) reply w')
    (hw : Honoured w) : Honoured w' ∧ SameLists w w' := by
  have hunique := step_uniqueIDs h hw.unique
  have hlists : w'.store.exclusions = w.store.exclusions := by
    refine step_lists (fun ctx call heq => ?_) h
    cases heq
    exact id
  rcases step_store h with ⟨err, -, rfl⟩ | ⟨result, store, -, hperform, -, rfl⟩
  · exact ⟨hw, .of_engine rfl, rfl⟩
  obtain ⟨-, rfl⟩ := Prod.mk.inj (Except.ok.inj hperform)
  exact ⟨hw.write hunique (.of_engine rfl) hlists fun id marks hmarks =>
    .inl (Store.marksOf_pruneContainers hw.unique liveIDs id marks hmarks), .of_engine rfl, hlists⟩

theorem honoured_rely {w w' : World} (h : openSystem.rely w w') (hw : Honoured w) :
    Honoured w' ∧ SameLists w w' :=
  ⟨(sameMarks_rely h).honoured hw, (sameMarks_rely h).sameLists⟩

/-- A program that writes no flag. -/
theorem runs_honours {α : Type} {p : Go α} (hp : p.Uses Call.SparesMarks) {w w' : World}
    {trace : Trace Calls World} {a : α} (h : openSystem.Runs p w trace a w') (hw : Honoured w) :
    Honoured w' ∧ SameLists w w' :=
  ⟨(runs_sparesMarks hp h).honoured hw, (runs_sparesMarks hp h).sameLists⟩

theorem seeEach_honours {ctx : Context} {cs : List ListedContainer} {w w' : World}
    {trace : Trace Calls World} (h : openSystem.Runs (seeEach ctx cs) w trace () w')
    (hw : Honoured w) (hcs : ∀ c ∈ cs, SeenRight w c) : Honoured w' ∧ SameLists w w' := by
  induction cs generalizing w trace with
  | nil =>
    obtain ⟨-, -, rfl⟩ := h
    exact ⟨hw, .of_engine rfl, rfl⟩
  | cons c rest ih =>
    obtain ⟨hc, hrest⟩ := List.forall_mem_cons.mp hcs
    obtain ⟨w₀, reply, w₁, later, hrely, hstep, -, hnext⟩ := Machine.runs_request_bind.mp h
    obtain ⟨hw₀, hsame₀⟩ := honoured_rely hrely hw
    obtain ⟨hw₁, hsame₁⟩ := step_upsertSeen hstep hw₀ (hc.later hsame₀)
    -- a failed write is reported, and the rest goes on
    have hreport : ∃ (w₂ : World) (last : Trace Calls World), (Honoured w₂ ∧ SameLists w₁ w₂) ∧
        openSystem.Runs (seeEach ctx rest) w₂ last () w' := by
      cases reply with
      | ok _ => exact ⟨w₁, _, ⟨hw₁, .of_engine rfl, rfl⟩, hnext⟩
      | error err =>
        obtain ⟨w₂, _, w₃, last, hrely, hemit, -, hlast⟩ := Machine.runs_request_bind.mp hnext
        obtain ⟨hw₂, hsame₂⟩ := honoured_rely hrely hw₁
        have hsilent : SameMarks w₂ w₃ := step_sparesMarks (sparesMarks_emit _) hemit
        exact ⟨w₃, last, ⟨hsilent.honoured hw₂, hsame₂.trans hsilent.sameLists⟩, hlast⟩
    obtain ⟨w₂, last, ⟨hw₂, hsame₂⟩, hlast⟩ := hreport
    have hsame := (hsame₀.trans hsame₁).trans hsame₂
    obtain ⟨hw', hsame'⟩ := ih hlast hw₂ fun other hother => (hrest other hother).later hsame
    exact ⟨hw', hsame.trans hsame'⟩

/-- Discovery reads the lists, or they name no live container but by chance one that opts out. -/
def FindsLists : Event Calls World → Prop
  | ⟨w, .store _ .getExclusions, .error _⟩ => ∀ spec ∈ w.engine.specs,
      w.store.exclusions.Names spec.name spec.config → spec.config.OptsOut
  | _ => True

instance (e : Event Calls World) : Decidable (FindsLists e) :=
  decidable_of_iff ((match e with
    | ⟨w, .store _ .getExclusions, .error _⟩ => decide (∀ spec ∈ w.engine.specs,
      w.store.exclusions.Names spec.name spec.config → spec.config.OptsOut)
    | _ => true : Bool) = true) (by unfold FindsLists; split <;> simp)

/-- What discovery makes of a listed container, given lists that name the same ones as those saved. -/
theorem seenRight_listed {w w₁ : World} {spec : ContainerSpec} (hspec : spec ∈ w.engine.specs)
    (hsame : SameLists w w₁) {ex : Exclusions} (hex : ∀ other ∈ w₁.engine.specs,
      w₁.store.exclusions.Covers other.name other.config ↔ ex.Covers other.name other.config)
    (statusTexts : String → String) :
    SeenRight w₁ (withSettings ex (w.engine.listedContainer statusTexts spec)) := by
  have hid : (withSettings ex (w.engine.listedContainer statusTexts spec)).id = spec.id := by
    unfold withSettings
    split <;> rfl
  refine ⟨hid ▸ hsame.grows.issued (w.engine.ids_issued spec hspec), fun other hother heq => ?_⟩
  rw [hid] at heq
  have hold : other ∈ w.engine.specs :=
    (hsame.grows.specs other hother).resolve_right fun hnew => hnew (heq ▸ w.engine.ids_issued spec hspec)
  obtain rfl := List.inj_on_of_nodup_map w.engine.ids_nodup hold hspec heq
  have hflag : decide (w₁.store.exclusions.Covers other.name other.config) =
      decide (ex.Covers other.name other.config) := decide_eq_decide.mpr (hex other hother)
  unfold ContainerSpec.marks
  rw [hflag]
  unfold withSettings Exclusions.Covers Exclusions.Names Config.OptsOut
  split
  · next hnamed =>
    have hnamed' : other.name ∈ ex.containers ∨ other.config.stack ∈ ex.stackNames := by
      simpa [Engine.listedContainer] using hnamed
    simp [Engine.listedContainer, hnamed']
  · next hnamed =>
    have hnamed' : ¬ (other.name ∈ ex.containers ∨ other.config.stack ∈ ex.stackNames) := by
      simpa [Engine.listedContainer] using hnamed
    simp only [hnamed', or_false, Engine.listedContainer]
    rfl

/-- Discovery writes the row of every live container as it ought to be. -/
theorem discover_honours {ctx : Context} {w w₁ : World} {trace : Trace Calls World}
    {found : Option (List ListedContainer)} (h : openSystem.Runs (discover ctx) w trace found w₁)
    (hw : Honoured w) (hfinds : ∀ e ∈ trace, FindsLists e) : Honoured w₁ ∧ SameLists w w₁ := by
  obtain ⟨w₂, listed, w₃, later, hrely, hlist, rfl, hnext⟩ := Machine.runs_request_bind.mp h
  obtain ⟨hw₂, hsame₂⟩ := honoured_rely hrely hw
  obtain ⟨rfl, hlisted⟩ := step_list hlist
  rcases hlisted with ⟨err, rfl⟩ | ⟨statusTexts, rfl⟩
  · obtain ⟨hw₁, hsame₁⟩ := runs_honours (by exact ⟨sparesMarks_emit _, fun _ => trivial⟩) hnext hw₂
    exact ⟨hw₁, hsame₂.trans hsame₁⟩
  obtain ⟨w₄, lists, w₅, later, hrely, hread, rfl, hlisted⟩ := Machine.runs_request_bind.mp hnext
  obtain ⟨hw₄, hsame₄⟩ := honoured_rely hrely hw₂
  obtain rfl : w₅ = w₄ := step_read (by trivial) hread
  have hex : ∀ other ∈ w₅.engine.specs, w₅.store.exclusions.Covers other.name other.config ↔
      (exclusionsOf lists).Covers other.name other.config := by
    intro other hother
    rcases step_store hread with ⟨err, rfl, -⟩ | ⟨result, store, -, hperform, rfl, -⟩
    · have hquiet : FindsLists ⟨w₅, .store ctx .getExclusions, .error err⟩ := hfinds _ (by simp)
      constructor
      · rintro (hout | hnamed)
        · exact .inl hout
        · exact .inl (hquiet other hother hnamed)
      · rintro (hout | hnamed | hnamed)
        · exact .inl hout
        · cases hnamed
        · cases hnamed
    · obtain ⟨rfl, -⟩ := Prod.mk.inj (Except.ok.inj hperform)
      exact Iff.rfl
  obtain ⟨seen, _, w₆, later, hsee, hprune, -⟩ := Machine.runs_bind.mp hlisted
  obtain ⟨hw₆, hsame₆⟩ : Honoured w₆ ∧ SameLists w₅ w₆ := by
    refine seeEach_honours hsee hw₄ fun c hc => ?_
    obtain ⟨listed, hlisted, rfl⟩ := List.mem_map.mp hc
    obtain ⟨spec, hspec, rfl⟩ := List.mem_map.mp hlisted
    exact seenRight_listed hspec hsame₄ hex statusTexts
  obtain ⟨w₇, pruned, w₈, later, hrely, hstep, -, hnext⟩ := Machine.runs_request_bind.mp hprune
  obtain ⟨hw₇, hsame₇⟩ := honoured_rely hrely hw₆
  obtain ⟨hw₈, hsame₈⟩ := step_prune hstep hw₇
  have hreport : Honoured w₁ ∧ SameLists w₈ w₁ := by
    cases pruned with
    | ok _ => exact runs_honours (by exact ⟨sparesMarks_emit _, fun _ => trivial⟩) hnext hw₈
    | error err =>
      exact runs_honours (by exact ⟨sparesMarks_emit _, fun _ => ⟨sparesMarks_emit _, fun _ => trivial⟩⟩)
        hnext hw₈
  exact ⟨hreport.1, ((((hsame₂.trans hsame₄).trans hsame₆).trans hsame₇).trans hsame₈).trans hreport.2⟩

theorem check_honours {ctx : Context} {w w' : World} {trace : Trace Calls World}
    (h : openSystem.Runs (check ctx) w trace () w') (hw : Honoured w)
    (hfinds : ∀ e ∈ trace, FindsLists e) : Honoured w' ∧ SameLists w w' := by
  obtain ⟨first, found, w₁, rest, hdiscover, hcheck, rfl⟩ := Machine.runs_bind.mp h
  obtain ⟨hw₁, hsame₁⟩ :=
    discover_honours hdiscover hw fun e he => hfinds e (List.mem_append_left _ he)
  have hafter : Honoured w' ∧ SameLists w₁ w' := by
    cases found with
    | none =>
      obtain ⟨-, -, rfl⟩ := hcheck
      exact ⟨hw₁, .of_engine rfl, rfl⟩
    | some containers =>
      exact runs_honours (Program.uses_mono (fun _ => sparesMarks_of_checks)
        (checkForUpdates_checks ctx containers)) hcheck hw₁
  exact ⟨hafter.1, hsame₁.trans hafter.2⟩

/-! ### A change of the lists -/

/-- The lists after a write of one of them. -/
def Exclusions.after (ex : Exclusions) : Event Calls World → Exclusions
  | ⟨_, .store _ (.saveExcludedContainers names), .ok _⟩ => { ex with containers := names }
  | ⟨_, .store _ (.saveExcludedStacks stackNames), .ok _⟩ => { ex with stackNames := stackNames }
  | _ => ex

/-- The flags were recomputed. -/
def Recomputes : Event Calls World → Prop
  | ⟨_, .store _ (.applyExclusions _), .ok _⟩ => True
  | _ => False

instance (e : Event Calls World) : Decidable (Recomputes e) :=
  decidable_of_iff ((match e with
    | ⟨_, .store _ (.applyExclusions _), .ok _⟩ => true
    | _ => false : Bool) = true) (by unfold Recomputes; split <;> simp)

/-- The lists a change saves name every tracked container that opts out by its label, if the flags
are recomputed, and otherwise the same ones of the others as before. -/
def ListsHeed (w : World) (trace : Trace Calls World) : Prop :=
  if ∃ e ∈ trace, Recomputes e then
    ∀ spec ∈ w.engine.specs, (w.store.marksOf spec.id).isSome = true → spec.config.OptsOut →
      (trace.foldl Exclusions.after w.store.exclusions).Names spec.name spec.config
  else
    ∀ spec ∈ w.engine.specs, (w.store.marksOf spec.id).isSome = true → ¬ spec.config.OptsOut →
      ((trace.foldl Exclusions.after w.store.exclusions).Names spec.name spec.config ↔
        w.store.exclusions.Names spec.name spec.config)

instance (w : World) (trace : Trace Calls World) : Decidable (ListsHeed w trace) := by
  unfold ListsHeed; infer_instance

theorem step_exclusions {w w' : World} {op : Call} {r : op.Reply} (h : openSystem.step w op r w') :
    w'.store.exclusions = w.store.exclusions.after ⟨w, op, r⟩ := by
  by_cases hop : ∃ ctx call, op = .store ctx call ∧ call.EditsLists
  · obtain ⟨ctx, call, rfl, hcall⟩ := hop
    rcases step_store h with ⟨err, rfl, rfl⟩ | ⟨result, store, -, hperform, rfl, rfl⟩
    · cases call <;> rfl
    · cases call with
      | saveExcludedContainers | saveExcludedStacks =>
        obtain ⟨-, rfl⟩ := Prod.mk.inj (Except.ok.inj hperform)
        rfl
      | _ => exact hcall.elim
  · have hquiet : ∀ ctx call, op = .store ctx call → ¬ call.EditsLists :=
      fun ctx call heq hcall => hop ⟨ctx, call, heq, hcall⟩
    rw [step_lists hquiet h]
    cases op with
    | store ctx call =>
      cases call with
      | saveExcludedContainers | saveExcludedStacks => exact absurd trivial (hquiet _ _ rfl)
      | _ => rfl
    | _ => rfl

theorem path_exclusions {w w' : World} {trace : Trace Calls World}
    (h : openSystem.Path w trace w') :
    w'.store.exclusions = trace.foldl Exclusions.after w.store.exclusions := by
  induction trace generalizing w with
  | nil => rw [h]; rfl
  | cons e rest ih =>
    obtain ⟨w₁, hrely, hstep, hrest⟩ := h
    rw [ih hrest, step_exclusions hstep, List.foldl_cons]
    have hstore : e.world.store = w.store := (World.Drifts.frame hrely).store
    rw [hstore]

/-- Lists that change where no row tells. -/
theorem Honoured.relist {w w' : World} (h : Honoured w) (hsame : SameRows w w')
    (hnames : ∀ spec ∈ w.engine.specs, (w.store.marksOf spec.id).isSome = true →
      ¬ spec.config.OptsOut → (w'.store.exclusions.Names spec.name spec.config ↔
        w.store.exclusions.Names spec.name spec.config)) : Honoured w' where
  unique := hsame.unique h.unique
  issued id hid := hsame.grows.issued (h.issued id (by rw [← hsame.rows]; exact hid))
  flagged spec hspec marks hmarks := by
    rw [hsame.rows] at hmarks
    have htracked : (w.store.marksOf spec.id).isSome = true := by
      rw [Option.isSome_iff_exists]
      exact ⟨marks, hmarks⟩
    have hold := (hsame.grows.specs spec hspec).resolve_right fun hnew =>
      hnew (h.issued spec.id htracked)
    have hcovers : w.store.exclusions.Covers spec.name spec.config ↔
        w'.store.exclusions.Covers spec.name spec.config := by
      unfold Exclusions.Covers
      by_cases hout : spec.config.OptsOut
      · simp only [hout, true_or]
      · simp only [hout, false_or, hnames spec hold htracked hout]
    have hflag : decide (w.store.exclusions.Covers spec.name spec.config) =
        decide (w'.store.exclusions.Covers spec.name spec.config) := decide_eq_decide.mpr hcovers
    rw [h.flagged spec hold marks hmarks]
    unfold ContainerSpec.marks
    rw [hflag]

theorem Store.marksOf_applyExclusions (s : Store) (ex : Exclusions) (id : String) :
    (s.applyExclusions ex).marksOf id = (s.marksOf id).map fun marks =>
      (marks.1, marks.2.1, ex.containers.contains marks.1 || ex.stackNames.contains marks.2.1) := by
  have hrow := Table.lookup_updateWhere ContainerRecord.id (fun _ => true)
    (fun r : ContainerRecord =>
      { r with excluded := ex.containers.contains r.name || ex.stackNames.contains r.stack })
    (fun _ => rfl) id s.containers
  refine (congrArg (Option.map ContainerRecord.marks) hrow).trans ?_
  unfold marksOf getContainer
  cases Table.lookup ContainerRecord.id id s.containers <;> rfl

/-- Flags recomputed from lists that name every container that opts out. -/
theorem Honoured.recompute {w w' : World} (h : Honoured w) (hunique : w'.store.UniqueIDs)
    (hgrows : World.Grows w w')
    (hrows : ∀ id, w'.store.marksOf id = (w.store.marksOf id).map fun marks =>
      (marks.1, marks.2.1, w'.store.exclusions.containers.contains marks.1 ||
        w'.store.exclusions.stackNames.contains marks.2.1))
    (hnames : ∀ spec ∈ w.engine.specs, (w.store.marksOf spec.id).isSome = true →
      spec.config.OptsOut → w'.store.exclusions.Names spec.name spec.config) : Honoured w' where
  unique := hunique
  issued id hid := hgrows.issued (h.issued id (by rw [hrows, Option.isSome_map] at hid; exact hid))
  flagged spec hspec marks hmarks := by
    rw [hrows] at hmarks
    obtain ⟨old, hfound, rfl⟩ := Option.map_eq_some_iff.mp hmarks
    have htracked : (w.store.marksOf spec.id).isSome = true := by rw [hfound]; rfl
    have hold := (hgrows.specs spec hspec).resolve_right fun hnew => hnew (h.issued spec.id htracked)
    have hcovers : w'.store.exclusions.Covers spec.name spec.config ↔
        w'.store.exclusions.Names spec.name spec.config :=
      ⟨fun hcovers => hcovers.elim (hnames spec hold htracked) id, Or.inr⟩
    have hflag : decide (w'.store.exclusions.Covers spec.name spec.config) =
        decide (w'.store.exclusions.Names spec.name spec.config) := decide_eq_decide.mpr hcovers
    obtain rfl := h.flagged spec hold old hfound
    refine Prod.ext rfl (Prod.ext rfl ?_)
    change _ = decide (w'.store.exclusions.Covers spec.name spec.config)
    rw [hflag, Bool.eq_iff_iff, decide_eq_true_iff]
    simp [Exclusions.Names, ContainerSpec.marks]

/-- The two writes of the lists. -/
theorem setExclusions_runs {ctx : Context} {ex : Exclusions} {w w' : World}
    {trace : Trace Calls World} {out : Except GoError Unit}
    (h : openSystem.Runs (Api.setExclusions ctx ex) w trace out w') :
    SameRows w w' ∧ (∀ e ∈ trace, ¬ Recomputes e) ∧
      (out = .ok () → w'.store.exclusions = ex) := by
  have huses : (Api.setExclusions ctx ex).Uses fun op : Call =>
      op.SparesRows ∧ ∀ ctx ex, op ≠ .store ctx (.applyExclusions ex) := by
    refine ⟨⟨⟨id, rfl⟩, fun _ _ heq => by cases heq⟩, fun saved => ?_⟩
    cases saved with
    | error err => trivial
    | ok _ => exact ⟨⟨⟨id, rfl⟩, fun _ _ heq => by cases heq⟩, fun _ => trivial⟩
  refine ⟨runs_sparesRows (Program.uses_mono (fun _ h => h.1) huses) h, fun e he => ?_, ?_⟩
  · intro hrecomputes
    have hop := (Machine.runs_uses huses h e he).2
    unfold Recomputes at hrecomputes
    split at hrecomputes
    · exact hop _ _ rfl
    · exact hrecomputes
  · rintro rfl
    rw [path_exclusions (Machine.runs_path h)]
    obtain ⟨w₀, saved, w₁, later, -, -, rfl, hnext⟩ := Machine.runs_request_bind.mp h
    cases saved with
    | error err =>
      obtain ⟨-, hout, -⟩ := hnext
      cases hout
    | ok _ =>
      obtain ⟨w₂, reply, w₃, rest, -, -, rfl, hret⟩ := hnext
      obtain ⟨rfl, rfl, -⟩ := hret
      rfl

/-- A change of the lists that heeds the labels. -/
theorem settings_honours {ctx : Context} {body : Option Exclusions} {actorID : String}
    {w w' : World} {trace : Trace Calls World} {answer : Api.Answer}
    (h : openSystem.Runs (Api.handleSetExclusions ctx body actorID) w trace answer w')
    (hw : Honoured w) (hheeds : ListsHeed w trace) : Honoured w' := by
  have hlists := path_exclusions (Machine.runs_path h)
  unfold ListsHeed at hheeds
  rw [← hlists] at hheeds
  cases body with
  | none =>
    obtain ⟨-, -, rfl⟩ := h
    exact hw
  | some ex =>
    obtain ⟨first, saved, w₁, rest, hsave, hnext, rfl⟩ := Machine.runs_bind.mp h
    obtain ⟨hsame, hquiet, hsaved⟩ := setExclusions_runs hsave
    cases saved with
    | error err =>
      obtain ⟨rfl, -, rfl⟩ := hnext
      rw [if_neg (by simpa using hquiet)] at hheeds
      exact hw.relist hsame hheeds
    | ok _ =>
      obtain ⟨w₂, applied, w₃, later, hrely, happly, rfl, hend⟩ := Machine.runs_request_bind.mp hnext
      have hsame₂ := hsame.trans (sameMarks_rely hrely).toSameRows
      rcases step_store happly with ⟨err, rfl, rfl⟩ | ⟨result, store, -, hperform, rfl, rfl⟩
      · obtain ⟨rfl, -, rfl⟩ := hend
        rw [if_neg] at hheeds
        · exact hw.relist hsame₂ hheeds
        · rintro ⟨e, he, hrecomputes⟩
          rcases List.mem_append.mp he with he | he
          · exact hquiet e he hrecomputes
          · obtain rfl := List.mem_singleton.mp he
            exact hrecomputes
      · obtain ⟨-, rfl⟩ := Prod.mk.inj (Except.ok.inj hperform)
        rw [if_pos ⟨_, List.mem_append_right _ List.mem_cons_self, trivial⟩] at hheeds
        have hafter : SameMarks _ w' :=
          runs_sparesMarks (by exact ⟨sparesMarks_emit _, fun _ => trivial⟩) hend
        have hsaved : w₂.store.exclusions = ex :=
          (sameMarks_rely hrely).lists.trans (hsaved rfl)
        have hunique := step_uniqueIDs happly (hsame₂.unique hw.unique)
        have hgrows := (hsame₂.grows.trans (step_grows id happly)).trans hafter.grows
        refine hw.recompute (hafter.unique hunique) hgrows (fun id => ?_) hheeds
        rw [hafter.rows, hafter.lists]
        change (w₂.store.applyExclusions ex).marksOf id = _
        rw [Store.marksOf_applyExclusions, hsame₂.rows]
        change _ = Option.map (fun marks => (marks.1, marks.2.1,
          w₂.store.exclusions.containers.contains marks.1 ||
            w₂.store.exclusions.stackNames.contains marks.2.1)) (w.store.marksOf id)
        rw [hsaved]

end Doupro
