import Doupro.Updater.Commits

/-!
# The excluded flag of a row

Discovery, the settings and every commit write the flag. A commit inserts its row with the flag
cleared, so an operation keeps the flag right as far as its container is not excluded.
-/

namespace Doupro

open Go Interaction Updater

/-! ### What the flag stands for -/

/-- The label opts a container out. -/
def Config.OptsOut (config : Config) : Prop := config.label "doupro.enable" = "false"

/-- The settings name a container or its stack. -/
def Exclusions.Names (ex : Exclusions) (name : String) (config : Config) : Prop :=
  name ∈ ex.containers ∨ config.stack ∈ ex.stackNames

/-- A container is excluded. -/
def Exclusions.Covers (ex : Exclusions) (name : String) (config : Config) : Prop :=
  config.OptsOut ∨ ex.Names name config

instance (config : Config) : Decidable config.OptsOut := inferInstanceAs (Decidable (_ = _))

instance (ex : Exclusions) (name : String) (config : Config) : Decidable (ex.Names name config) :=
  inferInstanceAs (Decidable (_ ∨ _))

instance (ex : Exclusions) (name : String) (config : Config) : Decidable (ex.Covers name config) :=
  inferInstanceAs (Decidable (_ ∨ _))

/-- The columns of a row that say whether it is excluded, and those the settings go by. -/
def ContainerRecord.marks (r : ContainerRecord) : String × String × Bool :=
  (r.name, r.stack, r.excluded)

def Store.marksOf (s : Store) (id : String) : Option (String × String × Bool) :=
  (s.getContainer id).map ContainerRecord.marks

/-- What those columns ought to hold. -/
def ContainerSpec.marks (ex : Exclusions) (spec : ContainerSpec) : String × String × Bool :=
  (spec.name, spec.config.stack, decide (ex.Covers spec.name spec.config))

theorem Store.marksOf_eq (s : Store) (id : String) :
    s.marksOf id = (s.definedOf id).map fun columns => (columns.1, columns.2.1, columns.2.2.2.2) := by
  unfold marksOf definedOf
  cases s.getContainer id <;> rfl

theorem Store.marksOf_updateWhere (s : Store) (id : String) (p : ContainerRecord → Bool)
    (set : ContainerRecord → ContainerRecord) (hid : ∀ r, (set r).id = r.id)
    (hset : ∀ r, (set r).marks = r.marks) :
    ({ s with containers := Table.updateWhere p set s.containers } : Store).marksOf id =
      s.marksOf id := by
  unfold marksOf getContainer
  rw [Table.lookup_updateWhere _ _ _ hid]
  cases Table.lookup ContainerRecord.id id s.containers with
  | none => rfl
  | some r =>
    simp only [Option.map_some]
    split
    · rw [hset]
    · rfl

/-- The statements on rows that set the columns for other containers than that of a commit. -/
def StoreCall.Marks : StoreCall → Prop
  | .upsertSeen _ | .pruneContainers _ | .applyExclusions _ => True
  | _ => False

/-- Every other statement replaces a row or leaves the columns alone. -/
theorem Store.perform_marks {s s' : Store} {now : Time} {call : StoreCall} {result : call.Result}
    (hcall : ¬ call.Marks) (h : s.perform now call = .ok (result, s')) (id : String) :
    s'.marksOf id = match call.replaces with
      | some (oldID, rec) => (s.replaceContainer oldID rec).marksOf id
      | none => s.marksOf id := by
  by_cases hrepair : ∃ repaired image, call = .repairCurrentImage repaired image
  · obtain ⟨repaired, image, rfl⟩ := hrepair
    obtain ⟨-, rfl⟩ := Prod.mk.inj (Except.ok.inj h)
    exact s.marksOf_updateWhere id _ _ (fun _ => rfl) fun _ => rfl
  · have hquiet : ¬ call.Discovers := by
      cases call with
      | upsertSeen | pruneContainers | applyExclusions => exact absurd trivial hcall
      | repairCurrentImage repaired image => exact absurd ⟨repaired, image, rfl⟩ hrepair
      | _ => exact fun hdiscovers => hdiscovers
    rw [Store.marksOf_eq, Store.perform_rows hquiet h id]
    cases call.replaces <;> exact (Store.marksOf_eq _ _).symm

/-- What a commit leaves of the columns. -/
theorem Store.marksOf_replaceContainer (s : Store) (oldID : String) (rec : ContainerRecord)
    (id : String) : (s.replaceContainer oldID rec).marksOf id =
      if id = rec.id then
        some (rec.name, rec.stack, (s.getContainer id).any ContainerRecord.excluded)
      else if id = oldID ∧ oldID ≠ "" then none else s.marksOf id := by
  unfold marksOf
  rw [getContainer_replaceContainer]
  split
  · cases s.getContainer id <;> rfl
  · split <;> rfl

/-! ### Worlds whose flags are right -/

/-- Docker issued the ID of every row, and the row of a live container says what it ought to. -/
structure Honoured (w : World) : Prop where
  unique : w.store.UniqueIDs
  issued : ∀ id, (w.store.marksOf id).isSome = true → id ∈ w.engine.issued
  flagged : ∀ spec ∈ w.engine.specs, ∀ marks ∈ w.store.marksOf spec.id,
    marks = spec.marks w.store.exclusions

theorem Honoured.excluded_iff {w : World} (h : Honoured w) {spec : ContainerSpec}
    (hspec : spec ∈ w.engine.specs) {row : ContainerRecord}
    (hrow : w.store.getContainer spec.id = some row) :
    row.excluded = true ↔ w.store.exclusions.Covers spec.name spec.config := by
  have hmarks := h.flagged spec hspec row.marks (Option.map_eq_some_iff.mpr ⟨row, hrow, rfl⟩)
  have hflag : row.excluded = decide (w.store.exclusions.Covers spec.name spec.config) :=
    congrArg (fun marks : String × String × Bool => marks.2.2) hmarks
  rw [hflag, decide_eq_true_iff]

/-- A store that tracks nothing. -/
theorem honoured_of_empty {w : World} (h : w.store.containers = []) : Honoured w := by
  have hnone : ∀ id, w.store.marksOf id = none := by
    intro id
    unfold Store.marksOf Store.getContainer
    rw [h]
    rfl
  refine ⟨?_, fun id hid => ?_, fun spec _ marks hmarks => ?_⟩
  · unfold Store.UniqueIDs
    rw [h]
    exact List.nodup_nil
  · rw [hnone] at hid
    cases hid
  · rw [hnone] at hmarks
    cases hmarks

/-- Rows that are as they were, and rows that were written as they ought to be. -/
theorem Honoured.write {w w' : World} (h : Honoured w) (hunique : w'.store.UniqueIDs)
    (hgrows : World.Grows w w') (hlists : w'.store.exclusions = w.store.exclusions)
    (hrows : ∀ id, ∀ marks ∈ w'.store.marksOf id, w.store.marksOf id = some marks ∨
      (id ∈ w'.engine.issued ∧ ∀ spec ∈ w'.engine.specs, spec.id = id →
        marks = spec.marks w'.store.exclusions)) : Honoured w' where
  unique := hunique
  issued id hid := by
    obtain ⟨marks, hmarks⟩ := Option.isSome_iff_exists.mp hid
    rcases hrows id marks hmarks with hold | ⟨hissued, -⟩
    · exact hgrows.issued (h.issued id (by rw [hold]; rfl))
    · exact hissued
  flagged spec hspec marks hmarks := by
    rcases hrows spec.id marks hmarks with hold | ⟨-, hnew⟩
    · rcases hgrows.specs spec hspec with hthere | hfresh
      · rw [hlists]
        exact h.flagged spec hthere marks hold
      · exact absurd (h.issued spec.id (by rw [hold]; rfl)) hfresh
    · exact hnew spec hspec rfl

theorem Honoured.keep {w w' : World} (h : Honoured w) (hunique : w'.store.UniqueIDs)
    (hgrows : World.Grows w w') (hlists : w'.store.exclusions = w.store.exclusions)
    (hrows : ∀ id, w'.store.marksOf id = w.store.marksOf id) : Honoured w' :=
  h.write hunique hgrows hlists fun id marks hmarks => .inl (by rw [← hrows]; exact hmarks)

/-! ### Calls -/

/-- A call that writes none of the columns and changes no container. -/
def Call.SparesRows : Call → Prop
  | .docker _ (.create _ _ _ _) | .docker _ (.rename _ _) => False
  | .store _ call => ¬ call.Marks ∧ call.replaces = none
  | _ => True

/-- One that writes no list either. -/
def Call.SparesMarks (call : Call) : Prop :=
  call.SparesRows ∧ ∀ ctx request, call = .store ctx request → ¬ request.EditsLists

theorem step_lists {w w' : World} {op : Call} {r : op.Reply}
    (hop : ∀ ctx call, op = .store ctx call → ¬ call.EditsLists) (h : openSystem.step w op r w') :
    w'.store.exclusions = w.store.exclusions := by
  refine @step_keeps _ Store.exclusions w w' op r ?_ h
  cases op with
  | store ctx call => exact fun s now result s' hok => Store.perform_lists (hop ctx call rfl) hok
  | _ => trivial

theorem step_marks {w w' : World} {op : Call} {r : op.Reply}
    (hop : ∀ ctx call, op = .store ctx call → ¬ call.Marks) (h : openSystem.step w op r w')
    (id : String) : w'.store.marksOf id = match committedBy ⟨w, op, r⟩ with
      | some (oldID, rec) => (w.store.replaceContainer oldID rec).marksOf id
      | none => w.store.marksOf id := by
  cases op with
  | store ctx call =>
    rcases step_store h with ⟨err, rfl, rfl⟩ | ⟨result, store, -, hperform, rfl, rfl⟩
    · rfl
    · exact Store.perform_marks (hop ctx call rfl) hperform id
  | _ =>
    have hkeeps := @step_keeps _ (fun s => s) w w' _ r trivial h
    exact congrArg (fun s => Store.marksOf s id) hkeeps

/-- What calls leave of a world that write no column. -/
structure SameRows (w w' : World) : Prop where
  unique : w.store.UniqueIDs → w'.store.UniqueIDs
  grows : World.Grows w w'
  rows : ∀ id, w'.store.marksOf id = w.store.marksOf id

structure SameMarks (w w' : World) : Prop extends SameRows w w' where
  lists : w'.store.exclusions = w.store.exclusions

theorem SameRows.refl (w : World) : SameRows w w := ⟨id, .of_engine rfl, fun _ => rfl⟩

theorem SameRows.trans {w w₁ w' : World} (h : SameRows w w₁) (h' : SameRows w₁ w') : SameRows w w' :=
  ⟨h'.unique ∘ h.unique, h.grows.trans h'.grows, fun id => (h'.rows id).trans (h.rows id)⟩

theorem SameMarks.refl (w : World) : SameMarks w w := ⟨.refl w, rfl⟩

theorem SameMarks.trans {w w₁ w' : World} (h : SameMarks w w₁) (h' : SameMarks w₁ w') :
    SameMarks w w' :=
  ⟨h.toSameRows.trans h'.toSameRows, h'.lists.trans h.lists⟩

theorem SameMarks.honoured {w w' : World} (h : SameMarks w w') (hw : Honoured w) : Honoured w' :=
  hw.keep (h.unique hw.unique) h.grows h.lists h.rows

theorem sameMarks_rely {w w' : World} (h : openSystem.rely w w') : SameMarks w w' := by
  have hstore := (World.Drifts.frame h).store
  exact ⟨⟨by rw [hstore]; exact id, .of_frame openSystem_hosts (World.Drifts.frame h),
    fun id => by rw [hstore]⟩, by rw [hstore]⟩

theorem step_sparesRows {w w' : World} {op : Call} {r : op.Reply} (hop : op.SparesRows)
    (h : openSystem.step w op r w') : SameRows w w' := by
  refine ⟨step_uniqueIDs h, step_grows ?_ h, fun id => ?_⟩
  · cases op with
    | docker ctx call =>
      cases call with
      | rename => exact hop.elim
      | _ => exact id
    | _ => exact id
  · have hmarks : ∀ ctx call, op = .store ctx call → ¬ call.Marks := by
      rintro ctx call rfl
      exact hop.1
    have hnone : committedBy ⟨w, op, r⟩ = none := by
      cases op with
      | store ctx call =>
        cases r with
        | error err => rfl
        | ok result => exact hop.2
      | _ => rfl
    rw [step_marks hmarks h id, hnone]

theorem step_sparesMarks {w w' : World} {op : Call} {r : op.Reply} (hop : op.SparesMarks)
    (h : openSystem.step w op r w') : SameMarks w w' :=
  ⟨step_sparesRows hop.1 h, step_lists hop.2 h⟩

/-- A program of such calls. -/
theorem runs_sparesRows {α : Type} {p : Go α} (hp : p.Uses Call.SparesRows) {w w' : World}
    {trace : Trace Calls World} {a : α} (h : openSystem.Runs p w trace a w') : SameRows w w' :=
  Machine.path_invariant (I := SameRows w) (P := fun e => Call.SparesRows e.op)
    (fun _ _ hI hrely => hI.trans (sameMarks_rely hrely).toSameRows)
    (fun _ _ _ _ hop hI hstep => hI.trans (step_sparesRows hop hstep))
    (Machine.runs_path h) (Machine.runs_uses hp h) (.refl w)

theorem runs_sparesMarks {α : Type} {p : Go α} (hp : p.Uses Call.SparesMarks) {w w' : World}
    {trace : Trace Calls World} {a : α} (h : openSystem.Runs p w trace a w') : SameMarks w w' :=
  Machine.path_invariant (I := SameMarks w) (P := fun e => Call.SparesMarks e.op)
    (fun _ _ hI hrely => hI.trans (sameMarks_rely hrely))
    (fun _ _ _ _ hop hI hstep => hI.trans (step_sparesMarks hop hstep))
    (Machine.runs_path h) (Machine.runs_uses hp h) (.refl w)

/-! ### Operations -/

/-- Docker gives a container the labels it was asked to create it with: no image brings a label
that excludes its containers or that puts them on a stack. -/
def KeepsLabels (w' : World) : Event Calls World → Prop
  | ⟨_, .docker _ (.create config _ _ _), .ok id⟩ => ∀ spec ∈ w'.engine.specs, spec.id = id →
      (spec.config.OptsOut ↔ config.OptsOut) ∧ spec.config.stack = config.stack
  | _ => True

/-- The calls on a host whose images bring no such labels. -/
def plainSystem : Machine Calls World where
  rely := openSystem.rely
  step w op r w' := openSystem.step w op r w' ∧ KeepsLabels w' ⟨w, op, r⟩

theorem plainSystem_runs {α : Type} {p : Go α} {w w' : World} {trace : Trace Calls World} {a : α}
    (h : plainSystem.Runs p w trace a w') : openSystem.Runs p w trace a w' := by
  induction p generalizing w trace with
  | ret b => exact h
  | call op next ih =>
    obtain ⟨w₀, r, w₁, rest, hrely, ⟨hstep, -⟩, rfl, hrest⟩ := h
    exact ⟨w₀, r, w₁, rest, hrely, hstep, rfl, ih r hrest⟩

/-- A program that creates no container asks nothing of the images. -/
theorem plainSystem_of_uses {α : Type} {p : Go α} (hp : p.Uses fun op : Call => ¬ op.Creates)
    {w w' : World} {trace : Trace Calls World} {a : α} (h : openSystem.Runs p w trace a w') :
    plainSystem.Runs p w trace a w' := by
  induction p generalizing w trace with
  | ret b => exact h
  | call op next ih =>
    obtain ⟨w₀, r, w₁, rest, hrely, hstep, rfl, hrest⟩ := h
    refine ⟨w₀, r, w₁, rest, hrely, ⟨hstep, ?_⟩, rfl, ih r (hp.2 r) hrest⟩
    unfold KeepsLabels
    split
    · next heq =>
      cases heq
      exact absurd trivial hp.1
    · trivial

/-- The statements of an operation leave the lists alone. -/
theorem operation_lists (call : OperationCall) :
    call.program.Uses (Call.Keeps Store.exclusions) := by
  have hkeeps : ∀ {ctx} {request : StoreCall}, ¬ request.EditsLists →
      Call.Keeps Store.exclusions (.store ctx request) :=
    fun hrequest _ _ _ _ hok => Store.perform_lists hrequest hok
  have hupdate : ∀ op, InUpdate op → Call.Keeps Store.exclusions op := by
    intro op hop
    cases op with
    | store ctx request => exact hkeeps (by cases request <;> first | exact hop.elim | exact id)
    | _ => trivial
  cases call with
  | update req =>
    refine Program.uses_bind ((Program.uses_request _).mpr (hkeeps id)) fun known => ?_
    exact withOperation_uses (fun _ _ => trivial) (fun _ _ => trivial) (fun _ => trivial) _ _ _ _
      (Program.uses_mono hupdate (updateGuarded_calls req))
  | rollback req =>
    refine Program.uses_mono (fun op hop => ?_) (rollback_calls req)
    cases op with
    | store ctx request => exact hkeeps (by cases request <;> first | exact hop.elim | exact id)
    | _ => trivial

/-- A snapshot of a container that is not excluded. -/
def Exclusions.Spares (ex : Exclusions) (before : InspectResponse) : Prop :=
  ∀ config, before.config = some config → ¬ ex.Covers (trimSlash before.name) config

/-- A row that a commit writes describes a container the operation made. -/
theorem Commits.described {call : OperationCall} {k : Notes} {rec : ContainerRecord}
    (h : Commits call k rec) : ∃ before read, k.started = some (before, read) ∧
      rec.name = trimSlash before.name ∧ rec.stack = stackOf before := by
  cases h with
  | @done before read result hstarted _ hrec =>
    refine ⟨before, read, hstarted, ?_⟩
    cases call with
    | update req =>
      obtain rfl := Option.some.inj hrec
      exact ⟨rfl, rfl⟩
    | rollback req =>
      cases read with
      | error err => cases hrec
      | ok old =>
        obtain rfl := Option.some.inj hrec
        exact ⟨rfl, rfl⟩
  | @reverted before read again op result hstarted hbefore hname _ _ hrec =>
    refine ⟨before, read, hstarted, ?_⟩
    subst hrec
    exact ⟨hname, by rw [← hbefore]; cases again <;> rfl⟩

/-- In the middle of an operation: the rows are right, what it made is like its container, and
if that is not excluded, neither is anything it noted or made. -/
structure Midway (call : OperationCall) (spared : Prop) (ex : Exclusions) (w : World) (k : Notes) :
    Prop where
  honoured : Honoured w
  lists : w.store.exclusions = ex
  made : ∀ id ∈ k.made, id ∈ w.engine.issued
  alike : ∀ {before read}, k.started = some (before, read) → ∀ spec ∈ w.engine.specs,
    spec.id ∈ k.made → spec.name = trimSlash before.name ∧ spec.config.stack = stackOf before
  idle : k.started = none → k.made = []
  own : spared → ∀ spec ∈ w.engine.specs, spec.id = call.containerID ∨ spec.id ∈ k.made →
    ¬ ex.Covers spec.name spec.config
  noted : spared → ∀ before ∈ k.before, ex.Spares before
  started : spared → ∀ {before read}, k.started = some (before, read) → ex.Spares before

theorem start_started {k : Notes} {before : InspectResponse} {read : Except GoError ContainerRecord}
    (h : k.start.started = some (before, read)) : k.started = some (before, read) ∨
      (k.started = none ∧ k.before = some before) := by
  unfold Notes.start at h
  split at h
  · next hnone hbefore hread =>
    obtain ⟨rfl, -⟩ := Prod.mk.inj (Option.some.inj h)
    exact .inr ⟨hnone, hbefore⟩
  · exact .inl h

theorem start_made (k : Notes) : k.start.made = k.made := by
  unfold Notes.start
  split <;> rfl

theorem start_before (k : Notes) : k.start.before = k.before := by
  unfold Notes.start
  split <;> rfl

/-- An operation renames no container. -/
theorem recording_renames {call : OperationCall} {k : Notes} {op : Call}
    (h : (recording call).allowed k op) : ¬ op.Renames := by
  intro hop
  cases op with
  | docker ctx request => cases request <;> first | exact hop.elim | exact h
  | _ => exact hop

namespace Midway

variable {call : OperationCall} {spared : Prop} {ex : Exclusions} {w w' : World} {k : Notes}

/-- A call that neither creates nor commits, and teaches nothing of a container. -/
theorem quiet (h : Midway call spared ex w k) (hspecs : w'.engine.specs ⊆ w.engine.specs)
    (hissued : w.engine.issued ⊆ w'.engine.issued) (hhonoured : Honoured w')
    (hlists : w'.store.exclusions = ex) : Midway call spared ex w' k where
  honoured := hhonoured
  lists := hlists
  made id hid := hissued (h.made id hid)
  alike hstarted spec hspec hid := h.alike hstarted spec (hspecs hspec) hid
  idle := h.idle
  own hspared spec hspec hid := h.own hspared spec (hspecs hspec) hid
  noted := h.noted
  started := h.started

/-- The notes taken of an inspect. -/
theorem inspect (h : Midway call spared ex w k) {spec : ContainerSpec}
    (hspec : spec ∈ w.engine.specs) (hid : spec.id = call.containerID) :
    Midway call spared ex w (k.inspected call (w.engine.inspectResponse spec)) where
  honoured := h.honoured
  lists := h.lists
  made id hmade := h.made id (by rwa [k.inspected_made call] at hmade)
  alike hstarted other hother hmade := by
    rw [k.inspected_started call] at hstarted
    rw [k.inspected_made call] at hmade
    exact h.alike hstarted other hother hmade
  idle hnone := by
    rw [k.inspected_started call] at hnone
    rw [k.inspected_made call]
    exact h.idle hnone
  own hspared other hother hmade := by
    rw [k.inspected_made call] at hmade
    exact h.own hspared other hother hmade
  noted hspared before hbefore := by
    rw [k.inspected_before call] at hbefore
    obtain rfl := Option.some.inj hbefore
    intro config hconfig
    obtain rfl := Option.some.inj hconfig
    have hname : trimSlash (w.engine.inspectResponse spec).name = spec.name :=
      trimSlash_slash spec.name
    rw [hname]
    exact h.own hspared spec hspec (.inl hid)
  started hspared := by
    rw [k.inspected_started call]
    exact h.started hspared

/-- The notes taken when the operation starts. -/
theorem start (h : Midway call spared ex w k) : Midway call spared ex w k.start where
  honoured := h.honoured
  lists := h.lists
  made id hmade := h.made id (by rwa [start_made] at hmade)
  alike hstarted spec hspec hmade := by
    rw [start_made] at hmade
    rcases start_started hstarted with hstarted | ⟨hnone, -⟩
    · exact h.alike hstarted spec hspec hmade
    · rw [h.idle hnone] at hmade
      cases hmade
  idle hnone := by
    rw [start_made]
    refine h.idle ?_
    cases hstarted : k.started with
    | none => rfl
    | some started =>
      rw [start_keeps (by rw [hstarted]; rfl), hstarted] at hnone
      cases hnone
  own hspared spec hspec hmade := by
    rw [start_made] at hmade
    exact h.own hspared spec hspec hmade
  noted hspared before hbefore := by
    rw [start_before] at hbefore
    exact h.noted hspared before hbefore
  started hspared _ _ hstarted := by
    rcases start_started hstarted with hstarted | ⟨-, hbefore⟩
    · exact h.started hspared hstarted
    · exact h.noted hspared _ hbefore

/-- A container made from a plan of the operation. -/
theorem create (h : Midway call spared ex w k) {plan : RecreationPlan} (hplan : k.Planned plan)
    {spec : ContainerSpec}
    (hmade : w.Creates plan.config plan.hostConfig plan.name spec w')
    (hlabels : (spec.config.OptsOut ↔ plan.config.OptsOut) ∧ spec.config.stack = plan.config.stack) :
    Midway call spared ex w' { k with made := spec.id :: k.made } := by
  obtain ⟨before, read, image, hstarted, hbuild⟩ := hplan
  obtain ⟨config, hostConfig, state, hconfig, -, -, -, hfields⟩ := buildRecreationPlan_ok hbuild
  have hname : spec.name = trimSlash before.name := hmade.named.trans (plan_name hbuild)
  have hstack : spec.config.stack = config.stack := by rw [hlabels.2, hfields]; rfl
  have hoptsOut : spec.config.OptsOut ↔ config.OptsOut := by rw [hlabels.1, hfields]; rfl
  have hspecs : ∀ other ∈ w'.engine.specs, other ∈ w.engine.specs ∨ other = spec := by
    intro other hother
    rw [hmade.specs] at hother
    exact (List.mem_append.mp hother).imp id List.mem_singleton.mp
  have hnew : ∀ id ∈ k.made, spec.id ≠ id := fun id hid heq => hmade.fresh (heq ▸ h.made id hid)
  refine ⟨h.honoured.keep (by rw [hmade.store]; exact h.honoured.unique) (.of_creates hmade)
      (by rw [hmade.store]) fun id => by rw [hmade.store],
    by rw [hmade.store]; exact h.lists, fun id hid => ?_, fun hstart other hother hid => ?_,
    fun hnone => ?_, fun hspared other hother hid => ?_, h.noted, h.started⟩
  · rw [hmade.issued]
    rcases List.mem_cons.mp hid with rfl | hid
    · exact List.mem_cons_self
    · exact List.mem_cons_of_mem _ (h.made id hid)
  · rcases hspecs other hother with hold | rfl
    · rcases List.mem_cons.mp hid with hid | hid
      · exact absurd (w.engine.ids_issued other hold) (hid ▸ hmade.fresh)
      · exact h.alike hstart other hold hid
    · change k.started = _ at hstart
      obtain ⟨rfl, -⟩ := Prod.mk.inj (Option.some.inj (hstarted.symm.trans hstart))
      refine ⟨hname, hstack.trans ?_⟩
      unfold stackOf
      rw [hconfig]
      rfl
  · change k.started = none at hnone
    rw [hstarted] at hnone
    cases hnone
  · rcases hspecs other hother with hold | rfl
    · rcases hid with hid | hid
      · exact h.own hspared other hold (.inl hid)
      · rcases List.mem_cons.mp hid with hid | hid
        · exact absurd (w.engine.ids_issued other hold) (hid ▸ hmade.fresh)
        · exact h.own hspared other hold (.inr hid)
    · have hspares := h.started hspared hstarted config hconfig
      unfold Exclusions.Covers Exclusions.Names at hspares ⊢
      rwa [hoptsOut, hstack, hname]

/-- A commit of a container that is not excluded. -/
theorem commit (h : Midway call spared ex w k) {oldID : String} {rec : ContainerRecord}
    (hcommits : Commits call k rec) (hspared : spared) (hunique : w'.store.UniqueIDs)
    (hengine : w'.engine = w.engine)
    (hlists : w'.store.exclusions = w.store.exclusions)
    (hrows : ∀ id, w'.store.marksOf id = (w.store.replaceContainer oldID rec).marksOf id) :
    Honoured w' := by
  obtain ⟨before, read, hstarted, hname, hstack⟩ := hcommits.described
  refine h.honoured.write hunique (.of_engine hengine) hlists fun id marks hmarks => ?_
  rw [hrows, Store.marksOf_replaceContainer] at hmarks
  split at hmarks
  · next hid =>
    right
    rw [hengine]
    refine ⟨hid ▸ h.made _ hcommits.made, fun spec hspec hspecID => ?_⟩
    have hmade : spec.id ∈ k.made := by rw [hspecID, hid]; exact hcommits.made
    obtain ⟨hspecName, hspecStack⟩ := h.alike hstarted spec hspec hmade
    have huncovered := h.own hspared spec hspec (.inr hmade)
    obtain rfl := Option.some.inj hmarks
    have hflag : (w.store.getContainer id).any ContainerRecord.excluded = false := by
      cases hrow : w.store.getContainer id with
      | none => rfl
      | some row =>
        have hiff := h.honoured.excluded_iff hspec (hspecID ▸ hrow)
        rw [h.lists] at hiff
        simpa using mt hiff.mp huncovered
    rw [hflag, hlists, h.lists]
    unfold ContainerSpec.marks
    rw [hname, hstack, hspecName, hspecStack, decide_eq_false]
    rwa [← hspecName]
  · split at hmarks
    · cases hmarks
    · exact .inl hmarks

/-- A call that creates nothing and is no inspect, and of which no notes are taken. -/
theorem silent (h : Midway call spared ex w k) {op : Call} {r : op.Reply}
    (hallowed : (recording call).allowed k op) (hcreate : ¬ op.Creates)
    (hstep : openSystem.step w op r w') (hkeeps : op.Keeps Store.exclusions)
    (hcommit : committedBy ⟨w, op, r⟩ = none ∨ spared) : Midway call spared ex w' k := by
  have hrename := recording_renames hallowed
  have hmarks : ∀ ctx request, op = .store ctx request → ¬ request.Marks := by
    intro ctx request hop hrequest
    refine recording_quiet hallowed ctx request hop ?_
    cases request <;> first | exact hrequest.elim | trivial
  obtain ⟨hspecs, hissued⟩ := step_sheds hrename hcreate hstep
  have hlists := step_keeps hkeeps hstep
  have hrows := step_marks hmarks hstep
  have hunique := step_uniqueIDs hstep h.honoured.unique
  refine h.quiet hspecs (hissued ▸ List.Subset.refl _) ?_ (hlists.trans h.lists)
  cases hcommitted : committedBy ⟨w, op, r⟩ with
  | none =>
    simp only [hcommitted] at hrows
    exact h.honoured.keep hunique (step_grows hrename hstep) hlists hrows
  | some commit =>
    obtain ⟨oldID, rec⟩ := commit
    simp only [hcommitted] at hrows
    have hspared : spared := hcommit.resolve_left (by rw [hcommitted]; exact fun hnone => by cases hnone)
    have hengine : w'.engine = w.engine := by
      cases op with
      | store ctx request => exact step_keepsStates (by trivial) hstep
      | _ => cases hcommitted
    exact h.commit (recording_commit hallowed hcommitted).2 hspared hunique hengine hlists hrows

theorem step (h : Midway call spared ex w k) {op : Call} {r : op.Reply}
    (hallowed : (recording call).allowed k op) (hstep : plainSystem.step w op r w')
    (hkeeps : op.Keeps Store.exclusions) (hcommit : committedBy ⟨w, op, r⟩ = none ∨ spared) :
    Midway call spared ex w' (k.after call ⟨w, op, r⟩) := by
  obtain ⟨hstep, hlabels⟩ := hstep
  cases op with
  | docker ctx request =>
    cases request with
    | create config hostConfig networks name =>
      obtain ⟨plan, hplan, heq⟩ := hallowed
      obtain ⟨rfl, rfl, -, rfl⟩ : config = plan.config ∧ hostConfig = plan.hostConfig ∧
          networks = plan.networkConfig ∧ name = plan.name := by
        simpa only [Prod.mk.injEq] using heq
      rcases step_create hstep with ⟨err, rfl, rfl⟩ | ⟨spec, -, rfl, hmade⟩
      · exact h
      · exact h.create hplan hmade (hlabels spec (hmade.specs ▸ by simp) rfl)
    | inspect id =>
      obtain ⟨rfl, hreply⟩ := step_inspect hstep
      rcases hreply with ⟨err, rfl⟩ | ⟨spec, hspec, hid, -, rfl⟩
      · exact h
      · simp only [Notes.after]
        split
        · next hcalled => exact h.inspect hspec (hid.trans hcalled)
        · exact h
    | _ => exact h.silent hallowed id hstep hkeeps hcommit
  | store ctx request =>
    have hsilent := h.silent hallowed id hstep hkeeps hcommit
    cases request with
    | getContainer id =>
      exact ⟨hsilent.honoured, hsilent.lists, hsilent.made, hsilent.alike, hsilent.idle, hsilent.own,
        hsilent.noted, hsilent.started⟩
    | _ => exact hsilent
  | emit event => exact (h.silent hallowed id hstep hkeeps hcommit).start
  | _ => exact h.silent hallowed id hstep hkeeps hcommit

end Midway

/-- An operation that commits nothing, or is called for a container that is not excluded. -/
def OperationCall.Heeds (call : OperationCall) (w : World) (trace : Trace Calls World) : Prop :=
  (∀ e ∈ trace, committedBy e = none) ∨ ∀ spec ∈ w.engine.specs, spec.id = call.containerID →
    ¬ w.store.exclusions.Covers spec.name spec.config

/-- Such an operation keeps every flag right, and the lists as they are. -/
theorem operation_honours (call : OperationCall) {w w' : World} {trace : Trace Calls World}
    {out : Option GoError} (hrun : plainSystem.Runs call.program w trace out w') (hw : Honoured w)
    (hheeds : call.Heeds w trace) :
    Honoured w' ∧ w'.store.exclusions = w.store.exclusions ∧ World.Grows w w' := by
  have hopen := plainSystem_runs hrun
  unfold OperationCall.Heeds at hheeds
  generalize hspared : (∀ spec ∈ w.engine.specs, spec.id = call.containerID →
    ¬ w.store.exclusions.Covers spec.name spec.config) = spared at hheeds
  have halong : (recording call).Along (fun _ e => Call.Keeps Store.exclusions e.op ∧
      (committedBy e = none ∨ spared)) {} trace := by
    refine Contract.along_of_forall (fun e he => ⟨Machine.runs_uses (operation_lists call) hopen e he, ?_⟩) _
    exact hheeds.imp (fun hnone => hnone e he) id
  have hstart : Midway call spared w.store.exclusions w {} := by
    refine ⟨hw, rfl, fun id hid => absurd hid List.not_mem_nil, fun hstarted => (nomatch hstarted),
      fun _ => rfl, fun hs spec hspec hid => ?_, fun _ before hbefore => (nomatch hbefore),
      fun _ _ _ hstarted => (nomatch hstarted)⟩
    rcases hid with hid | hid
    · rw [← hspared] at hs
      exact hs spec hspec hid
    · exact absurd hid List.not_mem_nil
  have hrely : ∀ {w₁ w₂ k}, Midway call spared w.store.exclusions w₁ k ∧ World.Grows w w₁ →
      plainSystem.rely w₁ w₂ → Midway call spared w.store.exclusions w₂ k ∧ World.Grows w w₂ := by
    rintro w₁ w₂ k ⟨h, hgrows⟩ hrely
    have hsame := sameMarks_rely hrely
    have hframe := World.Drifts.frame hrely
    exact ⟨h.quiet (openSystem_hosts.shrinks hframe.specs) (hframe.issued ▸ List.Subset.refl _)
      (hsame.honoured h.honoured) (hsame.lists.trans h.lists), hgrows.trans hsame.grows⟩
  obtain ⟨⟨hend, hgrows⟩, -⟩ := Machine.obeys_keeps
    (J := fun w₁ k => Midway call spared w.store.exclusions w₁ k ∧ World.Grows w w₁) hrely
    (fun ⟨h, hgrows⟩ hallowed hstep hP => ⟨trivial, h.step hallowed hstep hP.1 hP.2,
      hgrows.trans (step_grows (recording_renames hallowed) hstep.1)⟩)
    (operation_records call) hrun halong ⟨hstart, .of_engine rfl⟩
  exact ⟨hend.honoured, hend.lists, hgrows⟩

end Doupro
