import Doupro.Docker.WaitHealthy
import Doupro.System.Scripts
import Doupro.System.Steps

/-!
# What a stretch of a run leaves alone

Docker deletes a container with `AutoRemove` when it stops; otherwise the set of
containers changes by calls only. A frame says so for a stretch of a run, relative to the
deletions its environment may cause.
-/

namespace Doupro

open Interaction

/-- The containers left after some of those with `AutoRemove` were deleted. -/
def Sheds (specs specs' : List ContainerSpec) : Prop :=
  specs'.Sublist specs ∧ ∀ spec ∈ specs, spec.hostConfig.autoRemove = false → spec ∈ specs'

theorem Sheds.refl (specs : List ContainerSpec) : Sheds specs specs :=
  ⟨.refl specs, fun _ h _ => h⟩

theorem Sheds.trans {specs₁ specs₂ specs₃ : List ContainerSpec} (h : Sheds specs₁ specs₂)
    (h' : Sheds specs₂ specs₃) : Sheds specs₁ specs₃ :=
  ⟨h'.1.trans h.1, fun spec hmem hkeep => h'.2 spec (h.2 spec hmem hkeep) hkeep⟩

/-- The store, the tags and the issued IDs stay, containers change by `R` only. -/
structure World.Frame (R : List ContainerSpec → List ContainerSpec → Prop) (w w' : World) :
    Prop where
  store : w'.store = w.store
  specs : R w.engine.specs w'.engine.specs
  tags : w'.engine.tags = w.engine.tags
  issued : w'.engine.issued = w.engine.issued
  clock : w.clock ≤ w'.clock
  ended : w.ended ⊆ w'.ended

/-- A frame that holds whatever the store holds. -/
theorem World.Frame.withStore {R : List ContainerSpec → List ContainerSpec → Prop} {w w' : World}
    (h : World.Frame R w w') (s : Store) :
    World.Frame R { w with store := s } { w' with store := s } :=
  ⟨rfl, h.specs, h.tags, h.issued, h.clock, h.ended⟩

/-- A machine whose environment and whose `Stop` change containers by `R` only. -/
structure Hosts (M : Machine Calls World) (R : List ContainerSpec → List ContainerSpec → Prop) :
    Prop where
  refl : ∀ specs, R specs specs
  trans : ∀ {specs₁ specs₂ specs₃}, R specs₁ specs₂ → R specs₂ specs₃ → R specs₁ specs₃
  shrinks : ∀ {specs specs'}, R specs specs' → specs' ⊆ specs
  rely : ∀ {w w'}, M.rely w w' → World.Frame R w w'
  step : ∀ {w call reply w'}, M.step w call reply w' → openSystem.step w call reply w'
  stop : ∀ {w ctx id timeout reply w'}, M.step w (.docker ctx (.stop id timeout)) reply w' →
    R w.engine.specs w'.engine.specs

namespace Engine

variable (e : Engine)

theorem named_eq_some {name : String} {spec : ContainerSpec} :
    e.named name = some spec ↔ spec ∈ e.specs ∧ spec.name = name := by
  constructor
  · intro h
    exact ⟨Table.lookup_mem h, Table.lookup_key h⟩
  · rintro ⟨hmem, rfl⟩
    cases hfound : e.named spec.name with
    | none => exact absurd rfl (Table.lookup_eq_none.mp hfound spec hmem)
    | some other =>
      refine congrArg some ?_
      exact List.inj_on_of_nodup_map e.names_nodup (Table.lookup_mem hfound) hmem
        (Table.lookup_key hfound)

theorem find_eq_some {id : String} {spec : ContainerSpec} :
    e.find id = some spec ↔ spec ∈ e.specs ∧ spec.id = id := by
  constructor
  · intro h
    exact ⟨Table.lookup_mem h, Table.lookup_key h⟩
  · rintro ⟨hmem, rfl⟩
    cases hfound : e.find spec.id with
    | none => exact absurd rfl (Table.lookup_eq_none.mp hfound spec hmem)
    | some other =>
      refine congrArg some ?_
      exact List.inj_on_of_nodup_map e.ids_nodup (Table.lookup_mem hfound) hmem
        (Table.lookup_key hfound)

theorem carries_iff {name : String} : e.Carries name ↔ ∃ spec ∈ e.specs, spec.name = name := by
  unfold Carries
  rw [Option.isSome_iff_exists]
  simp only [named_eq_some]

/-- The containers other than one. -/
def specsWithout (id : String) (specs : List ContainerSpec) : List ContainerSpec :=
  Table.deleteWhere (fun spec => decide (spec.id = id)) specs

@[simp] theorem mem_specsWithout {id : String} {specs : List ContainerSpec}
    {spec : ContainerSpec} : spec ∈ specsWithout id specs ↔ spec ∈ specs ∧ spec.id ≠ id := by
  simp [specsWithout, Table.deleteWhere]

theorem exited_specs (spec : ContainerSpec) (nano code : Int) :
    (e.exited spec nano code).specs =
      if spec.hostConfig.autoRemove then specsWithout spec.id e.specs else e.specs := by
  unfold exited
  split <;> rfl

theorem exited_tags (spec : ContainerSpec) (nano code : Int) :
    (e.exited spec nano code).tags = e.tags := by
  unfold exited; split <;> rfl

theorem exited_issued (spec : ContainerSpec) (nano code : Int) :
    (e.exited spec nano code).issued = e.issued := by
  unfold exited; split <;> rfl

/-- A container that ends is deleted only if it has `AutoRemove`. -/
theorem exited_sheds {spec : ContainerSpec} (hmem : spec ∈ e.specs) (nano code : Int) :
    Sheds e.specs (e.exited spec nano code).specs := by
  rw [exited_specs]
  split
  · next hauto =>
    refine ⟨List.filter_sublist, fun other hother hkeep => mem_specsWithout.mpr ⟨hother, ?_⟩⟩
    intro hid
    have hsame := List.inj_on_of_nodup_map e.ids_nodup hother hmem hid
    rw [hsame, hauto] at hkeep
    cases hkeep
  · exact Sheds.refl _

end Engine

/-! ### Frames -/

namespace World.Frame

variable {R : List ContainerSpec → List ContainerSpec → Prop} {M : Machine Calls World}
  {w w₁ w₂ w' : World}

theorem refl (h : Hosts M R) (w : World) : World.Frame R w w :=
  ⟨rfl, h.refl _, rfl, rfl, le_refl _, List.Subset.refl _⟩

theorem trans (h : Hosts M R) (h₁ : World.Frame R w w₁) (h₂ : World.Frame R w₁ w₂) :
    World.Frame R w w₂ :=
  ⟨h₂.store.trans h₁.store, h.trans h₁.specs h₂.specs, h₂.tags.trans h₁.tags,
    h₂.issued.trans h₁.issued, le_trans h₁.clock h₂.clock, List.Subset.trans h₁.ended h₂.ended⟩

end World.Frame

theorem EnvEvent.apply_frame (w : World) (event : EnvEvent) :
    World.Frame Sheds w (event.apply w) := by
  cases event with
  | tick elapsed =>
    exact ⟨rfl, Sheds.refl _, rfl, rfl, Int.le_add_of_nonneg_right (Int.natCast_nonneg elapsed),
      List.Subset.refl _⟩
  | contextEnds id => exact ⟨rfl, Sheds.refl _, rfl, rfl, le_refl _, List.subset_cons_self _ _⟩
  | publish imageRef image => exact ⟨rfl, Sheds.refl _, rfl, rfl, le_refl _, List.Subset.refl _⟩
  | settle id state => exact ⟨rfl, Sheds.refl _, rfl, rfl, le_refl _, List.Subset.refl _⟩
  | exit id code policyRestarts =>
    simp only [apply]
    split
    · exact ⟨rfl, Sheds.refl _, rfl, rfl, le_refl _, List.Subset.refl _⟩
    · next spec hfind =>
      have hmem := ((w.engine.find_eq_some).mp hfind).1
      have hlater : w.clock ≤ w.clock + 1 := Int.le_add_of_nonneg_right (by decide)
      cases policyRestarts with
      | true => exact ⟨rfl, Sheds.refl _, rfl, rfl, hlater, List.Subset.refl _⟩
      | false =>
        exact ⟨rfl, w.engine.exited_sheds hmem _ _, w.engine.exited_tags _ _ _,
          w.engine.exited_issued _ _ _, hlater, List.Subset.refl _⟩
  | restart id =>
    simp only [apply]
    split <;> exact ⟨rfl, Sheds.refl _, rfl, rfl, le_refl _, List.Subset.refl _⟩

theorem World.Drifts.frame {allows : World → EnvEvent → Prop} {w w' : World}
    (h : World.Drifts allows w w') : World.Frame Sheds w w' := by
  induction h with
  | refl => exact ⟨rfl, Sheds.refl _, rfl, rfl, le_refl _, List.Subset.refl _⟩
  | @tail w₁ w₂ _ hstep ih =>
    obtain ⟨event, -, rfl⟩ := hstep
    have h := EnvEvent.apply_frame w₁ event
    exact ⟨h.store.trans ih.store, ih.specs.trans h.specs, h.tags.trans ih.tags,
      h.issued.trans ih.issued, le_trans ih.clock h.clock, List.Subset.trans ih.ended h.ended⟩

/-! ### The calls of the Docker client -/

section Docker

variable {w w' : World} {ctx : Context} {id : String}

theorem step_inspect {reply : Except GoError InspectResponse}
    (h : openSystem.step w (.docker ctx (.inspect id)) reply w') :
    w' = w ∧ ((∃ err, reply = .error err) ∨ ∃ spec ∈ w.engine.specs, spec.id = id ∧
      w.contextEnded ctx = false ∧ reply = .ok (w.engine.inspectResponse spec)) := by
  rcases step_docker h with ⟨err, rfl, rfl⟩ | ⟨choice, result, engine, hlive, hp, rfl, rfl⟩
  · exact ⟨rfl, .inl ⟨err, rfl⟩⟩
  · simp only [Engine.perform] at hp
    split at hp
    · cases hp
    · next spec hfind =>
      obtain ⟨rfl, rfl⟩ := Prod.mk.inj (Except.ok.inj hp)
      obtain ⟨hmem, hid⟩ := (w.engine.find_eq_some).mp hfind
      exact ⟨rfl, .inr ⟨spec, hmem, hid, hlive, rfl⟩⟩

theorem step_pull {imageRef : String} {reply : Except GoError Unit}
    (h : openSystem.step w (.docker ctx (.pull imageRef)) reply w') :
    (∃ err, reply = .error err ∧ w' = w) ∨
    ∃ image, w.engine.registry imageRef = some image ∧ w.contextEnded ctx = false ∧
      reply = .ok () ∧
      w' = { w with engine.tags := Function.update w.engine.tags imageRef (some image) } := by
  rcases step_docker h with ⟨err, rfl, rfl⟩ | ⟨choice, result, engine, hlive, hp, rfl, rfl⟩
  · exact .inl ⟨err, rfl, rfl⟩
  · simp only [Engine.perform] at hp
    split at hp
    · cases hp
    · next image himage =>
      obtain ⟨-, rfl⟩ := Prod.mk.inj (Except.ok.inj hp)
      exact .inr ⟨image, himage, hlive, rfl, rfl⟩

theorem step_stop {timeout : Duration} {reply : Except GoError Unit}
    (h : openSystem.step w (.docker ctx (.stop id timeout)) reply w') :
    World.Frame Sheds w w' ∧ w'.clock = w.clock ∧ ((∃ err, reply = .error err ∧ w' = w) ∨
      (w.contextEnded ctx = false ∧ reply = .ok () ∧ ∃ spec ∈ w.engine.specs, spec.id = id ∧
        (w'.engine.specs = w.engine.specs ∨
          (spec.hostConfig.autoRemove = true ∧ (w.engine.states id).running = true)))) := by
  rcases step_docker h with ⟨err, rfl, rfl⟩ | ⟨choice, result, engine, hlive, hp, rfl, rfl⟩
  · exact ⟨⟨rfl, Sheds.refl _, rfl, rfl, le_refl _, List.Subset.refl _⟩, rfl, .inl ⟨err, rfl, rfl⟩⟩
  · simp only [Engine.perform] at hp
    split at hp
    · cases hp
    · next spec hfind =>
      obtain ⟨hmem, hid⟩ := (w.engine.find_eq_some).mp hfind
      split at hp
      · next hrunning =>
        obtain ⟨-, rfl⟩ := Prod.mk.inj (Except.ok.inj hp)
        refine ⟨⟨rfl, w.engine.exited_sheds hmem _ _, w.engine.exited_tags _ _ _,
          w.engine.exited_issued _ _ _, le_refl _, List.Subset.refl _⟩, rfl,
          .inr ⟨hlive, rfl, spec, hmem, hid, ?_⟩⟩
        cases hauto : spec.hostConfig.autoRemove with
        | true => exact .inr ⟨rfl, hrunning⟩
        | false =>
          left
          simp [Engine.exited_specs, hauto]
      · obtain ⟨-, rfl⟩ := Prod.mk.inj (Except.ok.inj hp)
        exact ⟨⟨rfl, Sheds.refl _, rfl, rfl, le_refl _, List.Subset.refl _⟩, rfl,
          .inr ⟨hlive, rfl, spec, hmem, hid, .inl rfl⟩⟩

theorem step_remove {force : Bool} {reply : Except GoError Unit}
    (h : openSystem.step w (.docker ctx (.remove id force)) reply w') :
    (∃ err, reply = .error err ∧ w' = w) ∨
    (w.contextEnded ctx = false ∧ reply = .ok () ∧ (∃ spec ∈ w.engine.specs, spec.id = id) ∧
      w'.engine.specs = Engine.specsWithout id w.engine.specs ∧ w'.engine.tags = w.engine.tags ∧
      w'.engine.issued = w.engine.issued ∧ w'.store = w.store ∧ w'.clock = w.clock ∧
      w'.ended = w.ended) := by
  rcases step_docker h with ⟨err, rfl, rfl⟩ | ⟨choice, result, engine, hlive, hp, rfl, rfl⟩
  · exact .inl ⟨err, rfl, rfl⟩
  · simp only [Engine.perform] at hp
    split at hp
    · cases hp
    · next spec hfind =>
      obtain ⟨hmem, hid⟩ := (w.engine.find_eq_some).mp hfind
      split at hp
      · split at hp
        · obtain ⟨-, rfl⟩ := Prod.mk.inj (Except.ok.inj hp)
          refine .inr ⟨hlive, rfl, ⟨spec, hmem, hid⟩, ?_, w.engine.exited_tags _ _ _,
            w.engine.exited_issued _ _ _, rfl, rfl, rfl⟩
          change Engine.specsWithout id (w.engine.exited spec w.clock choice.exitCode).specs = _
          rw [Engine.exited_specs]
          split
          · simp [Engine.specsWithout, Table.deleteWhere, hid]
          · rfl
        · cases hp
      · obtain ⟨-, rfl⟩ := Prod.mk.inj (Except.ok.inj hp)
        exact .inr ⟨hlive, rfl, ⟨spec, hmem, hid⟩, rfl, rfl, rfl, rfl, rfl, rfl⟩

/-- A container that a create call added under a fresh ID. -/
structure World.Creates (w : World) (config : Config) (hostConfig : HostConfig) (name : String)
    (spec : ContainerSpec) (w' : World) : Prop where
  nonempty : spec.id ≠ ""
  fresh : spec.id ∉ w.engine.issued
  named : spec.name = name
  image : w.engine.resolve config.image = some spec.image
  autoRemove : spec.hostConfig.autoRemove = hostConfig.autoRemove
  configImage : spec.config.image = config.image
  specs : w'.engine.specs = w.engine.specs ++ [spec]
  state : (w'.engine.states spec.id).status = .created
  issued : w'.engine.issued = spec.id :: w.engine.issued
  tags : w'.engine.tags = w.engine.tags
  store : w'.store = w.store
  clock : w'.clock = w.clock
  ended : w'.ended = w.ended

theorem step_create {config : Config} {hostConfig : HostConfig} {networks : Option Endpoints}
    {name : String} {reply : Except GoError String}
    (h : openSystem.step w (.docker ctx (.create config hostConfig networks name)) reply w') :
    (∃ err, reply = .error err ∧ w' = w) ∨
    ∃ spec, w.contextEnded ctx = false ∧ reply = .ok spec.id ∧
      w.Creates config hostConfig name spec w' := by
  rcases step_docker h with ⟨err, rfl, rfl⟩ | ⟨choice, result, engine, hlive, hp, rfl, rfl⟩
  · exact .inl ⟨err, rfl, rfl⟩
  · simp only [Engine.perform] at hp
    split at hp
    · cases hp
    · next image himage =>
      split at hp
      · next hfresh =>
        obtain ⟨rfl, rfl⟩ := Prod.mk.inj (Except.ok.inj hp)
        refine .inr ⟨_, hlive, rfl, hfresh.1, hfresh.2.1, rfl, himage, rfl, rfl, rfl, ?_, rfl, rfl,
          rfl, rfl, rfl⟩
        simp [Engine.withSpec]
      · cases hp

theorem step_start {reply : Except GoError Unit}
    (h : openSystem.step w (.docker ctx (.start id)) reply w') :
    (∃ err, reply = .error err ∧ w' = w) ∨ (reply = .ok () ∧
      w' = { w with
        engine := w.engine.withState id
          { status := .running, health := (w.engine.states id).health } }) := by
  rcases step_docker h with ⟨err, rfl, rfl⟩ | ⟨choice, result, engine, hlive, hp, rfl, rfl⟩
  · exact .inl ⟨err, rfl, rfl⟩
  · simp only [Engine.perform] at hp
    split at hp
    · cases hp
    · obtain ⟨-, rfl⟩ := Prod.mk.inj (Except.ok.inj hp)
      exact .inr ⟨rfl, rfl⟩

end Docker

theorem system_hosts (allows : World → EnvEvent → Prop) : Hosts (system allows) Sheds where
  refl := Sheds.refl
  trans := Sheds.trans
  shrinks h := h.1.subset
  rely := World.Drifts.frame
  step := id
  stop h := (step_stop h).1.specs

theorem openSystem_hosts : Hosts openSystem Sheds := system_hosts _

/-- Every container of the later world was there before or is new. -/
structure World.Grows (w w' : World) : Prop where
  specs : ∀ spec ∈ w'.engine.specs, spec ∈ w.engine.specs ∨ spec.id ∉ w.engine.issued
  issued : w.engine.issued ⊆ w'.engine.issued

namespace World.Grows

variable {w w₁ w' : World}

theorem trans (h : World.Grows w w₁) (h' : World.Grows w₁ w') : World.Grows w w' where
  specs spec hmem := by
    rcases h'.specs spec hmem with hold | hnew
    · exact h.specs spec hold
    · exact .inr fun hissued => hnew (h.issued hissued)
  issued := List.Subset.trans h.issued h'.issued

theorem of_engine (h : w'.engine = w.engine) : World.Grows w w' where
  specs _ hmem := .inl (h ▸ hmem)
  issued := h ▸ List.Subset.refl _

theorem of_frame {M : Machine Calls World} {R : List ContainerSpec → List ContainerSpec → Prop}
    (hM : Hosts M R) (h : World.Frame R w w') : World.Grows w w' where
  specs _ hmem := .inl (hM.shrinks h.specs hmem)
  issued := h.issued ▸ List.Subset.refl _

theorem of_creates {config : Config} {hostConfig : HostConfig} {name : String}
    {spec : ContainerSpec} (h : w.Creates config hostConfig name spec w') : World.Grows w w' where
  specs other hmem := by
    rw [h.specs] at hmem
    rcases List.mem_append.mp hmem with hold | hnew
    · exact .inl hold
    · exact .inr (List.mem_singleton.mp hnew ▸ h.fresh)
  issued := h.issued ▸ List.subset_cons_self _ _

end World.Grows

theorem step_list {w w' : World} {ctx : Context} {reply : Except GoError (List ListedContainer)}
    (h : openSystem.step w (.docker ctx .list) reply w') :
    w' = w ∧ ((∃ err, reply = .error err) ∨ ∃ statusTexts : String → String,
      reply = .ok (w.engine.specs.map (w.engine.listedContainer statusTexts))) := by
  rcases step_docker h with ⟨err, rfl, rfl⟩ | ⟨choice, result, engine, -, hp, rfl, rfl⟩
  · exact ⟨rfl, .inl ⟨err, rfl⟩⟩
  · obtain ⟨rfl, rfl⟩ := Prod.mk.inj (Except.ok.inj hp)
    exact ⟨rfl, .inr ⟨choice.statusTexts, rfl⟩⟩

/-! ### Stretches of a run -/

/-- The call failed. -/
def CallFailed (e : Event Calls World) : Prop :=
  match e with
  | ⟨_, .docker _ _, .error _⟩ | ⟨_, .store _ _, .error _⟩ => True
  | _ => False

instance (e : Event Calls World) : Decidable (CallFailed e) := by
  unfold CallFailed; split <;> infer_instance

/-- The guard refused an operation. -/
def Refused (e : Event Calls World) : Prop :=
  match e with
  | ⟨_, .beginOperation _ _, some _⟩ => True
  | _ => False

instance (e : Event Calls World) : Decidable (Refused e) := by
  unfold Refused; split <;> infer_instance

/-- The context a call was made on. -/
def Call.context : Call → Option Context
  | .docker ctx _ | .store ctx _ | .sleepUntil ctx _ | .receive ctx => some ctx
  | _ => none

/-- The container a call created. -/
def createdBy (e : Event Calls World) : Option String :=
  match e with
  | ⟨_, .docker _ (.create _ _ _ _), reply⟩ => (show Except GoError String from reply).toOption
  | _ => none

/-- What an inspect call reported. -/
def inspectedBy (e : Event Calls World) : Option InspectResponse :=
  match e with
  | ⟨_, .docker _ (.inspect _), reply⟩ => (show Except GoError InspectResponse from reply).toOption
  | _ => none

/-- A call that neither adds nor removes a container, moves no tag and writes no row. -/
def Call.Quiet : Call → Prop
  | .docker _ (.inspect _) | .docker _ (.start _) | .store _ (.getContainer _)
  | .store _ (.containerIDByName _) | .beginOperation _ _ | .endOperation _ _ | .now
  | .sleepUntil _ _ | .emit _ | .notify _ | .goRollback _ => True
  | _ => False

theorem Call.quiet_of_observes {call : Call} (h : call.Observes) : call.Quiet := by
  unfold Call.Observes at h
  split at h <;> trivial

/-- A call that neither adds nor removes a container and moves no tag. -/
def Call.KeepsHost : Call → Prop
  | .docker _ (.pull _) | .docker _ (.stop _ _) | .docker _ (.remove _ _)
  | .docker _ (.create _ _ _ _) | .docker _ (.rename _ _) => False
  | _ => True

/-- A call to something else than Docker. -/
def Call.OffDocker : Call → Prop
  | .docker _ _ => False
  | _ => True

theorem Call.keepsHost_of_quiet {call : Call} (h : call.Quiet) : call.KeepsHost := by
  unfold Call.KeepsHost
  split <;> trivial

theorem createdBy_keepsHost {e : Event Calls World} (h : e.op.KeepsHost) : createdBy e = none := by
  unfold createdBy
  split
  · exact h.elim
  · rfl

/-- A call of the store that reads leaves it as it was. -/
theorem step_read {w w' : World} {ctx : Context} {call : StoreCall} (hcall : call.Reads)
    {reply : Except GoError call.Result} (h : openSystem.step w (.store ctx call) reply w') :
    w' = w := by
  rcases step_store h with ⟨err, -, rfl⟩ | ⟨result, store, -, hperform, -, rfl⟩
  · rfl
  · rw [Store.perform_reads hcall hperform]

variable {M : Machine Calls World} {R : List ContainerSpec → List ContainerSpec → Prop}

theorem step_quiet {w w' : World} {call : Call} {reply : call.Reply}
    (hquiet : call.Quiet) (h : openSystem.step w call reply w') :
    World.Frame Sheds w w' ∧ w'.engine.specs = w.engine.specs := by
  have hsame : World.Frame Sheds w w ∧ w.engine.specs = w.engine.specs :=
    ⟨.refl openSystem_hosts w, rfl⟩
  unfold Call.Quiet at hquiet
  split at hquiet
  · rw [(step_inspect h).1]
    exact hsame
  · rcases step_start h with ⟨err, rfl, rfl⟩ | ⟨rfl, rfl⟩
    · exact hsame
    · exact ⟨⟨rfl, Sheds.refl _, rfl, rfl, le_refl _, List.Subset.refl _⟩, rfl⟩
  · rw [step_read (by trivial) h]
    exact hsame
  · rw [step_read (by trivial) h]
    exact hsame
  · rw [(step_beginOperation h).2]
    exact ⟨⟨rfl, Sheds.refl _, rfl, rfl, le_refl _, List.Subset.refl _⟩, rfl⟩
  · rw [step_endOperation h]
    exact ⟨⟨rfl, Sheds.refl _, rfl, rfl, le_refl _, List.Subset.refl _⟩, rfl⟩
  · rw [(step_now h).2]
    exact hsame
  · rcases step_sleepUntil h with ⟨-, -, rfl⟩ | ⟨-, rfl⟩
    · exact hsame
    · exact ⟨⟨rfl, Sheds.refl _, rfl, rfl, le_max_left _ _, List.Subset.refl _⟩, rfl⟩
  · rw [step_emit h]
    exact hsame
  · rw [step_notify h]
    exact hsame
  · rw [step_goRollback h]
    exact hsame
  · exact hquiet.elim

/-- A quiet stretch of a run. -/
def Quietly (M : Machine Calls World) (w : World) (trace : Trace Calls World) (w' : World) : Prop :=
  M.Path w trace w' ∧ ∀ e ∈ trace, e.op.Quiet

namespace Quietly

variable {w w₁ w' : World} {trace rest : Trace Calls World}

theorem append (h : Quietly M w trace w₁) (h' : Quietly M w₁ rest w') :
    Quietly M w (trace ++ rest) w' :=
  ⟨Machine.path_append.mpr ⟨w₁, h.1, h'.1⟩, List.forall_mem_append.mpr ⟨h.2, h'.2⟩⟩

theorem nil : Quietly M w [] w := ⟨rfl, by simp⟩

theorem cons {w₀ : World} {call : Call} {reply : call.Reply} (hrely : M.rely w w₀)
    (hstep : M.step w₀ call reply w₁) (hquiet : call.Quiet) (h : Quietly M w₁ rest w') :
    Quietly M w (⟨w₀, call, reply⟩ :: rest) w' :=
  ⟨⟨w₁, hrely, hstep, h.1⟩, List.forall_mem_cons.mpr ⟨hquiet, h.2⟩⟩

theorem of_runs {α : Type} {p : Go α} {a : α} (h : M.Runs p w trace a w')
    (hp : p.Uses Call.Quiet) : Quietly M w trace w' :=
  ⟨Machine.runs_path h, Machine.runs_uses hp h⟩

/-- A quiet stretch of a run changes nothing of what a frame speaks about. -/
theorem frame (hM : Hosts M R) (h : Quietly M w trace w') : World.Frame R w w' := by
  refine Machine.path_invariant (I := World.Frame R w) (P := fun e : Event Calls World => e.op.Quiet)
    ?_ ?_ h.1 h.2 (.refl hM w)
  · exact fun _ _ h hrely => h.trans hM (hM.rely hrely)
  · intro w₁ call reply w₂ hcall h hstep
    obtain ⟨hframe, hspecs⟩ := step_quiet hcall (hM.step hstep)
    exact h.trans hM ⟨hframe.store, hspecs ▸ hM.refl _, hframe.tags, hframe.issued, hframe.clock,
      hframe.ended⟩

theorem keepsHost (h : Quietly M w trace w') : ∀ e ∈ trace, e.op.KeepsHost :=
  fun e he => Call.keepsHost_of_quiet (h.2 e he)

end Quietly

end Doupro
