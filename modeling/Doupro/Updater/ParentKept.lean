import Doupro.System.Steady
import Doupro.Updater.SelfUpdateHelper

/-!
# The original container of a self-update

Until the replacement was found ready the original is only renamed, so whatever fails on
the way, and whenever the context ends, there is a daemon to go back to.
-/

namespace Doupro

open Interaction

/-- A container is there, under some name. -/
def World.Retains (w : World) (parent : ContainerSpec) : Prop :=
  ∃ name, { parent with name := name } ∈ w.engine.specs

/-- The call deletes a container. -/
def Call.Removes (id : String) : Call → Prop
  | .docker _ (.remove removed _) => removed = id
  | _ => False

/-! ### Renames and deletions -/

theorem step_rename {w w' : World} {ctx : Context} {id name : String} {reply : Except GoError Unit}
    (h : openSystem.step w (.docker ctx (.rename id name)) reply w') :
    (∃ err, reply = .error err ∧ w' = w) ∨
    (reply = .ok () ∧ name ∉ w.engine.specs.map ContainerSpec.name ∧
      w'.engine.specs = w.engine.specs.map (Engine.renamedSpec id name) ∧
      w'.engine.issued = w.engine.issued) := by
  rcases step_docker h with ⟨err, rfl, rfl⟩ | ⟨choice, result, engine, -, hp, rfl, rfl⟩
  · exact .inl ⟨err, rfl, rfl⟩
  · simp only [Engine.perform] at hp
    split at hp
    · cases hp
    · split at hp
      · next hname =>
        obtain ⟨-, rfl⟩ := Prod.mk.inj (Except.ok.inj hp)
        exact .inr ⟨rfl, hname, rfl, rfl⟩
      · cases hp

namespace Engine

theorem renamedSpec_self (id name : String) {spec : ContainerSpec} (h : spec.id = id) :
    renamedSpec id name spec = { spec with name := name } := by
  unfold renamedSpec
  rw [if_pos h]

theorem renamedSpec_other (id name : String) {spec : ContainerSpec} (h : spec.id ≠ id) :
    renamedSpec id name spec = spec := by
  unfold renamedSpec
  rw [if_neg h]

@[simp] theorem renamedSpec_autoRemove (id name : String) (spec : ContainerSpec) :
    (renamedSpec id name spec).hostConfig.autoRemove = spec.hostConfig.autoRemove := by
  unfold renamedSpec
  split <;> rfl

/-- A rename changes nothing about the other containers. -/
theorem specsWithout_renamed (id name : String) (specs : List ContainerSpec) :
    specsWithout id (specs.map (renamedSpec id name)) = specsWithout id specs := by
  induction specs with
  | nil => rfl
  | cons spec rest ih =>
    unfold specsWithout Table.deleteWhere at ih ⊢
    rw [List.map_cons]
    by_cases hid : spec.id = id
    · rw [renamedSpec_self _ _ hid]
      simpa [hid] using ih
    · rw [renamedSpec_other _ _ hid]
      simpa [hid] using ih

/-- A container that gets its own name back. -/
theorem renamed_back {specs : List ContainerSpec} {parent : ContainerSpec} (name : String)
    (h : ∀ spec ∈ specs, spec.id = parent.id → spec.name = parent.name) :
    (specs.map (renamedSpec parent.id name)).map (renamedSpec parent.id parent.name) = specs := by
  rw [List.map_map]
  refine (List.map_congr_left fun spec hspec => ?_).trans specs.map_id
  by_cases hid : spec.id = parent.id
  · have hrenamed : ({ spec with name := name } : ContainerSpec).id = parent.id := hid
    rw [Function.comp_apply, renamedSpec_self _ _ hid, renamedSpec_self _ _ hrenamed,
      ← h spec hspec hid]
    rfl
  · rw [Function.comp_apply, renamedSpec_other _ _ hid, renamedSpec_other _ _ hid]
    rfl

theorem specsWithout_append_new {id : String} {specs : List ContainerSpec} {spec : ContainerSpec}
    (h : spec.id ≠ id) :
    specsWithout id (specs ++ [spec]) = specsWithout id specs ++ [spec] := by
  simp [specsWithout, Table.deleteWhere, h]

theorem specsWithout_fresh {specs : List ContainerSpec} {spec : ContainerSpec}
    (h : ∀ other ∈ specs, other.id ≠ spec.id) : specsWithout spec.id (specs ++ [spec]) = specs := by
  unfold specsWithout Table.deleteWhere
  rw [List.filter_append, List.filter_eq_self.mpr fun other hother => by simpa using h other hother]
  simp

end Engine

namespace Sheds

variable {specs specs' : List ContainerSpec}

theorem renamed (h : Sheds specs specs') (id name : String) :
    Sheds (specs.map (Engine.renamedSpec id name)) (specs'.map (Engine.renamedSpec id name)) := by
  refine ⟨h.1.map _, fun spec hspec hkeep => ?_⟩
  obtain ⟨old, hold, rfl⟩ := List.mem_map.mp hspec
  rw [Engine.renamedSpec_autoRemove] at hkeep
  exact List.mem_map_of_mem (h.2 old hold hkeep)

theorem without (h : Sheds specs specs') (id : String) :
    Sheds (Engine.specsWithout id specs) (Engine.specsWithout id specs') := by
  refine ⟨h.1.filter _, fun spec hspec hkeep => ?_⟩
  obtain ⟨hmem, hid⟩ := Engine.mem_specsWithout.mp hspec
  exact Engine.mem_specsWithout.mpr ⟨h.2 spec hmem hkeep, hid⟩

/-- A container that is no longer there was shed. -/
theorem of_gone {spec : ContainerSpec} (h : Sheds (specs ++ [spec]) specs') (hgone : spec ∉ specs') :
    Sheds specs specs' := by
  refine ⟨?_, fun other hother => h.2 other (List.mem_append_left _ hother)⟩
  obtain ⟨front, back, rfl, hfront, hback⟩ := List.sublist_append_iff.mp h.1
  cases back with
  | nil => rwa [List.append_nil]
  | cons first rest =>
    obtain rfl := List.mem_singleton.mp (hback.subset List.mem_cons_self)
    exact absurd (List.mem_append_right _ List.mem_cons_self) hgone

theorem append (h : Sheds specs specs') (added : List ContainerSpec) :
    Sheds (specs ++ added) (specs' ++ added) := by
  refine ⟨h.1.append_right added, fun spec hspec hkeep => ?_⟩
  rcases List.mem_append.mp hspec with hold | hnew
  · exact List.mem_append_left _ (h.2 spec hold hkeep)
  · exact List.mem_append_right _ hnew

end Sheds

/-! ### What keeps a container -/

namespace World.Retains

variable {parent : ContainerSpec} {w w' : World}

/-- Docker deletes a container with `AutoRemove` only. -/
theorem of_sheds (hkeep : parent.hostConfig.autoRemove = false) (h : w.Retains parent)
    (hsheds : Sheds w.engine.specs w'.engine.specs) : w'.Retains parent := by
  obtain ⟨name, hmem⟩ := h
  exact ⟨name, hsheds.2 _ hmem hkeep⟩

theorem rename (h : w.Retains parent) {id name : String}
    (hspecs : w'.engine.specs = w.engine.specs.map (Engine.renamedSpec id name)) :
    w'.Retains parent := by
  obtain ⟨old, hmem⟩ := h
  unfold World.Retains
  rw [hspecs]
  by_cases hid : parent.id = id
  · refine ⟨name, List.mem_map.mpr ⟨_, hmem, ?_⟩⟩
    exact Engine.renamedSpec_self id name hid
  · refine ⟨old, List.mem_map.mpr ⟨_, hmem, ?_⟩⟩
    exact Engine.renamedSpec_other id name hid

/-- Every call but its own removal keeps a container. -/
theorem step (hkeep : parent.hostConfig.autoRemove = false) (h : w.Retains parent) {call : Call}
    {reply : call.Reply} (hcall : ¬ call.Removes parent.id)
    (hstep : openSystem.step w call reply w') : w'.Retains parent := by
  cases call with
  | docker ctx call =>
    cases call with
    | inspect id => exact (step_inspect hstep).1 ▸ h
    | list => exact (step_list hstep).1 ▸ h
    | pull imageRef =>
      rcases step_pull hstep with ⟨err, -, rfl⟩ | ⟨image, -, -, -, rfl⟩ <;> exact h
    | stop id timeout => exact h.of_sheds hkeep (step_stop hstep).1.specs
    | start id => rcases step_start hstep with ⟨err, -, rfl⟩ | ⟨-, rfl⟩ <;> exact h
    | create config hostConfig networks name =>
      rcases step_create hstep with ⟨err, -, rfl⟩ | ⟨spec, -, -, hmade⟩
      · exact h
      · obtain ⟨old, hmem⟩ := h
        exact ⟨old, hmade.specs ▸ List.mem_append_left _ hmem⟩
    | remove id force =>
      rcases step_remove hstep with ⟨err, -, rfl⟩ | ⟨-, -, -, hspecs, -⟩
      · exact h
      · obtain ⟨old, hmem⟩ := h
        exact ⟨old, hspecs ▸ Engine.mem_specsWithout.mpr ⟨hmem, fun hid => hcall hid.symm⟩⟩
    | rename id name =>
      rcases step_rename hstep with ⟨err, -, rfl⟩ | ⟨-, -, hspecs, -⟩
      · exact h
      · exact h.rename hspecs
  | _ =>
    have hsame := step_keepsStates (by trivial) hstep
    obtain ⟨name, hmem⟩ := h
    exact ⟨name, hsame ▸ hmem⟩

/-- A stretch of a run that never removes a container keeps it throughout. -/
theorem path (hkeep : parent.hostConfig.autoRemove = false) (h : w.Retains parent)
    {trace : Trace Calls World} (hpath : openSystem.Path w trace w')
    (hcalls : ∀ e ∈ trace, ¬ e.op.Removes parent.id) :
    w'.Retains parent ∧ ∀ e ∈ trace, e.world.Retains parent := by
  have hrun := Machine.path_events (I := fun w => w.Retains parent) (R := fun _ _ => True)
    (P := fun e : Event Calls World => ¬ e.op.Removes parent.id) (fun _ => trivial)
    (fun _ _ => trivial)
    (fun w w' hrely => ⟨trivial, fun h => h.of_sheds hkeep (openSystem_hosts.rely hrely).specs⟩)
    (fun w call reply w' hstep => ⟨trivial, fun hcall h => h.step hkeep hcall hstep⟩)
    hpath hcalls h
  exact ⟨hrun.1.2, fun e he => (hrun.2 e he).1.1⟩

end World.Retains

end Doupro
