import Doupro.Docker.Types
import Doupro.Go.Errors
import Doupro.Go.Timestamp
import Doupro.Table.Keyed
import Mathlib.Data.List.Nodup
import Mathlib.Logic.Function.Basic

/-!
# The Docker engine

What the client calls act on: containers, the local tag table, the registry and the
history of process exits. A container's identity and configuration never change, its name
only by a rename; its state does, on its own. IDs are never issued twice and names are
unique.
-/

namespace Doupro

/-- What Docker keeps of a container from its creation to its removal. -/
structure ContainerSpec where
  id : String
  name : String
  image : String
  config : Config
  hostConfig : HostConfig
  networks : Endpoints := []
  mounts : List MountPoint := []

/-- One exit of a container's process. `policyRestarts` says what the restart policy
decides about it, `restarted` that the restart was made and counted. -/
structure Exit where
  containerID : String
  containerName : String
  nano : Int
  code : Int
  policyRestarts : Bool
  restarted : Bool := false
  deriving DecidableEq

structure Engine where
  specs : List ContainerSpec := []
  states : String → ContainerState := fun _ => { status := .created }
  tags : String → Option String := fun _ => none
  registry : String → Option String := fun _ => none
  issued : List String := []
  exits : List Exit := []
  ids_nodup : (specs.map ContainerSpec.id).Nodup := by simp
  names_nodup : (specs.map ContainerSpec.name).Nodup := by simp
  ids_issued : ∀ spec ∈ specs, spec.id ∈ issued := by simp

/-- The calls of `docker.Client` the updater and the crash monitor make. -/
inductive DockerCall where
  | inspect (id : String)
  | pull (imageRef : String)
  | stop (id : String) (timeout : Duration)
  | remove (id : String) (force : Bool)
  | create (config : Config) (hostConfig : HostConfig) (networks : Option Endpoints)
    (name : String)
  | start (id : String)
  | rename (id name : String)
  | list

@[reducible] def DockerCall.Result : DockerCall → Type
  | .inspect _ => InspectResponse
  | .create _ _ _ _ => String
  | .list => List ListedContainer
  | .pull _ | .stop _ _ | .remove _ _ | .start _ | .rename _ _ => Unit

/-- What the daemon decides about a call: the ID of a new container, the settings it
gives it, the exit code of a process it ends, and the status texts of a listing. -/
structure DaemonChoice where
  newID : String := ""
  settled : Option ContainerSpec := none
  exitCode : Int := 137
  statusTexts : String → String := fun _ => ""

namespace Engine

variable (e : Engine)

def find (id : String) : Option ContainerSpec := Table.lookup ContainerSpec.id id e.specs

def named (name : String) : Option ContainerSpec := Table.lookup ContainerSpec.name name e.specs

/-- A container carries the name. -/
def Carries (name : String) : Prop := (e.named name).isSome

instance (name : String) : Decidable (e.Carries name) := inferInstanceAs (Decidable (_ = true))

/-- `RestartCount` of inspect: one per restart the policy made. -/
def restartCount (id : String) : Nat :=
  e.exits.countP fun exit => decide (exit.containerID = id) && exit.restarted

/-- The image a reference stands for when a container is created from it. -/
def resolve (imageRef : String) : Option String :=
  if hasPrefix imageRef "sha256:" then some imageRef else e.tags imageRef

def inspectResponse (spec : ContainerSpec) : InspectResponse where
  id := spec.id
  name := "/" ++ spec.name
  image := spec.image
  restartCount := e.restartCount spec.id
  state := some (e.states spec.id)
  config := some spec.config
  hostConfig := some spec.hostConfig
  networkSettings := some spec.networks
  mounts := spec.mounts

def withState (id : String) (state : ContainerState) : Engine :=
  { e with states := Function.update e.states id state }

def withExit (exit : Exit) : Engine := { e with exits := e.exits ++ [exit] }

/-- Delete a container; its ID stays issued. -/
def without (id : String) : Engine :=
  { e with
    specs := Table.deleteWhere (fun spec => decide (spec.id = id)) e.specs
    ids_nodup := e.ids_nodup.sublist (List.filter_sublist.map _)
    names_nodup := e.names_nodup.sublist (List.filter_sublist.map _)
    ids_issued := fun spec h => e.ids_issued spec (List.mem_of_mem_filter h) }

def withSpec (spec : ContainerSpec) (hid : spec.id ∉ e.issued)
    (hname : spec.name ∉ e.specs.map ContainerSpec.name) : Engine :=
  { e with
    specs := e.specs ++ [spec]
    states := Function.update e.states spec.id { status := .created }
    issued := spec.id :: e.issued
    ids_nodup := by
      have hfresh : spec.id ∉ e.specs.map ContainerSpec.id := by
        intro h
        obtain ⟨other, hmem, heq⟩ := List.mem_map.mp h
        exact hid (heq ▸ e.ids_issued other hmem)
      simpa using (List.nodup_concat _ _).mpr ⟨hfresh, e.ids_nodup⟩
    names_nodup := by
      simpa using (List.nodup_concat _ _).mpr ⟨hname, e.names_nodup⟩
    ids_issued := by
      intro other h
      rcases List.mem_append.mp h with h | h
      · exact List.mem_cons_of_mem _ (e.ids_issued other h)
      · simp only [List.mem_singleton] at h
        exact h ▸ List.mem_cons_self }

/-- The container under its new name. -/
def renamedSpec (id name : String) (spec : ContainerSpec) : ContainerSpec :=
  if spec.id = id then { spec with name := name } else spec

theorem renamedSpec_id (id name : String) (spec : ContainerSpec) :
    (renamedSpec id name spec).id = spec.id := by
  unfold renamedSpec; split <;> rfl

/-- Give a container a name that no container carries. -/
def renamed (id name : String) (hname : name ∉ e.specs.map ContainerSpec.name) : Engine :=
  { e with
    specs := e.specs.map (renamedSpec id name)
    ids_nodup := by
      have hsame : ContainerSpec.id ∘ renamedSpec id name = ContainerSpec.id :=
        funext (renamedSpec_id id name)
      rw [List.map_map, hsame]
      exact e.ids_nodup
    names_nodup := by
      rw [List.map_map]
      refine List.Nodup.map_on (fun a ha b hb hab => ?_) (List.Nodup.of_map _ e.ids_nodup)
      have hfresh : ∀ spec ∈ e.specs, name ≠ spec.name := fun spec hmem h =>
        hname (h ▸ List.mem_map_of_mem hmem)
      simp only [Function.comp_apply, renamedSpec] at hab
      split at hab
      · next hida =>
        split at hab
        · next hidb => exact List.inj_on_of_nodup_map e.ids_nodup ha hb (hida.trans hidb.symm)
        · exact absurd hab (hfresh b hb)
      · split at hab
        · exact absurd hab.symm (hfresh a ha)
        · exact List.inj_on_of_nodup_map e.names_nodup ha hb hab
    ids_issued := by
      intro spec hmem
      obtain ⟨old, hold, rfl⟩ := List.mem_map.mp hmem
      rw [renamedSpec_id]
      exact e.ids_issued old hold }

/-- `containerFromSummary`, for a container with one name. -/
def listedContainer (statusTexts : String → String) (spec : ContainerSpec) : ListedContainer where
  id := spec.id
  name := spec.name
  image := spec.config.image
  imageID := spec.image
  state := (e.states spec.id).status.text
  status := statusTexts spec.id
  stack := spec.config.stack
  excluded := spec.config.label "doupro.enable" == "false"
  labels := spec.config.labels.getD []

/-- The process of a container ends for good; Docker deletes one with `AutoRemove`. -/
def exited (spec : ContainerSpec) (nano code : Int) : Engine :=
  let exit : Exit :=
    { containerID := spec.id
      containerName := spec.name
      nano := nano
      code := code
      policyRestarts := false }
  let ended := (e.withExit exit).withState spec.id
    { status := .exited, health := (e.states spec.id).health }
  if spec.hostConfig.autoRemove then ended.without spec.id else ended

/-- The container a create call adds. The daemon may add settings, but keeps the image
reference and `AutoRemove`. -/
def createdSpec (choice : DaemonChoice) (config : Config) (hostConfig : HostConfig)
    (networks : Option Endpoints) (name image : String) : ContainerSpec :=
  let asked : ContainerSpec :=
    { id := choice.newID, name, image, config, hostConfig, networks := networks.getD [] }
  let settled := choice.settled.getD asked
  { asked with
    config := { settled.config with image := config.image }
    hostConfig := { settled.hostConfig with autoRemove := hostConfig.autoRemove }
    networks := settled.networks
    mounts := settled.mounts }

/-- What a call does when the daemon carries it out at a given instant. -/
def perform (choice : DaemonChoice) (now : Time) :
    (call : DockerCall) → Except GoError (call.Result × Engine)
  | .inspect id => match e.find id with
    | none => .error (.external ("No such container: " ++ id))
    | some spec => .ok (e.inspectResponse spec, e)
  | .pull imageRef => match e.registry imageRef with
    | none => .error (.external ("manifest unknown: " ++ imageRef))
    | some image => .ok ((), { e with tags := Function.update e.tags imageRef (some image) })
  | .stop id _ => match e.find id with
    | none => .error (.external ("No such container: " ++ id))
    | some spec =>
      if (e.states id).running then .ok ((), e.exited spec now choice.exitCode) else .ok ((), e)
  | .remove id force => match e.find id with
    | none => .error (.external ("No such container: " ++ id))
    | some spec =>
      if (e.states id).running then
        if force then .ok ((), (e.exited spec now choice.exitCode).without id)
        else .error (.external ("cannot remove container " ++ id))
      else .ok ((), e.without id)
  | .create config hostConfig networks name => match e.resolve config.image with
    | none => .error (.external ("No such image: " ++ config.image))
    | some image =>
      let spec := createdSpec choice config hostConfig networks name image
      if h : spec.id ≠ "" ∧ spec.id ∉ e.issued ∧ spec.name ∉ e.specs.map ContainerSpec.name then
        .ok (spec.id, e.withSpec spec h.2.1 h.2.2)
      else .error (.external ("Conflict. The container name " ++ name ++ " is already in use"))
  | .start id => match e.find id with
    | none => .error (.external ("No such container: " ++ id))
    | some _ => .ok ((), e.withState id { status := .running, health := (e.states id).health })
  | .rename id name => match e.find id with
    | none => .error (.external ("No such container: " ++ id))
    | some _ =>
      if h : name ∉ e.specs.map ContainerSpec.name then .ok ((), e.renamed id name h)
      else .error (.external ("Conflict. The container name " ++ name ++ " is already in use"))
  | .list => .ok (e.specs.map (e.listedContainer choice.statusTexts), e)

end Engine
end Doupro
