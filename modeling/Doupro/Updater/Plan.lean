import Doupro.Docker.Types
import Doupro.Go.Errors

/-!
# The recreation plan

Built from the inspect response before the original is touched, and compared with the
inspect response of the container created from it.
-/

namespace Doupro.Updater

structure RecreationPlan where
  config : Config
  hostConfig : HostConfig
  networkConfig : Option Endpoints
  name : String
  wasRunning : Bool

/-- `strings.Split(text, ":")`. -/
def splitColon : List Char → List (List Char)
  | [] => [[]]
  | c :: cs =>
    let parts := splitColon cs
    if c = ':' then [] :: parts else (c :: parts.headD []) :: parts.tail

/-- The container path of a bind. -/
def bindTarget (bind : String) : Option String :=
  match splitColon bind.toList with
  | _ :: target :: _ => some (String.ofList target)
  | _ => none

/-- The destinations `preserveAnonymousVolumes` leaves alone. -/
def coveredTargets (hostConfig : HostConfig) : List String :=
  hostConfig.mounts.map Mount.target ++ (hostConfig.binds.getD []).filterMap bindTarget ++
    hostConfig.tmpfs.map Prod.fst

/-- `preserveAnonymousVolumes`: pin the generated volume of each uncovered mount point. -/
def preserveAnonymousVolumes (hostConfig : HostConfig) (points : List MountPoint) : HostConfig :=
  let covered := coveredTargets hostConfig
  let anonymous := points.filter fun point =>
    point.type == "volume" && point.name != "" && !covered.contains point.destination
  let pinned := anonymous.map fun point : MountPoint =>
    { type := "volume", source := point.name, target := point.destination,
      readOnly := !point.rw : Mount }
  { hostConfig with mounts := hostConfig.mounts ++ pinned }

/-- The user-controlled settings of an endpoint, copied. -/
def copyEndpoint (endpoint : EndpointSettings) : EndpointSettings :=
  { endpoint with
    ipamConfig := endpoint.ipamConfig.map .cloneJSON
    links := endpoint.links.filter (!·.isEmpty)
    aliases := endpoint.aliases.filter (!·.isEmpty) }

def networkConfigOf (networks : Endpoints) : Option Endpoints :=
  if networks.isEmpty then none
  else some (networks.map fun (name, endpoint) => (name, endpoint.map copyEndpoint))

/-- `buildRecreationPlan`. -/
def buildRecreationPlan (before : InspectResponse) (targetImage : String) :
    Except GoError RecreationPlan :=
  match before.config, before.hostConfig, before.state with
  | some config, some hostConfig, some state =>
    match state.status with
    | .running | .exited | .created =>
      .ok {
        config := { config with image := targetImage }
        hostConfig := preserveAnonymousVolumes hostConfig before.mounts
        networkConfig := before.networkSettings.bind networkConfigOf
        name := trimSlash before.name
        wasRunning := state.running }
    | status =>
      .error (.new ("container state \"" ++ status.text ++ "\" is unsafe to recreate"))
  | _, _, _ =>
    .error (.new "container inspect is missing config, host config, or state")

/-- Exactly the containers a plan can be built for, and what the plan keeps of them. -/
theorem buildRecreationPlan_ok {before : InspectResponse} {targetImage : String}
    {plan : RecreationPlan} (h : buildRecreationPlan before targetImage = .ok plan) :
    ∃ config hostConfig state, before.config = some config ∧ before.hostConfig = some hostConfig ∧
      before.state = some state ∧
      (state.status = .running ∨ state.status = .exited ∨ state.status = .created) ∧
      plan = {
        config := { config with image := targetImage }
        hostConfig := preserveAnonymousVolumes hostConfig before.mounts
        networkConfig := before.networkSettings.bind networkConfigOf
        name := trimSlash before.name
        wasRunning := state.running } := by
  unfold buildRecreationPlan at h
  split at h
  · next config hostConfig state hconfig hhost hstate =>
    refine ⟨config, hostConfig, state, hconfig, hhost, hstate, ?_⟩
    cases hstatus : state.status <;> simp only [hstatus] at h <;> cases h
    · exact ⟨.inr (.inr rfl), rfl⟩
    · exact ⟨.inl rfl, rfl⟩
    · exact ⟨.inr (.inl rfl), rfl⟩
  · cases h

/-- Whether a plan can be built does not depend on the target image. -/
theorem buildRecreationPlan_retarget {before : InspectResponse} {targetImage : String}
    {plan : RecreationPlan} (h : buildRecreationPlan before targetImage = .ok plan)
    (otherImage : String) : ∃ other, buildRecreationPlan before otherImage = .ok other := by
  obtain ⟨config, hostConfig, state, hconfig, hhost, hstate, hstatus, -⟩ := buildRecreationPlan_ok h
  unfold buildRecreationPlan
  simp only [hconfig, hhost, hstate]
  rcases hstatus with hstatus | hstatus | hstatus <;> exact ⟨_, by rw [hstatus]⟩

theorem plan_image {before : InspectResponse} {targetImage : String} {plan : RecreationPlan}
    (h : buildRecreationPlan before targetImage = .ok plan) : plan.config.image = targetImage := by
  obtain ⟨config, hostConfig, state, -, -, -, -, rfl⟩ := buildRecreationPlan_ok h
  rfl

theorem plan_name {before : InspectResponse} {targetImage : String} {plan : RecreationPlan}
    (h : buildRecreationPlan before targetImage = .ok plan) : plan.name = trimSlash before.name := by
  obtain ⟨config, hostConfig, state, -, -, -, -, rfl⟩ := buildRecreationPlan_ok h
  rfl

/-- `normalizedHostConfig`: an explicit false is Docker's canonical nil. -/
def normalizedHostConfig (h : HostConfig) : HostConfig :=
  { h with oomKillDisable := h.oomKillDisable.filter id }

/-- `jsonSubset`. -/
def jsonSubset (expected actual : Json) (path : String) : Option GoError :=
  (Json.compareSubset expected actual path).map .new

/-- `stringSliceContained` on slices that may be nil. -/
def stringSliceContained (want got : Option (List String)) : Bool :=
  (want.getD []).all fun value => (got.getD []).contains value

/-- `reflect.DeepEqual` on two string maps. -/
def sameStringMap : Option (List (String × String)) → Option (List (String × String)) → Bool
  | none, none => true
  | some a, some b => a.length == b.length && a.all fun (key, value) => b.lookup key == some value
  | _, _ => false

def validateEndpoint (name : String) (expected got : EndpointSettings) : Option GoError :=
  if ¬ (expected.ipamConfig = got.ipamConfig ∧ expected.links = got.links ∧
      stringSliceContained expected.aliases got.aliases ∧
      sameStringMap expected.driverOpts got.driverOpts) then
    some (.new ("network \"" ++ name ++ "\" user settings changed"))
  else if expected.macAddress ≠ "" ∧ expected.macAddress ≠ got.macAddress then
    some (.new ("network \"" ++ name ++ "\" MAC address changed"))
  else none

/-- The loop over the planned networks. -/
def validateNetworks (actual : Endpoints) : Endpoints → Option GoError
  | [] => none
  | (name, expected) :: rest => match actual.lookup name with
    | none => some (.new ("network \"" ++ name ++ "\" missing"))
    | some got => match expected, got with
      | none, _ => validateNetworks actual rest
      | some _, none => some .nilDereference
      | some expected, some got => (validateEndpoint name expected got).or
          (validateNetworks actual rest)

/-- `validateRecreation`. -/
def validateRecreation (plan : RecreationPlan) (actual : InspectResponse) : Option GoError :=
  match actual.config, actual.hostConfig with
  | some config, some hostConfig =>
    let host := jsonSubset (normalizedHostConfig plan.hostConfig).toJson
      (normalizedHostConfig hostConfig).toJson "HostConfig"
    let networks := match plan.networkConfig with
      | none => none
      | some expected => match actual.networkSettings with
        | none => some (.new "NetworkSettings missing")
        | some networks => validateNetworks networks expected
    ((jsonSubset plan.config.toJson config.toJson "Config").or host).or networks
  | _, _ => some (.new "recreated container inspect is incomplete")

end Doupro.Updater
