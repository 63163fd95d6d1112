import Doupro.Go.Json
import Doupro.Go.Strings

/-!
# Docker API types

The fields the updater names are fields here; the other create-time fields of a
config travel with it as the JSON members they serialize to, so a deep copy through
JSON is the same value. An absent slice, map or pointer is `none`.
-/

namespace Doupro

namespace Json

def strings (values : List String) : Json := .array (values.map .string)

def stringMap (values : List (String × String)) : Json :=
  .object (values.map fun (key, value) => (key, .string value))

/-- A field marked `omitempty`. -/
def omitEmpty (key : String) (empty : Bool) (value : Json) : List (String × Json) :=
  if empty then [] else [(key, value)]

end Json

/-- `container.Config`. -/
structure Config where
  image : String
  labels : Option (List (String × String)) := none
  hostname : String := ""
  env : Option (List String) := none
  cmd : Option (List String) := none
  other : List (String × Json) := []

def Config.toJson (c : Config) : Json :=
  .object ([("Image", .string c.image), ("Labels", (c.labels.map .stringMap).getD .null),
    ("Hostname", .string c.hostname), ("Env", (c.env.map .strings).getD .null),
    ("Cmd", (c.cmd.map .strings).getD .null)] ++ c.other)

/-- `mount.Mount`. -/
structure Mount where
  type : String
  source : String
  target : String
  readOnly : Bool := false
  other : List (String × Json) := []

def Mount.toJson (m : Mount) : Json :=
  .object (Json.omitEmpty "Type" (m.type == "") (.string m.type) ++
    Json.omitEmpty "Source" (m.source == "") (.string m.source) ++
    Json.omitEmpty "Target" (m.target == "") (.string m.target) ++
    Json.omitEmpty "ReadOnly" (!m.readOnly) (.bool m.readOnly) ++ m.other)

/-- `container.HostConfig`. -/
structure HostConfig where
  autoRemove : Bool := false
  binds : Option (List String) := none
  mounts : List Mount := []
  tmpfs : List (String × String) := []
  oomKillDisable : Option Bool := none
  groupAdd : Option (List String) := none
  other : List (String × Json) := []

def HostConfig.toJson (h : HostConfig) : Json :=
  .object ([("AutoRemove", .bool h.autoRemove), ("Binds", (h.binds.map .strings).getD .null),
      ("OomKillDisable", (h.oomKillDisable.map .bool).getD .null),
      ("GroupAdd", (h.groupAdd.map .strings).getD .null)] ++
    Json.omitEmpty "Mounts" h.mounts.isEmpty (.array (h.mounts.map Mount.toJson)) ++
    Json.omitEmpty "Tmpfs" h.tmpfs.isEmpty (.stringMap h.tmpfs) ++ h.other)

/-- `network.EndpointIPAMConfig`. -/
structure EndpointIPAMConfig where
  ipv4Address : String := ""
  ipv6Address : String := ""
  linkLocalIPs : Option (List String) := none
  deriving DecidableEq

/-- A copy through JSON, where `omitempty` turns an empty list into a missing one. -/
def EndpointIPAMConfig.cloneJSON (c : EndpointIPAMConfig) : EndpointIPAMConfig :=
  { c with linkLocalIPs := c.linkLocalIPs.filter (!·.isEmpty) }

/-- The user-controlled part of `network.EndpointSettings`. -/
structure EndpointSettings where
  ipamConfig : Option EndpointIPAMConfig := none
  links : Option (List String) := none
  aliases : Option (List String) := none
  macAddress : String := ""
  driverOpts : Option (List (String × String)) := none

/-- The networks of a container; Docker may list one without settings. -/
abbrev Endpoints := List (String × Option EndpointSettings)

/-- `container.MountPoint`, as inspect lists it. -/
structure MountPoint where
  type : String
  name : String
  source : String := ""
  destination : String
  rw : Bool
  deriving DecidableEq

/-- The values of `State.Status`. -/
inductive ContainerStatus where
  | created
  | running
  | paused
  | restarting
  | removing
  | exited
  | dead
  deriving DecidableEq

namespace ContainerStatus

def text : ContainerStatus → String
  | .created => "created"
  | .running => "running"
  | .paused => "paused"
  | .restarting => "restarting"
  | .removing => "removing"
  | .exited => "exited"
  | .dead => "dead"

/-- `State.Running`, which Docker also sets for a paused or restarting container. -/
def isRunning : ContainerStatus → Bool
  | .running | .paused | .restarting => true
  | .created | .removing | .exited | .dead => false

end ContainerStatus

/-- `container.State`; `health` is the text of `Health.Status`, absent without a check. -/
structure ContainerState where
  status : ContainerStatus
  health : Option String := none
  deriving DecidableEq

def ContainerState.running (s : ContainerState) : Bool := s.status.isRunning

/-- `container.InspectResponse`. -/
structure InspectResponse where
  id : String
  name : String
  image : String
  restartCount : Nat
  state : Option ContainerState
  config : Option Config
  hostConfig : Option HostConfig
  networkSettings : Option Endpoints
  mounts : List MountPoint

/-- The value of a label, empty if the container does not carry it. -/
def Config.label (c : Config) (key : String) : String := ((c.labels.getD []).lookup key).getD ""

/-- `docker.StackName`. -/
def Config.stack (c : Config) : String :=
  if c.label "com.docker.compose.project" ≠ "" then c.label "com.docker.compose.project"
  else c.label "doupro.stack"

/-- `docker.Container`, one entry of `List`. -/
structure ListedContainer where
  id : String
  name : String
  image : String
  imageID : String
  state : String
  status : String
  stack : String
  excluded : Bool
  labels : List (String × String)
  deriving DecidableEq

/-- The value of a label, empty if the container does not carry it. -/
def ListedContainer.label (c : ListedContainer) (key : String) : String :=
  (c.labels.lookup key).getD ""

end Doupro
