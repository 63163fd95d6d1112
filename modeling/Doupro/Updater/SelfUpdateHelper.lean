import Doupro.Updater.RecreateRuns
import Doupro.Updater.SelfUpdate

/-!
# The self-update helper

`RunSelfUpdateHelper`, run by the sibling container: stop the daemon's container, keep it
under a recovery name, create the replacement under the daemon's own name, and either
delete the original or put it back.
-/

namespace Doupro

open Interaction

namespace Updater

open Go

/-- Docker's generated hostname is the short ID of the old container; the replacement gets its
own. -/
def withoutGeneratedHostname (parentID : String) (plan : RecreationPlan) : RecreationPlan :=
  if plan.config.hostname ≠ "" ∧ hasPrefix parentID plan.config.hostname then
    { plan with config := { plan.config with hostname := "" } }
  else plan

def recoveryName (plan : RecreationPlan) (token : String) : String :=
  plan.name ++ "-doupro-recovery-" ++ token

def resultEvent (level : Level) (eventType name targetImage message : String) : LogEvent where
  level := level
  type := eventType
  container := name
  toVersion := targetImage
  actor := .system
  message := message

/-- `emitSelfUpdateResult`. -/
def emitSelfUpdateResult (level : Level) (eventType name targetImage message : String) : Go Unit :=
  emit (resultEvent level eventType name targetImage message)

/-- The replacement under the name of the daemon: its ID, empty if it was not created, and
`createErr`. -/
def startReplacement (ctx : Context) (plan : RecreationPlan) : Go (String × Option GoError) := do
  match ← docker ctx (.create plan.config plan.hostConfig plan.networkConfig plan.name) with
  | .error err => return ("", some err)
  | .ok newID =>
    if plan.wasRunning then
      match ← docker ctx (.start newID) with
      | .error err => return (newID, some err)
      | .ok _ =>
        let verdict ← Client.waitHealthy ctx newID defaultHealthTimeout defaultStabilityWindow
        return (newID, verdict)
    else return (newID, none)

/-- The end of a self-update whose replacement is ready. -/
def dropParent (ctx : Context) (parentID targetImage : String) (plan : RecreationPlan) :
    Go (Option GoError) := do
  match ← docker ctx (.remove parentID true) with
  | .error err => return some (.wrap "remove recovery container" err)
  | .ok _ =>
    emitSelfUpdateResult .info "self_update.succeeded" plan.name targetImage
      "DoUpRo self-update succeeded"
    return none

/-- The original container gets its name back and is started again. -/
def restoreParent (parentID targetImage : String) (plan : RecreationPlan) (createErr : GoError) :
    Go (Option GoError) := do
  match ← docker .background (.rename parentID plan.name) with
  | .error err =>
    return some
      (.wrap ("replacement failed (" ++ createErr.message ++ ") and recovery rename failed") err)
  | .ok _ =>
    if plan.wasRunning then
      if let .error err ← docker .background (.start parentID) then
        return some
          (.wrap ("replacement failed (" ++ createErr.message ++ ") and recovery start failed") err)
    emitSelfUpdateResult .error "self_update.failed" plan.name targetImage
      ("replacement failed and original container was restored: " ++ createErr.message)
    return some (.wrap "replacement failed; original container restored" createErr)

/-- The end of a self-update whose replacement failed. -/
def undoReplacement (parentID newID targetImage : String) (plan : RecreationPlan)
    (createErr : GoError) : Go (Option GoError) := do
  if newID ≠ "" then
    let _ ← docker .background (.remove newID true)
  restoreParent parentID targetImage plan createErr

/-- The part of a self-update after the original was renamed. -/
def swapParent (ctx : Context) (parentID targetImage : String) (plan : RecreationPlan) :
    Go (Option GoError) := do
  let (newID, createErr) ← startReplacement ctx plan
  match createErr with
  | none => dropParent ctx parentID targetImage plan
  | some err => undoReplacement parentID newID targetImage plan err

/-- The part of a self-update after the original was stopped. -/
def setAside (ctx : Context) (parentID targetImage token : String) (plan : RecreationPlan) :
    Go (Option GoError) := do
  match ← docker ctx (.rename parentID (recoveryName plan token)) with
  | .error err =>
    if plan.wasRunning then
      let _ ← docker .background (.start parentID)
    return some err
  | .ok _ => swapParent ctx parentID targetImage plan

/-- The part of a self-update that acts on the containers. -/
def replaceParent (ctx : Context) (parentID targetImage token : String) (plan : RecreationPlan) :
    Go (Option GoError) := do
  if plan.wasRunning then
    match ← docker ctx (.stop parentID defaultStopTimeout) with
    | .error err => return some err
    | .ok _ => setAside ctx parentID targetImage token plan
  else setAside ctx parentID targetImage token plan

/-- `RunSelfUpdateHelper`, from the client on. -/
def runSelfUpdateHelper (ctx : Context) (parentID targetImage token : String) :
    Go (Option GoError) := do
  match ← docker ctx (.inspect parentID) with
  | .error err => return some (.wrap "inspect self-update parent" err)
  | .ok before => match buildRecreationPlan before targetImage with
    | .error err => return some err
    | .ok plan =>
      replaceParent ctx parentID targetImage token (withoutGeneratedHostname parentID plan)

/-- What a plan of the helper keeps of the container it was built from. -/
theorem helperPlan (parentID : String) {w : World} {parent : ContainerSpec} {targetImage : String}
    {plan : RecreationPlan}
    (h : buildRecreationPlan (w.engine.inspectResponse parent) targetImage = .ok plan) :
    (withoutGeneratedHostname parentID plan).name = parent.name ∧
      (withoutGeneratedHostname parentID plan).config.image = targetImage ∧
      (withoutGeneratedHostname parentID plan).hostConfig.autoRemove =
        parent.hostConfig.autoRemove ∧
      (withoutGeneratedHostname parentID plan).wasRunning = (w.engine.states parent.id).running := by
  obtain ⟨config, hostConfig, state, hconfig, hhost, hstate, -, rfl⟩ := buildRecreationPlan_ok h
  obtain rfl := Option.some_inj.mp hconfig
  obtain rfl := Option.some_inj.mp hhost
  obtain rfl := Option.some_inj.mp hstate
  have hname : trimSlash (w.engine.inspectResponse parent).name = parent.name :=
    trimSlash_slash parent.name
  unfold withoutGeneratedHostname
  split <;> exact ⟨hname, rfl, rfl, rfl⟩

end Updater
end Doupro
