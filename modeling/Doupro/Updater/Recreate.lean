import Doupro.Docker.WaitHealthy
import Doupro.Updater.Plan

/-!
# Recreation

`Updater.recreate`: pull, stop and remove the old container, create the new one from the
plan, check it, start it and wait for it.
-/

namespace Doupro.Updater

open Go Interaction

def defaultHealthTimeout : Duration := 2 * minute
def defaultStabilityWindow : Duration := 60 * second
def defaultStopTimeout : Duration := 30 * second

structure RecreationResult where
  id : String := ""
  state : String := ""
  status : String := ""
  originalStopped : Bool := false
  originalRemoved : Bool := false
  deriving DecidableEq

/-- The end of a recreation that was running before: start, wait, read the state. -/
def startRecreated (ctx : Context) (result : RecreationResult) :
    Go (RecreationResult × Option GoError) := do
  match ← docker ctx (.start result.id) with
  | .error err => return (result, some (.wrap "start container" err))
  | .ok _ =>
    match ← Client.waitHealthy ctx result.id defaultHealthTimeout defaultStabilityWindow with
    | some err => return (result, some (.wrap "health check" err))
    | none => match ← docker ctx (.inspect result.id) with
      | .error err => return (result, some (.wrap "inspect healthy container" err))
      | .ok created => match created.state with
        | none => return (result, some .nilDereference)
        | some state =>
          return ({ result with state := state.status.text, status := state.status.text }, none)

/-- The part of a recreation after the old container is gone. -/
def createReplacement (ctx : Context) (plan : RecreationPlan) (result : RecreationResult) :
    Go (RecreationResult × Option GoError) := do
  match ← docker ctx (.create plan.config plan.hostConfig plan.networkConfig plan.name) with
  | .error err => return (result, some (.wrap "create container" err))
  | .ok newID =>
    let result := { result with id := newID, state := "created", status := "Created" }
    match ← docker ctx (.inspect newID) with
    | .error err => return (result, some (.wrap "inspect recreated container" err))
    | .ok created =>
      match validateRecreation plan created with
      | some .nilDereference => return (result, some .nilDereference)
      | some err => return (result, some (.wrap "recreation fidelity check" err))
      | none => if plan.wasRunning then startRecreated ctx result else return (result, none)

/-- The removal of the stopped container, and what follows it. -/
def removeOriginal (ctx : Context) (oldID : String) (plan : RecreationPlan) :
    Go (RecreationResult × Option GoError) := do
  let stopped : RecreationResult := { originalStopped := plan.wasRunning }
  match ← docker ctx (.remove oldID true) with
  | .error err => return (stopped, some (.wrap "remove container" err))
  | .ok _ => createReplacement ctx plan { stopped with originalRemoved := true }

/-- The part of a recreation after the pull. -/
def replaceOriginal (ctx : Context) (oldID : String) (plan : RecreationPlan) :
    Go (RecreationResult × Option GoError) := do
  if oldID = "" then createReplacement ctx plan {}
  else if plan.wasRunning then
    match ← docker ctx (.stop oldID defaultStopTimeout) with
    | .error err => return ({}, some (.wrap "stop container" err))
    | .ok _ => removeOriginal ctx oldID plan
  else removeOriginal ctx oldID plan

/-- `Updater.recreate`. -/
def recreate (ctx : Context) (oldID : String) (before : InspectResponse) (targetImage : String) :
    Go (RecreationResult × Option GoError) := do
  match buildRecreationPlan before targetImage with
  | .error err => return ({}, some err)
  | .ok plan =>
    if hasPrefix targetImage "sha256:" then replaceOriginal ctx oldID plan
    else match ← docker ctx (.pull targetImage) with
      | .error err => return ({}, some (.wrap ("pull " ++ targetImage) err))
      | .ok _ => replaceOriginal ctx oldID plan

/-! ### A recreation calls Docker and the clock only -/

def OnDocker : Call → Prop
  | .docker _ _ | .now | .sleepUntil _ _ => True
  | _ => False

theorem onDocker_of_observes {call : Call} (h : call.Observes) : OnDocker call := by
  unfold Call.Observes at h
  split at h <;> trivial

theorem startRecreated_onDocker (ctx : Context) (result : RecreationResult) :
    (startRecreated ctx result).Uses OnDocker := by
  refine Program.uses_bind ((Program.uses_request _).mpr trivial) fun reply => ?_
  cases reply with
  | error err => trivial
  | ok _ =>
    refine Program.uses_bind (Program.uses_mono (fun _ => onDocker_of_observes)
      (Client.waitHealthy_observes ctx _ _ _)) fun verdict => ?_
    cases verdict with
    | some err => trivial
    | none =>
      refine Program.uses_bind ((Program.uses_request _).mpr trivial) fun reply => ?_
      cases reply with
      | error err => trivial
      | ok created => cases hstate : created.state <;> simp only [hstate] <;> trivial

theorem createReplacement_onDocker (ctx : Context) (plan : RecreationPlan)
    (result : RecreationResult) : (createReplacement ctx plan result).Uses OnDocker := by
  refine Program.uses_bind ((Program.uses_request _).mpr trivial) fun reply => ?_
  cases reply with
  | error err => trivial
  | ok newID =>
    refine Program.uses_bind ((Program.uses_request _).mpr trivial) fun reply => ?_
    cases reply with
    | error err => trivial
    | ok created =>
      simp only []
      split
      · trivial
      · trivial
      · split
        · exact startRecreated_onDocker ctx _
        · trivial

theorem removeOriginal_onDocker (ctx : Context) (oldID : String) (plan : RecreationPlan) :
    (removeOriginal ctx oldID plan).Uses OnDocker := by
  refine Program.uses_bind ((Program.uses_request _).mpr trivial) fun reply => ?_
  cases reply with
  | error err => trivial
  | ok _ => exact createReplacement_onDocker ctx plan _

theorem recreate_onDocker (ctx : Context) (oldID : String) (before : InspectResponse)
    (targetImage : String) : (recreate ctx oldID before targetImage).Uses OnDocker := by
  have hreplace : ∀ plan, (replaceOriginal ctx oldID plan).Uses OnDocker := by
    intro plan
    unfold replaceOriginal
    split
    · exact createReplacement_onDocker ctx plan _
    split
    · refine Program.uses_bind ((Program.uses_request _).mpr trivial) fun reply => ?_
      cases reply with
      | error err => trivial
      | ok _ => exact removeOriginal_onDocker ctx oldID plan
    · exact removeOriginal_onDocker ctx oldID plan
  unfold recreate
  split
  · trivial
  split
  · exact hreplace _
  · refine Program.uses_bind ((Program.uses_request _).mpr trivial) fun reply => ?_
    cases reply with
    | error err => trivial
    | ok _ => exact hreplace _

end Doupro.Updater
