import Doupro.Interaction.Semantics
import Doupro.System.Calls
import Mathlib.Logic.Relation

/-!
# The world a call meets

A call on an ended context fails, a call may fail for a reason of its own, and a call
that fails changes nothing. Between two calls containers live on, the registry moves,
time passes and contexts end.
-/

namespace Doupro

open Interaction

structure World where
  engine : Engine
  store : Store
  guard : OperationGuard := {}
  clock : Time := 0
  ended : List Nat := []

/-! ### What happens between calls -/

inductive EnvEvent where
  | tick (elapsed : Nat)
  | contextEnds (id : Nat)
  | publish (imageRef image : String)
  /-- The state of a container changes without its process exiting. -/
  | settle (id : String) (state : ContainerState)
  | exit (id : String) (code : Int) (policyRestarts : Bool)
  /-- The restart policy restarts a container that exited. -/
  | restart (id : String)

/-- The oldest exit of a container whose restart is still due. -/
def markRestarted (id : String) : List Exit → List Exit
  | [] => []
  | exit :: rest =>
    if exit.containerID = id ∧ exit.policyRestarts ∧ ¬ exit.restarted then
      { exit with restarted := true } :: rest
    else exit :: markRestarted id rest

namespace Engine

/-- A process ends at an instant; the restart policy has decided what follows. -/
def processExits (e : Engine) (spec : ContainerSpec) (nano code : Int) (policyRestarts : Bool) : Engine :=
  if policyRestarts then
    let exit : Exit :=
      { containerID := spec.id
        containerName := spec.name
        nano := nano
        code := code
        policyRestarts := true }
    (e.withExit exit).withState spec.id
      { status := .restarting, health := (e.states spec.id).health }
  else e.exited spec nano code

end Engine

namespace EnvEvent

def apply (w : World) : EnvEvent → World
  | .tick elapsed => { w with clock := w.clock + elapsed }
  | .contextEnds id => { w with ended := id :: w.ended }
  | .publish imageRef image =>
    { w with engine.registry := Function.update w.engine.registry imageRef (some image) }
  | .settle id state => { w with engine := w.engine.withState id state }
  | .exit id code policyRestarts => match w.engine.find id with
    | none => w
    | some spec =>
      { w with
        engine := w.engine.processExits spec (w.clock + 1) code policyRestarts
        clock := w.clock + 1 }
  | .restart id => match w.engine.find id with
    | none => w
    | some _ =>
      let resumed := w.engine.withState id
        { status := .running, health := (w.engine.states id).health }
      { w with engine := { resumed with exits := markRestarted id w.engine.exits } }

end EnvEvent

namespace World

def contextEnded (w : World) : Context → Bool
  | .background => false
  | .request id => decide (id ∈ w.ended)

/-- The events an environment may cause, one after another. -/
def Drifts (allows : World → EnvEvent → Prop) : World → World → Prop :=
  Relation.ReflTransGen fun w w' => ∃ event : EnvEvent, allows w event ∧ w' = event.apply w

end World

/-! ### Calls -/

/-- The parts of a call's outcome that the caller does not decide. -/
structure Choice extends DaemonChoice where
  fault : Option GoError := none
  input : MonitorInput := .expiryTick
  answers : (question : Lookup) → Except GoError question.Result :=
    fun _ => .error (.external "unavailable")

/-- The context each method of `docker.Client` puts before the daemon's error. -/
def DockerCall.label : DockerCall → String
  | .inspect id => "inspect container " ++ id
  | .pull imageRef => "pull image " ++ imageRef
  | .stop id _ => "stop container " ++ id
  | .remove id _ => "remove container " ++ id
  | .create _ _ _ name => "create container " ++ name
  | .start id => "start container " ++ id
  | .rename id _ => "rename container " ++ id
  | .list => "list containers"

/-- A die event Docker sends for an exit. -/
def Exit.ReportedBy (exit : Exit) (event : ContainerEvent) : Prop :=
  event.containerID = exit.containerID ∧ event.name = exit.containerName ∧
    event.time = exit.nano ∧ event.timeNano = exit.nano ∧ atoi event.exitCode = some exit.code

instance (exit : Exit) (event : ContainerEvent) : Decidable (exit.ReportedBy event) :=
  inferInstanceAs (Decidable (_ ∧ _))

/-- Docker reports only exits that happened. -/
def MonitorInput.Genuine (e : Engine) : MonitorInput → Prop
  | .event received =>
    received.action = "die" → ∃ exit ∈ e.exits, exit.ReportedBy received
  | .expiryTick | .streamEnded => True

instance (e : Engine) : (input : MonitorInput) → Decidable (input.Genuine e)
  | .event received => inferInstanceAs
    (Decidable (received.action = "die" → ∃ exit ∈ e.exits, exit.ReportedBy received))
  | .expiryTick | .streamEnded => inferInstanceAs (Decidable True)

namespace World

variable (c : Choice) (w : World)

/-- Why a call does not reach its server: its context ended, or a failure of its own. -/
def refusal (ctx : Context) : Option GoError :=
  if w.contextEnded ctx then some .contextDone else c.fault

def exec : (call : Call) → call.Reply × World
  | .docker ctx call => match w.refusal c ctx with
    | some err => (.error (.wrap call.label err), w)
    | none => match w.engine.perform c.toDaemonChoice w.clock call with
      | .error err => (.error (.wrap call.label err), w)
      | .ok (result, engine) => (.ok result, { w with engine })
  | .store ctx call => match w.refusal c ctx with
    | some err => (.error err, w)
    | none => match w.store.perform w.clock call with
      | .error err => (.error err, w)
      | .ok (result, store) => (.ok result, { w with store })
  | .lookup ctx question => match w.refusal c ctx with
    | some err => (.error err, w)
    | none => (c.answers question, w)
  | .beginOperation name kind =>
    let (current, guard) := w.guard.begin name kind w.clock
    (current, { w with guard })
  | .endOperation name _ => ((), { w with guard := w.guard.release name })
  | .beginMaintenance => match w.guard.beginMaintenance with
    | .error active => (.error active, w)
    | .ok guard => (.ok (), { w with guard })
  | .endMaintenance => ((), { w with guard := w.guard.endMaintenance })
  | .maintenanceActive => (w.guard.maintenance, w)
  | .now => (w.clock, w)
  | .sleepUntil ctx deadline =>
    -- with both channels ready the select may take either
    if w.contextEnded ctx ∧ (w.clock < deadline ∨ c.fault.isSome) then (some .contextDone, w)
    else (none, { w with clock := max w.clock deadline })
  | .receive ctx =>
    if w.contextEnded ctx then (none, w)
    else if c.input.Genuine w.engine then (some c.input, w)
    else (some .expiryTick, w)
  | .emit _ | .notify _ | .goRollback _ | .goShutdown => ((), w)

end World

/-- The calls in an environment that may cause the allowed events. -/
def system (allows : World → EnvEvent → Prop) : Machine Calls World where
  rely := World.Drifts allows
  step w call reply w' := ∃ c : Choice, w.exec c call = (reply, w')

end Doupro
