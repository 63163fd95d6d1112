import Doupro.System.Calls

/-!
# The health wait

`Client.WaitHealthy` after a container was started: a stability window without a
health check, polling on a ticker with one.
-/

namespace Doupro

/-- `Duration.String` of a whole number of seconds. -/
def durationText (d : Duration) : String :=
  let seconds := (d / second).toNat
  let tail := toString (seconds % 60) ++ "s"
  if seconds < 60 then tail
  else if seconds < 3600 then toString (seconds / 60) ++ "m" ++ tail
  else toString (seconds / 3600) ++ "h" ++ toString (seconds / 60 % 60) ++ "m" ++ tail

namespace InspectResponse

def running (info : InspectResponse) : Bool := (info.state.map ContainerState.running).getD false

def health (info : InspectResponse) : Option String := info.state.bind ContainerState.health

/-- `statusOf`. -/
def statusOf (info : InspectResponse) : String :=
  (info.state.map fun state => state.status.text).getD "unknown"

end InspectResponse

/-- A call that only looks at the world or lets time pass. -/
def Call.Observes : Call → Prop
  | .docker _ (.inspect _) | .now | .sleepUntil _ _ => True
  | _ => False

/-- A call that only looks at one container or lets time pass. -/
def Call.Watches (id : String) : Call → Prop
  | .docker _ (.inspect inspected) => inspected = id
  | .now | .sleepUntil _ _ => True
  | _ => False

theorem Call.observes_of_watches {id : String} {call : Call} (h : call.Watches id) :
    call.Observes := by
  unfold Call.Watches at h
  split at h <;> trivial

namespace Client

open Go Interaction

def pollInterval : Duration := 500 * millisecond

/-- What one poll of the health loop decides, before it looks at the deadline. -/
def pollVerdict (id : String) (info : InspectResponse) : Option (Option GoError) :=
  if info.health = some "healthy" then some none
  else if info.health = some "unhealthy" then
    some (some (.new ("container " ++ id ++ " reported unhealthy")))
  else if ¬ info.running then
    some (some (.new ("container " ++ id ++ " stopped while waiting for health (status: " ++
      info.statusOf ++ ")")))
  else none

/-- The health loop. The ticker fires every interval, so the number of polls is bounded by
the deadline; `pollHealth_fuel` shows that the bound is never what ends the loop. -/
def pollHealth (ctx : Context) (id : String) (timeout : Duration) (deadline : Time) :
    (polls : Nat) → (tick : Time) → Go (Option GoError)
  | 0, _ => return some (.new ("container " ++ id ++ " did not become healthy within " ++
      durationText timeout))
  | polls + 1, tick => do
    if let some err ← sleepUntil ctx tick then return some err
    match ← docker ctx (.inspect id) with
    | .error err => return some (.wrap ("poll health for container " ++ id) err)
    | .ok info =>
      if let some verdict := pollVerdict id info then return verdict
      if deadline < (← now) then
        return some (.new ("container " ++ id ++ " did not become healthy within " ++
          durationText timeout))
      pollHealth ctx id timeout deadline polls (tick + pollInterval)

/-- The wait without a health check. -/
def awaitStability (ctx : Context) (id : String) (stabilityWindow : Duration) :
    Go (Option GoError) := do
  if let some err ← sleepUntil ctx ((← now) + stabilityWindow) then return some err
  match ← docker ctx (.inspect id) with
  | .error err => return some (.wrap ("check container " ++ id ++ " after stability window") err)
  | .ok info =>
    if ¬ info.running then
      return some (.new ("container " ++ id ++ " is not running after stability window (status: " ++
        info.statusOf ++ ")"))
    return none

/-- A failed inspect counts as no health check. -/
def hasHealthcheck : Except GoError InspectResponse → Bool
  | .ok info => info.health.isSome
  | .error _ => false

/-- `WaitHealthy`. -/
def waitHealthy (ctx : Context) (id : String) (timeout stabilityWindow : Duration) :
    Go (Option GoError) := do
  let deadline := (← now) + timeout
  let firstTick := (← now) + pollInterval
  if hasHealthcheck (← docker ctx (.inspect id)) then
    pollHealth ctx id timeout deadline (timeout / pollInterval + 1).toNat firstTick
  else awaitStability ctx id stabilityWindow

/-! ### The wait acts on nothing -/

theorem pollHealth_watches (ctx : Context) (id : String) (timeout : Duration) (deadline : Time)
    (polls : Nat) (tick : Time) :
    Program.Uses (Call.Watches id) (pollHealth ctx id timeout deadline polls tick) := by
  induction polls generalizing tick with
  | zero => trivial
  | succ polls ih =>
    refine Program.uses_bind ((Program.uses_request _).mpr trivial) fun slept => ?_
    split
    · trivial
    refine Program.uses_bind ((Program.uses_request _).mpr rfl) fun reply => ?_
    split
    · trivial
    split
    · trivial
    refine Program.uses_bind ((Program.uses_request _).mpr trivial) fun now => ?_
    split
    · trivial
    · exact ih _

theorem awaitStability_watches (ctx : Context) (id : String) (stabilityWindow : Duration) :
    Program.Uses (Call.Watches id) (awaitStability ctx id stabilityWindow) := by
  refine Program.uses_bind ((Program.uses_request _).mpr trivial) fun now => ?_
  refine Program.uses_bind ((Program.uses_request _).mpr trivial) fun slept => ?_
  split
  · trivial
  refine Program.uses_bind ((Program.uses_request _).mpr rfl) fun reply => ?_
  split
  · trivial
  split <;> trivial

theorem waitHealthy_watches (ctx : Context) (id : String) (timeout stabilityWindow : Duration) :
    Program.Uses (Call.Watches id) (waitHealthy ctx id timeout stabilityWindow) := by
  refine Program.uses_bind ((Program.uses_request _).mpr trivial) fun start => ?_
  refine Program.uses_bind ((Program.uses_request _).mpr trivial) fun ticker => ?_
  refine Program.uses_bind ((Program.uses_request _).mpr rfl) fun first => ?_
  split
  · exact pollHealth_watches ctx id timeout _ _ _
  · exact awaitStability_watches ctx id stabilityWindow

theorem waitHealthy_observes (ctx : Context) (id : String) (timeout stabilityWindow : Duration) :
    Program.Uses Call.Observes (waitHealthy ctx id timeout stabilityWindow) :=
  Program.uses_mono (fun _ => Call.observes_of_watches)
    (waitHealthy_watches ctx id timeout stabilityWindow)

end Client
end Doupro
