import Doupro.Api.Containers
import Doupro.Registry.Reference

/-!
# The schedule handlers

`POST`, `PATCH` and `DELETE` on `schedules`. A one-off schedule pins the image of its container
when it is made.
-/

namespace Doupro.Api

open Go Interaction

/-- The parsers the handlers use. -/
structure Parsers where
  /-- `time.Parse(time.RFC3339, text)`. -/
  rfc3339 : String → Option Time
  /-- `NextCronRun`: its error, or the next run after an instant. -/
  cron : String → Except String (Time → Time)

/-! ### Pins -/

/-- `stripImageTag`. -/
def stripImageTag (image : String) : String :=
  let slash := Text.lastIndex '/' image.toList
  let colon := Text.lastIndex ':' image.toList
  if slash < colon then String.ofList (image.toList.take colon.toNat) else image

example : stripImageTag "localhost:5000/web:1" = "localhost:5000/web" := by decide
example : stripImageTag "localhost:5000/web" = "localhost:5000/web" := by decide

/-- `pinImage`. -/
def pinImage (ctx : Context) (currentImage : String) : Go String := do
  if Registry.isDigestReference currentImage then return currentImage
  match ← lookup ctx (.digest (Registry.parseRef currentImage)) with
  | .error _ => return currentImage
  | .ok digest => return stripImageTag currentImage ++ "@" ++ digest

/-! ### Creation -/

/-- `scheduleRequest`, decoded. -/
structure ScheduleRequest where
  type : String := ""
  container : String := ""
  stack : String := ""
  runAt : String := ""
  cron : String := ""
  policy : String := ""
  after : String := ""
  semver : String := ""
  notify : Option Bool := none

/-- What a schedule acts on, for people. -/
def describedTarget (sc : Schedule) : String :=
  if sc.containerName = "" then "stack " ++ sc.stack else sc.containerName

def relativePolicyText : RelativePolicy → String
  | .unset => ""
  | .immediate => "immediate"
  | .delayed => "delayed"

/-- `describeSchedule`. -/
def describeSchedule (sc : Schedule) : String :=
  let number := toString sc.id ++ " for " ++ describedTarget sc
  match sc.kind with
  | .once =>
    "once schedule #" ++ number ++ ", running at " ++ (sc.runAt.map Scheduler.rfc3339).getD ""
  | .cron => "cron schedule #" ++ number ++ ": " ++ sc.cronExpr ++ " (" ++ sc.semverPolicy ++ " updates)"
  | .relative =>
    "relative/" ++ relativePolicyText sc.relativePolicy ++ " schedule #" ++ number ++ " (" ++
      sc.semverPolicy ++ " updates)"

def invalidRequest (message : String) : Answer := .refused 400 "invalid_request" message

def internalError (message : String) : Answer := .refused 500 "internal_error" message

/-- The one-off schedule of a stack's member. -/
def memberSchedule (notify : Bool) (runAt : Time) (rec : ContainerRecord) (pinned : String) :
    Schedule where
  id := 0
  kind := .once
  containerName := rec.name
  runAt := some runAt
  semverPolicy := ""
  pinnedImage := pinned
  notify := notify
  nextRunAt := some runAt

/-- The members of a stack, one schedule each. -/
def createMembers (ctx : Context) (stack : String) (notify : Bool) (runAt : Time) :
    List ContainerRecord → (made : List Schedule) → Go (Except Answer (List Schedule))
  | [], made => return .ok made
  | rec :: rest, made => do
    if rec.stack ≠ stack then createMembers ctx stack notify runAt rest made
    else
      let pinned ← pinImage ctx rec.currentImage
      let member := memberSchedule notify runAt rec pinned
      match ← store ctx (.createSchedule member) with
      | .error _ => return .error (internalError "failed to create schedule")
      | .ok id => createMembers ctx stack notify runAt rest (made ++ [{ member with id := id }])

/-- A one-off schedule for every container of a stack. -/
def createStackSchedules (ctx : Context) (req : ScheduleRequest) (notify : Bool) (runAt : Time) :
    Go Answer := do
  match ← store ctx .listContainers with
  | .error _ => return internalError "failed to list containers"
  | .ok containers => match ← createMembers ctx req.stack notify runAt containers [] with
    | .error answer => return answer
    | .ok made =>
      if made = [] then return .refused 404 "not_found" "stack has no containers"
      if notify then
        Go.notify ⟨"schedule.created", "", req.stack, "once schedule created for " ++
          toString made.length ++ " container(s) in stack " ++ req.stack ++ ", running at " ++
          req.runAt⟩
      return .created made

/-- The instant of a one-off schedule. -/
def parseRunAt (parsers : Parsers) (req : ScheduleRequest) : Go (Except Answer Time) := do
  if (req.container = "" ∧ req.stack = "") ∨ req.runAt = "" then
    return .error (invalidRequest "once schedules require container or stack, and run_at")
  match parsers.rfc3339 req.runAt with
  | none => return .error (invalidRequest "run_at must be RFC3339")
  | some runAt =>
    if runAt < (← now) then return .error (invalidRequest "run_at must be in the future")
    return .ok runAt

/-- What every schedule of a request starts from. -/
def blankSchedule (req : ScheduleRequest) (notify : Bool) (kind : ScheduleKind) : Schedule where
  id := 0
  kind := kind
  semverPolicy := if req.semver = "" then "major" else req.semver
  notify := notify

/-- The row of a one-off schedule on one container. -/
def onceSchedule (ctx : Context) (req : ScheduleRequest) (notify : Bool) (runAt : Time) :
    Go (Except Answer Schedule) := do
  match ← Monitor.getContainerByName ctx req.container with
  | .error err => return .error (lookupRefused err)
  | .ok rec =>
    let pinned ← pinImage ctx rec.currentImage
    return .ok { blankSchedule req notify .once with
      containerName := req.container
      runAt := some runAt
      nextRunAt := some runAt
      pinnedImage := pinned }

/-- The row of a cron schedule. -/
def cronSchedule (parsers : Parsers) (req : ScheduleRequest) (notify : Bool) :
    Go (Except Answer Schedule) := do
  if req.cron = "" ∨ (req.container = "" ∧ req.stack = "") then
    return .error (invalidRequest "cron schedules require cron and container or stack")
  match parsers.cron req.cron with
  | .error message => return .error (invalidRequest message)
  | .ok next =>
    let runAt := next (← now)
    return .ok { blankSchedule req notify .cron with
      containerName := req.container
      stack := req.stack
      cronExpr := req.cron
      nextRunAt := some runAt }

def parsePolicy (policy : String) : Option RelativePolicy :=
  if policy = "immediate" then some .immediate
  else if policy = "delayed" then some .delayed
  else none

/-- The row of a relative policy. -/
def relativeSchedule (req : ScheduleRequest) (notify : Bool) : Except Answer Schedule :=
  match parsePolicy req.policy with
  | none => .error (invalidRequest "policy must be \"immediate\" or \"delayed\"")
  | some policy =>
    if req.container = "" ∧ req.stack = "" then
      .error (invalidRequest "relative schedules require container or stack")
    else if policy = .delayed ∧ ¬ (Duration.parse req.after).toOption.any (fun delay => 0 < delay) then
      .error (invalidRequest "after must be a positive Go duration such as 24h")
    else .ok { blankSchedule req notify .relative with
      containerName := req.container
      stack := req.stack
      relativePolicy := policy
      relativeAfter := req.after }

/-- The end of a creation: the row is inserted and reported. -/
def insertSchedule (ctx : Context) (sc : Schedule) : Go Answer := do
  match ← store ctx (.createSchedule sc) with
  | .error _ => return internalError "failed to create schedule"
  | .ok id =>
    let made := { sc with id := id }
    if sc.notify then
      notify ⟨"schedule.created", made.containerName, made.stack, describeSchedule made⟩
    return .created [made]

/-- The one-off branch of `handleCreateSchedule`. -/
def createOnce (parsers : Parsers) (ctx : Context) (req : ScheduleRequest) (notify : Bool) :
    Go Answer := do
  match ← parseRunAt parsers req with
  | .error answer => return answer
  | .ok runAt =>
    if req.stack ≠ "" then createStackSchedules ctx req notify runAt
    else match ← onceSchedule ctx req notify runAt with
      | .error answer => return answer
      | .ok sc => insertSchedule ctx sc

/-- `handleCreateSchedule`, given the decoded body. -/
def handleCreateSchedule (parsers : Parsers) (ctx : Context) (body : Option ScheduleRequest) :
    Go Answer := do
  match body with
  | none => return invalidRequest "invalid JSON body"
  | some req =>
    let notify := req.notify.getD true
    if req.semver ∉ ["", "patch", "minor", "major"] then
      return invalidRequest "semver must be \"patch\", \"minor\", or \"major\""
    if req.type = "once" then createOnce parsers ctx req notify
    else if req.type = "cron" then
      match ← cronSchedule parsers req notify with
      | .error answer => return answer
      | .ok sc => insertSchedule ctx sc
    else if req.type = "relative" then
      match relativeSchedule req notify with
      | .error answer => return answer
      | .ok sc => insertSchedule ctx sc
    else return invalidRequest "type must be \"once\", \"cron\", or \"relative\""

/-! ### Changes -/

def scheduleRefused (err : GoError) (message : String) : Answer :=
  if err.isNotFound then .refused 404 "not_found" "schedule not found" else internalError message

/-- `handleUpdateSchedule`, given the ID of the path and the decoded body. -/
def handleUpdateSchedule (ctx : Context) (id : Option Nat) (body : Option (Option Bool)) :
    Go Answer := do
  match id, body with
  | none, _ => return invalidRequest "invalid schedule id"
  | some _, none => return invalidRequest "invalid JSON body"
  | some _, some none => return invalidRequest "enabled is required"
  | some id, some (some enabled) => match ← store ctx (.getSchedule id) with
    | .error err => return scheduleRefused err "failed to load schedule"
    | .ok existing =>
      if existing.completed then
        return .refused 409 "schedule_completed" "a completed once schedule cannot be enabled or disabled"
      match ← store ctx (.setScheduleEnabled id enabled) with
      | .error err => return scheduleRefused err "failed to update schedule"
      | .ok () =>
        if let .ok sc ← store ctx (.getSchedule id) then
          if sc.notify then
            notify ⟨"schedule.modified", sc.containerName, sc.stack,
              describeSchedule sc ++ " " ++ (if enabled then "enabled" else "disabled")⟩
        return .ok

/-- `handleDeleteSchedule`, given the ID of the path. -/
def handleDeleteSchedule (ctx : Context) (id : Option Nat) : Go Answer := do
  match id with
  | none => return invalidRequest "invalid schedule id"
  | some id =>
    let found ← store ctx (.getSchedule id)
    match ← store ctx (.deleteSchedule id) with
    | .error err => return scheduleRefused err "failed to delete schedule"
    | .ok () =>
      if let .ok sc := found then
        if sc.notify ∧ ¬ sc.completed then
          notify ⟨"schedule.cancelled", sc.containerName, sc.stack, describeSchedule sc ++ " cancelled"⟩
      return .ok

end Doupro.Api
