import Doupro.System.Calls

/-!
# Notification channels

Which channels an event goes to. The type of an event is finer than the categories a channel is
filtered by.
-/

namespace Doupro.Notifier

/-- `Category`; a type without a mapping is its own category. -/
inductive Category where
  | updateAvailable
  | updateApplied
  | updateFailed
  | rollbackAuto
  | rollbackManual
  | scheduleChanged
  | policyExecuted
  | checkFailed
  | other (eventType : String)
  deriving DecidableEq

def Category.text : Category → String
  | .updateAvailable => "update.available"
  | .updateApplied => "update.applied"
  | .updateFailed => "update.failed"
  | .rollbackAuto => "rollback.auto"
  | .rollbackManual => "rollback.manual"
  | .scheduleChanged => "schedule.changed"
  | .policyExecuted => "schedule.executed"
  | .checkFailed => "check.failed"
  | .other eventType => eventType

/-- `categorize`. -/
def categorize (eventType : String) : Category :=
  if eventType = "update.available" then .updateAvailable
  else if eventType = "update.succeeded" then .updateApplied
  else if hasPrefix eventType "update." then .updateFailed
  else if hasPrefix eventType "rollback.auto" then .rollbackAuto
  else if hasPrefix eventType "rollback.manual" then .rollbackManual
  else if eventType = "schedule.created" ∨ eventType = "schedule.modified" ∨
      eventType = "schedule.cancelled" then .scheduleChanged
  else if eventType = "schedule.executed" then .policyExecuted
  else if eventType = "check.failed" then .checkFailed
  else .other eventType

/-- `Channel`, as `Notify` reads it. -/
structure Channel where
  name : String
  url : String
  events : List String := []
  stackNames : List String := []
  containers : List String := []
  deriving DecidableEq

namespace Channel

/-- The filter by category, which an automatic rollback always passes. -/
def receives (ch : Channel) (category : Category) : Bool :=
  ch.events = [] || category = .rollbackAuto || ch.events.contains category.text

/-- The filter by stack and container. -/
def inScope (ch : Channel) (container stack : String) : Bool :=
  (ch.stackNames = [] && ch.containers = []) || (container = "" && stack = "") ||
    (stack ≠ "" && ch.stackNames.contains stack) || (container ≠ "" && ch.containers.contains container)

/-- `Channel.matches`. -/
def accepts (ch : Channel) (eventType container stack : String) : Bool :=
  ch.receives (categorize eventType) && ch.inScope container stack

end Channel

/-- The part of `store.NotificationJob` that `Notify` fills in. -/
structure NewJob where
  event : String
  target : String
  stack : String
  channel : String
  channelURL : String
  message : String
  deriving DecidableEq

/-- The job of a notice for one channel. -/
def jobFor (notice : Notification) (ch : Channel) : NewJob where
  event := notice.eventType
  target := notice.target
  stack := notice.stack
  channel := ch.name
  channelURL := ch.url
  message := notice.message

/-- The jobs of a notice, in the order of the channels. -/
def jobsOf (channels : List Channel) (notice : Notification) : List NewJob :=
  (channels.filter fun ch => ch.accepts notice.eventType notice.target notice.stack).map (jobFor notice)

end Doupro.Notifier
