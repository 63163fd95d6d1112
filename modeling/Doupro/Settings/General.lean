import Doupro.Scheduler.Executors
import Doupro.Settings.Statements

/-!
# The general settings

`GET` and `PATCH settings/general` over the statements of the store. A change is four upserts,
with other requests between them.
-/

namespace Doupro.Settings

open Interaction Store

/-- `generalSettingsResponse`. -/
structure GeneralSettings where
  checkIntervalMinutes : Int
  crashLoopThreshold : Int
  crashLoopWindowMinutes : Int
  logsPageSize : Int
  deriving DecidableEq

inductive SettingsAnswer where
  | refused (status : Nat) (code message : String)
  | ok (settings : GeneralSettings)
  deriving DecidableEq

/-- `scheduler.DefaultCheckInterval / time.Minute`. -/
def defaultCheckMinutes : Int := Scheduler.defaultCheckInterval / minute

/-- `handleGetGeneralSettings`. -/
def handleGetGeneralSettings : SettingProgram SettingsAnswer := do
  match ← getCheckInterval with
  | .error _ => return .refused 500 "internal_error" "failed to load settings"
  | .ok minutes =>
    match ← readCrashLoopSettings with
    | .error _ => return .refused 500 "internal_error" "failed to load crash-loop settings"
    | .ok (threshold, windowMinutes) =>
      match ← getLogsPageSize with
      | .error _ => return .refused 500 "internal_error" "failed to load logs settings"
      | .ok logsPageSize => return .ok {
          checkIntervalMinutes := minutes.getD defaultCheckMinutes
          crashLoopThreshold := threshold
          crashLoopWindowMinutes := windowMinutes
          logsPageSize }

/-- What a change asks for, or what is kept of a setting it leaves out. -/
def orKept (asked : Int) (kept : SettingProgram Int) : SettingProgram Int :=
  if asked = 0 then kept else return asked

/-- The check interval of a change that leaves it out. -/
def keptCheckInterval : SettingProgram Int := do
  match ← getCheckInterval with
  | .ok (some current) => return current
  | _ => return defaultCheckMinutes

/-- The page size of a change that leaves it out. -/
def keptLogsPageSize : SettingProgram Int := do
  match ← getLogsPageSize with
  | .ok current => return current
  | .error _ => return defaultLogsPageSize

/-- The event a change logs. -/
def crashLoopChanged (req : GeneralSettings) (actorID : String) : LogEvent where
  level := .info
  type := "settings.crashloop_changed"
  actor := .user
  actorID := actorID
  message := "automatic rollback policy set to " ++ toString req.crashLoopThreshold ++
    " crashes within " ++ toString req.crashLoopWindowMinutes ++ " minutes"
  metadata := [("threshold", .number req.crashLoopThreshold),
    ("window_minutes", .number req.crashLoopWindowMinutes)]

/-- The writes of `handleSetGeneralSettings`. -/
def saveGeneralSettings (req : GeneralSettings) (actorID : String) :
    SettingProgram SettingsAnswer := do
  match ← setCheckInterval req.checkIntervalMinutes with
  | .error _ => return .refused 500 "internal_error" "failed to save settings"
  | .ok () =>
    match ← setCrashLoopSettings req.crashLoopThreshold req.crashLoopWindowMinutes with
    | .error _ => return .refused 500 "internal_error" "failed to save crash-loop settings"
    | .ok () =>
      match ← setLogsPageSize req.logsPageSize with
      | .error _ => return .refused 500 "internal_error" "failed to save logs settings"
      | .ok () =>
        let _ ← .request (S := SettingCalls) (.emit (crashLoopChanged req actorID))
        return .ok req

/-- `handleSetGeneralSettings`, given the decoded body: a setting that is left out is zero. -/
def handleSetGeneralSettings (body : Option GeneralSettings) (actorID : String) :
    SettingProgram SettingsAnswer := do
  match body with
  | none => return .refused 400 "invalid_request" "invalid JSON body"
  | some req =>
    let minutes ← orKept req.checkIntervalMinutes keptCheckInterval
    if minutes < 5 then
      return .refused 400 "invalid_request" "check_interval_minutes must be at least 5"
    match ← readCrashLoopSettings with
    | .error _ => return .refused 500 "internal_error" "failed to load settings"
    | .ok (currentThreshold, currentWindow) =>
      let threshold := if req.crashLoopThreshold = 0 then currentThreshold else req.crashLoopThreshold
      let windowMinutes :=
        if req.crashLoopWindowMinutes = 0 then currentWindow else req.crashLoopWindowMinutes
      if threshold < 1 ∨ threshold > 20 ∨ windowMinutes < 1 ∨ windowMinutes > 1440 then
        return .refused 400 "invalid_request"
          "crash-loop threshold must be 1-20 and window 1-1440 minutes"
      let logsPageSize ← orKept req.logsPageSize keptLogsPageSize
      if logsPageSize < minLogsPageSize ∨ logsPageSize > maxLogsPageSize then
        return .refused 400 "invalid_request" ("logs_page_size must be " ++
          toString minLogsPageSize ++ "-" ++ toString maxLogsPageSize)
      saveGeneralSettings ⟨minutes, threshold, windowMinutes, logsPageSize⟩ actorID

/-! ### Other readers -/

/-- `minutes * time.Minute` of two `int64`. -/
def minutesDuration (minutes : Int) : Duration := (minutes * minute).bmod (2 ^ 64)

/-- `currentCheckInterval`, of a scheduler that was made with an interval. -/
def currentCheckInterval (made : Duration) : SettingProgram Duration := do
  match ← getCheckInterval with
  | .ok (some minutes) => return minutesDuration minutes
  | _ => return made

/-- The page size `handleLogs` asks for. -/
def logsPageLimit : SettingProgram Int := do
  match ← getLogsPageSize with
  | .ok pageSize => return pageSize
  | .error _ => return defaultLogsPageSize

/-- What goes on over the general settings. -/
inductive Task where
  | get
  | set (body : Option GeneralSettings) (actorID : String)
  | checkInterval (made : Duration)
  /-- An update that arms a watch for crashes. -/
  | crashLoop
  | logsPage

inductive Outcome where
  | answer (a : SettingsAnswer)
  | interval (d : Duration)
  | crashLoop (r : Except GoError (Int × Int))
  | pageSize (n : Int)

def Task.run : Task → SettingProgram Outcome
  | .get => return .answer (← handleGetGeneralSettings)
  | .set body actorID => return .answer (← handleSetGeneralSettings body actorID)
  | .checkInterval made => return .interval (← currentCheckInterval made)
  | .crashLoop => return .crashLoop (← readCrashLoopSettings)
  | .logsPage => return .pageSize (← logsPageLimit)

end Doupro.Settings
