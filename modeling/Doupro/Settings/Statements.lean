import Doupro.Go.Strconv
import Doupro.Interaction.Threads
import Doupro.Store.EventFilters
import Doupro.Store.RollbackWatches

/-!
# General settings

The settings of Settings → General are texts in a table of keys and values. Each is read with a
query and written with an upsert of its own.
-/

namespace Doupro.Settings

open Interaction Store

/-- The statements on `settings`, and the event that a change logs. -/
inductive SettingCall where
  | select (key : String)
  | upsert (key value : String)
  | emit (event : LogEvent)

@[reducible] def SettingCall.Reply : SettingCall → Type
  | .select _ => Except GoError (Option String)
  | .upsert _ _ => Except GoError Unit
  | .emit _ => Unit

abbrev SettingCalls : Signature := ⟨SettingCall, SettingCall.Reply⟩

abbrev SettingProgram (α : Type) := Program SettingCalls α

/-- The values of `settings` by key. -/
abbrev Values := String → Option String

/-- A statement, which a fault of its own may keep from taking effect. -/
def Values.exec (db : Values) (fault : Option GoError) : (op : SettingCall) → op.Reply × Values
  | .select key => (match fault with
    | some err => .error err
    | none => .ok (db key), db)
  | .upsert key value => match fault with
    | some err => (.error err, db)
    | none => (.ok (), Function.update db key (some value))
  | .emit _ => ((), db)

/-- The connection the statements share. -/
def settingConnection : Machine SettingCalls Values where
  rely db db' := db' = db
  step db op r db' := ∃ fault, db.exec fault op = (r, db')

/-! ### Store functions -/

/-- `Store.GetSetting`. -/
def getSetting (key : String) : SettingProgram (Except GoError (Option String)) := do
  match ← .request (S := SettingCalls) (.select key) with
  | .error err => return .error (.wrap ("get setting " ++ key) err)
  | .ok value => return .ok value

/-- `Store.SetSetting`. -/
def setSetting (key value : String) : SettingProgram (Except GoError Unit) := do
  match ← .request (S := SettingCalls) (.upsert key value) with
  | .error err => return .error (.wrap ("set setting " ++ key) err)
  | .ok () => return .ok ()

def checkIntervalKey : String := "general.check_interval_minutes"
def crashLoopThresholdKey : String := "updates.crash_loop_threshold"
def crashLoopWindowKey : String := "updates.crash_loop_window_minutes"
def logsPageSizeKey : String := "general.logs_page_size"

def generalKeys : List String :=
  [checkIntervalKey, crashLoopThresholdKey, crashLoopWindowKey, logsPageSizeKey]

def minLogsPageSize : Int := 50

/-- A stored integer that is of use. -/
def positive (raw : Option String) : Option Int := (raw.bind atoi).filter fun n => 0 < n

/-- A stored page size within its bounds. -/
def pageSizeOf (raw : Option String) : Int :=
  ((raw.bind atoi).filter fun n => minLogsPageSize ≤ n ∧ n ≤ maxLogsPageSize).getD
    defaultLogsPageSize

/-- `GetCheckIntervalMinutes`. -/
def getCheckInterval : SettingProgram (Except GoError (Option Int)) := do
  match ← getSetting checkIntervalKey with
  | .error err => return .error err
  | .ok raw => return .ok (positive raw)

/-- `SetCheckIntervalMinutes`. -/
def setCheckInterval (minutes : Int) : SettingProgram (Except GoError Unit) :=
  setSetting checkIntervalKey (toString minutes)

/-- `GetCrashLoopSettings`: the threshold and the window. -/
def readCrashLoopSettings : SettingProgram (Except GoError (Int × Int)) := do
  match ← getSetting crashLoopThresholdKey with
  | .error err => return .error err
  | .ok threshold =>
    match ← getSetting crashLoopWindowKey with
    | .error err => return .error err
    | .ok window => return .ok ((positive threshold).getD defaultCrashLoopThreshold,
        (positive window).getD defaultCrashLoopWindowMinutes)

/-- `SetCrashLoopSettings`. -/
def setCrashLoopSettings (threshold windowMinutes : Int) : SettingProgram (Except GoError Unit) := do
  match ← setSetting crashLoopThresholdKey (toString threshold) with
  | .error err => return .error err
  | .ok () => setSetting crashLoopWindowKey (toString windowMinutes)

/-- `GetLogsPageSize`. -/
def getLogsPageSize : SettingProgram (Except GoError Int) := do
  match ← getSetting logsPageSizeKey with
  | .error err => return .error err
  | .ok raw => return .ok (pageSizeOf raw)

/-- `SetLogsPageSize`. -/
def setLogsPageSize (size : Int) : SettingProgram (Except GoError Unit) :=
  setSetting logsPageSizeKey (toString size)

end Doupro.Settings
