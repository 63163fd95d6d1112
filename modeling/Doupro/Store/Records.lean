import Doupro.Go.Errors
import Doupro.Go.Strings
import Doupro.Go.Timestamp
import Doupro.Table.Keyed

/-!
# Tables of the store

The rows of `containers`, `rollback_watches`, `schedules`, `update_candidates`,
`image_versions` and `settings`. Time columns hold RFC3339Nano text, which parses back to the same instant, so a
row carries the instant. `updated_at` is written by every statement and read by none.
-/

namespace Doupro

structure ContainerRecord where
  id : String
  name : String
  stack : String := ""
  state : String := ""
  status : String := ""
  currentImage : String := ""
  previousImage : String := ""
  currentVersion : String := ""
  availableVersion : String := ""
  updateAvailable : Bool := false
  excluded : Bool := false
  lastCheckedAt : Option Time := none
  deriving DecidableEq

/-- The values the `status` column of `rollback_watches` takes. -/
inductive WatchStatus where
  | active
  | triggered
  | expired
  | notRunning
  | rollbackFailed
  | manualRollback
  | automaticRollback
  deriving DecidableEq

def WatchStatus.text : WatchStatus → String
  | .active => "active"
  | .triggered => "triggered"
  | .expired => "expired"
  | .notRunning => "not_running"
  | .rollbackFailed => "rollback_failed"
  | .manualRollback => "manual_rollback"
  | .automaticRollback => "automatic_rollback"

theorem WatchStatus.text_injective : Function.Injective WatchStatus.text := by
  intro a b h
  cases a <;> cases b <;> first | rfl | exact absurd h (by decide)

structure RollbackWatch where
  containerName : String
  containerID : String
  updateAppliedAt : Time
  windowExpiresAt : Time
  crashCount : Nat
  threshold : Nat
  observedRestartCount : Nat
  lastEventNano : Int
  lastCrashAt : Option Time
  triggeredAt : Option Time
  status : WatchStatus
  deriving DecidableEq

/-- The watch still counts crashes, or its rollback has yet to run. -/
def RollbackWatch.Live (w : RollbackWatch) : Prop := w.status = .active ∨ w.status = .triggered

instance (w : RollbackWatch) : Decidable w.Live := inferInstanceAs (Decidable (_ ∨ _))

inductive ScheduleKind where
  | once
  | cron
  | relative
  deriving DecidableEq

def ScheduleKind.text : ScheduleKind → String
  | .once => "once"
  | .cron => "cron"
  | .relative => "relative"

inductive RelativePolicy where
  /-- Not a relative schedule. -/
  | unset
  | immediate
  | delayed
  deriving DecidableEq

/-- `store.Schedule`. -/
structure Schedule where
  id : Nat
  kind : ScheduleKind
  containerName : String := ""
  stack : String := ""
  runAt : Option Time := none
  cronExpr : String := ""
  relativePolicy : RelativePolicy := .unset
  relativeAfter : String := ""
  semverPolicy : String := "major"
  pinnedImage : String := ""
  notify : Bool := true
  enabled : Bool := true
  lastRunAt : Option Time := none
  nextRunAt : Option Time := none
  deriving DecidableEq

/-- `Schedule.Completed`. -/
def Schedule.completed (sc : Schedule) : Bool := sc.kind = .once && sc.lastRunAt.isSome

structure UpdateCandidate where
  containerID : String
  scope : String
  image : String
  version : String
  detectedAt : Time
  deriving DecidableEq

/-- The values the `status` column of `image_versions` takes. -/
inductive VersionStatus where
  | resolved
  | unresolved
  deriving DecidableEq

/-- `store.ImageVersionRecord`. -/
structure ImageVersionRecord where
  registry : String
  repository : String
  digest : String
  version : String := ""
  status : VersionStatus
  checkedAt : Time
  deriving DecidableEq

/-- The exclusion lists of the settings, as their JSON decodes. -/
structure Exclusions where
  containers : List String := []
  stackNames : List String := []
  deriving DecidableEq

structure Store where
  containers : List ContainerRecord := []
  watches : List RollbackWatch := []
  settings : List (String × String) := []
  schedules : List Schedule := []
  candidates : List UpdateCandidate := []
  exclusions : Exclusions := {}
  /-- The `schedules` entry of `sqlite_sequence`. -/
  scheduleSeq : Nat := 0
  imageVersions : List ImageVersionRecord := []
  deriving DecidableEq

namespace Store

/-- `GetContainer`: the row under the primary key. -/
def getContainer (s : Store) (id : String) : Option ContainerRecord :=
  Table.lookup ContainerRecord.id id s.containers

/-- `GetRollbackWatch`: the row under the primary key `container_name`. -/
def getRollbackWatch (s : Store) (name : String) : Option RollbackWatch :=
  Table.lookup RollbackWatch.containerName name s.watches

/-- `GetSetting`. -/
def getSetting (s : Store) (key : String) : Option String :=
  (Table.lookup Prod.fst key s.settings).map Prod.snd

end Store
end Doupro
