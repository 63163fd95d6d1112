import Doupro.Store.RollbackWatches
import Mathlib.Data.List.Sort

/-!
# Statements on the schedules

`schedules`, `update_candidates` and `image_versions`, and the check interval of the settings.
Due schedules are found by comparing the texts of two instants; nothing else is.
-/

namespace Doupro.Store

/-- `enabled = 1 AND next_run_at IS NOT NULL AND next_run_at <= now`. -/
def isDue (now : Time) (sc : Schedule) : Bool :=
  sc.enabled && sc.nextRunAt.any fun next => Time.columnLE next now

/-- `DueSchedules`, in the order of the IDs. -/
def dueSchedules (s : Store) (now : Time) : List Schedule :=
  (s.schedules.filter (isDue now)).insertionSort fun a b => a.id ≤ b.id

/-- `ListSchedules`, the latest first. -/
def listSchedules (s : Store) : List Schedule :=
  s.schedules.insertionSort fun a b => b.id ≤ a.id

/-- `UPDATE schedules SET f WHERE id = ?`. -/
def updateSchedule (s : Store) (id : Nat) (f : Schedule → Schedule) : Store :=
  { s with schedules := Table.updateWhere (fun sc => decide (sc.id = id)) f s.schedules }

/-- `MarkScheduleRun`; without a next run the schedule is disabled. -/
def markScheduleRun (s : Store) (id : Nat) (nextRun : Option Time) (now : Time) : Store :=
  s.updateSchedule id fun sc =>
    { sc with lastRunAt := some now, nextRunAt := nextRun, enabled := nextRun.isSome }

/-- `TouchScheduleLastRun`. -/
def touchScheduleLastRun (s : Store) (id : Nat) (now : Time) : Store :=
  s.updateSchedule id fun sc => { sc with lastRunAt := some now }

/-- `GetSchedule`: the row under the primary key. -/
def getSchedule (s : Store) (id : Nat) : Option Schedule := Table.lookup Schedule.id id s.schedules

/-- The ID `AUTOINCREMENT` gives the next schedule. -/
def nextScheduleID (s : Store) : Nat := (s.schedules.map Schedule.id).foldl max s.scheduleSeq + 1

theorem le_foldl_max (ids : List Nat) (start : Nat) :
    start ≤ ids.foldl max start ∧ ∀ id ∈ ids, id ≤ ids.foldl max start := by
  induction ids generalizing start with
  | nil => simp
  | cons id ids ih =>
    obtain ⟨hstart, hrest⟩ := ih (max start id)
    refine ⟨(le_max_left _ _).trans hstart, List.forall_mem_cons.mpr ⟨?_, hrest⟩⟩
    exact (le_max_right _ _).trans hstart

theorem scheduleSeq_lt (s : Store) : s.scheduleSeq < s.nextScheduleID :=
  Nat.lt_succ_of_le (le_foldl_max _ _).1

/-- An ID is given once. -/
theorem id_lt_nextScheduleID (s : Store) {sc : Schedule} (h : sc ∈ s.schedules) :
    sc.id < s.nextScheduleID :=
  Nat.lt_succ_of_le ((le_foldl_max _ _).2 _ (List.mem_map_of_mem h))

/-- `CreateSchedule`. -/
def createSchedule (s : Store) (sc : Schedule) : Store :=
  { s with
    schedules := s.schedules ++ [{ sc with id := s.nextScheduleID, lastRunAt := none }]
    scheduleSeq := s.nextScheduleID }

/-- `SetScheduleEnabled`, on a schedule that exists. -/
def setScheduleEnabled (s : Store) (id : Nat) (enabled : Bool) : Store :=
  s.updateSchedule id fun sc => { sc with enabled := enabled }

/-- `DeleteSchedule`, on a schedule that exists. -/
def deleteSchedule (s : Store) (id : Nat) : Store :=
  { s with schedules := Table.deleteWhere (fun sc => decide (sc.id = id)) s.schedules }

/-- `GetUpdateCandidate`: the row under the primary key. -/
def getUpdateCandidate (s : Store) (containerID scope : String) : Option UpdateCandidate :=
  Table.lookup (fun c : UpdateCandidate => (c.containerID, c.scope)) (containerID, scope)
    s.candidates

/-- `ClearUpdateCandidates`. -/
def clearUpdateCandidates (s : Store) (containerID : String) : Store :=
  { s with
    candidates := Table.deleteWhere (fun c => decide (c.containerID = containerID)) s.candidates }

/-- The primary key of `update_candidates`. -/
def candidateKey (c : UpdateCandidate) : String × String := (c.containerID, c.scope)

/-- The row a new candidate inserts. -/
def detectedRow (containerID : String) (now : Time) (c : UpdateCandidate) : UpdateCandidate :=
  { c with containerID := containerID, detectedAt := now }

/-- The row an upsert leaves under the key: `detected_at` stays while the image reference does. -/
def redetectedRow (containerID : String) (now : Time) (c old : UpdateCandidate) : UpdateCandidate :=
  { c with
    containerID := containerID
    detectedAt := if old.image = c.image then old.detectedAt else now }

def scopes : List String := ["patch", "minor", "major"]

/-- `ReplaceUpdateCandidates`, one transaction. -/
def replaceUpdateCandidates (s : Store) (containerID : String) (candidates : List UpdateCandidate)
    (now : Time) : Store :=
  let upserted := candidates.foldl (fun rows c => Table.upsert candidateKey
    (detectedRow containerID now c) (redetectedRow containerID now c) rows) s.candidates
  let unwanted := scopes.filter fun scope => !(candidates.map UpdateCandidate.scope).contains scope
  { s with
    candidates := Table.deleteWhere
      (fun c => decide (c.containerID = containerID) && unwanted.contains c.scope) upserted }

/-- `GetImageVersion`: the row under the primary key. -/
def getImageVersion (s : Store) (registry repository digest : String) : Option ImageVersionRecord :=
  Table.lookup (fun r : ImageVersionRecord => (r.registry, r.repository, r.digest))
    (registry, repository, digest) s.imageVersions

/-- `PutImageVersion`. -/
def putImageVersion (s : Store) (rec : ImageVersionRecord) : Store :=
  { s with
    imageVersions := Table.upsert
      (fun r : ImageVersionRecord => (r.registry, r.repository, r.digest)) rec (fun _ => rec)
      s.imageVersions }

/-- `GetCheckIntervalMinutes`; a corrupt value counts as unset. -/
def getCheckIntervalMinutes (s : Store) : Option Int :=
  ((s.getSetting "general.check_interval_minutes").bind atoi).filter fun n => 0 < n

theorem mem_dueSchedules {s : Store} {now : Time} {sc : Schedule} :
    sc ∈ s.dueSchedules now ↔ sc ∈ s.schedules ∧ isDue now sc = true := by
  simp [dueSchedules]

theorem mem_listSchedules {s : Store} {sc : Schedule} : sc ∈ s.listSchedules ↔ sc ∈ s.schedules := by
  simp [listSchedules]

/-- A statement on the row of one schedule leaves the others alone. -/
theorem mem_updateSchedule_ne {s : Store} {id : Nat} {f : Schedule → Schedule} {sc : Schedule}
    (h : sc ∈ s.schedules) (hid : sc.id ≠ id) : sc ∈ (s.updateSchedule id f).schedules :=
  Table.mem_updateWhere.mpr ⟨sc, h, by simp [hid]⟩

end Doupro.Store
