import Doupro.Store.Records
import Mathlib.Data.List.Sort

/-!
# Statements on the `containers` table

`replaceContainer` is the transaction every recreation commits with; the two
protected variants of it live beside the watches.
-/

namespace Doupro.Store

/-- The row an upsert leaves when `rec.id` is already tracked: `excluded` and
`last_checked_at` are not in its SET list. -/
def replacedRow (rec old : ContainerRecord) : ContainerRecord :=
  { rec with
    id := old.id
    currentVersion := ""
    availableVersion := ""
    updateAvailable := false
    excluded := old.excluded
    lastCheckedAt := old.lastCheckedAt }

/-- The row an upsert inserts. -/
def insertedRow (rec : ContainerRecord) : ContainerRecord :=
  { rec with
    currentVersion := ""
    availableVersion := ""
    updateAvailable := false
    excluded := false
    lastCheckedAt := none }

/-- The rows left once the superseded one is deleted. -/
def keptRows (s : Store) (oldID : String) (rec : ContainerRecord) : List ContainerRecord :=
  if oldID ≠ "" ∧ oldID ≠ rec.id then
    Table.deleteWhere (fun r => decide (r.id = oldID)) s.containers
  else s.containers

/-- `replaceContainerTx`: delete the superseded row, then upsert the new one. -/
def replaceContainer (s : Store) (oldID : String) (rec : ContainerRecord) : Store :=
  { s with
    containers := Table.upsert ContainerRecord.id (insertedRow rec) (replacedRow rec)
      (keptRows s oldID rec) }

/-- `SetContainerState`; an empty status leaves the stored one alone. -/
def setContainerState (s : Store) (id state status : String) : Store :=
  let set := fun r : ContainerRecord =>
    { r with state := state, status := if status = "" then r.status else status }
  { s with containers := Table.updateWhere (fun r => decide (r.id = id)) set s.containers }

/-- `SetUpdateAvailable`, stamping `last_checked_at`. -/
def setUpdateAvailable (s : Store) (id : String) (available : Bool) (now : Time) : Store :=
  let set := fun r : ContainerRecord =>
    { r with updateAvailable := available, lastCheckedAt := some now }
  { s with containers := Table.updateWhere (fun r => decide (r.id = id)) set s.containers }

/-- `LIKE 'sha256:%' OR LIKE '%@%:%'`, in any letter case: the reference pins a digest. -/
def isDigestColumn (image : String) : Bool :=
  let text := (toLower image).toList
  "sha256:".toList.isPrefixOf text || (text.dropWhile (· ≠ '@')).contains ':'

/-- The row an upsert of discovery leaves when the container is already tracked. A digest does
not replace a readable reference. -/
def seenRow (c old : ContainerRecord) : ContainerRecord :=
  { old with
    name := c.name
    stack := c.stack
    state := c.state
    status := c.status
    currentImage :=
      if isDigestColumn c.currentImage ∧ old.currentImage ≠ "" ∧ ¬ isDigestColumn old.currentImage
      then old.currentImage else c.currentImage
    excluded := c.excluded }

/-- The row discovery inserts. -/
def discoveredRow (c : ContainerRecord) : ContainerRecord :=
  { c with
    previousImage := ""
    currentVersion := ""
    availableVersion := ""
    updateAvailable := false
    lastCheckedAt := none }

/-- `UpsertSeen`. -/
def upsertSeen (s : Store) (c : ContainerRecord) : Store :=
  { s with containers := Table.upsert ContainerRecord.id (discoveredRow c) (seenRow c) s.containers }

/-- `PruneContainers`; an empty list deletes nothing. -/
def pruneContainers (s : Store) (liveIDs : List String) : Store :=
  if liveIDs = [] then s
  else { s with
    containers := Table.deleteWhere (fun r => decide (r.id ∉ liveIDs)) s.containers }

/-- `ApplyExclusions`; the sentinel that stands for an empty list matches no row. -/
def applyExclusions (s : Store) (ex : Exclusions) : Store :=
  let set := fun r : ContainerRecord =>
    { r with excluded := ex.containers.contains r.name || ex.stackNames.contains r.stack }
  { s with containers := Table.updateWhere (fun _ => true) set s.containers }

/-- `SetVersions`. -/
def setVersions (s : Store) (id currentVersion availableVersion : String) : Store :=
  let set := fun r : ContainerRecord =>
    { r with currentVersion := currentVersion, availableVersion := availableVersion }
  { s with containers := Table.updateWhere (fun r => decide (r.id = id)) set s.containers }

/-- `RepairCurrentImage`, which leaves a readable reference alone. -/
def repairCurrentImage (s : Store) (id image : String) : Store :=
  let set := fun r : ContainerRecord => { r with currentImage := image }
  let legacy := fun r : ContainerRecord => decide (r.id = id) && isDigestColumn r.currentImage
  { s with containers := Table.updateWhere legacy set s.containers }

/-- `ORDER BY stack, name`. -/
def listedBefore (a b : ContainerRecord) : Prop :=
  a.stack < b.stack ∨ (a.stack = b.stack ∧ a.name ≤ b.name)

instance : DecidableRel listedBefore := fun _ _ => inferInstanceAs (Decidable (_ ∨ _))

/-- `ListContainers`. -/
def listContainers (s : Store) : List ContainerRecord := s.containers.insertionSort listedBefore

/-- `id` is the primary key of the table. -/
def UniqueIDs (s : Store) : Prop := (s.containers.map ContainerRecord.id).Nodup

theorem uniqueIDs_replaceContainer {s : Store} (h : s.UniqueIDs) (oldID : String)
    (rec : ContainerRecord) : (s.replaceContainer oldID rec).UniqueIDs := by
  refine Table.unique_upsert ContainerRecord.id (insertedRow rec) (replacedRow rec) (fun _ => rfl) ?_
  unfold keptRows
  split
  · exact Table.unique_deleteWhere _ _ h
  · exact h

/-- Under the key every listed row is the row of its container. -/
theorem getContainer_of_listed {s : Store} (h : s.UniqueIDs) {row : ContainerRecord}
    (hrow : row ∈ s.listContainers) : s.getContainer row.id = some row :=
  Table.lookup_of_mem h ((List.perm_insertionSort _ _).mem_iff.mp hrow)

@[simp] theorem replaceContainer_watches (s : Store) (oldID : String) (rec : ContainerRecord) :
    (s.replaceContainer oldID rec).watches = s.watches := rfl

@[simp] theorem replaceContainer_settings (s : Store) (oldID : String) (rec : ContainerRecord) :
    (s.replaceContainer oldID rec).settings = s.settings := rfl

@[simp] theorem setContainerState_watches (s : Store) (id state status : String) :
    (s.setContainerState id state status).watches = s.watches := rfl

@[simp] theorem setUpdateAvailable_watches (s : Store) (id : String) (available : Bool)
    (now : Time) : (s.setUpdateAvailable id available now).watches = s.watches := rfl

/-- A row holds a container under its name. -/
def Tracks (s : Store) (id name : String) : Prop :=
  ∃ row ∈ s.containers, row.id = id ∧ row.name = name

instance (s : Store) (id name : String) : Decidable (s.Tracks id name) :=
  inferInstanceAs (Decidable (∃ row ∈ s.containers, row.id = id ∧ row.name = name))

/-- Recording a container the table has not seen replaces the superseded row. -/
theorem tracks_replaceContainer {s : Store} {rec : ContainerRecord}
    (hfresh : ∀ name, ¬ s.Tracks rec.id name) (oldID id name : String) :
    (s.replaceContainer oldID rec).Tracks id name ↔
      (s.Tracks id name ∧ (oldID = "" ∨ id ≠ oldID)) ∨ (id = rec.id ∧ name = rec.name) := by
  have hkept : ∀ row, row ∈ keptRows s oldID rec ↔
      row ∈ s.containers ∧ (oldID = "" ∨ row.id ≠ oldID) := by
    intro row
    unfold keptRows
    split
    · next h =>
      rw [Table.mem_deleteWhere]
      simp [h.1]
    · next h =>
      refine ⟨fun hrow => ⟨hrow, ?_⟩, And.left⟩
      by_cases hempty : oldID = ""
      · exact .inl hempty
      · have hsame : oldID = rec.id := by
          by_contra hne
          exact h ⟨hempty, hne⟩
        exact .inr fun hid => hfresh row.name ⟨row, hrow, hid.trans hsame, rfl⟩
  have hkeys : ∀ row ∈ keptRows s oldID rec, row.id ≠ (insertedRow rec).id :=
    fun row hrow hid => hfresh row.name ⟨row, ((hkept row).mp hrow).1, hid, rfl⟩
  have hrows : (s.replaceContainer oldID rec).containers = keptRows s oldID rec ++ [insertedRow rec] :=
    Table.upsert_fresh ContainerRecord.id hkeys _
  unfold Tracks
  rw [hrows]
  constructor
  · rintro ⟨row, hrow, rfl, rfl⟩
    rcases List.mem_append.mp hrow with hold | hnew
    · obtain ⟨hmem, hne⟩ := (hkept row).mp hold
      exact .inl ⟨⟨row, hmem, rfl, rfl⟩, hne⟩
    · obtain rfl := List.mem_singleton.mp hnew
      exact .inr ⟨rfl, rfl⟩
  · rintro (⟨⟨row, hmem, rfl, rfl⟩, hne⟩ | ⟨rfl, rfl⟩)
    · exact ⟨row, List.mem_append_left _ ((hkept row).mpr ⟨hmem, hne⟩), rfl, rfl⟩
    · exact ⟨_, List.mem_append_right _ List.mem_cons_self, rfl, rfl⟩

theorem tracks_setUpdateAvailable (s : Store) (container : String) (available : Bool) (now : Time)
    (id name : String) :
    (s.setUpdateAvailable container available now).Tracks id name ↔ s.Tracks id name := by
  constructor
  · rintro ⟨row, hrow, rfl, rfl⟩
    obtain ⟨old, hold, rfl⟩ := Table.mem_updateWhere.mp hrow
    exact ⟨old, hold, by split <;> rfl, by split <;> rfl⟩
  · rintro ⟨row, hrow, rfl, rfl⟩
    exact ⟨_, Table.mem_updateWhere.mpr ⟨row, hrow, rfl⟩, by split <;> rfl, by split <;> rfl⟩

end Doupro.Store
