import Doupro.Go.Path
import Doupro.Go.Url
import Doupro.Updater.Plan
import Mathlib.Data.List.Count
import Mathlib.Data.List.Perm.Basic

/-!
# Volumes of a recreation plan

Docker compares the places where it mounts by their cleaned paths. Every entry of a host config is
read as what it mounts and where, and the named volumes of the original are looked for among the
entries of the plan.
-/

namespace Doupro

namespace Updater

/-- Two container paths are one place for Docker. -/
def samePlace (a b : String) : Bool := Path.clean a.toList = Path.clean b.toList

/-- An entry of a host config: the named volume it mounts, if it mounts one, and where. -/
structure MountEntry where
  volume : Option String
  destination : String

def MountEntry.isAt (path : String) (e : MountEntry) : Bool := samePlace e.destination path

/-- An entry mounts the volume of a mount point at its destination. -/
def MountEntry.mounts (point : MountPoint) (e : MountEntry) : Bool :=
  e.isAt point.destination && e.volume == some point.name

def mountEntry (m : Mount) : MountEntry :=
  ⟨if m.type = "volume" then some m.source else none, m.target⟩

/-- A bind of one part is a generated volume, and a source that is a path is a directory of the
host. -/
def bindEntry (bind : String) : MountEntry :=
  match splitColon bind.toList with
  | source :: target :: _ =>
    ⟨if source.head? = some '/' then none else some (String.ofList source), String.ofList target⟩
  | _ => ⟨none, bind⟩

theorem bindEntry_destination {bind target : String} (h : bindTarget bind = some target) :
    (bindEntry bind).destination = target := by
  unfold bindTarget at h
  unfold bindEntry
  generalize splitColon bind.toList = parts at h ⊢
  rcases parts with _ | ⟨source, _ | ⟨found, rest⟩⟩
  · cases h
  · cases h
  · exact Option.some.inj h

def tmpfsEntry (tmpfs : String × String) : MountEntry := ⟨none, tmpfs.1⟩

/-- Everything a host config mounts. -/
def entries (h : HostConfig) : List MountEntry :=
  h.mounts.map mountEntry ++ (h.binds.getD []).map bindEntry ++ h.tmpfs.map tmpfsEntry

/-- The named volumes among the mount points. -/
def namedVolumes (points : List MountPoint) : List MountPoint :=
  points.filter fun point => point.type == "volume" && point.name != ""

/-- The volumes survive: each is mounted once at its place, nothing else is mounted where an entry
was added, and the entries of the original stay. -/
structure VolumesSurvive (original plan : HostConfig) (points : List MountPoint) : Prop where
  once : ∀ point ∈ namedVolumes points,
    (entries plan).countP (MountEntry.mounts point) = 1
  binds : plan.binds = original.binds
  tmpfs : plan.tmpfs = original.tmpfs
  mounts : ∃ added, plan.mounts = original.mounts ++ added ∧
    ∀ m ∈ added, (entries plan).countP (MountEntry.isAt m.target) = 1

/-- An entry with a source is spelled exactly like a destination. -/
def SpelledAt (h : HostConfig) (destination : String) : Prop := destination ∈ coveredTargets h

instance (h : HostConfig) (destination : String) : Decidable (SpelledAt h destination) :=
  inferInstanceAs (Decidable (_ ∈ _))

/-- The volumes no entry is spelled like. -/
def missingVolumes (h : HostConfig) (points : List MountPoint) : List MountPoint :=
  (namedVolumes points).filter fun point => !decide (SpelledAt h point.destination)

/-- Each named volume is mounted once by an entry, one of those at its place spelled like its
destination; or no entry is at its place in any spelling, and no other such volume. -/
def Tellable (h : HostConfig) (points : List MountPoint) : Prop :=
  ∀ point ∈ namedVolumes points,
    if SpelledAt h point.destination then (entries h).countP (MountEntry.mounts point) = 1
    else (entries h).countP (MountEntry.isAt point.destination) = 0 ∧
      (missingVolumes h points).countP (fun other => samePlace other.destination point.destination) = 1

/-- The entry that pins a volume. -/
def pin (point : MountPoint) : Mount :=
  { type := "volume", source := point.name, target := point.destination, readOnly := !point.rw }

def pinnedEntry (point : MountPoint) : MountEntry := ⟨some point.name, point.destination⟩

theorem preserveAnonymousVolumes_mounts (h : HostConfig) (points : List MountPoint) :
    preserveAnonymousVolumes h points =
      { h with mounts := h.mounts ++ (missingVolumes h points).map pin } := by
  unfold preserveAnonymousVolumes missingVolumes namedVolumes SpelledAt
  dsimp only
  rw [List.filter_filter]
  congr 3
  apply List.filter_congr
  intro point _
  rw [Bool.and_comm, List.contains_eq_mem]
  congr

/-- The entries of the plan are those of the original and the added ones. -/
theorem countP_entries (h : HostConfig) (points : List MountPoint) (p : MountEntry → Bool) :
    (entries (preserveAnonymousVolumes h points)).countP p =
      (entries h).countP p + ((missingVolumes h points).map pinnedEntry).countP p := by
  have hpin : ∀ l : List MountPoint, (l.map pin).map mountEntry = l.map pinnedEntry := by
    intro l
    rw [List.map_map]
    rfl
  rw [preserveAnonymousVolumes_mounts]
  unfold entries
  simp only [List.map_append, hpin, List.countP_append]
  omega

theorem spelledAt_isAt {h : HostConfig} {destination : String} (hspelled : SpelledAt h destination) :
    0 < (entries h).countP (MountEntry.isAt destination) := by
  have hentry : ∃ e ∈ entries h, e.destination = destination := by
    unfold SpelledAt coveredTargets at hspelled
    unfold entries
    rcases List.mem_append.mp hspelled with hspelled | htmpfs
    · rcases List.mem_append.mp hspelled with hmount | hbind
      · obtain ⟨m, hm, rfl⟩ := List.mem_map.mp hmount
        exact ⟨mountEntry m, by simp [List.mem_map_of_mem hm], rfl⟩
      · obtain ⟨bind, hbind, htarget⟩ := List.mem_filterMap.mp hbind
        exact ⟨bindEntry bind, by simp [List.mem_map_of_mem hbind], bindEntry_destination htarget⟩
    · obtain ⟨t, ht, rfl⟩ := List.mem_map.mp htmpfs
      exact ⟨tmpfsEntry t, by simp [List.mem_map_of_mem ht], rfl⟩
  obtain ⟨e, he, hdestination⟩ := hentry
  rw [List.countP_pos_iff]
  exact ⟨e, he, by simp [MountEntry.isAt, samePlace, hdestination]⟩

theorem mem_missingVolumes {h : HostConfig} {points : List MountPoint} {point : MountPoint} :
    point ∈ missingVolumes h points ↔
      point ∈ namedVolumes points ∧ ¬ SpelledAt h point.destination := by
  simp [missingVolumes]

theorem countP_pinned (l : List MountPoint) (path : String) :
    (l.map pinnedEntry).countP (MountEntry.isAt path) =
      l.countP fun point => samePlace point.destination path := by
  rw [List.countP_map]
  rfl

theorem countP_mounts_le (l : List MountEntry) (point : MountPoint) :
    l.countP (MountEntry.mounts point) ≤ l.countP (MountEntry.isAt point.destination) := by
  apply List.countP_mono_left
  intro e _ he
  exact (Bool.and_eq_true _ _ ▸ he : _ ∧ _).1

/-- A missing volume counts as added at its place. -/
theorem pinned_mounts {l : List MountPoint} {point : MountPoint} (h : point ∈ l) :
    0 < (l.map pinnedEntry).countP (MountEntry.mounts point) := by
  rw [List.countP_pos_iff]
  exact ⟨pinnedEntry point, List.mem_map_of_mem h, by
    simp [MountEntry.mounts, MountEntry.isAt, samePlace, pinnedEntry]⟩

/-- Nothing is added where an entry is spelled like the destination, if additions stand alone. -/
theorem pinned_eq_zero {h : HostConfig} {points : List MountPoint} {destination : String}
    (hspelled : SpelledAt h destination)
    (halone : ∀ other ∈ missingVolumes h points,
      (entries h).countP (MountEntry.isAt other.destination) = 0) :
    ((missingVolumes h points).map pinnedEntry).countP (MountEntry.isAt destination) = 0 := by
  rw [countP_pinned, List.countP_eq_zero]
  intro other hother hsame
  have hhere := spelledAt_isAt hspelled
  have hthere := halone other hother
  have heq : MountEntry.isAt other.destination = MountEntry.isAt destination := by
    funext e
    have hclean : Path.clean other.destination.toList = Path.clean destination.toList := by
      simpa [samePlace] using hsame
    simp [MountEntry.isAt, samePlace, hclean]
  rw [heq] at hthere
  omega

/-- The volumes survive in the plan exactly if they can be told by their spelling. -/
theorem preserveAnonymousVolumes_iff (h : HostConfig) (points : List MountPoint) :
    VolumesSurvive h (preserveAnonymousVolumes h points) points ↔ Tellable h points := by
  constructor
  · intro hsurvive
    obtain ⟨added, hadded, hplaces⟩ := hsurvive.mounts
    have hpinned : (missingVolumes h points).map pin = added := by
      rw [preserveAnonymousVolumes_mounts] at hadded
      exact List.append_cancel_left hadded
    have hplace : ∀ other ∈ missingVolumes h points,
        (entries h).countP (MountEntry.isAt other.destination) = 0 ∧
          ((missingVolumes h points).map pinnedEntry).countP
            (MountEntry.isAt other.destination) = 1 := by
      intro other hother
      have hone := hplaces (pin other) (hpinned ▸ List.mem_map_of_mem hother)
      rw [countP_entries] at hone
      change (entries h).countP (MountEntry.isAt other.destination) +
        ((missingVolumes h points).map pinnedEntry).countP
          (MountEntry.isAt other.destination) = 1 at hone
      have hpos := pinned_mounts hother
      have hle := countP_mounts_le ((missingVolumes h points).map pinnedEntry) other
      omega
    intro point hpoint
    by_cases hspelled : SpelledAt h point.destination
    · rw [if_pos hspelled]
      have hone := hsurvive.once point hpoint
      rw [countP_entries] at hone
      have hzero := pinned_eq_zero hspelled fun other hother => (hplace other hother).1
      have hle := countP_mounts_le ((missingVolumes h points).map pinnedEntry) point
      omega
    · rw [if_neg hspelled, ← countP_pinned]
      exact hplace point (mem_missingVolumes.mpr ⟨hpoint, hspelled⟩)
  · intro htell
    have hmissing : ∀ other ∈ missingVolumes h points,
        (entries h).countP (MountEntry.isAt other.destination) = 0 ∧
          ((missingVolumes h points).map pinnedEntry).countP
            (MountEntry.isAt other.destination) = 1 := by
      intro other hother
      obtain ⟨hnamed, hnot⟩ := mem_missingVolumes.mp hother
      have hother := htell other hnamed
      rwa [if_neg hnot, ← countP_pinned] at hother
    constructor
    · intro point hpoint
      rw [countP_entries]
      by_cases hspelled : SpelledAt h point.destination
      · have hone := htell point hpoint
        rw [if_pos hspelled] at hone
        have hzero := pinned_eq_zero hspelled fun other hother => (hmissing other hother).1
        have hle := countP_mounts_le ((missingVolumes h points).map pinnedEntry) point
        omega
      · have hin := mem_missingVolumes.mpr ⟨hpoint, hspelled⟩
        obtain ⟨hnone, hone⟩ := hmissing point hin
        have hpos := pinned_mounts hin
        have hold := countP_mounts_le (entries h) point
        have hle := countP_mounts_le ((missingVolumes h points).map pinnedEntry) point
        omega
    · rw [preserveAnonymousVolumes_mounts]
    · rw [preserveAnonymousVolumes_mounts]
    · refine ⟨(missingVolumes h points).map pin, by rw [preserveAnonymousVolumes_mounts], ?_⟩
      intro m hm
      obtain ⟨other, hother, rfl⟩ := List.mem_map.mp hm
      rw [countP_entries]
      obtain ⟨hnone, hone⟩ := hmissing other hother
      change (entries h).countP (MountEntry.isAt other.destination) +
        ((missingVolumes h points).map pinnedEntry).countP
          (MountEntry.isAt other.destination) = 1
      omega

/-- The named volumes survive a recreation exactly if they can be told by their spelling. -/
theorem volumes_survive_iff {before : InspectResponse} {targetImage : String}
    {plan : RecreationPlan} {original : HostConfig}
    (hplan : buildRecreationPlan before targetImage = .ok plan)
    (horiginal : before.hostConfig = some original) :
    VolumesSurvive original plan.hostConfig before.mounts ↔ Tellable original before.mounts := by
  obtain ⟨config, hostConfig, state, -, hhost, -, -, rfl⟩ := buildRecreationPlan_ok hplan
  rw [horiginal] at hhost
  obtain rfl := Option.some.inj hhost
  exact preserveAnonymousVolumes_iff original before.mounts

/-- A running container with a volume at `/data`, and binds. -/
def withBinds (binds : List String) : InspectResponse where
  id := "1f0c"
  name := "/app"
  image := "sha256:aa"
  restartCount := 0
  config := some { image := "app:1" }
  hostConfig := some { binds := some binds }
  state := some { status := .running }
  networkSettings := some []
  mounts := [{ type := "volume", name := "data", destination := "/data", rw := true }]

theorem volumes_survive_spelled :
    ∃ plan, buildRecreationPlan (withBinds ["data:/data:ro"]) "app:2" = .ok plan ∧
      VolumesSurvive { binds := some ["data:/data:ro"] } plan.hostConfig
        (withBinds ["data:/data:ro"]).mounts := by
  have htell : Tellable { binds := some ["data:/data:ro"] } (withBinds ["data:/data:ro"]).mounts := by
    unfold Tellable
    decide
  exact ⟨_, rfl, (volumes_survive_iff rfl rfl).mpr htell⟩

theorem trailing_slash_mounted_twice :
    ¬ ∀ (before : InspectResponse) (targetImage : String) (plan : RecreationPlan)
      (original : HostConfig), buildRecreationPlan before targetImage = .ok plan →
      before.hostConfig = some original →
        VolumesSurvive original plan.hostConfig before.mounts := by
  intro h
  have hsurvive := h (withBinds ["data:/data/"]) "app:2" _ _ rfl rfl
  have hone := hsurvive.once { type := "volume", name := "data", destination := "/data", rw := true }
    (by decide)
  exact absurd hone (by decide)

end Updater

end Doupro
