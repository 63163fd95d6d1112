import Doupro.Interaction.Transactions
import Doupro.Notifier.Channels

/-!
# Saving the notification channels

Destinations are write-only: a channel that is submitted without one inherits it from a stored
channel, by its name or by its place in the list.
-/

namespace Doupro.Notifier

open Interaction

/-- `Channel`, as it is submitted and stored. -/
structure ChannelEntry extends Channel where
  configured : Bool := false
  provider : String := ""
  deriving DecidableEq

/-- The setting of the channels: `Channels` decrypts and decodes it, `SetSecretSetting` stores what
was marshalled. -/
inductive ChannelSetting where
  | channels
  | setSecretSetting (entries : List ChannelEntry)

@[reducible] def ChannelSetting.Result : ChannelSetting → Type
  | .channels => List ChannelEntry
  | .setSecretSetting _ => Unit

abbrev ChannelSettings : Signature := Fallible ChannelSetting.Result GoError

/-- The errors of `SetChannels`: `errors.Is` finds `ErrChannelNeedsURL` in the first only. -/
inductive SetChannelsError where
  | channelNeedsURL (name : String)
  | other (err : GoError)
  deriving DecidableEq

def SetChannelsError.message : SetChannelsError → String
  | .channelNeedsURL name =>
    "channel needs a URL: " ++ name.quote ++ " (fill in the destination fields to set one)"
  | .other err => err.message

/-! ### The loop over the entries -/

/-- `byName`. A later channel replaces an earlier one of its name; a missing one has no URL. -/
def byName (existing : List ChannelEntry) (name : String) : String :=
  ((existing.reverse.find? fun ch => ch.name = name).map fun ch => ch.url).getD ""

/-- The URL at an index of the stored list. -/
def urlAt (existing : List ChannelEntry) (i : Nat) : String :=
  (existing[i]?.map fun ch => ch.url).getD ""

/-- The URL the loop settles on for the entry at an index. -/
def destination (existing : List ChannelEntry) (samePositions : Bool) (i : Nat) (entry : ChannelEntry) :
    String :=
  let url := if entry.url = "" then byName existing entry.name else entry.url
  if url = "" ∧ samePositions then urlAt existing i else url

/-- An entry as it is stored. -/
def ChannelEntry.withURL (entry : ChannelEntry) (url : String) : ChannelEntry :=
  { entry with url, configured := false, provider := "" }

def resolveChannels (existing : List ChannelEntry) (samePositions : Bool) :
    (i : Nat) → List ChannelEntry → Except SetChannelsError (List ChannelEntry)
  | _, [] => .ok []
  | i, entry :: rest =>
    if destination existing samePositions i entry = "" then .error (.channelNeedsURL entry.name)
    else match resolveChannels existing samePositions (i + 1) rest with
      | .error err => .error err
      | .ok saved => .ok (entry.withURL (destination existing samePositions i entry) :: saved)

/-- `Notifier.SetChannels`. -/
def setChannels (channels : List ChannelEntry) :
    Program ChannelSettings (Except SetChannelsError Unit) := do
  match ← .request (S := ChannelSettings) .channels with
  | .error err => return .error (.other err)
  | .ok existing =>
    match resolveChannels existing (channels.length = existing.length) 0 channels with
    | .error err => return .error err
    | .ok saved => match ← .request (S := ChannelSettings) (.setSecretSetting saved) with
      | .error err => return .error (.other err)
      | .ok () => return .ok ()

theorem resolveChannels_error {existing channels : List ChannelEntry} {same : Bool} {i : Nat}
    {err : SetChannelsError} (h : resolveChannels existing same i channels = .error err) :
    ∃ name, err = .channelNeedsURL name := by
  induction channels generalizing i with
  | nil => cases h
  | cons entry rest ih =>
    unfold resolveChannels at h
    split at h
    · exact ⟨_, (Except.error.inj h).symm⟩
    · cases hrest : resolveChannels existing same (i + 1) rest with
      | error err' =>
        rw [hrest] at h
        obtain rfl := Except.error.inj h
        exact ih hrest
      | ok saved =>
        rw [hrest] at h
        cases h

/-- The loop comes to its end exactly if every entry has a URL, and stores each with its own. -/
theorem resolveChannels_ok {existing channels : List ChannelEntry} {same : Bool} {i : Nat}
    {saved : List ChannelEntry} : resolveChannels existing same i channels = .ok saved ↔
      (∀ k entry, channels[k]? = some entry → destination existing same (i + k) entry ≠ "") ∧
        saved = channels.mapIdx fun k entry => entry.withURL (destination existing same (i + k) entry) := by
  induction channels generalizing i saved with
  | nil =>
    constructor
    · intro h
      exact ⟨by simp, (Except.ok.inj h).symm⟩
    · rintro ⟨-, rfl⟩
      rfl
  | cons entry rest ih =>
    have hshift : ∀ k, i + 1 + k = i + (k + 1) := fun k => by omega
    unfold resolveChannels
    rw [List.mapIdx_cons]
    constructor
    · intro h
      split at h
      · cases h
      next hurl =>
      cases hrest : resolveChannels existing same (i + 1) rest with
      | error err =>
        rw [hrest] at h
        cases h
      | ok later =>
        rw [hrest] at h
        obtain ⟨hall, rfl⟩ := ih.mp hrest
        refine ⟨fun k => ?_, ?_⟩
        · cases k with
          | zero => simpa using hurl
          | succ k => simpa [hshift] using hall k
        · rw [← Except.ok.inj h]
          simp only [hshift, Nat.add_zero]
    · rintro ⟨hall, rfl⟩
      have hurl : ¬ destination existing same i entry = "" := hall 0 entry rfl
      have hrest : resolveChannels existing same (i + 1) rest = .ok (rest.mapIdx fun k other =>
          other.withURL (destination existing same (i + (k + 1)) other)) := by
        refine ih.mpr ⟨fun k other hk => ?_, ?_⟩
        · rw [hshift]
          exact hall (k + 1) other hk
        · simp only [hshift]
      rw [if_neg hurl, hrest, Nat.add_zero]

/-! ### The stored setting -/

def ChannelSetting.perform (stored : List ChannelEntry) (c : ChannelSetting) :
    c.Result × List ChannelEntry :=
  match c with
  | .channels => (stored, stored)
  | .setSecretSetting entries => ((), entries)

/-- A setting that no one else writes; a call that fails leaves it as it is. -/
def channelStore : Machine ChannelSettings (List ChannelEntry) :=
  .fallible GoError fun stored c result after => c.perform stored = (result, after)

section Runs

variable {existing channels saved after : List ChannelEntry}
  {trace : Trace ChannelSettings (List ChannelEntry)}

/-- What a call of `SetChannels` does to the setting. -/
theorem setChannels_cases {out : Except SetChannelsError Unit}
    (hrun : channelStore.Runs (setChannels channels) existing trace out after) :
    (∃ err, out = .error (.other err) ∧ after = existing ∧ ¬ AllOk trace) ∨
    (∃ name, out = .error (.channelNeedsURL name) ∧ after = existing) ∨
    (out = .ok () ∧
      resolveChannels existing (channels.length = existing.length) 0 channels = .ok after) := by
  rcases Machine.fallible_request.mp hrun with
    ⟨err, rest, rfl, -, rfl, rfl⟩ | ⟨_, _, rest, rfl, hload, hrest⟩
  · exact .inl ⟨err, rfl, rfl, not_allOk List.mem_cons_self rfl⟩
  obtain ⟨rfl, rfl⟩ := Prod.mk.inj hload
  dsimp only at hrest
  cases hresolve : resolveChannels existing (channels.length = existing.length) 0 channels with
  | error err =>
    rw [hresolve] at hrest
    obtain ⟨-, rfl, rfl⟩ := hrest
    obtain ⟨name, rfl⟩ := resolveChannels_error hresolve
    exact .inr (.inl ⟨name, rfl, rfl⟩)
  | ok saved =>
    rw [hresolve] at hrest
    rcases Machine.fallible_request.mp hrest with
      ⟨err, last, rfl, -, rfl, rfl⟩ | ⟨_, _, last, rfl, hsave, -, rfl, rfl⟩
    · exact .inl ⟨err, rfl, rfl, not_allOk (List.mem_cons_of_mem _ List.mem_cons_self) rfl⟩
    · obtain ⟨-, rfl⟩ := Prod.mk.inj hsave
      exact .inr (.inr ⟨rfl, rfl⟩)

/-- Entries that all have a URL can be saved. -/
theorem setChannels_saves
    (h : resolveChannels existing (channels.length = existing.length) 0 channels = .ok saved) :
    channelStore.Runs (setChannels channels) existing
      [⟨existing, .channels, .ok existing⟩, ⟨existing, .setSecretSetting saved, .ok ()⟩]
      (.ok ()) saved := by
  refine Machine.fallible_request.mpr (.inr ⟨existing, existing, _, rfl, rfl, ?_⟩)
  dsimp only
  rw [h]
  exact Machine.fallible_request.mpr (.inr ⟨(), saved, [], rfl, rfl, rfl, rfl, rfl⟩)

end Runs

/-! ### Where a destination comes from -/

/-- The stored channel of a name has a URL. -/
def HasURL (existing : List ChannelEntry) (name : String) : Prop :=
  ∃ stored ∈ existing, stored.name = name ∧ stored.url ≠ ""

/-- The entry at `i` takes the URL of the stored channel at `j`: the one of its name, or the one in
its place, if that channel's name is gone. -/
def Inherits (existing channels : List ChannelEntry) (i j : Nat) (url : String) : Prop :=
  ∃ entry stored, channels[i]? = some entry ∧ existing[j]? = some stored ∧ entry.url = "" ∧
    stored.url = url ∧ url ≠ "" ∧ (stored.name = entry.name ∨
      (¬ HasURL existing entry.name ∧ channels.length = existing.length ∧ j = i ∧
        ∀ other ∈ channels, other.name ≠ stored.name))

/-- A list is saved as it was submitted, with the URLs submitted or inherited, none of them twice. -/
structure Faithful (existing channels saved : List ChannelEntry) : Prop where
  length : saved.length = channels.length
  entries : ∀ (i : Nat) (entry result : ChannelEntry), channels[i]? = some entry →
    saved[i]? = some result → result = entry.withURL result.url
  destined : ∀ (i : Nat) (entry result : ChannelEntry), channels[i]? = some entry → saved[i]? = some result →
    (entry.url ≠ "" ∧ result.url = entry.url) ∨ ∃ j, Inherits existing channels i j result.url
  once : ∀ i i' j url url', Inherits existing channels i j url → Inherits existing channels i' j url' →
    i = i'

/-- The claim of one call: a list saved faithfully, or an error that leaves the setting, which is
`ErrChannelNeedsURL` unless a call to the store failed. -/
def Upheld (existing channels : List ChannelEntry) (trace : Trace ChannelSettings (List ChannelEntry))
    (after : List ChannelEntry) : Except SetChannelsError Unit → Prop
  | .ok () => Faithful existing channels after
  | .error err => after = existing ∧ (AllOk trace → ∃ name, err = .channelNeedsURL name)

/-- Every entry has a URL to be saved with: its own, that of its name, or the one in its place. -/
def Resolvable (existing channels : List ChannelEntry) : Prop :=
  ∀ i entry, channels[i]? = some entry → entry.url ≠ "" ∨ HasURL existing entry.name ∨
    (channels.length = existing.length ∧ urlAt existing i ≠ "")

/-- An entry of no known name stands in the place of a channel that is still submitted. -/
def Displaces (existing channels : List ChannelEntry) : Prop :=
  ∃ (i : Nat) (entry stored : ChannelEntry), channels[i]? = some entry ∧ existing[i]? = some stored ∧
    entry.url = "" ∧ ¬ HasURL existing entry.name ∧ ∃ other ∈ channels, other.name = stored.name

/-- Two entries ask for the URL of one name. -/
def Doubles (existing channels : List ChannelEntry) : Prop :=
  ∃ (i i' : Nat) (entry entry' : ChannelEntry), channels[i]? = some entry ∧
    channels[i']? = some entry' ∧ i ≠ i' ∧ entry.url = "" ∧ entry'.url = "" ∧
    entry.name = entry'.name ∧ HasURL existing entry.name

/-- A list that is saved with a URL for the wrong recipient. -/
def Misdirects (existing channels : List ChannelEntry) : Prop :=
  Resolvable existing channels ∧ (Displaces existing channels ∨ Doubles existing channels)

section Destinations

variable {existing channels after : List ChannelEntry} {entry stored : ChannelEntry}

theorem byName_of_mem (hnames : (existing.map fun ch => ch.name).Nodup) (hstored : stored ∈ existing) :
    byName existing stored.name = stored.url := by
  have hsome : (existing.reverse.find? fun ch => ch.name = stored.name).isSome := by
    rw [List.find?_isSome]
    exact ⟨stored, List.mem_reverse.mpr hstored, decide_eq_true rfl⟩
  obtain ⟨found, hfound⟩ := Option.isSome_iff_exists.mp hsome
  have hname : found.name = stored.name := by simpa using List.find?_some hfound
  have hmem : found ∈ existing := List.mem_reverse.mp (List.mem_of_find?_eq_some hfound)
  obtain rfl : found = stored := List.inj_on_of_nodup_map hnames hmem hstored hname
  unfold byName
  rw [hfound]
  rfl

theorem byName_of_not_hasURL {name : String} (h : ¬ HasURL existing name) : byName existing name = "" := by
  unfold byName
  cases hfound : existing.reverse.find? fun ch => ch.name = name with
  | none => rfl
  | some found =>
    by_contra hurl
    exact h ⟨found, List.mem_reverse.mp (List.mem_of_find?_eq_some hfound),
      by simpa using List.find?_some hfound, hurl⟩

theorem destination_own {same : Bool} {i : Nat} (h : entry.url ≠ "") :
    destination existing same i entry = entry.url := by
  simp [destination, h]

theorem destination_named {same : Bool} {i : Nat} (hnames : (existing.map fun ch => ch.name).Nodup)
    (hblank : entry.url = "") (hstored : stored ∈ existing) (hname : stored.name = entry.name)
    (hurl : stored.url ≠ "") : destination existing same i entry = stored.url := by
  have hfound := byName_of_mem hnames hstored
  rw [hname] at hfound
  simp [destination, hblank, hfound, hurl]

theorem destination_placed {same : Bool} {i : Nat} (hblank : entry.url = "")
    (hnamed : ¬ HasURL existing entry.name) :
    destination existing same i entry = if same then urlAt existing i else "" := by
  simp [destination, hblank, byName_of_not_hasURL hnamed]

theorem destination_ne_empty (hnames : (existing.map fun ch => ch.name).Nodup) {i : Nat} :
    destination existing (channels.length = existing.length) i entry ≠ "" ↔ entry.url ≠ "" ∨
      HasURL existing entry.name ∨ (channels.length = existing.length ∧ urlAt existing i ≠ "") := by
  by_cases hblank : entry.url = ""
  · by_cases hnamed : HasURL existing entry.name
    · obtain ⟨stored, hstored, hname, hurl⟩ := hnamed
      rw [destination_named hnames hblank hstored hname hurl]
      exact iff_of_true hurl (.inr (.inl ⟨stored, hstored, hname, hurl⟩))
    · rw [destination_placed hblank hnamed]
      simp [hblank, hnamed]
  · rw [destination_own hblank]
    exact iff_of_true hblank (.inl hblank)

/-- The loop comes to its end exactly if every entry can be resolved. -/
theorem resolvable_iff (hnames : (existing.map fun ch => ch.name).Nodup) :
    (∃ saved, resolveChannels existing (channels.length = existing.length) 0 channels = .ok saved) ↔
      Resolvable existing channels := by
  have hentry : (∀ k entry, channels[k]? = some entry →
      destination existing (channels.length = existing.length) (0 + k) entry ≠ "") ↔
        Resolvable existing channels := by
    simp only [Nat.zero_add, destination_ne_empty hnames]
    rfl
  constructor
  · rintro ⟨saved, hsaved⟩
    exact hentry.mp (resolveChannels_ok.mp hsaved).1
  · intro h
    exact ⟨_, resolveChannels_ok.mpr ⟨hentry.mpr h, rfl⟩⟩

/-- A list that neither displaces nor doubles a channel is saved faithfully. -/
theorem faithful_of_resolved (hnames : (existing.map fun ch => ch.name).Nodup)
    (h : ¬ Misdirects existing channels)
    (hresolve : resolveChannels existing (channels.length = existing.length) 0 channels = .ok after) :
    Faithful existing channels after := by
  have hresolvable := (resolvable_iff hnames).mp ⟨after, hresolve⟩
  have hplaces : ¬ Displaces existing channels := fun hd => h ⟨hresolvable, .inl hd⟩
  have hnamesOnce : ¬ Doubles existing channels := fun hd => h ⟨hresolvable, .inr hd⟩
  obtain ⟨hall, rfl⟩ := resolveChannels_ok.mp hresolve
  refine ⟨List.length_mapIdx, fun i entry result hentry hresult => ?_,
    fun i entry result hentry hresult => ?_, ?_⟩
  · rw [List.getElem?_mapIdx, hentry] at hresult
    obtain rfl := Option.some.inj hresult
    rfl
  · rw [List.getElem?_mapIdx, hentry] at hresult
    obtain rfl := Option.some.inj hresult
    rw [Nat.zero_add]
    by_cases hblank : entry.url = ""
    · right
      by_cases hnamed : HasURL existing entry.name
      · obtain ⟨stored, hstored, hname, hurl⟩ := hnamed
        obtain ⟨j, hj⟩ := List.mem_iff_getElem?.mp hstored
        exact ⟨j, entry, stored, hentry, hj, hblank,
          (destination_named hnames hblank hstored hname hurl).symm,
          (destination_named hnames hblank hstored hname hurl).trans_ne hurl, .inl hname⟩
      · have hplaced := (hresolvable i entry hentry).resolve_left (fun hurl => hurl hblank)
        obtain ⟨hsame, hurl⟩ := hplaced.resolve_left hnamed
        cases hstored : existing[i]? with
        | none => simp [urlAt, hstored] at hurl
        | some stored =>
          have hat : urlAt existing i = stored.url := by simp [urlAt, hstored]
          have hdestination : destination existing (channels.length = existing.length) i entry =
              stored.url := by
            rw [destination_placed hblank hnamed, decide_eq_true hsame, if_pos rfl, hat]
          exact ⟨i, entry, stored, hentry, hstored, hblank, hdestination.symm,
            hdestination.trans_ne (hat ▸ hurl), .inr ⟨hnamed, hsame, rfl, fun other hother hname =>
              hplaces ⟨i, entry, stored, hentry, hstored, hblank, hnamed, other, hother, hname⟩⟩⟩
    · exact .inl ⟨hblank, destination_own hblank⟩
  · rintro i i' j url url' ⟨entry, stored, hentry, hstored, hblank, rfl, hurl, hmatch⟩
      ⟨entry', stored', hentry', hstored', hblank', rfl, -, hmatch'⟩
    obtain rfl := Option.some.inj (hstored.symm.trans hstored')
    rcases hmatch with hname | ⟨-, -, rfl, hgone⟩
    · rcases hmatch' with hname' | ⟨-, -, rfl, hgone⟩
      · by_contra hne
        exact hnamesOnce ⟨i, i', entry, entry', hentry, hentry', hne, hblank, hblank',
          hname.symm.trans hname', stored, List.mem_of_getElem? hstored, hname, hurl⟩
      · exact absurd hname.symm (hgone entry (List.mem_of_getElem? hentry))
    · rcases hmatch' with hname' | ⟨-, -, rfl, -⟩
      · exact absurd hname'.symm (hgone entry' (List.mem_of_getElem? hentry'))
      · rfl

/-- A list that displaces or doubles a channel is not saved faithfully. -/
theorem not_faithful (h : Displaces existing channels ∨ Doubles existing channels)
    (hfaithful : Faithful existing channels after) : False := by
  rcases h with ⟨i, entry, stored, hentry, hstored, hblank, hnamed, other, hother, hname⟩ |
      ⟨i, i', entry, entry', hentry, hentry', hne, hblank, hblank', hsame, stored, hstored, hname, hurl⟩
  · have hlt : i < after.length := by
      rw [hfaithful.length]
      exact (List.getElem?_eq_some_iff.mp hentry).1
    rcases hfaithful.destined i entry _ hentry (List.getElem?_eq_getElem hlt) with
      ⟨hurl, -⟩ | ⟨j, entry', stored', hentry', hstored', -, hsame, hurl, hmatch⟩
    · exact hurl hblank
    obtain rfl := Option.some.inj (hentry.symm.trans hentry')
    rcases hmatch with hname' | ⟨-, -, rfl, hgone⟩
    · exact hnamed ⟨stored', List.mem_of_getElem? hstored', hname', hsame ▸ hurl⟩
    · obtain rfl := Option.some.inj (hstored.symm.trans hstored')
      exact hgone other hother hname
  · obtain ⟨j, hj⟩ := List.mem_iff_getElem?.mp hstored
    exact hne (hfaithful.once i i' j stored.url stored.url
      ⟨entry, stored, hentry, hj, hblank, rfl, hurl, .inl hname⟩
      ⟨entry', stored, hentry', hj, hblank', rfl, hurl, .inl (hname.trans hsame)⟩)

/-- Exactly the lists that displace or double a stored channel are saved with a URL for the wrong
recipient. -/
theorem setChannels_upheld_iff (hnames : (existing.map fun ch => ch.name).Nodup) :
    (∀ trace out after, channelStore.Runs (setChannels channels) existing trace out after →
      Upheld existing channels trace after out) ↔ ¬ Misdirects existing channels := by
  constructor
  · rintro hall ⟨hresolvable, hwrong⟩
    obtain ⟨saved, hsaved⟩ := (resolvable_iff hnames).mpr hresolvable
    exact not_faithful hwrong (hall _ _ _ (setChannels_saves hsaved))
  · intro hright trace out after hrun
    rcases setChannels_cases hrun with ⟨err, rfl, rfl, hfailed⟩ | ⟨name, rfl, rfl⟩ | ⟨rfl, hresolve⟩
    · exact ⟨rfl, fun hok => absurd hok hfailed⟩
    · exact ⟨rfl, fun _ => ⟨name, rfl⟩⟩
    · exact faithful_of_resolved hnames hright hresolve

end Destinations

/-! ### A rename together with a reorder -/

def storedChannels : List ChannelEntry :=
  [{ name := "ops", url := "telegram://ops" }, { name := "dev", url := "telegram://dev" }]

/-- The second channel has moved to the front, the first is renamed behind it. -/
def reorderedChannels : List ChannelEntry := [{ name := "dev", url := "" }, { name := "alerts", url := "" }]

/-- What is saved: the renamed channel has the destination of the one that has moved. -/
def misdirectedChannels : List ChannelEntry :=
  [{ name := "dev", url := "telegram://dev" }, { name := "alerts", url := "telegram://dev" }]

theorem reordered_displaces : Displaces storedChannels reorderedChannels := by
  refine ⟨1, _, _, rfl, rfl, rfl, ?_, { name := "dev", url := "" }, by decide, rfl⟩
  rintro ⟨stored, hstored, hname, -⟩
  simp only [storedChannels, List.mem_cons, List.not_mem_nil, or_false] at hstored
  rcases hstored with rfl | rfl
  · revert hname
    decide
  · revert hname
    decide

theorem reordered_misdirected : ¬ ∀ existing channels : List ChannelEntry,
    (existing.map fun ch => ch.name).Nodup → ∀ trace out after,
      channelStore.Runs (setChannels channels) existing trace out after →
      Upheld existing channels trace after out := by
  intro h
  have hresolve : resolveChannels storedChannels
      (reorderedChannels.length = storedChannels.length) 0 reorderedChannels =
        .ok misdirectedChannels := by decide
  exact not_faithful (.inl reordered_displaces)
    (h storedChannels reorderedChannels (by decide) _ _ _ (setChannels_saves hresolve))

theorem setChannels_upheld_iff_reordered :
    (∀ trace out after, channelStore.Runs (setChannels reorderedChannels) storedChannels trace out after →
      Upheld storedChannels reorderedChannels trace after out) ↔
        ¬ Misdirects storedChannels reorderedChannels :=
  setChannels_upheld_iff (by decide)

end Doupro.Notifier
