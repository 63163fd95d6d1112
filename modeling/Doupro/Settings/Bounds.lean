import Doupro.Settings.General

/-!
# What the general settings can be

Every write of a change was checked first, and a change that leaves a setting out writes back
what it read. So a setting that is within its bounds stays so, however requests interleave,
fail or are cut short, and nobody ever reads another value.
-/

namespace Doupro.Settings

open Interaction Store

/-! ### Bounds -/

/-- The longest check interval that anyone asks for. An `int` allows for no more than `2 ^ 63 - 1`. -/
structure Longest (top : Int) : Prop where
  default : defaultCheckMinutes ≤ top
  fits : top < 2 ^ 63

/-- The integers a key may hold. -/
structure Within (top : Int) (key : String) (n : Int) : Prop where
  interval : key = checkIntervalKey → 5 ≤ n ∧ n ≤ top
  threshold : key = crashLoopThresholdKey → 1 ≤ n ∧ n ≤ 20
  window : key = crashLoopWindowKey → 1 ≤ n ∧ n ≤ 1440
  pageSize : key = logsPageSizeKey → minLogsPageSize ≤ n ∧ n ≤ maxLogsPageSize

/-- A text that a key may hold. -/
def Sound (top : Int) (key raw : String) : Prop :=
  key ∈ generalKeys → ∃ n, atoi raw = some n ∧ Within top key n

/-- The general settings that are stored are within their bounds. -/
def Valid (top : Int) (db : Values) : Prop := ∀ key raw, db key = some raw → Sound top key raw

structure InBounds (top : Int) (s : GeneralSettings) : Prop where
  interval : 5 ≤ s.checkIntervalMinutes ∧ s.checkIntervalMinutes ≤ top
  threshold : 1 ≤ s.crashLoopThreshold ∧ s.crashLoopThreshold ≤ 20
  window : 1 ≤ s.crashLoopWindowMinutes ∧ s.crashLoopWindowMinutes ≤ 1440
  pageSize : minLogsPageSize ≤ s.logsPageSize ∧ s.logsPageSize ≤ maxLogsPageSize

variable {top : Int}

theorem within_fits (htop : Longest top) {key : String} {n : Int} (hkey : key ∈ generalKeys)
    (h : Within top key n) : -2 ^ 63 ≤ n ∧ n < 2 ^ 63 := by
  have hfits := htop.fits
  simp only [generalKeys, List.mem_cons, List.not_mem_nil, or_false] at hkey
  rcases hkey with hkey | hkey | hkey | hkey
  · have := h.interval hkey
    omega
  · have := h.threshold hkey
    omega
  · have := h.window hkey
    omega
  · have := h.pageSize hkey
    simp only [minLogsPageSize, maxLogsPageSize] at this
    omega

/-- What is written for an integer within the bounds is read as it. -/
theorem sound_toString (htop : Longest top) {key : String} {n : Int} (h : Within top key n) :
    Sound top key (toString n) :=
  fun hkey => ⟨n, atoi_toString (within_fits htop hkey h).1 (within_fits htop hkey h).2, h⟩

/-! ### What a request may write -/

/-- A request writes only what a key may hold, if it reads nothing else. -/
def bounded (top : Int) : Contract SettingCalls Values Unit where
  allowed _ op := match op with
    | .upsert key value => Sound top key value
    | _ => True
  expects _ e := match e with
    | ⟨_, .select key, .ok (some raw)⟩ => Sound top key raw
    | _ => True
  next _ _ := ()

abbrev Obeys {α : Type} (top : Int) (p : SettingProgram α) (Q : α → Prop) : Prop :=
  settingConnection.obeys (bounded top) p () fun _ => Q

theorem Obeys.bind {α β : Type} {p : SettingProgram α} {f : α → SettingProgram β} {P : α → Prop}
    {Q : β → Prop} (h : Obeys top p P) (hrest : ∀ a, P a → Obeys top (f a) Q) :
    Obeys top (p >>= f) Q :=
  Machine.obeys_bind.mpr (Machine.obeys_mono h fun _ a ha => hrest a ha)

theorem getSetting_obeys (key : String) :
    Obeys top (getSetting key) fun r => ∀ raw, r = .ok (some raw) → Sound top key raw := by
  refine ⟨trivial, fun db r db' _ hexpects => ?_⟩
  cases r with
  | error err => exact fun raw h => by cases h
  | ok value => cases value with
    | none => exact fun raw h => by cases h
    | some stored =>
      rintro raw h
      obtain rfl := Option.some.inj (Except.ok.inj h)
      exact hexpects

theorem setSetting_obeys {key value : String} (h : Sound top key value) :
    Obeys top (setSetting key value) fun _ => True := by
  refine ⟨h, fun db r db' _ _ => ?_⟩
  cases r <;> trivial

/-- An integer that is read is within the bounds of its key. -/
theorem positive_within {key : String} (hkey : key ∈ generalKeys) {stored : Option String}
    (h : ∀ raw, stored = some raw → Sound top key raw) {n : Int} (hn : positive stored = some n) :
    Within top key n := by
  unfold positive at hn
  obtain ⟨hvalue, -⟩ := Option.filter_eq_some_iff.mp hn
  obtain ⟨raw, hraw, hatoi⟩ := Option.bind_eq_some_iff.mp hvalue
  obtain ⟨m, hm, hwithin⟩ := h raw hraw hkey
  rw [hatoi] at hm
  exact Option.some.inj hm ▸ hwithin

theorem pageSizeOf_bounds (stored : Option String) :
    minLogsPageSize ≤ pageSizeOf stored ∧ pageSizeOf stored ≤ maxLogsPageSize := by
  unfold pageSizeOf
  cases hsize : (stored.bind atoi).filter fun n => minLogsPageSize ≤ n ∧ n ≤ maxLogsPageSize with
  | none => decide
  | some n =>
    obtain ⟨-, hbounds⟩ := Option.filter_eq_some_iff.mp hsize
    simpa using hbounds

theorem getCheckInterval_obeys :
    Obeys top getCheckInterval fun r => ∀ n, r = .ok (some n) → 5 ≤ n ∧ n ≤ top := by
  refine (getSetting_obeys checkIntervalKey).bind fun r hr => ?_
  cases r with
  | error err => exact fun n h => by cases h
  | ok stored =>
    intro n h
    have hread := positive_within (by simp [generalKeys]) (fun raw hraw => hr raw (by rw [hraw]))
      (Except.ok.inj h)
    exact hread.interval rfl

/-- A threshold and a window within their bounds. -/
def CrashLoop (settings : Int × Int) : Prop :=
  (1 ≤ settings.1 ∧ settings.1 ≤ 20) ∧ 1 ≤ settings.2 ∧ settings.2 ≤ 1440

theorem readCrashLoopSettings_obeys :
    Obeys top readCrashLoopSettings fun r => ∀ settings, r = .ok settings → CrashLoop settings := by
  refine (getSetting_obeys crashLoopThresholdKey).bind fun r hthreshold => ?_
  cases r with
  | error err => exact fun settings h => by cases h
  | ok threshold =>
    refine (getSetting_obeys crashLoopWindowKey).bind fun r hwindow => ?_
    cases r with
    | error err => exact fun settings h => by cases h
    | ok window =>
      intro settings h
      obtain rfl := Except.ok.inj h
      constructor
      · cases hread : positive threshold with
        | none => simp [defaultCrashLoopThreshold]
        | some n => exact (positive_within (by simp [generalKeys])
            (fun raw hraw => hthreshold raw (by rw [hraw])) hread).threshold rfl
      · cases hread : positive window with
        | none => simp [defaultCrashLoopWindowMinutes]
        | some n => exact (positive_within (by simp [generalKeys])
            (fun raw hraw => hwindow raw (by rw [hraw])) hread).window rfl

theorem getLogsPageSize_obeys : Obeys top getLogsPageSize fun r =>
    ∀ n, r = .ok n → minLogsPageSize ≤ n ∧ n ≤ maxLogsPageSize := by
  refine (getSetting_obeys logsPageSizeKey).bind fun r _ => ?_
  cases r with
  | error err => exact fun n h => by cases h
  | ok stored =>
    intro n h
    obtain rfl := Except.ok.inj h
    exact pageSizeOf_bounds stored

end Doupro.Settings
