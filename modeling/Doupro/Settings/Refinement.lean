import Doupro.Settings.General

/-!
# A change of the settings as one step

Alone on the connection, a change that is answered makes the settings it asks for those in force,
over the ones that were, and a request after it reads them back. One that fails stops between two
writes.
-/

namespace Doupro.Settings

open Interaction Store

/-! ### The settings in force -/

/-- What the stored texts stand for. -/
def effective (db : Values) : GeneralSettings where
  checkIntervalMinutes := (positive (db checkIntervalKey)).getD defaultCheckMinutes
  crashLoopThreshold := (positive (db crashLoopThresholdKey)).getD defaultCrashLoopThreshold
  crashLoopWindowMinutes := (positive (db crashLoopWindowKey)).getD defaultCrashLoopWindowMinutes
  logsPageSize := pageSizeOf (db logsPageSizeKey)

/-- A change over the settings in force: what it leaves out stays. -/
def GeneralSettings.over (asked current : GeneralSettings) : GeneralSettings where
  checkIntervalMinutes :=
    if asked.checkIntervalMinutes = 0 then current.checkIntervalMinutes
    else asked.checkIntervalMinutes
  crashLoopThreshold :=
    if asked.crashLoopThreshold = 0 then current.crashLoopThreshold else asked.crashLoopThreshold
  crashLoopWindowMinutes :=
    if asked.crashLoopWindowMinutes = 0 then current.crashLoopWindowMinutes
    else asked.crashLoopWindowMinutes
  logsPageSize := if asked.logsPageSize = 0 then current.logsPageSize else asked.logsPageSize

/-- What a change takes for the settings in force. Where it cannot read the check interval or the
page size, it takes the default. -/
structure TakenFor (db : Values) (current : GeneralSettings) : Prop where
  interval : current.checkIntervalMinutes = (effective db).checkIntervalMinutes ∨
    current.checkIntervalMinutes = defaultCheckMinutes
  threshold : current.crashLoopThreshold = (effective db).crashLoopThreshold
  window : current.crashLoopWindowMinutes = (effective db).crashLoopWindowMinutes
  pageSize : current.logsPageSize = (effective db).logsPageSize ∨
    current.logsPageSize = defaultLogsPageSize

/-- The writes of a change, in order. -/
def writes (s : GeneralSettings) : List (String × String) :=
  [(checkIntervalKey, toString s.checkIntervalMinutes),
    (crashLoopThresholdKey, toString s.crashLoopThreshold),
    (crashLoopWindowKey, toString s.crashLoopWindowMinutes),
    (logsPageSizeKey, toString s.logsPageSize)]

def Values.after (db : Values) (written : List (String × String)) : Values :=
  written.foldl (fun db entry => Function.update db entry.1 (some entry.2)) db

/-- Settings that pass the checks of a change. -/
structure Acceptable (s : GeneralSettings) : Prop where
  interval : 5 ≤ s.checkIntervalMinutes ∧ s.checkIntervalMinutes < 2 ^ 63
  threshold : 1 ≤ s.crashLoopThreshold ∧ s.crashLoopThreshold ≤ 20
  window : 1 ≤ s.crashLoopWindowMinutes ∧ s.crashLoopWindowMinutes ≤ 1440
  pageSize : minLogsPageSize ≤ s.logsPageSize ∧ s.logsPageSize ≤ maxLogsPageSize

/-- A change of the settings in force as one step, or the part of one that was written. -/
inductive Changes (asked : GeneralSettings) (db : Values) : SettingsAnswer → Values → Prop
  | refused (status : Nat) (code message : String) :
    Changes asked db (.refused status code message) db
  | torn {current : GeneralSettings} {written : Nat} (hcurrent : TakenFor db current)
    (hok : Acceptable (asked.over current)) (hwritten : written < 4) (message : String) :
    Changes asked db (.refused 500 "internal_error" message)
      (db.after ((writes (asked.over current)).take written))
  | saved {current : GeneralSettings} {db' : Values} (hcurrent : TakenFor db current)
    (hforce : effective db' = asked.over current)
    (hframe : ∀ key, key ∉ generalKeys → db' key = db key) :
    Changes asked db (.ok (asked.over current)) db'

/-! ### Single statements -/

abbrev Ran {α : Type} (p : SettingProgram α) (db : Values) (a : α) (db' : Values) : Prop :=
  ∃ trace, settingConnection.Runs p db trace a db'

theorem ran_bind {α β : Type} {p : SettingProgram α} {f : α → SettingProgram β} {db db' : Values}
    {b : β} : Ran (p >>= f) db b db' ↔ ∃ a db₁, Ran p db a db₁ ∧ Ran (f a) db₁ b db' := by
  constructor
  · rintro ⟨trace, h⟩
    obtain ⟨first, a, db₁, rest, hfirst, hrest, -⟩ := Machine.runs_bind.mp h
    exact ⟨a, db₁, ⟨first, hfirst⟩, rest, hrest⟩
  · rintro ⟨a, db₁, ⟨first, hfirst⟩, rest, hrest⟩
    exact ⟨first ++ rest, Machine.runs_bind.mpr ⟨first, a, db₁, rest, hfirst, hrest, rfl⟩⟩

@[simp] theorem ran_pure {α : Type} {a b : α} {db db' : Values} :
    Ran (pure a) db b db' ↔ b = a ∧ db' = db := by
  constructor
  · rintro ⟨trace, -, hb, hdb⟩
    exact ⟨hb, hdb⟩
  · rintro ⟨hb, hdb⟩
    exact ⟨[], rfl, hb, hdb⟩

/-- A read leaves the store as it is, and either fails or tells what is there. -/
theorem getSetting_ran {key : String} {db db' : Values} {r : Except GoError (Option String)}
    (h : Ran (getSetting key) db r db') : db' = db ∧ ∀ value, r = .ok value → value = db key := by
  obtain ⟨trace, w₀, reply, w₁, rest, rfl, ⟨fault, hexec⟩, -, hrest⟩ := h
  cases fault with
  | some err =>
    obtain ⟨rfl, rfl⟩ := Prod.mk.inj hexec
    obtain ⟨-, rfl, rfl⟩ := hrest
    exact ⟨rfl, fun value hvalue => by cases hvalue⟩
  | none =>
    obtain ⟨rfl, rfl⟩ := Prod.mk.inj hexec
    obtain ⟨-, rfl, rfl⟩ := hrest
    exact ⟨rfl, fun value hvalue => (Except.ok.inj hvalue).symm⟩

theorem setSetting_ran {key value : String} {db db' : Values} {r : Except GoError Unit}
    (h : Ran (setSetting key value) db r db') :
    (r = .ok () ∧ db' = db.after [(key, value)]) ∨ ((∃ err, r = .error err) ∧ db' = db) := by
  obtain ⟨trace, w₀, reply, w₁, rest, rfl, ⟨fault, hexec⟩, -, hrest⟩ := h
  cases fault with
  | some err =>
    obtain ⟨rfl, rfl⟩ := Prod.mk.inj hexec
    obtain ⟨-, rfl, rfl⟩ := hrest
    exact .inr ⟨⟨_, rfl⟩, rfl⟩
  | none =>
    obtain ⟨rfl, rfl⟩ := Prod.mk.inj hexec
    obtain ⟨-, rfl, rfl⟩ := hrest
    exact .inl ⟨rfl, rfl⟩

/-! ### Reading -/

theorem getCheckInterval_ran {db db' : Values} {r : Except GoError (Option Int)}
    (h : Ran getCheckInterval db r db') :
    db' = db ∧ ∀ n, r = .ok n → n = positive (db checkIntervalKey) := by
  obtain ⟨read, db₁, hread, hrest⟩ := ran_bind.mp h
  obtain ⟨rfl, hvalue⟩ := getSetting_ran hread
  cases read with
  | error err =>
    obtain ⟨rfl, rfl⟩ := ran_pure.mp hrest
    exact ⟨rfl, fun n hn => by cases hn⟩
  | ok value =>
    obtain ⟨rfl, rfl⟩ := ran_pure.mp hrest
    rw [hvalue value rfl]
    exact ⟨rfl, fun n hn => (Except.ok.inj hn).symm⟩

theorem readCrashLoopSettings_ran {db db' : Values} {r : Except GoError (Int × Int)}
    (h : Ran readCrashLoopSettings db r db') : db' = db ∧ ∀ settings, r = .ok settings →
      settings = ((effective db).crashLoopThreshold, (effective db).crashLoopWindowMinutes) := by
  obtain ⟨read, db₁, hread, hrest⟩ := ran_bind.mp h
  obtain ⟨rfl, hthreshold⟩ := getSetting_ran hread
  cases read with
  | error err =>
    obtain ⟨rfl, rfl⟩ := ran_pure.mp hrest
    exact ⟨rfl, fun settings hsettings => by cases hsettings⟩
  | ok threshold =>
    obtain ⟨read, db₂, hread, hrest⟩ := ran_bind.mp hrest
    obtain ⟨rfl, hwindow⟩ := getSetting_ran hread
    cases read with
    | error err =>
      obtain ⟨rfl, rfl⟩ := ran_pure.mp hrest
      exact ⟨rfl, fun settings hsettings => by cases hsettings⟩
    | ok window =>
      obtain ⟨rfl, rfl⟩ := ran_pure.mp hrest
      rw [hthreshold threshold rfl, hwindow window rfl]
      exact ⟨rfl, fun settings hsettings => (Except.ok.inj hsettings).symm⟩

theorem getLogsPageSize_ran {db db' : Values} {r : Except GoError Int}
    (h : Ran getLogsPageSize db r db') :
    db' = db ∧ ∀ n, r = .ok n → n = (effective db).logsPageSize := by
  obtain ⟨read, db₁, hread, hrest⟩ := ran_bind.mp h
  obtain ⟨rfl, hvalue⟩ := getSetting_ran hread
  cases read with
  | error err =>
    obtain ⟨rfl, rfl⟩ := ran_pure.mp hrest
    exact ⟨rfl, fun n hn => by cases hn⟩
  | ok value =>
    obtain ⟨rfl, rfl⟩ := ran_pure.mp hrest
    rw [hvalue value rfl]
    exact ⟨rfl, fun n hn => (Except.ok.inj hn).symm⟩

/-- A request for the settings tells which are in force, if it can read them. -/
theorem handleGetGeneralSettings_ran {db db' : Values} {a : SettingsAnswer}
    (h : Ran handleGetGeneralSettings db a db') :
    db' = db ∧ (a = .ok (effective db) ∨ ∃ message, a = .refused 500 "internal_error" message) := by
  obtain ⟨interval, db₁, hread, hrest⟩ := ran_bind.mp h
  obtain ⟨rfl, hinterval⟩ := getCheckInterval_ran hread
  cases interval with
  | error err =>
    obtain ⟨rfl, rfl⟩ := ran_pure.mp hrest
    exact ⟨rfl, .inr ⟨_, rfl⟩⟩
  | ok minutes =>
    obtain ⟨crashLoop, db₂, hread, hrest⟩ := ran_bind.mp hrest
    obtain ⟨rfl, hcrashLoop⟩ := readCrashLoopSettings_ran hread
    cases crashLoop with
    | error err =>
      obtain ⟨rfl, rfl⟩ := ran_pure.mp hrest
      exact ⟨rfl, .inr ⟨_, rfl⟩⟩
    | ok settings =>
      obtain ⟨size, db₃, hread, hrest⟩ := ran_bind.mp hrest
      obtain ⟨rfl, hsize⟩ := getLogsPageSize_ran hread
      cases size with
      | error err =>
        obtain ⟨rfl, rfl⟩ := ran_pure.mp hrest
        exact ⟨rfl, .inr ⟨_, rfl⟩⟩
      | ok logsPageSize =>
        obtain ⟨rfl, rfl⟩ := ran_pure.mp hrest
        rw [hinterval minutes rfl, hcrashLoop settings rfl, hsize logsPageSize rfl]
        exact ⟨rfl, .inl rfl⟩

theorem keptCheckInterval_ran {db db' : Values} {n : Int} (h : Ran keptCheckInterval db n db') :
    db' = db ∧ (n = (effective db).checkIntervalMinutes ∨ n = defaultCheckMinutes) := by
  obtain ⟨interval, db₁, hread, hrest⟩ := ran_bind.mp h
  obtain ⟨rfl, hinterval⟩ := getCheckInterval_ran hread
  match interval with
  | .error _ =>
    obtain ⟨rfl, rfl⟩ := ran_pure.mp hrest
    exact ⟨rfl, .inr rfl⟩
  | .ok none =>
    obtain ⟨rfl, rfl⟩ := ran_pure.mp hrest
    exact ⟨rfl, .inr rfl⟩
  | .ok (some current) =>
    obtain ⟨rfl, rfl⟩ := ran_pure.mp hrest
    refine ⟨rfl, .inl ?_⟩
    simp only [effective]
    rw [← hinterval _ rfl, Option.getD_some]

theorem keptLogsPageSize_ran {db db' : Values} {n : Int} (h : Ran keptLogsPageSize db n db') :
    db' = db ∧ (n = (effective db).logsPageSize ∨ n = defaultLogsPageSize) := by
  obtain ⟨size, db₁, hread, hrest⟩ := ran_bind.mp h
  obtain ⟨rfl, hsize⟩ := getLogsPageSize_ran hread
  cases size with
  | error err =>
    obtain ⟨rfl, rfl⟩ := ran_pure.mp hrest
    exact ⟨rfl, .inr rfl⟩
  | ok current =>
    obtain ⟨rfl, rfl⟩ := ran_pure.mp hrest
    exact ⟨rfl, .inl (hsize _ rfl)⟩

/-- A setting that is asked for is taken, one that is left out is what is kept of it. -/
theorem orKept_ran {asked n now : Int} {kept : SettingProgram Int} {db db' : Values}
    {P : Int → Prop} (h : Ran (orKept asked kept) db n db')
    (hkept : ∀ m db₁, Ran kept db m db₁ → db₁ = db ∧ P m) (hnow : P now) :
    db' = db ∧ ∃ current, P current ∧ n = if asked = 0 then current else asked := by
  unfold orKept at h
  by_cases hzero : asked = 0
  · rw [if_pos hzero] at h
    obtain ⟨hdb, hn⟩ := hkept n db' h
    exact ⟨hdb, n, hn, (if_pos hzero).symm⟩
  · rw [if_neg hzero] at h
    obtain ⟨rfl, hdb⟩ := ran_pure.mp h
    exact ⟨hdb, now, hnow, (if_neg hzero).symm⟩

/-! ### Writing -/

/-- A change stops at the first write that fails. -/
theorem saveGeneralSettings_ran {s : GeneralSettings} {actorID : String} {db db' : Values}
    {a : SettingsAnswer} (h : Ran (saveGeneralSettings s actorID) db a db') :
    (a = .ok s ∧ db' = db.after (writes s)) ∨ ∃ written message, written < 4 ∧
      a = .refused 500 "internal_error" message ∧ db' = db.after ((writes s).take written) := by
  obtain ⟨r, db₁, hinterval, hrest⟩ := ran_bind.mp h
  obtain ⟨rfl, rfl⟩ | ⟨⟨err, rfl⟩, rfl⟩ := setSetting_ran hinterval
  swap
  · obtain ⟨rfl, rfl⟩ := ran_pure.mp hrest
    exact .inr ⟨0, _, by decide, rfl, rfl⟩
  obtain ⟨r, db₁, hcrashLoop, hrest⟩ := ran_bind.mp hrest
  obtain ⟨r', db₂, hthreshold, hwindow⟩ := ran_bind.mp hcrashLoop
  obtain ⟨rfl, rfl⟩ | ⟨⟨err, rfl⟩, rfl⟩ := setSetting_ran hthreshold
  swap
  · obtain ⟨rfl, rfl⟩ := ran_pure.mp hwindow
    obtain ⟨rfl, rfl⟩ := ran_pure.mp hrest
    exact .inr ⟨1, _, by decide, rfl, rfl⟩
  obtain ⟨rfl, rfl⟩ | ⟨⟨err, rfl⟩, rfl⟩ := setSetting_ran hwindow
  swap
  · obtain ⟨rfl, rfl⟩ := ran_pure.mp hrest
    exact .inr ⟨2, _, by decide, rfl, rfl⟩
  obtain ⟨r, db₁, hsize, hrest⟩ := ran_bind.mp hrest
  obtain ⟨rfl, rfl⟩ | ⟨⟨err, rfl⟩, rfl⟩ := setSetting_ran hsize
  swap
  · obtain ⟨rfl, rfl⟩ := ran_pure.mp hrest
    exact .inr ⟨3, _, by decide, rfl, rfl⟩
  obtain ⟨trace, w₀, reply, w₁, rest, rfl, ⟨fault, hexec⟩, -, -, rfl, rfl⟩ := hrest
  exact .inl ⟨rfl, (Prod.mk.inj hexec).2.symm⟩

theorem positive_toString {n : Int} (hpos : 0 < n) (hfits : n < 2 ^ 63) :
    positive (some (toString n)) = some n := by
  unfold positive
  rw [Option.bind_some, atoi_toString (by omega) hfits, Option.filter_some, if_pos (decide_eq_true hpos)]

theorem pageSizeOf_toString {n : Int} (h : minLogsPageSize ≤ n ∧ n ≤ maxLogsPageSize) :
    pageSizeOf (some (toString n)) = n := by
  have hfits : -2 ^ 63 ≤ n ∧ n < 2 ^ 63 := by
    simp only [minLogsPageSize, maxLogsPageSize] at h
    omega
  unfold pageSizeOf
  rw [Option.bind_some, atoi_toString hfits.1 hfits.2, Option.filter_some, if_pos (decide_eq_true h)]
  rfl

/-- Acceptable settings that are all written are in force. -/
theorem effective_after {s : GeneralSettings} (h : Acceptable s) (db : Values) :
    effective (db.after (writes s)) = s := by
  have hinterval : positive (some (toString s.checkIntervalMinutes)) = some s.checkIntervalMinutes := by
    have := h.interval
    exact positive_toString (by omega) (by omega)
  have hthreshold : positive (some (toString s.crashLoopThreshold)) = some s.crashLoopThreshold := by
    have := h.threshold
    exact positive_toString (by omega) (by omega)
  have hwindow : positive (some (toString s.crashLoopWindowMinutes)) =
      some s.crashLoopWindowMinutes := by
    have := h.window
    exact positive_toString (by omega) (by omega)
  have hsize : pageSizeOf (some (toString s.logsPageSize)) = s.logsPageSize :=
    pageSizeOf_toString h.pageSize
  have hstored : ∀ entry ∈ writes s, db.after (writes s) entry.1 = some entry.2 := by
    simp [writes, Values.after, Function.update_apply, checkIntervalKey, crashLoopThresholdKey,
      crashLoopWindowKey, logsPageSizeKey]
  simp only [writes, List.forall_mem_cons] at hstored
  obtain ⟨h₁, h₂, h₃, h₄, -⟩ := hstored
  unfold effective
  simp only [writes, h₁, h₂, h₃, h₄, hinterval, hthreshold, hwindow, hsize, Option.getD_some]

theorem after_frame {s : GeneralSettings} {db : Values} {key : String} (hkey : key ∉ generalKeys) :
    db.after (writes s) key = db key := by
  simp only [generalKeys, List.mem_cons, List.not_mem_nil, or_false, not_or] at hkey
  simp only [Values.after, writes, List.foldl_cons, List.foldl_nil]
  simp [Function.update_of_ne, hkey]

theorem effective_fits (db : Values) : (effective db).checkIntervalMinutes < 2 ^ 63 := by
  simp only [effective]
  cases hread : positive (db checkIntervalKey) with
  | none => decide
  | some n =>
    obtain ⟨hvalue, -⟩ := Option.filter_eq_some_iff.mp hread
    obtain ⟨raw, -, hatoi⟩ := Option.bind_eq_some_iff.mp hvalue
    exact (atoi_range hatoi).2

theorem handleSetGeneralSettings_ran {asked : GeneralSettings} {actorID : String}
    {db db' : Values} {a : SettingsAnswer}
    (h : Ran (handleSetGeneralSettings (some asked) actorID) db a db')
    (hfits : asked.checkIntervalMinutes < 2 ^ 63) : Changes asked db a db' := by
  obtain ⟨minutes, db₁, hkept, hrest⟩ := ran_bind.mp h
  obtain ⟨rfl, currentInterval, hinterval, hminutes⟩ := orKept_ran hkept
    (fun m db₁ hm => keptCheckInterval_ran hm) (.inl rfl)
  split at hrest
  · obtain ⟨rfl, rfl⟩ := ran_pure.mp hrest
    exact .refused ..
  obtain ⟨r, db₁, hread, hrest⟩ := ran_bind.mp hrest
  obtain ⟨rfl, hcrashLoop⟩ := readCrashLoopSettings_ran hread
  cases r with
  | error err =>
    obtain ⟨rfl, rfl⟩ := ran_pure.mp hrest
    exact .refused ..
  | ok settings =>
    obtain rfl := hcrashLoop settings rfl
    simp only at hrest
    generalize hthreshold : (if asked.crashLoopThreshold = 0 then (effective db₁).crashLoopThreshold
      else asked.crashLoopThreshold) = threshold at hrest
    generalize hwindow : (if asked.crashLoopWindowMinutes = 0
      then (effective db₁).crashLoopWindowMinutes
      else asked.crashLoopWindowMinutes) = windowMinutes at hrest
    split at hrest
    · obtain ⟨rfl, rfl⟩ := ran_pure.mp hrest
      exact .refused ..
    obtain ⟨size, db₂, hkept, hlast⟩ := ran_bind.mp hrest
    obtain ⟨rfl, currentSize, hcurrentSize, hsize⟩ := orKept_ran hkept
      (fun m db₁ hm => keptLogsPageSize_ran hm) (.inl rfl)
    split at hlast
    · obtain ⟨rfl, rfl⟩ := ran_pure.mp hlast
      exact .refused ..
    let current : GeneralSettings := ⟨currentInterval, (effective db₂).crashLoopThreshold,
      (effective db₂).crashLoopWindowMinutes, currentSize⟩
    have hcurrent : TakenFor db₂ current := ⟨hinterval, rfl, rfl, hcurrentSize⟩
    have hover : (⟨minutes, threshold, windowMinutes, size⟩ : GeneralSettings) = asked.over current := by
      rw [hminutes, ← hthreshold, ← hwindow, hsize]
      rfl
    have hok : Acceptable (asked.over current) := by
      rw [← hover]
      have hnow := effective_fits db₂
      have hdefault : defaultCheckMinutes < 2 ^ 63 := by decide
      constructor <;> simp only <;> omega
    rw [hover] at hlast
    obtain ⟨rfl, rfl⟩ | ⟨written, message, hwritten, rfl, rfl⟩ := saveGeneralSettings_ran hlast
    · exact .saved hcurrent (effective_after hok _) fun key hkey => after_frame hkey
    · exact .torn hcurrent hok hwritten message

/-- A program run to its end, with the fault of each statement. -/
def play {α : Type} : SettingProgram α → Values → List (Option GoError) → α × Values
  | .ret a, db, _ => (a, db)
  | .call op next, db, faults =>
    let out := db.exec (faults.headD none) op
    play (next out.1) out.2 faults.tail

theorem play_ran {α : Type} (p : SettingProgram α) (db : Values) (faults : List (Option GoError)) :
    Ran p db (play p db faults).1 (play p db faults).2 := by
  induction p generalizing db faults with
  | ret a => exact ⟨[], rfl, rfl, rfl⟩
  | call op next ih =>
    obtain ⟨trace, hrest⟩ := ih (db.exec (faults.headD none) op).1
      (db.exec (faults.headD none) op).2 faults.tail
    exact ⟨_, db, _, _, trace, rfl, ⟨_, rfl⟩, rfl, hrest⟩

end Doupro.Settings
