import Doupro.Settings.Bounds

/-!
# What requests make of the general settings

A change that is kept or read passes through the bounds, whoever else writes at the same time.
-/

namespace Doupro.Settings

open Interaction Store

variable {top : Int}

/-- An answer that shows settings shows them within their bounds. -/
def SettingsAnswer.InBounds (top : Int) (a : SettingsAnswer) : Prop :=
  ∀ s, a = .ok s → Settings.InBounds top s

@[simp] theorem refused_inBounds {status : Nat} {code message : String} :
    (SettingsAnswer.refused status code message).InBounds top := by
  intro s h
  cases h

theorem ok_inBounds {s : GeneralSettings} (h : InBounds top s) : (SettingsAnswer.ok s).InBounds top := by
  intro shown hshown
  cases hshown
  exact h

theorem default_interval (htop : Longest top) : 5 ≤ defaultCheckMinutes ∧ defaultCheckMinutes ≤ top :=
  ⟨by decide, htop.default⟩

/-! ### Reading -/

theorem handleGetGeneralSettings_obeys (htop : Longest top) :
    Obeys top handleGetGeneralSettings (·.InBounds top) := by
  apply getCheckInterval_obeys.bind
  intro interval hinterval
  cases interval with
  | error err => exact refused_inBounds
  | ok minutes =>
    apply readCrashLoopSettings_obeys.bind
    intro crashLoop hcrashLoop
    cases crashLoop with
    | error err => exact refused_inBounds
    | ok settings =>
      apply getLogsPageSize_obeys.bind
      intro size hsize
      cases size with
      | error err => exact refused_inBounds
      | ok logsPageSize =>
        apply ok_inBounds
        refine ⟨?_, (hcrashLoop settings rfl).1, (hcrashLoop settings rfl).2, hsize _ rfl⟩
        cases minutes with
        | none => exact default_interval htop
        | some n => exact hinterval n rfl

theorem keptCheckInterval_obeys (htop : Longest top) :
    Obeys top keptCheckInterval fun n => 5 ≤ n ∧ n ≤ top := by
  apply getCheckInterval_obeys.bind
  intro interval hinterval
  match interval with
  | .error _ => exact default_interval htop
  | .ok none => exact default_interval htop
  | .ok (some n) => exact hinterval n rfl

theorem keptLogsPageSize_obeys :
    Obeys top keptLogsPageSize fun n => minLogsPageSize ≤ n ∧ n ≤ maxLogsPageSize := by
  apply getLogsPageSize_obeys.bind
  intro size hsize
  cases size with
  | error err => simp [minLogsPageSize, maxLogsPageSize, defaultLogsPageSize]
  | ok n => exact hsize n rfl

/-! ### Writing -/

theorem setInBounds {key : String} {n : Int} (htop : Longest top) (h : Within top key n) :
    Obeys top (setSetting key (toString n)) fun _ => True :=
  setSetting_obeys (sound_toString htop h)

theorem saveGeneralSettings_obeys (htop : Longest top) {s : GeneralSettings} (h : InBounds top s)
    (actorID : String) : Obeys top (saveGeneralSettings s actorID) (·.InBounds top) := by
  have hinterval : Within top checkIntervalKey s.checkIntervalMinutes := by
    constructor <;> intro hkey
    · exact h.interval
    all_goals exact absurd hkey (by decide)
  have hthreshold : Within top crashLoopThresholdKey s.crashLoopThreshold := by
    constructor <;> intro hkey
    on_goal 2 => exact h.threshold
    all_goals exact absurd hkey (by decide)
  have hwindow : Within top crashLoopWindowKey s.crashLoopWindowMinutes := by
    constructor <;> intro hkey
    on_goal 3 => exact h.window
    all_goals exact absurd hkey (by decide)
  have hsize : Within top logsPageSizeKey s.logsPageSize := by
    constructor <;> intro hkey
    on_goal 4 => exact h.pageSize
    all_goals exact absurd hkey (by decide)
  apply (setInBounds htop hinterval).bind
  rintro (err | _) -
  · exact refused_inBounds
  have hcrashLoop : Obeys top (setCrashLoopSettings s.crashLoopThreshold s.crashLoopWindowMinutes)
      fun _ => True := by
    apply (setInBounds htop hthreshold).bind
    rintro (err | _) -
    · trivial
    · exact setInBounds htop hwindow
  apply hcrashLoop.bind
  rintro (err | _) -
  · exact refused_inBounds
  apply (setInBounds htop hsize).bind
  rintro (err | _) -
  · exact refused_inBounds
  · exact ⟨trivial, fun _ _ _ _ _ => ok_inBounds h⟩

theorem orKept_obeys {asked : Int} {kept : SettingProgram Int} {P : Int → Prop}
    (hasked : P asked) (hkept : Obeys top kept P) : Obeys top (orKept asked kept) P := by
  unfold orKept
  split
  · exact hkept
  · exact hasked

theorem handleSetGeneralSettings_obeys (htop : Longest top) {body : Option GeneralSettings}
    (hbody : ∀ req, body = some req → req.checkIntervalMinutes ≤ top) (actorID : String) :
    Obeys top (handleSetGeneralSettings body actorID) (·.InBounds top) := by
  match body with
  | none => exact refused_inBounds
  | some req =>
    have hchosen : Obeys top (orKept req.checkIntervalMinutes keptCheckInterval) (· ≤ top) :=
      orKept_obeys (hbody req rfl) (Machine.obeys_mono (keptCheckInterval_obeys htop) fun _ _ h => h.2)
    apply hchosen.bind
    intro minutes hminutes
    split
    · exact refused_inBounds
    apply readCrashLoopSettings_obeys.bind
    rintro (err | ⟨currentThreshold, currentWindow⟩) -
    · exact refused_inBounds
    simp only
    generalize (if req.crashLoopThreshold = 0 then currentThreshold
      else req.crashLoopThreshold) = threshold
    generalize (if req.crashLoopWindowMinutes = 0 then currentWindow
      else req.crashLoopWindowMinutes) = windowMinutes
    split
    · exact refused_inBounds
    -- Nothing is known of the page size that is asked for until it is checked.
    have hsize : Obeys top (orKept req.logsPageSize keptLogsPageSize) fun _ => True :=
      orKept_obeys trivial (Machine.obeys_mono keptLogsPageSize_obeys fun _ _ _ => trivial)
    apply hsize.bind
    rintro logsPageSize -
    split
    · exact refused_inBounds
    apply saveGeneralSettings_obeys htop
    constructor <;> simp only <;> omega

/-! ### Whole runs -/

/-- A number of minutes is an interval of that length as long as its nanoseconds fit. -/
theorem minutesDuration_exact {n : Int} (hn : 0 ≤ n) (hfits : n < 2 ^ 63) :
    minutesDuration n = n * minute ↔ n ≤ 153722867 := by
  have hminute : minute = 60000000000 := rfl
  unfold minutesDuration
  rw [hminute]
  constructor
  · intro (hexact : (n * 60000000000).bmod (2 ^ 64) = n * 60000000000)
    have hbound : (n * 60000000000).bmod (2 ^ 64) < (2 ^ 64 + 1) / 2 := Int.bmod_lt (by decide)
    omega
  · intro hle
    apply Int.bmod_eq_of_le <;> omega

/-- What a task may come to. -/
def Task.Meets (top : Int) : Task → Outcome → Prop
  | .get, .answer a | .set _ _, .answer a => a.InBounds top
  | .checkInterval made, .interval d => d = made ∨ ∃ n, (5 ≤ n ∧ n ≤ top) ∧ d = minutesDuration n ∧
      (d = n * minute ↔ n ≤ 153722867)
  | .crashLoop, .crashLoop r => ∀ settings, r = .ok settings → CrashLoop settings
  | .logsPage, .pageSize n => minLogsPageSize ≤ n ∧ n ≤ maxLogsPageSize
  | _, _ => False

theorem currentCheckInterval_obeys (htop : Longest top) (made : Duration) :
    Obeys top (currentCheckInterval made) fun d =>
      (Task.checkInterval made).Meets top (.interval d) := by
  apply getCheckInterval_obeys.bind
  intro interval hinterval
  match interval with
  | .error _ => exact .inl rfl
  | .ok none => exact .inl rfl
  | .ok (some n) =>
    have hn := hinterval n rfl
    have hfits := htop.fits
    exact .inr ⟨n, hn, rfl, minutesDuration_exact (by omega) (by omega)⟩

theorem logsPageLimit_obeys :
    Obeys top logsPageLimit fun n => minLogsPageSize ≤ n ∧ n ≤ maxLogsPageSize :=
  keptLogsPageSize_obeys

/-- The interval a task asks for, if it asks for one. -/
def Task.Asks (top : Int) : Task → Prop
  | .set (some req) _ => req.checkIntervalMinutes ≤ top
  | _ => True

theorem run_obeys (htop : Longest top) {task : Task} (hasks : task.Asks top) :
    Obeys top task.run (task.Meets top) := by
  cases task with
  | get => exact (handleGetGeneralSettings_obeys htop).bind fun _ h => h
  | set body actorID =>
    have hbody : ∀ req, body = some req → req.checkIntervalMinutes ≤ top := by
      rintro req rfl
      exact hasks
    exact (handleSetGeneralSettings_obeys htop hbody actorID).bind fun _ h => h
  | checkInterval made => exact (currentCheckInterval_obeys htop made).bind fun _ h => h
  | crashLoop => exact readCrashLoopSettings_obeys.bind fun _ h => h
  | logsPage => exact logsPageLimit_obeys.bind fun _ h => h

/-- A statement that the contract allows keeps the settings valid, and what it reads is valid. -/
theorem exec_valid {db db' : Values} (hvalid : Valid top db) {op : SettingCall} {r : op.Reply}
    (hstep : settingConnection.step db op r db') (hallowed : (bounded top).allowed () op) :
    (bounded top).expects () ⟨db, op, r⟩ ∧ Valid top db' := by
  obtain ⟨fault, hexec⟩ := hstep
  cases op with
  | select key =>
    cases fault with
    | some err =>
      simp only [Values.exec, Prod.mk.injEq] at hexec
      obtain ⟨rfl, rfl⟩ := hexec
      exact ⟨trivial, hvalid⟩
    | none =>
      simp only [Values.exec, Prod.mk.injEq] at hexec
      obtain ⟨rfl, rfl⟩ := hexec
      refine ⟨?_, hvalid⟩
      cases hstored : db key with
      | none => simp [bounded]
      | some raw => exact hvalid key raw hstored
  | upsert key value =>
    refine ⟨trivial, ?_⟩
    cases fault with
    | some err =>
      simp only [Values.exec, Prod.mk.injEq] at hexec
      exact hexec.2 ▸ hvalid
    | none =>
      simp only [Values.exec, Prod.mk.injEq] at hexec
      rw [← hexec.2]
      intro other raw hraw
      by_cases hother : other = key
      · subst hother
        rw [Function.update_self] at hraw
        exact Option.some.inj hraw ▸ hallowed
      · rw [Function.update_of_ne hother] at hraw
        exact hvalid other raw hraw
  | emit event =>
    simp only [Values.exec, Prod.mk.injEq] at hexec
    exact ⟨trivial, hexec.2 ▸ hvalid⟩

variable {ι : Type} [DecidableEq ι]

theorem pool_valid (htop : Longest top) {tasks : ι → Task} (hasks : ∀ i, (tasks i).Asks top)
    {db db' : Values} (hvalid : Valid top db) {history : List (ι × Event SettingCalls Values)}
    {pool : ι → SettingProgram Outcome}
    (hrun : settingConnection.PoolRuns (fun i => (tasks i).run) db history pool db') :
    Valid top db' ∧ ∀ i, Obeys top (pool i) ((tasks i).Meets top) := by
  obtain ⟨k, hvalid', hobeys⟩ := hrun.contracts (C := fun _ => bounded top) (k := fun _ => ())
    (Q := fun i _ => (tasks i).Meets top) (A := fun _ _ => True) (J := fun db _ _ => Valid top db)
    (fun i op r hvalid hrely hstep _ hallowed => exec_valid (hrely ▸ hvalid) hstep hallowed)
    (Machine.throughout_trivial [] _) (fun i => run_obeys htop (hasks i)) hvalid
  exact ⟨hvalid', hobeys⟩

/-- However requests and the readers of the settings interleave, fail or are left unfinished, the
stored settings stay within their bounds, and what is shown or used of them is. -/
theorem general_settings_bounded (htop : Longest top) {tasks : ι → Task}
    (hasks : ∀ i, (tasks i).Asks top) {db db' : Values} (hvalid : Valid top db)
    {history : List (ι × Event SettingCalls Values)} {pool : ι → SettingProgram Outcome}
    (hrun : settingConnection.PoolRuns (fun i => (tasks i).run) db history pool db') :
    Valid top db' ∧ (∀ entry ∈ history, Valid top entry.2.world) ∧
      ∀ i outcome, pool i = .ret outcome → (tasks i).Meets top outcome := by
  obtain ⟨hvalid', hobeys⟩ := pool_valid htop hasks hvalid hrun
  refine ⟨hvalid', fun entry hentry => ?_, fun i outcome hend => ?_⟩
  · obtain ⟨before, after, rfl⟩ := List.append_of_mem hentry
    obtain ⟨mid, db₁, next, hbefore, -, hrely⟩ := hrun.split
    exact hrely ▸ (pool_valid htop hasks hvalid hbefore).1
  · have hdone := hobeys i
    rw [hend] at hdone
    exact hdone

/-- Two changes, a check and a page at once. -/
def rivals : Fin 4 → Task
  | 0 => .set (some ⟨90, 0, 0, 0⟩) "1"
  | 1 => .set (some ⟨0, 5, 0, 100⟩) "2"
  | 2 => .checkInterval Scheduler.defaultCheckInterval
  | 3 => .get

/-- The second change loses its connection when it saves the window. -/
def rivalTurns : List (Fin 4 × Option GoError) :=
  [(0, none), (0, none), (1, none), (1, none), (1, none), (0, none), (0, none), (1, none),
    (2, none), (3, none), (1, none), (1, some .contextDone), (0, none), (0, none), (3, none), (0, none),
    (3, none), (3, none), (0, none)]

theorem general_settings_bounded_rivals :
    let run := Machine.replay Values.exec rivalTurns (fun i => (rivals i).run) fun _ => none
    Valid 525600 run.2.2 ∧ (∀ entry ∈ run.1, Valid 525600 entry.2.world) ∧
      ∀ i outcome, run.2.1 i = .ret outcome → (rivals i).Meets 525600 outcome :=
  general_settings_bounded ⟨by decide, by decide⟩ (by simp [Fin.forall_fin_succ, rivals, Task.Asks])
    (by simp [Valid])
    (Machine.replay_runs (M := settingConnection) (fun _ => rfl) (fun _ fault _ => ⟨fault, rfl⟩) _ _ _)

end Doupro.Settings
