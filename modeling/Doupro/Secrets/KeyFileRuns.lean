import Doupro.Secrets.KeyText

/-!
# Starts that share a key file

Only the start that created the file writes to it, and it writes nothing but the text of the key
it drew. So all starts that get a key get the same one, and the file keeps it.
-/

namespace Doupro.Secrets

open Interaction

/-! ### What one start does -/

/-- How far a start got with the file. -/
inductive Stage where
  | start
  | drawn (key : Key)
  | creating (key : Key) (written : Nat)
  | seen (data : Bytes)
  /-- The file was there when it was to be created. -/
  | met

/-- A start writes only to a file it created, and only what is left of the text of its key. -/
def keeper : Contract FileCalls Disk Stage where
  allowed stage op := match stage, op with
    | .creating key n, .write chunk => chunk = (fileText key).drop n
    | .creating _ _, .sync | .creating _ _, .close => True
    | .creating _ _, _ => False
    | .drawn _, .create => True
    | _, .readFile | _, .mkdirAll | _, .random => True
    | _, _ => False
  expects stage e := match stage, e with
    | .met, ⟨_, .readFile, .error .notExist⟩ => False
    | _, _ => True
  next stage e := match stage, e with
    | .creating key n, ⟨_, .write _, .ok m⟩ => .creating key (n + m)
    | .drawn key, ⟨_, .create, .ok ()⟩ => .creating key 0
    | .drawn _, ⟨_, .create, .error .exist⟩ => .met
    | _, ⟨_, .random, .ok key⟩ => .drawn key
    | _, ⟨_, .readFile, .ok data⟩ => .seen data
    | stage, _ => stage

/-- A start knows a key from the file, or has written it there. -/
def Stage.Has (key : Key) : Stage → Prop
  | .seen data => keyOf data = some key
  | .creating own n => own = key ∧ 45 ≤ n
  | _ => False

abbrev Starts {α : Type} (p : FileProgram α) (stage : Stage) (Q : Stage → α → Prop) : Prop :=
  files.obeys keeper p stage Q

theorem write_ok {d d' : Disk} {chunk : Bytes} {n : Nat}
    (h : files.step d (.write chunk) (.ok n) d') : ∃ data, d.file = some data ∧
      d'.file = some (data ++ chunk.take n) ∧ n ≤ chunk.length ∧ (chunk ≠ [] → 1 ≤ n) := by
  obtain ⟨⟨fault, key, written⟩, hexec⟩ := h
  cases fault with
  | some err => cases hexec
  | none =>
    cases hfile : d.file with
    | none => simp [Disk.exec, hfile] at hexec
    | some data =>
      simp only [Disk.exec, hfile, Prod.mk.injEq, Except.ok.injEq] at hexec
      obtain ⟨rfl, rfl⟩ := hexec
      refine ⟨data, rfl, rfl, Nat.min_le_right _ _, fun hchunk => ?_⟩
      have := List.length_pos_iff.mpr hchunk
      omega

theorem write_error {d d' : Disk} {chunk : Bytes} {err : GoError}
    (h : files.step d (.write chunk) (.error err) d') : d'.file = d.file := by
  obtain ⟨⟨fault, key, written⟩, hexec⟩ := h
  cases fault with
  | some fault => rw [← (Prod.mk.inj hexec).2]
  | none =>
    cases hfile : d.file with
    | none =>
      simp only [Disk.exec, hfile, Prod.mk.injEq] at hexec
      rw [← hexec.2, hfile]
    | some data => simp [Disk.exec, hfile] at hexec

/-- All of a text is written, or an error comes of it. -/
theorem writeAll_starts {key : Key} {fuel n : Nat} (hfuel : 45 ≤ fuel + n) :
    Starts (writeAll fuel ((fileText key).drop n)) (.creating key n) fun stage r =>
      ∃ m, stage = .creating key m ∧ (r = .ok () → 45 ≤ m) := by
  induction fuel generalizing n with
  | zero => exact ⟨n, rfl, fun _ => by omega⟩
  | succ fuel ih =>
    unfold writeAll
    split
    · next hempty =>
      have := List.drop_eq_nil_iff.mp hempty
      rw [length_fileText] at this
      exact ⟨n, rfl, fun _ => this⟩
    · next hmore =>
      refine ⟨rfl, fun d r d' hstep _ => ?_⟩
      cases r with
      | error err => exact ⟨n, rfl, fun h => by cases h⟩
      | ok m =>
        obtain ⟨-, -, -, -, hpos⟩ := write_ok hstep
        have := hpos hmore
        change Starts (writeAll fuel (((fileText key).drop n).drop m)) (.creating key (n + m)) _
        rw [List.drop_drop]
        exact ih (by omega)

theorem createKeyFile_starts (key : Key) : Starts (createKeyFile key) (.creating key 0)
    fun stage r => ∃ m, stage = .creating key m ∧ ∀ bytes, r = .ok bytes → bytes = key.val ∧ 45 ≤ m := by
  have hwrite : Starts (writeAll (fileText key).length (fileText key)) (.creating key 0) fun stage r =>
      ∃ m, stage = .creating key m ∧ (r = .ok () → 45 ≤ m) :=
    writeAll_starts (n := 0) (by rw [length_fileText])
  refine Machine.obeys_bind.mpr (Machine.obeys_mono hwrite ?_)
  rintro stage written ⟨m, rfl, hall⟩
  cases written with
  | error err =>
    refine ⟨trivial, fun d closed d' _ _ => ?_⟩
    exact ⟨m, rfl, fun bytes h => by cases closed <;> cases h⟩
  | ok u =>
    refine ⟨trivial, fun d synced d' _ _ => ⟨trivial, fun d closed d' _ _ => ?_⟩⟩
    cases synced with
    | error err => exact ⟨m, rfl, fun bytes h => by cases closed <;> cases h⟩
    | ok u' =>
      cases closed with
      | error err => exact ⟨m, rfl, fun bytes h => by cases h⟩
      | ok u'' => exact ⟨m, rfl, fun bytes h => by cases h; exact ⟨rfl, hall rfl⟩⟩

/-- What a start may end with. -/
def Loaded (stage : Stage) (r : Option (Except GoError Bytes)) : Prop :=
  ∀ bytes key, r = some (.ok bytes) → newCipher bytes = .ok key → stage.Has key

theorem loaded_none (stage : Stage) : Loaded stage none := by
  intro bytes key h
  cases h

theorem loaded_error (stage : Stage) (err : GoError) : Loaded stage (some (.error err)) := by
  intro bytes key h
  cases h

theorem newCipher_toOption {bytes : Bytes} {key : Key} (h : newCipher bytes = .ok key) :
    (newCipher bytes).toOption = some key := by
  rw [h]
  rfl

/-- What follows a successful read. -/
theorem read_starts {path : String} {data : Bytes} :
    Starts (match Base64.decodePadded (trimSpace data) with
      | none => return some (.error (.wrap ("decode encryption key file " ++ path)
          (.external "illegal base64 data")))
      | some key => return some (.ok key)) (.seen data) fun stage r => Loaded stage r ∧ r ≠ none := by
  cases hdecoded : Base64.decodePadded (trimSpace data) with
  | none => exact ⟨loaded_error _ _, by simp⟩
  | some bytes =>
    refine ⟨fun read key h hnew => ?_, by simp⟩
    cases h
    change keyOf data = some key
    rw [keyOf, hdecoded, Option.bind_some, newCipher_toOption hnew]

/-- A start that met the file finds it there. -/
theorem met_starts (path : String) (fuel : Nat) : Starts (loadOrCreateFile path (fuel + 1)) .met
    fun stage r => Loaded stage r ∧ r ≠ none := by
  unfold loadOrCreateFile
  split
  · exact ⟨loaded_error _ _, by simp⟩
  · refine ⟨trivial, fun d r d' _ hexpects => ?_⟩
    match r with
    | .ok data => exact read_starts
    | .error .notExist => exact hexpects.elim
    | .error .exist => exact ⟨loaded_error _ _, by simp⟩
    | .error (.other err) => exact ⟨loaded_error _ _, by simp⟩

theorem loadOrCreateFile_starts (path : String) (fuel : Nat) : Starts (loadOrCreateFile path fuel) .start
    fun stage r => Loaded stage r ∧ (2 ≤ fuel → r ≠ none) := by
  cases fuel with
  | zero => exact ⟨loaded_none _, fun h => absurd h (by decide)⟩
  | succ fuel =>
    have hfailed (stage : Stage) (err : GoError) : Loaded stage (some (.error err)) ∧
        (2 ≤ fuel + 1 → some (Except.error (α := Bytes) err) ≠ none) :=
      ⟨loaded_error _ _, by simp⟩
    unfold loadOrCreateFile
    split
    · exact hfailed _ _
    refine ⟨trivial, fun d r d' _ _ => ?_⟩
    match r with
    | .ok data => exact Machine.obeys_mono read_starts fun stage r h => ⟨h.1, fun _ => h.2⟩
    | .error .exist => exact hfailed _ _
    | .error (.other err) => exact hfailed _ _
    | .error .notExist =>
      refine ⟨trivial, fun d made d' _ _ => ?_⟩
      cases made with
      | error err => exact hfailed _ _
      | ok u =>
        refine ⟨trivial, fun d drawn d' _ _ => ?_⟩
        cases drawn with
        | error err => exact hfailed _ _
        | ok key =>
          refine ⟨trivial, fun d created d' _ _ => ?_⟩
          match created with
          | .error .notExist => exact hfailed _ _
          | .error (.other err) => exact hfailed _ _
          | .error .exist =>
            cases fuel with
            | zero => exact ⟨loaded_none _, fun h => absurd h (by decide)⟩
            | succ fuel =>
              exact Machine.obeys_mono (met_starts path fuel) fun stage r h => ⟨h.1, fun _ => h.2⟩
          | .ok () =>
            change Starts (createKeyFile key >>= fun r => pure (some r)) (.creating key 0) _
            refine Machine.obeys_bind.mpr (Machine.obeys_mono (createKeyFile_starts key) ?_)
            rintro stage r ⟨m, rfl, hdone⟩
            refine ⟨fun bytes found h hnew => ?_, by simp⟩
            obtain ⟨rfl, hall⟩ := hdone bytes (Option.some.inj h)
            rw [newCipher, dif_pos key.property] at hnew
            exact ⟨Except.ok.inj hnew, hall⟩

theorem loadOrCreate_starts (path : String) (fuel : Nat) : Starts (loadOrCreate fuel [] path) .start
    fun stage r => (∀ key, r = some (.ok key) → stage.Has key) ∧ (2 ≤ fuel → r ≠ none) := by
  refine Machine.obeys_bind.mpr (Machine.obeys_mono (loadOrCreateFile_starts path fuel) ?_)
  rintro stage (_ | err | bytes) ⟨hloaded, hanswered⟩
  · exact ⟨fun key h => (nomatch h), fun h => absurd rfl (hanswered h)⟩
  · exact ⟨fun key h => (nomatch h), by simp⟩
  · exact ⟨fun key h => hloaded bytes key rfl (Option.some.inj h), by simp⟩

/-! ### All starts together -/

variable {ι : Type} [DecidableEq ι]

/-- Who may have written the file so far. -/
inductive Written (before : Option Bytes) (file : Option Bytes) (stages : ι → Stage) : Prop
  | untouched (hfile : file = before) (hnone : ∀ i key n, stages i ≠ .creating key n)
  | byOne {creator : ι} {key : Key} {n : Nat} (hbefore : before = none)
    (hcreator : stages creator = .creating key n)
    (hothers : ∀ i, i ≠ creator → ∀ key n, stages i ≠ .creating key n)
    (hfile : file = some ((fileText key).take n))

/-- The file, and what every start knows of it. -/
structure Shared (before : Option Bytes) (file : Option Bytes) (stages : ι → Stage) : Prop where
  written : Written before file stages
  seen : ∀ i data, stages i = .seen data → ∀ key, keyOf data = some key → file.bind keyOf = some key
  met : ∀ i, stages i = .met → file ≠ none

variable {before file : Option Bytes} {stages : ι → Stage}

/-- A start that is not at the file learns something that is true of it. -/
theorem Shared.learn (h : Shared before file stages) {i : ι} {stage : Stage}
    (hold : ∀ key n, stages i ≠ .creating key n) (hnew : ∀ key n, stage ≠ .creating key n)
    (hseen : ∀ data, stage = .seen data → file = some data) (hmet : stage = .met → file ≠ none) :
    Shared before file (Function.update stages i stage) where
  written := by
    cases h.written with
    | untouched hfile hnone =>
      refine .untouched hfile fun j => ?_
      by_cases hj : j = i
      · rw [hj, Function.update_self]
        exact hnew
      · rw [Function.update_of_ne hj]
        exact hnone j
    | @byOne creator key n hbefore hcreator hothers hfile =>
      have hne : creator ≠ i := by
        rintro rfl
        exact hold key n hcreator
      have hstill : Function.update stages i stage creator = .creating key n := by
        rwa [Function.update_of_ne hne]
      refine .byOne hbefore hstill (fun j hj => ?_) hfile
      by_cases hij : j = i
      · rw [hij, Function.update_self]
        exact hnew
      · rw [Function.update_of_ne hij]
        exact hothers j hj
  seen j data hj key hkey := by
    by_cases hij : j = i
    · rw [hij, Function.update_self] at hj
      rw [hseen data hj]
      exact hkey
    · rw [Function.update_of_ne hij] at hj
      exact h.seen j data hj key hkey
  met j hj := by
    by_cases hij : j = i
    · rw [hij, Function.update_self] at hj
      exact hmet hj
    · rw [Function.update_of_ne hij] at hj
      exact h.met j hj

/-- One start is at byte `n` of the file, and what the others have read agrees with it. -/
theorem Shared.ofCreator {i : ι} {key : Key} {n : Nat} (hbefore : before = none)
    (hothers : ∀ j, j ≠ i → ∀ key n, stages j ≠ .creating key n)
    (hseen : ∀ j, j ≠ i → ∀ data, stages j = .seen data → ∀ found, keyOf data = some found →
      keyOf ((fileText key).take n) = some found) :
    Shared before (some ((fileText key).take n)) (Function.update stages i (.creating key n)) := by
  have hcreator : Function.update stages i (.creating key n) i = .creating key n :=
    Function.update_self ..
  refine ⟨.byOne hbefore hcreator (fun j hj => ?_) rfl, fun j data hj found hfound => ?_,
    fun j _ => by simp⟩
  · rw [Function.update_of_ne hj]
    exact hothers j hj
  · by_cases hij : j = i
    · rw [hij, Function.update_self] at hj
      cases hj
    · rw [Function.update_of_ne hij] at hj
      rw [Option.bind_some]
      exact hseen j hij data hj found hfound

/-- A start creates the file. -/
theorem Shared.create (h : Shared before none stages) {i : ι} (key : Key) :
    Shared before (some []) (Function.update stages i (.creating key 0)) := by
  obtain ⟨hbefore, hnone⟩ : before = none ∧ ∀ i key n, stages i ≠ .creating key n := by
    cases h.written with
    | untouched hfile hnone => exact ⟨hfile.symm, hnone⟩
    | byOne _ _ _ hfile => cases hfile
  have hempty : (fileText key).take 0 = [] := List.take_zero
  rw [← hempty]
  refine .ofCreator hbefore (fun j _ => hnone j) fun j _ data hj found hfound => ?_
  -- Nobody has read a file that was not there.
  cases h.seen j data hj found hfound

/-- The start that created the file writes more of it. -/
theorem Shared.write {key : Key} {n m : Nat} {i : ι} {data : Bytes}
    (h : Shared before (some data) stages) (hi : stages i = .creating key n) :
    Shared before (some (data ++ ((fileText key).drop n).take m))
      (Function.update stages i (.creating key (n + m))) := by
  obtain ⟨hbefore, hothers, rfl⟩ : before = none ∧
      (∀ j, j ≠ i → ∀ key n, stages j ≠ .creating key n) ∧ data = (fileText key).take n := by
    cases h.written with
    | untouched _ hnone => exact absurd hi (hnone i key n)
    | @byOne creator own k hbefore hcreator hothers hfile =>
      by_cases hcreated : i = creator
      · subst hcreated
        rw [hi] at hcreator
        cases hcreator
        exact ⟨hbefore, hothers, Option.some.inj hfile⟩
      · exact absurd hi (hothers i hcreated key n)
  have hmore : (fileText key).take n ++ ((fileText key).drop n).take m =
      (fileText key).take (n + m) := (List.take_add ..).symm
  rw [hmore]
  refine .ofCreator hbefore hothers fun j _ read hj found hfound => ?_
  have hheld := h.seen j read hj found hfound
  rw [Option.bind_some, keyOf_take_iff] at hheld
  rw [keyOf_take_iff]
  exact ⟨by omega, hheld.2⟩

/-- What the calls that leave the file as it is tell of it. -/
theorem exec_file {d d' : Disk} {op : FileCall} {r : op.Reply} (h : files.step d op r d')
    (hcreate : op ≠ .create) (hwrite : ∀ chunk, op ≠ .write chunk) : d'.file = d.file := by
  obtain ⟨share, hexec⟩ := h
  cases op with
  | create => exact absurd rfl hcreate
  | write chunk => exact absurd rfl (hwrite chunk)
  | mkdirAll =>
    simp only [Disk.exec] at hexec
    split at hexec <;> rw [← (Prod.mk.inj hexec).2]
  | readFile => rw [← (Prod.mk.inj hexec).2]
  | random => rw [← (Prod.mk.inj hexec).2]
  | sync => rw [← (Prod.mk.inj hexec).2]
  | close => rw [← (Prod.mk.inj hexec).2]

theorem read_tells {d d' : Disk} {r : Except FileError Bytes} (h : files.step d .readFile r d') :
    (∀ data, r = .ok data → d.file = some data) ∧ (r = .error .notExist → d.file = none) := by
  obtain ⟨⟨fault, key, written⟩, hexec⟩ := h
  obtain ⟨rfl, -⟩ := Prod.mk.inj hexec
  cases fault with
  | some err => exact ⟨fun data h => (nomatch h), fun h => (nomatch h)⟩
  | none => cases d.file with
    | none => exact ⟨fun data h => (nomatch h), fun _ => rfl⟩
    | some found => exact ⟨fun data h => congrArg some (Except.ok.inj h), fun h => (nomatch h)⟩

theorem create_tells {d d' : Disk} {r : Except FileError Unit} (h : files.step d .create r d') :
    (r = .ok () ∧ d.file = none ∧ d'.file = some []) ∨
      (∃ err, r = .error err) ∧ d' = d ∧ (r = .error .exist → d.file ≠ none) := by
  obtain ⟨⟨fault, key, written⟩, hexec⟩ := h
  cases fault with
  | some err =>
    obtain ⟨rfl, rfl⟩ := Prod.mk.inj hexec
    exact .inr ⟨⟨_, rfl⟩, rfl, fun h => (nomatch h)⟩
  | none =>
    cases hfile : d.file with
    | some data =>
      simp only [Disk.exec, hfile, Prod.mk.injEq] at hexec
      obtain ⟨rfl, rfl⟩ := hexec
      exact .inr ⟨⟨_, rfl⟩, rfl, fun _ => by simp⟩
    | none =>
      simp only [Disk.exec, hfile] at hexec
      split at hexec
      · obtain ⟨rfl, rfl⟩ := Prod.mk.inj hexec
        exact .inl ⟨rfl, rfl, rfl⟩
      · obtain ⟨rfl, rfl⟩ := Prod.mk.inj hexec
        exact .inr ⟨⟨_, rfl⟩, rfl, fun h => (nomatch h)⟩

/-- A call that its start may make keeps what every start knows of the file. -/
theorem shared_step {d d' : Disk} {i : ι} {op : FileCall} {r : op.Reply}
    (h : Shared before d.file stages) (hstep : files.step d op r d')
    (hallowed : keeper.allowed (stages i) op) :
    keeper.expects (stages i) ⟨d, op, r⟩ ∧
      Shared before d'.file (Function.update stages i (keeper.next (stages i) ⟨d, op, r⟩)) := by
  -- Most calls change neither the file nor what the start knows.
  have hkept (hnext : keeper.next (stages i) ⟨d, op, r⟩ = stages i) (hfile : d'.file = d.file) :
      Shared before d'.file (Function.update stages i (keeper.next (stages i) ⟨d, op, r⟩)) := by
    rw [hnext, hfile, Function.update_eq_self]
    exact h
  cases op with
  | readFile =>
    have hfile := exec_file hstep (by simp) (by simp)
    obtain ⟨hread, habsent⟩ := read_tells hstep
    have hold : ∀ key n, stages i ≠ .creating key n := by
      intro key n hstage
      rw [hstage] at hallowed
      exact hallowed
    cases r with
    | ok data =>
      have hnext : keeper.next (stages i) ⟨d, .readFile, .ok data⟩ = .seen data := by
        cases stages i <;> rfl
      refine ⟨by cases stages i <;> trivial, ?_⟩
      rw [hnext, hfile]
      exact h.learn hold (by simp) (fun read hsame => by cases hsame; exact hread data rfl) (by simp)
    | error err =>
      refine ⟨?_, hkept (by cases stages i <;> rfl) hfile⟩
      cases hstage : stages i with
      | met => cases err with
        | notExist => exact h.met i hstage (habsent rfl)
        | exist => trivial
        | other err => trivial
      | _ => trivial
  | mkdirAll =>
    exact ⟨by cases stages i <;> trivial,
      hkept (by cases stages i <;> rfl) (exec_file hstep (by simp) (by simp))⟩
  | random =>
    have hfile := exec_file hstep (by simp) (by simp)
    have hold : ∀ key n, stages i ≠ .creating key n := by
      intro key n hstage
      rw [hstage] at hallowed
      exact hallowed
    refine ⟨by cases stages i <;> trivial, ?_⟩
    cases r with
    | ok key =>
      have hnext : keeper.next (stages i) ⟨d, .random, .ok key⟩ = .drawn key := by
        cases stages i <;> rfl
      rw [hnext, hfile]
      exact h.learn hold (by simp) (by simp) (by simp)
    | error err => exact hkept (by cases stages i <;> rfl) hfile
  | create =>
    cases hstage : stages i with
    | drawn key =>
      refine ⟨trivial, ?_⟩
      obtain ⟨rfl, hnone, hfile⟩ | ⟨⟨err, rfl⟩, rfl, hmet⟩ := create_tells hstep
      · rw [hfile]
        rw [hnone] at h
        exact h.create key
      · rw [hstage] at hkept
        cases err with
        | exist =>
          have hold : ∀ key n, stages i ≠ .creating key n := by simp [hstage]
          change Shared before d'.file (Function.update stages i .met)
          exact h.learn hold (by simp) (by simp) (fun _ => hmet rfl)
        | notExist => exact hkept rfl rfl
        | other err => exact hkept rfl rfl
    | _ =>
      rw [hstage] at hallowed
      exact hallowed.elim
  | write chunk =>
    cases hstage : stages i with
    | creating key n =>
      rw [hstage] at hallowed
      obtain rfl : chunk = (fileText key).drop n := hallowed
      refine ⟨trivial, ?_⟩
      cases r with
      | ok m =>
        obtain ⟨data, hdata, hfile, -, -⟩ := write_ok hstep
        rw [hfile]
        rw [hdata] at h
        exact h.write hstage
      | error err =>
        rw [hstage] at hkept
        exact hkept rfl (write_error hstep)
    | _ =>
      rw [hstage] at hallowed
      exact hallowed.elim
  | sync =>
    exact ⟨by cases stages i <;> trivial,
      hkept (by cases stages i <;> rfl) (exec_file hstep (by simp) (by simp))⟩
  | close =>
    exact ⟨by cases stages i <;> trivial,
      hkept (by cases stages i <;> rfl) (exec_file hstep (by simp) (by simp))⟩

/-- However starts interleave, fail or are killed, every one that gets a key gets the one that is in
the file. A file that was there is left alone, and a new one holds nothing but a part of the text
of one key. A start that may look twice ends with an answer. -/
theorem key_file_agrees {fuel : ι → Nat} {path : String} {d d' : Disk}
    {history : List (ι × Event FileCalls Disk)} {pool : ι → FileProgram (Option (Except GoError Key))}
    (h : files.PoolRuns (fun i => loadOrCreate (fuel i) [] path) d history pool d') :
    (∀ i key, pool i = .ret (some (.ok key)) → d'.file.bind keyOf = some key) ∧
      (d'.file = d.file ∨ d.file = none ∧ ∃ key n, d'.file = some ((fileText key).take n)) ∧
      ∀ i, 2 ≤ fuel i → pool i ≠ .ret none := by
  obtain ⟨stages, hshared, hobeys⟩ := h.contracts (C := fun _ => keeper) (k := fun _ => .start)
    (Q := fun i stage r => (∀ key, r = some (.ok key) → stage.Has key) ∧ (2 ≤ fuel i → r ≠ none))
    (A := fun _ _ => True) (J := fun now stages _ => Shared d.file now.file stages)
    (fun i op r hshared hrely hstep _ hallowed => by
      obtain rfl : _ = _ := hrely
      exact shared_step hshared hstep hallowed)
    (Machine.throughout_trivial [] _) (fun i => loadOrCreate_starts path (fuel i))
    ⟨.untouched rfl (by simp), by simp, by simp⟩
  refine ⟨fun i key hend => ?_, ?_, fun i hfuel hend => ?_⟩
  · have hdone := hobeys i
    rw [hend] at hdone
    have hkey : (stages i).Has key := hdone.1 key rfl
    cases hstage : stages i with
    | seen data =>
      rw [hstage] at hkey
      exact hshared.seen i data hstage key hkey
    | creating own n =>
      rw [hstage] at hkey
      obtain ⟨rfl, hall⟩ := hkey
      cases hshared.written with
      | untouched _ hnone => exact absurd hstage (hnone i own n)
      | @byOne creator key m _ hcreator hothers hfile =>
        by_cases hi : i = creator
        · subst hi
          rw [hstage] at hcreator
          cases hcreator
          rw [hfile, Option.bind_some]
          exact keyOf_take (by omega)
        · exact absurd hstage (hothers i hi own n)
    | _ =>
      rw [hstage] at hkey
      exact hkey.elim
  · cases hshared.written with
    | untouched hfile _ => exact .inl hfile
    | byOne hbefore _ _ hfile => exact .inr ⟨hbefore, _, _, hfile⟩
  · have hdone := hobeys i
    rw [hend] at hdone
    exact hdone.2 hfuel rfl

/-- Two keys that could be drawn. -/
def drawnKeys : Bool → Key := fun b => ⟨List.replicate 32 (if b then 7 else 1), by cases b <;> rfl⟩

/-- Two starts that find no file, and one that comes while the first of them is writing. -/
inductive Racer where
  | first
  | second
  | late
  deriving DecidableEq

def racingTurns : List (Racer × Share) :=
  [(.first, {}), (.second, {}), (.first, {}), (.second, {}), (.first, { key := drawnKeys true }),
    (.second, { key := drawnKeys false }), (.first, {}), (.first, { written := 20 }), (.late, {}),
    (.second, {}), (.first, { written := 45 }), (.second, {}), (.first, {}), (.first, {})]

def racingRun := Machine.replay Disk.exec racingTurns
  (fun _ : Racer => loadOrCreate 2 [] "/data/secret.key") ⟨false, none⟩

/-- The second start gets the key of the first one. -/
example : (racingRun.2.1 .second).returned = some (some (.ok (drawnKeys true))) := by rfl

theorem racingRun_runs : files.PoolRuns (fun _ : Racer => loadOrCreate 2 [] "/data/secret.key")
    ⟨false, none⟩ racingRun.1 racingRun.2.1 racingRun.2.2 :=
  Machine.replay_runs (M := files) (fun _ => rfl) (fun _ share _ => ⟨share, rfl⟩) _ _ _

theorem key_file_agrees_race :
    (∀ i key, racingRun.2.1 i = .ret (some (.ok key)) → racingRun.2.2.file.bind keyOf = some key) ∧
      (racingRun.2.2.file = (Disk.mk false none).file ∨ (Disk.mk false none).file = none ∧
        ∃ key n, racingRun.2.2.file = some ((fileText key).take n)) ∧
      ∀ i, 2 ≤ 2 → racingRun.2.1 i ≠ .ret none :=
  key_file_agrees racingRun_runs

end Doupro.Secrets
