import Mathlib.Algebra.Ring.Nat
import Mathlib.Data.List.Infix
import Mathlib.Data.List.TakeWhile

/-!
# LIKE

Patterns with the two wildcards of SQL, over any alphabet, and the operator of SQLite, which
compares letters of ASCII without their case.
-/

namespace Doupro.Sql

/-- What a pattern asks for next. -/
inductive Part (α : Type) where
  /-- `%`: any run of characters. -/
  | run
  /-- `_`: any one character. -/
  | one
  | literal (c : α)
  deriving DecidableEq

section Matching

variable {α β : Type} (same : α → α → Bool)

/-- Whether a text matches a pattern. A run is tried with every end it may have. -/
def matchParts : List (Part α) → List α → Bool
  | [], s => s.isEmpty
  | .run :: parts, s => s.tails.any (matchParts parts)
  | .one :: parts, s => match s with
    | [] => false
    | _ :: rest => matchParts parts rest
  | .literal c :: parts, s => match s with
    | [] => false
    | d :: rest => same c d && matchParts parts rest

variable {same}

theorem matchParts_nil {s : List α} : matchParts same [] s = true ↔ s = [] := List.isEmpty_iff

theorem matchParts_run {parts : List (Part α)} {s : List α} :
    matchParts same (.run :: parts) s = true ↔
      ∃ first rest, s = first ++ rest ∧ matchParts same parts rest = true := by
  rw [matchParts, List.any_eq_true]
  constructor
  · rintro ⟨rest, hrest, hmatch⟩
    obtain ⟨first, rfl⟩ := (List.mem_tails _ _).mp hrest
    exact ⟨first, rest, rfl, hmatch⟩
  · rintro ⟨first, rest, rfl, hmatch⟩
    exact ⟨rest, (List.mem_tails _ _).mpr (List.suffix_append first rest), hmatch⟩

theorem matchParts_one {parts : List (Part α)} {s : List α} :
    matchParts same (.one :: parts) s = true ↔
      ∃ c rest, s = c :: rest ∧ matchParts same parts rest = true := by
  cases s with
  | nil => simp [matchParts]
  | cons d rest => simp [matchParts]

theorem matchParts_literal {c : α} {parts : List (Part α)} {s : List α} :
    matchParts same (.literal c :: parts) s = true ↔
      ∃ d rest, s = d :: rest ∧ same c d = true ∧ matchParts same parts rest = true := by
  cases s with
  | nil => simp [matchParts]
  | cons d rest => simp [matchParts]

/-- One pattern after another matches one match after another. -/
theorem matchParts_append {first rest : List (Part α)} {s : List α} :
    matchParts same (first ++ rest) s = true ↔
      ∃ before behind, s = before ++ behind ∧ matchParts same first before = true ∧
        matchParts same rest behind = true := by
  induction first generalizing s with
  | nil =>
    constructor
    · intro h
      exact ⟨[], s, rfl, rfl, h⟩
    · rintro ⟨before, behind, rfl, hbefore, h⟩
      rw [matchParts_nil.mp hbefore]
      exact h
  | cons part first ih =>
    cases part with
    | run =>
      rw [List.cons_append, matchParts_run]
      constructor
      · rintro ⟨skipped, more, rfl, hmore⟩
        obtain ⟨before, behind, rfl, hbefore, hbehind⟩ := ih.mp hmore
        exact ⟨skipped ++ before, behind, (List.append_assoc _ _ _).symm,
          matchParts_run.mpr ⟨skipped, before, rfl, hbefore⟩, hbehind⟩
      · rintro ⟨before, behind, rfl, hbefore, hbehind⟩
        obtain ⟨skipped, more, rfl, hmore⟩ := matchParts_run.mp hbefore
        exact ⟨skipped, more ++ behind, List.append_assoc _ _ _,
          ih.mpr ⟨more, behind, rfl, hmore, hbehind⟩⟩
    | one =>
      rw [List.cons_append, matchParts_one]
      constructor
      · rintro ⟨c, more, rfl, hmore⟩
        obtain ⟨before, behind, rfl, hbefore, hbehind⟩ := ih.mp hmore
        exact ⟨c :: before, behind, rfl, matchParts_one.mpr ⟨c, before, rfl, hbefore⟩, hbehind⟩
      · rintro ⟨before, behind, rfl, hbefore, hbehind⟩
        obtain ⟨c, more, rfl, hmore⟩ := matchParts_one.mp hbefore
        exact ⟨c, more ++ behind, rfl, ih.mpr ⟨more, behind, rfl, hmore, hbehind⟩⟩
    | literal c =>
      rw [List.cons_append, matchParts_literal]
      constructor
      · rintro ⟨d, more, rfl, hsame, hmore⟩
        obtain ⟨before, behind, rfl, hbefore, hbehind⟩ := ih.mp hmore
        exact ⟨d :: before, behind, rfl, matchParts_literal.mpr ⟨d, before, rfl, hsame, hbefore⟩,
          hbehind⟩
      · rintro ⟨before, behind, rfl, hbefore, hbehind⟩
        obtain ⟨d, more, rfl, hsame, hmore⟩ := matchParts_literal.mp hbefore
        exact ⟨d, more ++ behind, rfl, hsame, ih.mpr ⟨more, behind, rfl, hmore, hbehind⟩⟩

/-- A run alone matches everything. -/
theorem matchParts_run_nil (s : List α) : matchParts same [.run] s = true :=
  matchParts_run.mpr ⟨s, [], (List.append_nil s).symm, rfl⟩

/-! ### Literal patterns -/

variable [DecidableEq β] {fold : α → β}

/-- Literals match the texts that are the same character by character. -/
theorem matchParts_literals {cs s : List α} :
    matchParts (fun c d => decide (fold c = fold d)) (cs.map .literal) s = true ↔
      cs.map fold = s.map fold := by
  induction cs generalizing s with
  | nil =>
    rw [List.map_nil, matchParts_nil, List.map_nil, ← List.map_eq_nil_iff (f := fold)]
    exact eq_comm
  | cons c cs ih =>
    rw [List.map_cons, matchParts_literal]
    constructor
    · rintro ⟨d, rest, rfl, hsame, hrest⟩
      rw [List.map_cons, List.map_cons, of_decide_eq_true hsame, ih.mp hrest]
    · intro h
      cases s with
      | nil => cases h
      | cons d rest =>
        rw [List.map_cons, List.map_cons, List.cons.injEq] at h
        exact ⟨d, rest, rfl, decide_eq_true h.1, ih.mpr h.2⟩

/-- Literals after a run match the texts that end in them. -/
theorem matchParts_run_literals {cs s : List α} :
    matchParts (fun c d => decide (fold c = fold d)) (.run :: cs.map .literal) s = true ↔
      cs.map fold <:+ s.map fold := by
  rw [matchParts_run, List.suffix_map_iff]
  constructor
  · rintro ⟨first, rest, rfl, hrest⟩
    exact ⟨rest, List.suffix_append first rest, matchParts_literals.mp hrest⟩
  · rintro ⟨rest, ⟨first, rfl⟩, hrest⟩
    exact ⟨first, rest, rfl, matchParts_literals.mpr hrest⟩

/-- Literals between two runs match the texts that contain them. -/
theorem matchParts_run_literals_run {cs s : List α} :
    matchParts (fun c d => decide (fold c = fold d)) (.run :: (cs.map .literal ++ [.run])) s = true ↔
      cs.map fold <:+: s.map fold := by
  rw [matchParts_run, List.infix_map_iff]
  constructor
  · rintro ⟨first, rest, rfl, hrest⟩
    obtain ⟨middle, last, rfl, hmiddle, -⟩ := matchParts_append.mp hrest
    exact ⟨middle, ⟨first, last, List.append_assoc _ _ _⟩, matchParts_literals.mp hmiddle⟩
  · rintro ⟨middle, ⟨first, last, rfl⟩, hmiddle⟩
    refine ⟨first, middle ++ last, List.append_assoc _ _ _, matchParts_append.mpr ?_⟩
    exact ⟨middle, last, rfl, matchParts_literals.mpr hmiddle, matchParts_run_nil last⟩

end Matching

/-! ### SQLite -/

/-- The parts of a pattern, unless it ends in the escape character. -/
def readPattern (escape : Char) : List Char → Option (List (Part Char))
  | [] => some []
  | c :: rest =>
    if c = '%' then (readPattern escape rest).map (.run :: ·)
    else if c = escape then match rest with
      | [] => none
      | d :: rest => (readPattern escape rest).map (.literal d :: ·)
    else if c = '_' then (readPattern escape rest).map (.one :: ·)
    else (readPattern escape rest).map (.literal c :: ·)

def nul : Char := Char.ofNat 0

/-- `sqlite3_value_text`, as it is read: a text ends at its first NUL. -/
def cString (s : List Char) : List Char := s.takeWhile (· ≠ nul)

/-- `sqlite3Utf8Read`: the two noncharacters at the end of the first plane are read as U+FFFD. -/
def utf8Read (c : Char) : Char :=
  if c.toNat = 0xFFFE ∨ c.toNat = 0xFFFF then Char.ofNat 0xFFFD else c

/-- `sqlite3Tolower`. -/
def tolower (c : Char) : Char :=
  if 'A' ≤ c ∧ c ≤ 'Z' then Char.ofNat (c.toNat + 32) else c

/-- What of a character the operator compares. -/
def compared (c : Char) : Char := tolower (utf8Read c)

/-- `SQLITE_MAX_LIKE_PATTERN_LENGTH`, in bytes. -/
def maxLikePatternLength : Nat := 50000

/-- `sqlite3_value_bytes`. -/
def valueBytes (s : List Char) : Nat := (s.map Char.utf8Size).sum

/-- `value LIKE pattern ESCAPE escape`. -/
def like (escape : Char) (pattern value : List Char) : Except String Bool :=
  if maxLikePatternLength < valueBytes pattern then
    .error "LIKE or GLOB pattern too complex"
  else .ok (match readPattern escape (cString pattern) with
    | none => false
    | some parts => matchParts (fun c d => compared c = compared d) parts (cString value))

variable {escape : Char}

theorem readPattern_run (rest : List Char) :
    readPattern escape ('%' :: rest) = (readPattern escape rest).map (.run :: ·) := by
  rw [readPattern.eq_def]
  exact if_pos rfl

/-- After the escape character every character stands for itself. -/
theorem readPattern_escape (hescape : escape ≠ '%') (c : Char) (rest : List Char) :
    readPattern escape (escape :: c :: rest) = (readPattern escape rest).map (.literal c :: ·) := by
  rw [readPattern.eq_def]
  simp [hescape]

theorem readPattern_literal {c : Char} (hrun : c ≠ '%') (hescape : c ≠ escape) (hone : c ≠ '_')
    (rest : List Char) :
    readPattern escape (c :: rest) = (readPattern escape rest).map (.literal c :: ·) := by
  rw [readPattern.eq_def]
  simp [hrun, hescape, hone]

theorem cString_eq_self {s : List Char} (h : nul ∉ s) : cString s = s := by
  rw [cString, List.takeWhile_eq_self_iff]
  intro c hc
  rw [decide_eq_true_eq]
  rintro rfl
  exact h hc

theorem cString_append {s : List Char} (h : nul ∉ s) (rest : List Char) :
    cString (s ++ rest) = s ++ cString rest := by
  refine List.takeWhile_append_of_pos fun c hc => ?_
  rw [decide_eq_true_eq]
  rintro rfl
  exact h hc

/-- A text with a NUL is read up to it. -/
theorem cString_append_nul {s : List Char} (h : nul ∉ s) (rest : List Char) :
    cString (s ++ nul :: rest) = s := by
  rw [cString_append h]
  simp [cString]

end Doupro.Sql
