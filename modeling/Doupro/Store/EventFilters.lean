import Doupro.Events.Logger
import Doupro.Go.Url
import Doupro.Sql.Like

/-!
# Filters of the event log

`Store.ListEvents` finds the texts of a filter in the type and the container of an event with
LIKE. The characters that mean something there are escaped, so they stand for themselves.
-/

namespace Doupro.Store

open Sql

/-- `store.EventFilter`. -/
structure EventFilter where
  eventType : Text := []
  container : Text := []
  level : Text := []
  limit : Int := 0

def defaultLogsPageSize : Int := 300
def maxLogsPageSize : Int := 1000

/-- What the replacer of `escapeLike` puts for a character. -/
def escapeRune (c : Char) : Text :=
  if c = '\\' then ['\\', '\\']
  else if c = '%' then ['\\', '%']
  else if c = '_' then ['\\', '_']
  else [c]

/-- `escapeLike`. -/
def escapeLike (s : Text) : Text := s.flatMap escapeRune

/-- The argument that is bound to a LIKE of the query. -/
def likePattern (text : Text) : Text := '%' :: (escapeLike text ++ ['%'])

/-- `value LIKE ? ESCAPE '\'`. -/
def likeTest (text value : Text) : Except String Bool := like '\\' (likePattern text) value

/-- A condition that is added to the query if the filter has a text for it. -/
def condition (text : Text) (test : Except String Bool) : Except String Bool :=
  if text = [] then .ok true else test

/-- The `WHERE` clause. -/
def EventFilter.accepts (f : EventFilter) (e : EventRow) : Except String Bool := do
  if ← condition f.eventType (likeTest f.eventType e.event.toList) then
    if ← condition f.container (likeTest f.container e.container.toList) then
      condition f.level (.ok (f.level = e.level.toList))
    else return false
  else return false

/-- The `LIMIT`. -/
def EventFilter.pageSize (f : EventFilter) : Nat :=
  let limit := if f.limit ≤ 0 then defaultLogsPageSize else f.limit
  (if maxLogsPageSize < limit then maxLogsPageSize else limit).toNat

/-- The first rows that a condition accepts, out of the rows in the order they are visited. A
condition that fails ends the query. -/
def selectRows {ρ : Type} (accepts : ρ → Except String Bool) :
    (limit : Nat) → List ρ → Except String (List ρ)
  | 0, _ => .ok []
  | _ + 1, [] => .ok []
  | limit + 1, r :: rows => do
    if ← accepts r then return r :: (← selectRows accepts limit rows)
    else selectRows accepts (limit + 1) rows

/-- `Store.ListEvents`, over the rows of `events` in the order of their ids, unless the query fails
otherwise. What is decoded from the columns is left out. -/
def listEvents (fault : Option GoError) (f : EventFilter) (rows : List (Nat × EventRow)) :
    Except GoError (List (Nat × EventRow)) :=
  match fault with
  | some err => .error (.wrap "list events" err)
  | none => match selectRows (fun r => f.accepts r.2) f.pageSize rows.reverse with
    | .error text => .error (.wrap "list events" (.external text))
    | .ok records => .ok records

/-! ### The escaped text -/

theorem escapeLike_cons (c : Char) (s : Text) :
    escapeLike (c :: s) = escapeRune c ++ escapeLike s :=
  rfl

theorem escapeLike_append (s t : Text) : escapeLike (s ++ t) = escapeLike s ++ escapeLike t :=
  List.flatMap_append

/-- Escaping adds backslashes and nothing else. -/
theorem mem_escapeLike {c : Char} (hc : c ≠ '\\') {s : Text} : c ∈ escapeLike s ↔ c ∈ s := by
  induction s with
  | nil => rfl
  | cons d s ih =>
    rw [escapeLike_cons, List.mem_append, List.mem_cons, ih]
    refine or_congr ?_ Iff.rfl
    unfold escapeRune
    split_ifs with h
    · simp [h, hc]
    · next h => simp [h, hc]
    · next h => simp [h, hc]
    · exact List.mem_singleton

/-- The escape character makes a literal of every character of the text. -/
theorem readPattern_escapeLike (text rest : Text) : readPattern '\\' (escapeLike text ++ rest) =
    (readPattern '\\' rest).map (text.map Part.literal ++ ·) := by
  induction text with
  | nil => simp [escapeLike]
  | cons c text ih =>
    have hrune : readPattern '\\' (escapeRune c ++ (escapeLike text ++ rest)) =
        (readPattern '\\' (escapeLike text ++ rest)).map (.literal c :: ·) := by
      unfold escapeRune
      split_ifs with hescape hrun hone
      · rw [hescape]
        exact readPattern_escape (by decide) _ _
      · rw [hrun]
        exact readPattern_escape (by decide) _ _
      · rw [hone]
        exact readPattern_escape (by decide) _ _
      · exact readPattern_literal hrun hescape hone _
    rw [escapeLike_cons, List.append_assoc, hrune, ih, Option.map_map]
    rfl

/-! ### What the test tells -/

/-- The limit on a pattern is one on its text. -/
def Short (text : Text) : Prop :=
  valueBytes (likePattern text) ≤ maxLikePatternLength

instance (text : Text) : Decidable (Short text) := inferInstanceAs (Decidable (_ ≤ _))

theorem nul_ne_backslash : nul ≠ '\\' := by decide

/-- A text without a NUL is found wherever it stands in what is read of the value. -/
theorem likeTest_eq {text : Text} (h : nul ∉ text) (hshort : Short text) (value : Text) :
    likeTest text value = .ok (decide (text.map compared <:+: (cString value).map compared)) := by
  have hpattern : nul ∉ likePattern text := by
    have hescaped : nul ∉ escapeLike text := fun hmem =>
      h ((mem_escapeLike nul_ne_backslash).mp hmem)
    have hpercent : nul ≠ '%' := by decide
    simp [likePattern, hescaped, hpercent]
  have hread : readPattern '\\' (likePattern text) =
      some (.run :: (text.map .literal ++ [.run])) := by
    rw [likePattern, readPattern_run, readPattern_escapeLike, readPattern_run]
    rfl
  rw [likeTest, like, if_neg (not_lt.mpr hshort), cString_eq_self hpattern, hread]
  refine congrArg Except.ok (Bool.eq_iff_iff.mpr ?_)
  rw [decide_eq_true_eq]
  exact matchParts_run_literals_run

/-- A NUL ends the pattern, and with it the run at its end: what is before it is found only
at the end of the value. -/
theorem likeTest_nul {text : Text} (h : nul ∉ text) {rest : Text}
    (hshort : Short (text ++ nul :: rest))
    (value : Text) : likeTest (text ++ nul :: rest) value =
      .ok (decide (text.map compared <:+ (cString value).map compared)) := by
  have hpattern : cString (likePattern (text ++ nul :: rest)) = '%' :: escapeLike text := by
    have hescaped : nul ∉ '%' :: escapeLike text := by
      have hescaped : nul ∉ escapeLike text :=
        fun hmem => h ((mem_escapeLike nul_ne_backslash).mp hmem)
      have hpercent : nul ≠ '%' := by decide
      simp [hescaped, hpercent]
    have hnul : escapeRune nul = [nul] := by decide
    rw [likePattern, escapeLike_append, escapeLike_cons, hnul, List.append_assoc,
      ← List.cons_append]
    exact cString_append_nul hescaped _
  have hread : readPattern '\\' ('%' :: escapeLike text) = some (.run :: text.map .literal) := by
    have htext := readPattern_escapeLike text []
    rw [List.append_nil] at htext
    rw [readPattern_run, htext]
    simp [readPattern]
  rw [likeTest, like, if_neg (not_lt.mpr hshort), hpattern, hread]
  refine congrArg Except.ok (Bool.eq_iff_iff.mpr ?_)
  rw [decide_eq_true_eq]
  exact matchParts_run_literals

/-- The characters that LIKE reads as they are: all but NUL, U+FFFE and U+FFFF. -/
def Readable (s : Text) : Prop := ∀ c ∈ s, c ≠ nul ∧ utf8Read c = c

instance (s : Text) : Decidable (Readable s) :=
  List.decidableBAll (fun c => c ≠ nul ∧ utf8Read c = c) s

theorem Readable.nul_notMem {s : Text} (h : Readable s) : nul ∉ s := fun hmem => (h nul hmem).1 rfl

theorem Readable.map_compared {s : Text} (h : Readable s) : s.map compared = s.map tolower := by
  refine List.map_congr_left fun c hc => ?_
  rw [compared, (h c hc).2]

example : likeTest "unifi_os".toList "unifi-os-server".toList = .ok false := by
  decide +kernel

theorem selectRows_eq {ρ : Type} {accepts : ρ → Except String Bool} {shown : ρ → Bool}
    {rows : List ρ}
    (h : ∀ r ∈ rows, accepts r = .ok (shown r)) (limit : Nat) :
    selectRows accepts limit rows = .ok ((rows.filter shown).take limit) := by
  induction rows generalizing limit with
  | nil => cases limit <;> simp [selectRows]
  | cons r rows ih =>
    have hrest := ih fun r hr => h r (List.mem_cons_of_mem _ hr)
    cases limit with
    | zero => simp [selectRows]
    | succ limit =>
      rw [selectRows, h r List.mem_cons_self, List.filter_cons]
      by_cases hshown : shown r = true
      · rw [if_pos hshown, List.take_succ_cons, hshown]
        change (selectRows accepts limit rows).map (r :: ·) = _
        rw [hrest]
        rfl
      · rw [if_neg hshown, Bool.eq_false_iff.mpr hshown]
        exact hrest (limit + 1)

/-- The events a filter is about: its texts stand in theirs, up to the case of ASCII letters. -/
def EventFilter.shows (f : EventFilter) (e : EventRow) : Bool :=
  f.eventType.map tolower <:+: e.event.toList.map tolower ∧
    f.container.map tolower <:+: e.container.toList.map tolower ∧
    (f.level = [] ∨ f.level = e.level.toList)

theorem condition_likeTest {text value : Text} (htext : Readable text) (hvalue : Readable value)
    (hshort : Short text) : condition text (likeTest text value) =
      .ok (decide (text.map tolower <:+: value.map tolower)) := by
  unfold condition
  split_ifs with hnil
  · simp [hnil]
  · rw [likeTest_eq htext.nul_notMem hshort value, cString_eq_self hvalue.nul_notMem,
      htext.map_compared, hvalue.map_compared]

/-- `ListEvents` returns the newest of the events its filter is about, the newest first. -/
theorem listEvents_eq {f : EventFilter} (htype : Readable f.eventType ∧ Short f.eventType)
    (hcontainer : Readable f.container ∧ Short f.container) {rows : List (Nat × EventRow)}
    (hrows : ∀ r ∈ rows, Readable r.2.event.toList ∧ Readable r.2.container.toList) :
    listEvents none f rows = .ok ((rows.reverse.filter fun r => f.shows r.2).take f.pageSize) := by
  have haccepts : ∀ r ∈ rows.reverse, f.accepts r.2 = .ok (f.shows r.2) := by
    intro r hr
    obtain ⟨hevent, hname⟩ := hrows r (List.mem_reverse.mp hr)
    have hlevel : condition f.level (.ok (decide (f.level = r.2.level.toList))) =
        .ok (decide (f.level = [] ∨ f.level = r.2.level.toList)) := by
      unfold condition
      split_ifs with hnil
      · simp [hnil]
      · simp [hnil]
    rw [EventFilter.accepts, condition_likeTest htype.1 hevent htype.2,
      condition_likeTest hcontainer.1 hname hcontainer.2, hlevel, EventFilter.shows]
    by_cases hfirst : f.eventType.map tolower <:+: r.2.event.toList.map tolower
    · by_cases hsecond : f.container.map tolower <:+: r.2.container.toList.map tolower
      · simp [hfirst, hsecond, bind, Except.bind]
      · simp [hfirst, hsecond, bind, Except.bind, pure, Except.pure]
    · simp [hfirst, bind, Except.bind, pure, Except.pure]
  unfold listEvents
  rw [selectRows_eq haccepts]

end Doupro.Store
