import Doupro.Registry.Client
import Doupro.Table.Associations
import Mathlib.Data.List.TakeWhile

/-!
# Bearer challenges

The grammar of a `Bearer` challenge, and what `parseBearerChallenge` makes of one. It cuts the
header at every comma and takes quotes off the ends, so it reads those challenges right whose
quoted values hold neither a comma nor an escape.
-/

namespace Doupro.Registry

open Interaction Text Table

/-! ### The grammar -/

/-- `tchar`. -/
def isTchar (c : Char) : Bool :=
  URL.isLetter c || URL.isDigit c || "!#$%&'*+-.^_`|~".toList.contains c

/-- The characters of optional white space. -/
def isBlank (c : Char) : Bool := c = ' ' || c = '\t'

/-- `qdtext`. -/
def isQdtext (c : Char) : Bool :=
  isBlank c || c = '!' || (0x23 ≤ c.toNat && c.toNat ≤ 0x5B) ||
    (0x5D ≤ c.toNat && c.toNat ≤ 0x7E) || 0x80 ≤ c.toNat

/-- What may stand after the backslash of a `quoted-pair`. -/
def isQuotable (c : Char) : Bool :=
  isBlank c || (0x21 ≤ c.toNat && c.toNat ≤ 0x7E) || 0x80 ≤ c.toNat

structure Token where
  text : Text
  nonempty : text ≠ []
  tchars : text.all isTchar = true

structure Blanks where
  text : Text
  blanks : text.all isBlank = true

def Blanks.none : Blanks := ⟨[], rfl⟩

/-- A character of a `quoted-string`. -/
inductive Quoted where
  | plain (c : Char) (h : isQdtext c = true)
  | escaped (c : Char) (h : isQuotable c = true)

def Quoted.char : Quoted → Char
  | .plain c _ | .escaped c _ => c

def Quoted.text : Quoted → Text
  | .plain c _ => [c]
  | .escaped c _ => ['\\', c]

inductive ParamValue where
  | token (t : Token)
  | quoted (s : List Quoted)

def ParamValue.text : ParamValue → Text
  | .token t => t.text
  | .quoted s => '"' :: (s.flatMap Quoted.text ++ ['"'])

/-- The value without its quotes. -/
def ParamValue.content : ParamValue → Text
  | .token t => t.text
  | .quoted s => s.map Quoted.char

/-- `auth-param`, with the white space that may stand around the equals sign and around it. -/
structure Param where
  name : Token
  value : ParamValue
  before : Blanks := .none
  after : Blanks := .none
  left : Blanks := .none
  right : Blanks := .none

def Param.text (p : Param) : Text :=
  p.name.text ++ p.before.text ++ '=' :: (p.after.text ++ p.value.text)

def Param.padded (p : Param) : Text := p.left.text ++ (p.text ++ p.right.text)

structure Challenge where
  scheme : Text
  /-- The scheme may be in any letter case. -/
  bearer : lower scheme = "bearer".toList
  /-- How many spaces more than one stand after the scheme. -/
  gap : Nat := 0
  params : List Param
  distinct : (params.map fun p => p.name.text).Nodup

/-- The value of the header. -/
def Challenge.text (c : Challenge) : Text :=
  if c.params = [] then c.scheme
  else c.scheme ++
    (' ' :: (List.replicate c.gap ' ' ++ [','].intercalate (c.params.map Param.padded)))

/-- The parameters that were sent. -/
def Challenge.sent (c : Challenge) : List (Text × Text) :=
  c.params.map fun p => (p.name.text, p.value.content)

/-! ### Characters -/

section Characters

variable {c : Char}

theorem isTchar_bounds (h : isTchar c = true) : 0x21 ≤ c.toNat ∧ c.toNat ≤ 0x7E := by
  simp only [isTchar, URL.isLetter, URL.isDigit, Bool.or_eq_true, Bool.and_eq_true,
    decide_eq_true_eq, List.contains_eq_mem] at h
  rcases h with (((⟨hlow, hhigh⟩ | ⟨hlow, hhigh⟩) | ⟨hlow, hhigh⟩) | hmem)
  · exact ⟨le_trans (by decide) hlow, le_trans hhigh (by decide)⟩
  · exact ⟨le_trans (by decide) hlow, le_trans hhigh (by decide)⟩
  · exact ⟨le_trans (by decide) hlow, le_trans hhigh (by decide)⟩
  · have hall : "!#$%&'*+-.^_`|~".toList.all (fun c => 0x21 ≤ c.toNat && c.toNat ≤ 0x7E) =
        true := by decide
    simpa using List.all_eq_true.mp hall c hmem

theorem isSpace_of_isTchar (h : isTchar c = true) : isSpace c = false := by
  obtain ⟨hlow, hhigh⟩ := isTchar_bounds h
  simp only [isSpace, Bool.or_eq_false_iff, Bool.and_eq_false_iff, decide_eq_false_iff_not,
    beq_eq_false_iff_ne]
  omega

theorem isSpace_of_isBlank (h : isBlank c = true) : isSpace c = true := by
  simp only [isBlank, Bool.or_eq_true, decide_eq_true_eq] at h
  rcases h with rfl | rfl
  · decide
  · decide

end Characters

theorem Token.notMem {c : Char} (t : Token) (h : isTchar c = false) : c ∉ t.text := by
  intro hmem
  rw [List.all_eq_true.mp t.tchars c hmem] at h
  cases h

theorem Blanks.notMem {c : Char} (b : Blanks) (h : isBlank c = false) : c ∉ b.text := by
  intro hmem
  rw [List.all_eq_true.mp b.blanks c hmem] at h
  cases h

theorem Blanks.isSpace (b : Blanks) : ∀ c ∈ b.text, isSpace c = true :=
  fun c hmem => isSpace_of_isBlank (List.all_eq_true.mp b.blanks c hmem)

/-! ### Trimming -/

/-- A text that neither starts nor ends with white space. -/
def Solid (m : Text) : Prop :=
  (∃ a, m.head? = some a ∧ isSpace a = false) ∧ ∃ z, m.getLast? = some z ∧ isSpace z = false

theorem dropWhile_padded {p : Char → Bool} {l m : Text} (hl : ∀ c ∈ l, p c = true) {a : Char}
    (hm : m.head? = some a) (ha : p a = false) (r : Text) :
    (l ++ (m ++ r)).dropWhile p = m ++ r := by
  rw [List.dropWhile_append_of_pos hl]
  cases m with
  | nil => cases hm
  | cons b m =>
    obtain rfl : b = a := by simpa using hm
    rw [List.cons_append, List.dropWhile_cons_of_neg (by simp [ha])]

theorem trimSpace_padded {l m r : Text} (hl : ∀ c ∈ l, isSpace c = true)
    (hr : ∀ c ∈ r, isSpace c = true) (hm : Solid m) : trimSpace (l ++ (m ++ r)) = m := by
  obtain ⟨⟨a, hfirst, ha⟩, z, hlast, hz⟩ := hm
  have hend : m.reverse.head? = some z := by rw [List.head?_reverse, hlast]
  have hrev : ∀ c ∈ r.reverse, isSpace c = true := fun c hc => hr c (List.mem_reverse.mp hc)
  have hdrop := dropWhile_padded hrev hend hz []
  rw [List.append_nil] at hdrop
  rw [trimSpace, dropWhile_padded hl hfirst ha, List.reverse_append, hdrop, List.reverse_reverse]

theorem trimSpace_cons {c : Char} (hc : isSpace c = true) (s : Text) :
    trimSpace (c :: s) = trimSpace s := by
  rw [trimSpace, List.dropWhile_cons_of_pos hc, trimSpace]

theorem trimSpace_concat {c : Char} (hc : isSpace c = true) (s : Text) :
    trimSpace (s ++ [c]) = trimSpace s := by
  unfold trimSpace
  rw [List.dropWhile_append]
  by_cases h : (s.dropWhile isSpace).isEmpty = true
  · rw [if_pos h, List.isEmpty_iff.mp h, List.dropWhile_cons_of_pos hc]
    rfl
  · rw [if_neg h, List.reverse_concat, List.dropWhile_cons_of_pos hc]

/-- The parts of a text are the same, once they are trimmed, whether the text is trimmed before
it is split or not. -/
theorem split_trimSpace {sep : Char} (hsep : isSpace sep = false) (s : Text) :
    (split sep (trimSpace s)).map trimSpace = (split sep s).map trimSpace := by
  have hne : ∀ c, isSpace c = true → c ≠ sep := by
    rintro c hc rfl
    rw [hc] at hsep
    cases hsep
  have hleft : ∀ t : Text,
      (split sep (t.dropWhile isSpace)).map trimSpace = (split sep t).map trimSpace := by
    intro t
    induction t with
    | nil => rfl
    | cons c rest ih =>
      by_cases hc : isSpace c = true
      · rw [List.dropWhile_cons_of_pos hc, ih, split, if_neg (hne c hc)]
        cases hrest : split sep rest with
        | nil => exact absurd hrest (split_ne_nil rest)
        | cons part parts => simp only [List.map_cons, trimSpace_cons hc]
      · rw [List.dropWhile_cons_of_neg hc]
  have hright : ∀ t : Text,
      (split sep (t.reverse.dropWhile isSpace).reverse).map trimSpace =
        (split sep t).map trimSpace := by
    intro t
    induction t using List.reverseRecOn with
    | nil => rfl
    | append_singleton rest c ih =>
      rw [List.reverse_concat]
      by_cases hc : isSpace c = true
      · obtain ⟨init, last, hrest, hmore⟩ := split_concat (hne c hc) rest
        rw [List.dropWhile_cons_of_pos hc, ih, hrest, hmore]
        simp only [List.map_append, List.map_cons, List.map_nil, trimSpace_concat hc]
      · rw [List.dropWhile_cons_of_neg hc, List.reverse_cons, List.reverse_reverse]
  rw [trimSpace, hright, hleft]

theorem trimSpace_subset {c : Char} {s : Text} (h : c ∈ trimSpace s) : c ∈ s := by
  have hmem := List.dropWhile_subset _ (List.mem_reverse.mp h)
  exact List.dropWhile_subset _ (List.mem_reverse.mp hmem)

theorem trimChar_subset {c d : Char} {s : Text} (h : c ∈ trimChar d s) : c ∈ s := by
  have hmem := List.dropWhile_subset _ (List.mem_reverse.mp h)
  exact List.dropWhile_subset _ (List.mem_reverse.mp hmem)

theorem mem_dropWhile {p : Char → Bool} {c : Char} {s : Text} (hc : p c = false) (h : c ∈ s) :
    c ∈ s.dropWhile p := by
  rw [← List.takeWhile_append_dropWhile (p := p) (l := s), List.mem_append] at h
  rcases h with htaken | hleft
  · rw [List.mem_takeWhile_imp htaken] at hc
    cases hc
  · exact hleft

/-- Only the character that is trimmed can get lost. -/
theorem mem_trimChar {c d : Char} {s : Text} (hc : c ≠ d) (h : c ∈ s) : c ∈ trimChar d s := by
  have hne : decide (c = d) = false := decide_eq_false hc
  exact List.mem_reverse.mpr
    (mem_dropWhile hne (List.mem_reverse.mpr (mem_dropWhile hne h)))

/-- What is behind a cut is in the text. -/
theorem mem_of_cut {sep c : Char} {s before rest : Text} (h : cut sep s = (before, some rest))
    (hc : c ∈ rest) : c ∈ s := by
  induction s generalizing before with
  | nil => cases h
  | cons d s ih =>
    rw [cut] at h
    split at h
    · obtain ⟨-, hrest⟩ := Prod.mk.inj h
      rw [← Option.some.inj hrest] at hc
      exact List.mem_cons_of_mem d hc
    · cases hcut : cut sep s with
      | mk first second =>
        rw [hcut] at h
        obtain ⟨-, rfl⟩ := Prod.mk.inj h
        exact List.mem_cons_of_mem d (ih hcut)

/-! ### The entries of a header -/

/-- What a part of the header puts into the map. -/
def field (part : Text) : Option (Text × Text) :=
  match cut '=' part with
  | (_, none) => none
  | (key, some value) => some (key, trimChar '"' value)

theorem field_eq {key : Text} (h : '=' ∉ key) (value : Text) :
    field (key ++ '=' :: value) = some (key, trimChar '"' value) := by
  rw [field, cut_append h]
  simp [cut]

/-- The map holds the fields of the parts. -/
theorem parseBearerChallenge_eq (header : Text) : parseBearerChallenge header =
    putAll (((split ',' (trimStart "Bearer".toList header)).map trimSpace).filterMap field) := by
  rw [parseBearerChallenge, split_trimSpace (by decide), putAll, List.foldl_filterMap]
  congr 1
  funext out part
  unfold field
  rcases cut '=' part with ⟨key, value⟩
  cases value <;> rfl

/-- No value of the map has a comma in it. -/
theorem comma_notMem_of_lookup {header name value : Text}
    (h : (parseBearerChallenge header).lookup name = some value) : ',' ∉ value := by
  rw [parseBearerChallenge_eq] at h
  obtain ⟨part, hpart, hfield⟩ := List.mem_filterMap.mp (mem_of_lookup_putAll h)
  obtain ⟨untrimmed, hsplit, rfl⟩ := List.mem_map.mp hpart
  have hcomma : ',' ∉ trimSpace untrimmed := fun hmem =>
    notMem_of_mem_split hsplit (trimSpace_subset hmem)
  unfold field at hfield
  cases hcut : cut '=' (trimSpace untrimmed) with
  | mk before behind =>
    cases behind with
    | none => simp [hcut] at hfield
    | some rest =>
      rw [hcut] at hfield
      obtain ⟨-, rfl⟩ := Prod.mk.inj (Option.some.inj hfield)
      exact fun hmem => hcomma (mem_of_cut hcut (trimChar_subset hmem))

/-! ### Quotes -/

def Quoted.isPlain : Quoted → Bool
  | .plain _ _ => true
  | .escaped _ _ => false

/-- What is left of the last character of a quoted text when all quotes behind it are trimmed. -/
def Quoted.kept : Quoted → Text
  | .plain c _ => [c]
  | .escaped c _ => if c = '"' then ['\\'] else ['\\', c]

theorem Quoted.plain_ne_quote {c : Char} (h : isQdtext c = true) : c ≠ '"' := by
  rintro rfl
  exact absurd h (by decide)

theorem Quoted.text_head (q : Quoted) : ∃ c rest, q.text = c :: rest ∧ c ≠ '"' := by
  cases q with
  | plain c h => exact ⟨c, [], rfl, plain_ne_quote h⟩
  | escaped c h => exact ⟨'\\', [c], rfl, by decide⟩

theorem Quoted.trimRight (q : Quoted) (s : Text) :
    ((s ++ (q.text ++ ['"'])).reverse.dropWhile (· = '"')).reverse = s ++ q.kept := by
  cases q with
  | plain c h =>
    have hc := plain_ne_quote h
    simp [Quoted.text, Quoted.kept, hc]
  | escaped c h =>
    by_cases hc : c = '"'
    · simp [Quoted.text, Quoted.kept, hc]
    · simp [Quoted.text, Quoted.kept, hc]

theorem Quoted.length_text (q : Quoted) : q.text.length = if q.isPlain then 1 else 2 := by
  cases q <;> rfl

theorem Quoted.length_kept (q : Quoted) : 1 ≤ q.kept.length := by
  cases q with
  | plain c h => exact le_rfl
  | escaped c h => by_cases hc : c = '"' <;> simp [Quoted.kept, hc]

/-- As many characters more than its content as a quoted text has escapes. -/
theorem length_quoted (s : List Quoted) :
    (s.flatMap Quoted.text).length = s.length + s.countP (fun q => !q.isPlain) := by
  induction s with
  | nil => rfl
  | cons q s ih =>
    rw [List.flatMap_cons, List.length_append, ih, List.length_cons, List.countP_cons,
      q.length_text]
    cases q.isPlain with
    | true => simp only [if_true, Bool.not_true, Bool.false_eq_true, if_false]; omega
    | false => simp only [Bool.false_eq_true, if_false, Bool.not_false, if_true]; omega

theorem flatMap_plain {s : List Quoted} (h : ∀ q ∈ s, q.isPlain = true) :
    s.flatMap Quoted.text = s.map Quoted.char := by
  induction s with
  | nil => rfl
  | cons q s ih =>
    have hrest := ih fun q hq => h q (List.mem_cons_of_mem _ hq)
    cases q with
    | plain c hc => rw [List.flatMap_cons, hrest]; rfl
    | escaped c hc => cases h _ List.mem_cons_self

/-- Trimming the quotes of a quoted text with something in it. -/
theorem trimChar_quoted (s : List Quoted) (q : Quoted) :
    trimChar '"' ('"' :: ((s ++ [q]).flatMap Quoted.text ++ ['"'])) =
      s.flatMap Quoted.text ++ q.kept := by
  have hhead : ∃ c rest, (s ++ [q]).flatMap Quoted.text ++ ['"'] = c :: rest ∧ c ≠ '"' := by
    cases s with
    | nil =>
      obtain ⟨c, rest, htext, hc⟩ := q.text_head
      exact ⟨c, rest ++ ['"'], by simp [htext], hc⟩
    | cons first s =>
      obtain ⟨c, rest, htext, hc⟩ := first.text_head
      exact ⟨c, _, by rw [List.cons_append, List.flatMap_cons, htext]; rfl, hc⟩
  obtain ⟨c, rest, htext, hc⟩ := hhead
  have hdrop : ('"' :: ((s ++ [q]).flatMap Quoted.text ++ ['"'])).dropWhile (· = '"') =
      (s ++ [q]).flatMap Quoted.text ++ ['"'] := by
    rw [List.dropWhile_cons_of_pos (by decide), htext, List.dropWhile_cons_of_neg (by simp [hc])]
  rw [trimChar, hdrop, List.flatMap_append, List.flatMap_cons, List.flatMap_nil, List.append_nil,
    List.append_assoc, q.trimRight]

/-- Trimming the quotes of a quoted text behind white space, which holds on to the first one. -/
theorem trimChar_blank_quoted {c : Char} (hc : c ≠ '"') (blanks : Text) (s : List Quoted)
    (q : Quoted) :
    trimChar '"' (c :: blanks ++ '"' :: ((s ++ [q]).flatMap Quoted.text ++ ['"'])) =
      c :: blanks ++ '"' :: (s.flatMap Quoted.text ++ q.kept) := by
  have hsplit : c :: blanks ++ '"' :: ((s ++ [q]).flatMap Quoted.text ++ ['"']) =
      (c :: blanks ++ '"' :: s.flatMap Quoted.text) ++ (q.text ++ ['"']) := by simp
  rw [trimChar, List.cons_append, List.dropWhile_cons_of_neg (by simp [hc]), ← List.cons_append, hsplit,
    q.trimRight]
  simp

/-- The quotes come off a text without escapes only, and not behind white space. -/
theorem trimChar_quoted_iff (after : Blanks) (s : List Quoted) :
    trimChar '"' (after.text ++ (ParamValue.quoted s).text) = s.map Quoted.char ↔
      after.text = [] ∧ ∀ q ∈ s, q.isPlain = true := by
  have hquote : '"' ∉ after.text := after.notMem (by decide)
  rcases List.eq_nil_or_concat' s with rfl | ⟨s, q, rfl⟩
  · cases hafter : after.text with
    | nil => simp [ParamValue.text, trimChar]
    | cons c blanks =>
      rw [hafter] at hquote
      have hc : c ≠ '"' := fun h => hquote (h ▸ List.mem_cons_self)
      have hkeep : trimChar '"' (c :: blanks ++ (ParamValue.quoted []).text) ≠ [] :=
        List.ne_nil_of_mem (mem_trimChar hc List.mem_cons_self)
      exact ⟨fun h => absurd h hkeep, fun h => absurd h.1 (by simp)⟩
  · rw [ParamValue.text]
    constructor
    · intro h
      have hlength := congrArg List.length h
      rw [List.length_map, List.length_append, List.length_singleton] at hlength
      cases hafter : after.text with
      | cons c blanks =>
        rw [hafter] at hquote h hlength
        have hc : c ≠ '"' := fun h => hquote (h ▸ List.mem_cons_self)
        rw [trimChar_blank_quoted hc] at hlength
        simp only [List.length_append, List.length_cons, length_quoted] at hlength
        have hkept := q.length_kept
        omega
      | nil =>
        refine ⟨rfl, ?_⟩
        rw [hafter, List.nil_append, trimChar_quoted] at h hlength
        rw [List.length_append, length_quoted] at hlength
        cases q with
        | plain c hc =>
          rw [Quoted.kept, List.length_singleton] at hlength
          have hcount : s.countP (fun q => !q.isPlain) = 0 := by omega
          intro q hq
          rcases List.mem_append.mp hq with hq | hq
          · simpa using List.countP_eq_zero.mp hcount q hq
          · rw [List.mem_singleton.mp hq]
            rfl
        | escaped c hc =>
          by_cases hquoted : c = '"'
          · subst hquoted
            have hlast := congrArg List.getLast? h
            simp [Quoted.kept, Quoted.char] at hlast
          · rw [Quoted.kept, if_neg hquoted] at hlength
            simp only [List.length_cons, List.length_nil] at hlength
            omega
    · rintro ⟨hafter, hplain⟩
      have hlast : q.kept = [q.char] := by
        have hq := hplain q (by simp)
        cases q with
        | plain c hc => rfl
        | escaped c hc => cases hq
      have hfirst := flatMap_plain fun q hq => hplain q (List.mem_append_left _ hq)
      rw [hafter, List.nil_append, trimChar_quoted, hfirst, hlast, List.map_append, List.map_cons,
        List.map_nil]

namespace ParamValue

/-- A value without escapes. -/
def isPlain : ParamValue → Bool
  | .token _ => true
  | .quoted s => s.all Quoted.isPlain

/-- A value whose quoted text holds neither a comma nor an escape. -/
def simple : ParamValue → Bool
  | .token _ => true
  | .quoted s => s.all fun q => q.isPlain && q.char ≠ ','

theorem trimChar_iff (v : ParamValue) (after : Blanks) :
    trimChar '"' (after.text ++ v.text) = v.content ↔ after.text = [] ∧ v.isPlain = true := by
  cases v with
  | quoted s =>
    rw [isPlain, List.all_eq_true]
    exact trimChar_quoted_iff after s
  | token t =>
    have hquote : ∀ d ∈ after.text ++ t.text, decide (d = '"') = false := by
      intro d hd
      rw [decide_eq_false_iff_not]
      rintro rfl
      rcases List.mem_append.mp hd with hd | hd
      · exact after.notMem (by decide) hd
      · exact t.notMem (by decide) hd
    have hkeep : trimChar '"' (after.text ++ t.text) = after.text ++ t.text := by
      rw [trimChar, dropWhile_eq_self hquote,
        dropWhile_eq_self fun d hd => hquote d (List.mem_reverse.mp hd), List.reverse_reverse]
    change trimChar '"' (after.text ++ t.text) = t.text ↔ after.text = [] ∧ true = true
    rw [hkeep, List.append_left_eq_self, and_iff_left rfl]

theorem isPlain_of_simple (v : ParamValue) (h : v.simple = true) : v.isPlain = true := by
  cases v with
  | token t => rfl
  | quoted s =>
    refine List.all_eq_true.mpr fun q hq => ?_
    exact (Bool.and_eq_true_iff.mp (List.all_eq_true.mp h q hq)).1

theorem comma_notMem_of_simple (v : ParamValue) (h : v.simple = true) : ',' ∉ v.content := by
  cases v with
  | token t => exact t.notMem (by decide)
  | quoted s =>
    intro hmem
    obtain ⟨q, hq, hc⟩ := List.mem_map.mp hmem
    have hne := (Bool.and_eq_true_iff.mp (List.all_eq_true.mp h q hq)).2
    simp [hc] at hne

theorem simple_of (v : ParamValue) (hplain : v.isPlain = true) (hcomma : ',' ∉ v.content) :
    v.simple = true := by
  cases v with
  | token t => rfl
  | quoted s =>
    refine List.all_eq_true.mpr fun q hq => ?_
    have hne : q.char ≠ ',' := fun heq => hcomma (List.mem_map.mpr ⟨q, hq, heq⟩)
    simp [List.all_eq_true.mp hplain q hq, hne]

end ParamValue

/-! ### The header of a challenge -/

theorem value_last (v : ParamValue) : ∃ z, v.text.getLast? = some z ∧ isSpace z = false := by
  cases v with
  | token t =>
    refine ⟨t.text.getLast t.nonempty, List.getLast?_eq_some_getLast t.nonempty, ?_⟩
    exact isSpace_of_isTchar (List.all_eq_true.mp t.tchars _ (List.getLast_mem _))
  | quoted s =>
    refine ⟨'"', ?_, by decide⟩
    rw [ParamValue.text, ← List.cons_append, List.getLast?_concat]

theorem Param.solid (p : Param) : Solid p.text := by
  constructor
  · cases hname : p.name.text with
    | nil => exact absurd hname p.name.nonempty
    | cons a rest =>
      refine ⟨a, by simp [Param.text, hname], isSpace_of_isTchar ?_⟩
      exact List.all_eq_true.mp p.name.tchars a (by simp [hname])
  · obtain ⟨z, hlast, hz⟩ := value_last p.value
    refine ⟨z, ?_, hz⟩
    have htext : p.text =
        (p.name.text ++ p.before.text ++ '=' :: p.after.text) ++ p.value.text := by
      simp [Param.text]
    rw [htext, List.getLast?_append, hlast]
    rfl

theorem comma_notMem_padded {p : Param} (h : ',' ∉ p.value.content) : ',' ∉ p.padded := by
  have hvalue : ',' ∉ p.value.text := by
    cases hv : p.value with
    | token t => exact t.notMem (by decide)
    | quoted s =>
      rw [hv] at h
      intro hmem
      have hraw : ',' ∈ s.flatMap Quoted.text := by simpa [ParamValue.text] using hmem
      obtain ⟨q, hq, hc⟩ := List.mem_flatMap.mp hraw
      refine h (List.mem_map.mpr ⟨q, hq, ?_⟩)
      cases q with
      | plain c hc' => exact (List.mem_singleton.mp hc).symm
      | escaped c hc' =>
        have hescaped : ',' = c := by simpa [Quoted.text] using hc
        exact hescaped.symm
  have hblank : isBlank ',' = false := by decide
  have hname := p.name.notMem (c := ',') (by decide)
  simp [Param.padded, Param.text, hvalue, hname, p.before.notMem hblank, p.after.notMem hblank,
    p.left.notMem hblank, p.right.notMem hblank]

/-- What the parser makes of a parameter. -/
def Param.read (p : Param) : Text × Text :=
  (p.name.text ++ p.before.text, trimChar '"' (p.after.text ++ p.value.text))

theorem Param.read_fst (p : Param) (h : p.before.text = []) : p.read.1 = p.name.text := by
  rw [Param.read, h, List.append_nil]

theorem Param.equals_notMem (p : Param) : '=' ∉ p.name.text ++ p.before.text := by
  have hname := p.name.notMem (c := '=') (by decide)
  have hbefore := p.before.notMem (c := '=') (by decide)
  simp [hname, hbefore]

theorem filterMap_field (params : List Param) :
    (params.map Param.text).filterMap field = params.map Param.read := by
  rw [List.filterMap_map, ← List.filterMap_eq_map]
  refine List.filterMap_congr fun p _ => ?_
  exact field_eq p.equals_notMem (p.after.text ++ p.value.text)

theorem append_intercalate {sep : Char} (lead part : Text) (parts : List Text) :
    lead ++ [sep].intercalate (part :: parts) = [sep].intercalate ((lead ++ part) :: parts) := by
  cases parts with
  | nil => simp
  | cons second parts => simp [List.intercalate_cons_cons]

/-- The parts of parameters without commas are the parameters, behind what stands in front. -/
theorem split_params {lead : Text} (hlead : ',' ∉ lead) {p : Param} {params : List Param}
    (hcomma : ∀ q ∈ p :: params, ',' ∉ q.value.content) :
    (split ',' (lead ++ [','].intercalate ((p :: params).map Param.padded))).map trimSpace =
      trimSpace (lead ++ p.padded) :: params.map Param.text := by
  have hparts : ∀ part ∈ (lead ++ p.padded) :: params.map Param.padded, ',' ∉ part := by
    intro part hpart
    rcases List.mem_cons.mp hpart with rfl | hpart
    · rw [List.mem_append, not_or]
      exact ⟨hlead, comma_notMem_padded (hcomma p List.mem_cons_self)⟩
    · obtain ⟨q, hq, rfl⟩ := List.mem_map.mp hpart
      exact comma_notMem_padded (hcomma q (List.mem_cons_of_mem _ hq))
  rw [List.map_cons, append_intercalate, split_intercalate (by simp) hparts, List.map_cons,
    List.map_map]
  congr 1
  exact List.map_congr_left fun q _ => trimSpace_padded q.left.isSpace q.right.isSpace q.solid

theorem gap_isSpace (n : Nat) : ∀ c ∈ ' ' :: List.replicate n ' ', isSpace c = true := by
  intro c hc
  rcases List.mem_cons.mp hc with rfl | hc
  · decide
  · rw [List.eq_of_mem_replicate hc]
    decide

theorem gap_notMem {c : Char} (h : isSpace c = false) (n : Nat) :
    c ∉ ' ' :: List.replicate n ' ' := by
  intro hmem
  rw [gap_isSpace n c hmem] at h
  cases h

namespace Challenge

variable {c : Challenge}

theorem scheme_isTchar {d : Char} (hd : d ∈ c.scheme) : isTchar d = true := by
  have hlower : lowerRune d ∈ "bearer".toList := by
    rw [← c.bearer]
    exact List.mem_map_of_mem hd
  unfold lowerRune at hlower
  split_ifs at hlower with hupper hkelvin hdotted
  · simp [isTchar, URL.isLetter, hupper.1, hupper.2]
  · exact absurd hlower (by decide)
  · exact absurd hlower (by decide)
  · have hall : "bearer".toList.all isTchar = true := by decide
    exact List.all_eq_true.mp hall d hlower

theorem scheme_notMem {d : Char} (h : isTchar d = false) : d ∉ c.scheme := by
  intro hmem
  rw [scheme_isTchar hmem] at h
  cases h

theorem scheme_length : c.scheme.length = 6 := by
  have hlength := congrArg List.length c.bearer
  rwa [lower, List.length_map] at hlength

/-- The scheme is taken off if it is spelled in one way. -/
theorem trimStart_scheme (rest : Text) : trimStart "Bearer".toList (c.scheme ++ rest) =
    if c.scheme = "Bearer".toList then rest else c.scheme ++ rest := by
  split_ifs with h
  · rw [trimStart, h, afterPrefix_eq_some.mpr rfl]
    rfl
  · cases hafter : afterPrefix "Bearer".toList (c.scheme ++ rest) with
    | none => rw [trimStart, hafter]; rfl
    | some tail =>
      have htext := afterPrefix_eq_some.mp hafter
      exact absurd (List.append_inj htext c.scheme_length).1 h

/-- A scheme alone is read as no parameters. -/
theorem parse_nil (h : c.params = []) : parseBearerChallenge c.text = [] := by
  have hscheme := c.trimStart_scheme []
  rw [List.append_nil] at hscheme
  rw [Challenge.text, if_pos h, parseBearerChallenge_eq, hscheme]
  split_ifs with hbearer
  · decide
  · have hequals : '=' ∉ trimSpace c.scheme := fun hmem =>
      c.scheme_notMem (by decide) (trimSpace_subset hmem)
    rw [split_of_notMem (c.scheme_notMem (by decide))]
    simp [field, cut_of_notMem hequals, putAll]

theorem parse_bearer (h : c.scheme = "Bearer".toList)
    (hcomma : ∀ p ∈ c.params, ',' ∉ p.value.content) :
    parseBearerChallenge c.text = putAll (c.params.map Param.read) := by
  cases hparams : c.params with
  | nil => rw [parse_nil hparams]; rfl
  | cons p params =>
    rw [hparams] at hcomma
    have hgap := gap_isSpace c.gap
    have hlead : ∀ d ∈ (' ' :: List.replicate c.gap ' ') ++ p.left.text, isSpace d = true := by
      intro d hd
      rcases List.mem_append.mp hd with hd | hd
      · exact hgap d hd
      · exact p.left.isSpace d hd
    have hfirst : trimSpace ((' ' :: List.replicate c.gap ' ') ++ p.padded) = p.text := by
      rw [Param.padded, ← List.append_assoc]
      exact trimSpace_padded hlead p.right.isSpace p.solid
    rw [Challenge.text, hparams, if_neg (by simp), parseBearerChallenge_eq, trimStart_scheme, if_pos h,
      ← List.cons_append, split_params (gap_notMem (by decide) c.gap) hcomma, hfirst, ← List.map_cons,
      filterMap_field]

/-- The name that the parser gives a first parameter with the scheme still in front of it. -/
def gluedName (c : Challenge) (p : Param) : Text :=
  c.scheme ++ (' ' :: List.replicate c.gap ' ' ++ (p.left.text ++ (p.name.text ++ p.before.text)))

theorem space_mem_gluedName (c : Challenge) (p : Param) : ' ' ∈ c.gluedName p := by
  simp [gluedName]

theorem equals_notMem_gluedName (c : Challenge) (p : Param) : '=' ∉ c.gluedName p := by
  rw [gluedName, List.mem_append, List.mem_append, List.mem_append, not_or, not_or, not_or]
  exact ⟨c.scheme_notMem (by decide), gap_notMem (by decide) c.gap, p.left.notMem (by decide),
    p.equals_notMem⟩

theorem trimSpace_glued (c : Challenge) (p : Param) :
    trimSpace ((c.scheme ++ ' ' :: List.replicate c.gap ' ') ++ p.padded) =
      c.gluedName p ++ '=' :: (p.after.text ++ p.value.text) := by
  have hsolid : Solid (c.gluedName p ++ '=' :: (p.after.text ++ p.value.text)) := by
    constructor
    · cases hscheme : c.scheme with
      | nil =>
        have hlength := c.scheme_length
        rw [hscheme] at hlength
        cases hlength
      | cons a rest =>
        refine ⟨a, by simp [gluedName, hscheme], isSpace_of_isTchar (c.scheme_isTchar ?_)⟩
        rw [hscheme]
        exact List.mem_cons_self
    · obtain ⟨z, hlast, hz⟩ := value_last p.value
      refine ⟨z, ?_, hz⟩
      rw [← List.cons_append, ← List.append_assoc, List.getLast?_append, hlast]
      rfl
  have htrim := trimSpace_padded (l := []) (by simp) p.right.isSpace hsolid
  rw [List.nil_append] at htrim
  rw [← htrim]
  simp [gluedName, Param.padded, Param.text]

/-- Another spelling of the scheme stays in the name of the first parameter. -/
theorem parse_other (h : c.scheme ≠ "Bearer".toList) {p : Param} {params : List Param}
    (hparams : c.params = p :: params) (hcomma : ∀ q ∈ c.params, ',' ∉ q.value.content) :
    parseBearerChallenge c.text =
      putAll ((c.gluedName p, p.read.2) :: params.map Param.read) := by
  rw [hparams] at hcomma
  have hlead : ',' ∉ c.scheme ++ ' ' :: List.replicate c.gap ' ' := by
    rw [List.mem_append, not_or]
    exact ⟨c.scheme_notMem (by decide), gap_notMem (by decide) c.gap⟩
  have hfield := field_eq (c.equals_notMem_gluedName p) (p.after.text ++ p.value.text)
  rw [Challenge.text, hparams, if_neg (by simp), parseBearerChallenge_eq, trimStart_scheme, if_neg h,
    ← List.cons_append, ← List.append_assoc, split_params hlead hcomma, trimSpace_glued,
    List.filterMap_cons_some hfield, filterMap_field]
  rfl

/-! ### The token request -/

/-- The request a program starts with, unless it makes none. -/
def firstRequest {α : Type} : Web α → Option Request
  | .ret _ => none
  | .call req _ => some req

/-- Whatever comes after it, a request that is sent is the one asked for. -/
theorem firstRequest_clientDo {α : Type} {req sent : Request} {f : Except GoError Response → Web α}
    (hf : ∀ err, firstRequest (f (.error err)) = none)
    (h : firstRequest (clientDo req >>= f) = some sent) : sent = req := by
  unfold clientDo follow at h
  split_ifs at h with hscheme hhost
  · rw [Program.pure_bind_eq, hf] at h
    cases h
  · rw [Program.pure_bind_eq, hf] at h
    cases h
  · exact (Option.some.inj h).symm

/-- A request for a token at the realm, for the service and the scope of a challenge. -/
structure Asks (c : Challenge) (req : Request) : Prop where
  realm : ∃ u authorization, URL.parse (param c.sent "realm") = some u ∧
    req.initial = (newRequest .token u [] authorization).initial
  params : req.params =
    ([("service", param c.sent "service"), ("scope", param c.sent "scope")].filter
      fun entry => entry.2 ≠ []).map fun entry => (entry.1.toList, entry.2)

/-- `authenticate` makes no request but one for the parameters that it reads in the header. -/
theorem authenticate_asks {r : Registries} {ref : Ref} {explicit : Option Config} {req : Request}
    (hparam : ∀ name, param (parseBearerChallenge c.text) name = param c.sent name)
    (h : firstRequest (authenticate r c.text ref explicit) = some req) : c.Asks req := by
  unfold authenticate at h
  simp only [hparam] at h
  split_ifs at h with hrealm
  · cases h
  · cases hurl : URL.parse (param c.sent "realm") with
    | none =>
      rw [hurl] at h
      cases h
    | some u =>
      rw [hurl] at h
      cases hauthorization : realmAuthorization r ref explicit u with
      | error err =>
        simp only [hauthorization] at h
        cases h
      | ok authorization =>
        simp only [hauthorization] at h
        have hreq := firstRequest_clientDo (fun err => rfl) h
        subst hreq
        exact ⟨⟨u, authorization, hurl, rfl⟩, rfl⟩

/-! ### Which challenges are understood -/

/-- The header is read as the map of the parameters that were sent, and a token is requested from
the realm, for the service and the scope that the registry named. -/
def Understood (c : Challenge) : Prop :=
  (∀ name, (parseBearerChallenge c.text).lookup name = c.sent.lookup name) ∧
    ∀ r ref explicit req, firstRequest (authenticate r c.text ref explicit) = some req → c.Asks req

/-- A challenge in the form the parser expects. -/
structure Simple (c : Challenge) : Prop where
  scheme : c.params = [] ∨ c.scheme = "Bearer".toList
  blanks : ∀ p ∈ c.params, p.before.text = [] ∧ p.after.text = []
  values : ∀ p ∈ c.params, p.value.simple = true

theorem sent_keys (c : Challenge) : c.sent.map Prod.fst = c.params.map fun p => p.name.text := by
  rw [sent, List.map_map]
  rfl

theorem sent_nodup (c : Challenge) : (c.sent.map Prod.fst).Nodup := by
  rw [sent_keys]
  exact c.distinct

theorem lookup_sent {p : Param} (h : p ∈ c.params) :
    c.sent.lookup p.name.text = some p.value.content :=
  (lookup_eq_some_of_nodup c.sent_nodup).mpr (List.mem_map.mpr ⟨p, h, rfl⟩)

/-- What was sent under a name was sent under a token. -/
theorem isTchar_of_lookup_sent {name : Text} (h : c.sent.lookup name ≠ none) {d : Char}
    (hd : d ∈ name) : isTchar d = true := by
  obtain ⟨content, hcontent⟩ := Option.ne_none_iff_exists'.mp h
  obtain ⟨p, -, heq⟩ := List.mem_map.mp (mem_of_lookup hcontent)
  obtain ⟨rfl, -⟩ := Prod.mk.inj heq
  exact List.all_eq_true.mp p.name.tchars d hd

/-- Parameters of one name are one. -/
theorem param_unique {p q : Param} (hp : p ∈ c.params) (hq : q ∈ c.params)
    (h : p.name.text = q.name.text) : p = q :=
  List.inj_on_of_nodup_map c.distinct hp hq h

theorem read_eq {p : Param} (hblanks : p.before.text = [] ∧ p.after.text = [])
    (hvalue : p.value.simple = true) : p.read = (p.name.text, p.value.content) := by
  rw [Param.read, hblanks.1, List.append_nil,
    (p.value.trimChar_iff p.after).mpr ⟨hblanks.2, p.value.isPlain_of_simple hvalue⟩]

theorem understood_of_simple (h : c.Simple) : c.Understood := by
  have hlookup : ∀ name, (parseBearerChallenge c.text).lookup name = c.sent.lookup name := by
    intro name
    rcases h.scheme with hnil | hscheme
    · rw [parse_nil hnil, sent, hnil]
      rfl
    · have hcomma : ∀ p ∈ c.params, ',' ∉ p.value.content :=
        fun p hp => p.value.comma_notMem_of_simple (h.values p hp)
      have hread : c.params.map Param.read = c.sent :=
        List.map_congr_left fun p hp => read_eq (h.blanks p hp) (h.values p hp)
      rw [parse_bearer hscheme hcomma, hread, lookup_putAll_of_nodup c.sent_nodup]
  have hparam : ∀ name, param (parseBearerChallenge c.text) name = param c.sent name := by
    intro name
    rw [param, param, hlookup]
  exact ⟨hlookup, fun r ref explicit req hreq => authenticate_asks hparam hreq⟩

theorem simple_of_lookup
    (h : ∀ name, (parseBearerChallenge c.text).lookup name = c.sent.lookup name) : c.Simple := by
  have hcomma : ∀ p ∈ c.params, ',' ∉ p.value.content := by
    intro p hp
    exact comma_notMem_of_lookup ((h p.name.text).trans (lookup_sent hp))
  have hscheme : c.params = [] ∨ c.scheme = "Bearer".toList := by
    by_contra hnot
    rw [not_or] at hnot
    obtain ⟨p, params, hparams⟩ := List.exists_cons_of_ne_nil hnot.1
    have hglued : (parseBearerChallenge c.text).lookup (c.gluedName p) ≠ none := by
      rw [parse_other hnot.2 hparams hcomma]
      exact lookup_putAll_of_mem List.mem_cons_self
    rw [h] at hglued
    exact absurd (isTchar_of_lookup_sent hglued (c.space_mem_gluedName p)) (by decide)
  rcases hscheme with hnil | hscheme
  · exact ⟨.inl hnil, by simp [hnil], by simp [hnil]⟩
  have hparse := parse_bearer hscheme hcomma
  have hbefore : ∀ p ∈ c.params, p.before.text = [] := by
    intro p hp
    have hfound : (parseBearerChallenge c.text).lookup p.read.1 ≠ none := by
      rw [hparse]
      exact lookup_putAll_of_mem (List.mem_map_of_mem hp)
    rw [h] at hfound
    cases hblank : p.before.text with
    | nil => rfl
    | cons d rest =>
      have htchar := isTchar_of_lookup_sent hfound (d := d) (by simp [Param.read, hblank])
      have hspace := p.before.isSpace d (by simp [hblank])
      rw [isSpace_of_isTchar htchar] at hspace
      cases hspace
  have hkeys : (c.params.map Param.read).map Prod.fst = c.params.map fun p => p.name.text := by
    rw [List.map_map]
    exact List.map_congr_left fun p hp => p.read_fst (hbefore p hp)
  have hnodup : ((c.params.map Param.read).map Prod.fst).Nodup := by
    rw [hkeys]
    exact c.distinct
  have hvalue : ∀ p ∈ c.params, p.read.2 = p.value.content := by
    intro p hp
    have hfound := (h p.name.text).trans (lookup_sent hp)
    rw [hparse, lookup_putAll_of_nodup hnodup] at hfound
    obtain ⟨q, hq, heq⟩ := List.mem_map.mp (mem_of_lookup hfound)
    have hname : q.name.text = p.name.text :=
      (q.read_fst (hbefore q hq)).symm.trans (congrArg Prod.fst heq)
    rw [← param_unique hq hp hname, heq, param_unique hq hp hname]
  have hplain : ∀ p ∈ c.params, p.after.text = [] ∧ p.value.isPlain = true :=
    fun p hp => (p.value.trimChar_iff p.after).mp (hvalue p hp)
  exact ⟨.inr hscheme, fun p hp => ⟨hbefore p hp, (hplain p hp).1⟩,
    fun p hp => p.value.simple_of (hplain p hp).2 (hcomma p hp)⟩

/-- A challenge is understood exactly if its scheme is spelled `Bearer`, no white space stands
around an equals sign and no quoted value holds a comma or an escape. -/
theorem understood_iff (c : Challenge) : c.Understood ↔ c.Simple :=
  ⟨fun h => simple_of_lookup h.1, understood_of_simple⟩

/-! ### A push -/

/-- A text to be quoted without escapes. -/
def unescaped (s : Text) (h : s.all isQdtext = true) : ParamValue :=
  .quoted (s.attach.map fun d => .plain d.1 (List.all_eq_true.mp h d.1 d.2))

/-- What a registry asks for before a push: a scope with two actions. -/
def pullAndPush : Challenge where
  scheme := "Bearer".toList
  bearer := by decide
  params := [
    { name := ⟨"realm".toList, by decide, by decide⟩
      value := unescaped "https://auth.docker.io/token".toList (by decide) },
    { name := ⟨"service".toList, by decide, by decide⟩
      value := unescaped "registry.docker.io".toList (by decide) },
    { name := ⟨"scope".toList, by decide, by decide⟩
      value := unescaped "repository:library/redis:pull,push".toList (by decide) }]
  distinct := by decide

/-- The scope is cut at its comma. -/
theorem pullAndPush_truncated :
    pullAndPush.text = ("Bearer realm=\"https://auth.docker.io/token\"," ++
      "service=\"registry.docker.io\",scope=\"repository:library/redis:pull,push\"").toList ∧
    (parseBearerChallenge pullAndPush.text).lookup "scope".toList =
      some "repository:library/redis:pull".toList ∧ ¬ pullAndPush.Understood := by
  have hsent : pullAndPush.sent.lookup "scope".toList =
      some "repository:library/redis:pull,push".toList := by decide +kernel
  have hread : (parseBearerChallenge pullAndPush.text).lookup "scope".toList =
      some "repository:library/redis:pull".toList := by decide +kernel
  refine ⟨by decide +kernel, hread, fun h => ?_⟩
  have hlookup := h.1 "scope".toList
  rw [hread, hsent] at hlookup
  exact absurd hlookup (by decide)

example : param (parseBearerChallenge "bearer realm=\"https://ghcr.io/token\"".toList) "realm" =
    [] := by decide

end Challenge

end Doupro.Registry
