import Doupro.Go.Json
import Mathlib.Data.List.Sort

/-!
# JSON text

The encoder of `encoding/json`: members of an object are written in the order of their
keys, and a string's characters are escaped one by one.
-/

namespace Doupro

def hexDigit (n : Nat) : Char := if n < 10 then Char.ofNat (48 + n) else Char.ofNat (87 + n)

/-- `\u` and four hexadecimal digits. -/
def unicodeEscape (c : Char) : List Char :=
  let n := c.toNat
  ['\\', 'u', hexDigit (n / 4096 % 16), hexDigit (n / 256 % 16), hexDigit (n / 16 % 16),
    hexDigit (n % 16)]

/-- The two encoders of strings: `encoding/json`, which may also escape HTML, and the one
of `log/slog`, which has no short form for a backspace and a form feed. -/
inductive Quoting where
  | marshal
  | encoder
  | slog
  deriving DecidableEq

def escapeChar (quoting : Quoting) (c : Char) : List Char :=
  if c = '"' ∨ c = '\\' then ['\\', c]
  else if c = '\n' then ['\\', 'n']
  else if c = '\r' then ['\\', 'r']
  else if c = '\t' then ['\\', 't']
  else if c.toNat = 8 ∧ quoting ≠ .slog then ['\\', 'b']
  else if c.toNat = 12 ∧ quoting ≠ .slog then ['\\', 'f']
  else if c.toNat < 32 ∨ c.toNat = 0x2028 ∨ c.toNat = 0x2029 then unicodeEscape c
  else if quoting = .marshal ∧ (c = '<' ∨ c = '>' ∨ c = '&') then unicodeEscape c
  else [c]

def quote (quoting : Quoting) (s : String) : List Char :=
  '"' :: (s.toList.flatMap (escapeChar quoting) ++ ['"'])

theorem escapeChar_length (quoting : Quoting) (c : Char) : 0 < (escapeChar quoting c).length := by
  unfold escapeChar
  split_ifs <;> simp [unicodeEscape]

/-- Escaping never shortens a text. -/
theorem quote_length (quoting : Quoting) (s : String) :
    s.toList.length ≤ (quote quoting s).length := by
  have hmap : ∀ cs : List Char, cs.length ≤ (cs.flatMap (escapeChar quoting)).length := by
    intro cs
    induction cs with
    | nil => simp
    | cons c cs ih =>
      have hc := escapeChar_length quoting c
      rw [List.flatMap_cons, List.length_append, List.length_cons]
      omega
  have := hmap s.toList
  rw [quote, List.length_cons, List.length_append]
  omega

/-- A text joined with others is no longer than the whole. -/
theorem length_le_intercalate {α : Type} (sep : List α) {x : List α} {xs : List (List α)}
    (h : x ∈ xs) :
    x.length ≤ (sep.intercalate xs).length := by
  induction xs with
  | nil => cases h
  | cons y ys ih =>
    cases ys with
    | nil =>
      rw [List.mem_singleton] at h
      rw [h, List.intercalate_singleton]
    | cons z zs =>
      rw [List.intercalate_cons_cons, List.length_append, List.length_append]
      rcases List.mem_cons.mp h with rfl | h'
      · omega
      · have := ih h'
        omega

namespace Json

/-- Members of an object, sorted by key. -/
def sortMembers (members : List (String × List Char)) : List (String × List Char) :=
  members.insertionSort fun a b => a.1 ≤ b.1

def memberText (quoting : Quoting) (member : String × List Char) : List Char :=
  quote quoting member.1 ++ ':' :: member.2

mutual

/-- `json.Marshal`, or `Encoder.Encode` without HTML escapes. -/
def text (quoting : Quoting) : Json → List Char
  | .null => ['n', 'u', 'l', 'l']
  | .bool true => ['t', 'r', 'u', 'e']
  | .bool false => ['f', 'a', 'l', 's', 'e']
  | .number n => (toString n).toList
  | .string s => quote quoting s
  | .array items => '[' :: ([','].intercalate (itemTexts quoting items) ++ [']'])
  | .object fields =>
    '{' :: ([','].intercalate ((sortMembers (members quoting fields)).map (memberText quoting))
      ++ ['}'])

def itemTexts (quoting : Quoting) : List Json → List (List Char)
  | [] => []
  | item :: rest => text quoting item :: itemTexts quoting rest

def members (quoting : Quoting) : List (String × Json) → List (String × List Char)
  | [] => []
  | (key, value) :: rest => (key, text quoting value) :: members quoting rest

end

variable {q : Quoting}

theorem text_mem_itemTexts {item : Json} {items : List Json} (h : item ∈ items) :
    text q item ∈ itemTexts q items := by
  induction items with
  | nil => cases h
  | cons head rest ih =>
    rw [itemTexts]
    rcases List.mem_cons.mp h with rfl | h'
    · exact List.mem_cons_self
    · exact List.mem_cons_of_mem _ (ih h')

theorem mem_members {key : String} {value : Json} {fields : List (String × Json)}
    (h : (key, value) ∈ fields) : (key, text q value) ∈ members q fields := by
  induction fields with
  | nil => cases h
  | cons head rest ih =>
    obtain ⟨k, v⟩ := head
    rw [members]
    rcases List.mem_cons.mp h with heq | h'
    · cases heq
      exact List.mem_cons_self
    · exact List.mem_cons_of_mem _ (ih h')

theorem length_item_le {item : Json} {items : List Json} (h : item ∈ items) :
    (text q item).length ≤ (text q (.array items)).length := by
  have hjoin := length_le_intercalate [','] (text_mem_itemTexts (q := q) h)
  rw [text, List.length_cons, List.length_append]
  omega

theorem length_field_le {key : String} {value : Json} {fields : List (String × Json)}
    (h : (key, value) ∈ fields) :
    (text q value).length ≤ (text q (.object fields)).length := by
  have hmem : memberText q (key, text q value) ∈
      (sortMembers (members q fields)).map (memberText q) := by
    refine List.mem_map_of_mem ?_
    rw [sortMembers, List.mem_insertionSort]
    exact mem_members h
  have hjoin := length_le_intercalate [','] hmem
  have hvalue : (text q value).length ≤
      (memberText q (key, text q value)).length := by
    simp only [memberText, List.length_append, List.length_cons]
    omega
  rw [text, List.length_cons, List.length_append]
  omega

example : String.ofList (text .marshal (.object [("b", .string "<\n"), ("a", .array [.number (-3)])]))
    = "\x7b\"a\":[-3],\"b\":\"\\u003c\\n\"\x7d" := by decide

end Json
end Doupro
