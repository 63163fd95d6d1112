import Doupro.Go.Url

/-!
# Query strings

What a browser writes with `encodeURIComponent` and `net/url` reads back as the value of a query
parameter.
-/

namespace Doupro

namespace Text

/-- The UTF-8 bytes of a text. -/
def bytes (s : Text) : List UInt8 := s.flatMap String.utf8EncodeChar

/-- The text of UTF-8 bytes. -/
def ofBytes (b : List UInt8) : Option Text := b.toByteArray.utf8Decode?.map Array.toList

theorem ofBytes_bytes (s : Text) : ofBytes s.bytes = some s := by
  unfold ofBytes
  change (s.utf8Encode.utf8Decode?).map Array.toList = some s
  rw [List.utf8Decode?_utf8Encode, Option.map_some, List.toList_toArray]

end Text

namespace Query

open Text

/-- The characters `encodeURIComponent` leaves alone. -/
def unreserved (c : Char) : Bool :=
  URL.isLetter c || URL.isDigit c || "-_.!~*'()".toList.contains c

def upperHex (n : Nat) : Char := Char.ofNat (if n < 10 then 48 + n else 55 + n)

def escapeByte (b : UInt8) : Text :=
  if unreserved (Char.ofNat b.toNat) then [Char.ofNat b.toNat]
  else ['%', upperHex (b.toNat / 16), upperHex (b.toNat % 16)]

/-- `encodeURIComponent`. -/
def encodeURIComponent (s : Text) : Text := s.bytes.flatMap escapeByte

def unhex (c : Char) : Option Nat :=
  if '0' ≤ c ∧ c ≤ '9' then some (c.toNat - 48)
  else if 'a' ≤ c ∧ c ≤ 'f' then some (c.toNat - 87)
  else if 'A' ≤ c ∧ c ≤ 'F' then some (c.toNat - 55)
  else none

/-- `url.QueryUnescape`. -/
def unescape : Text → Option (List UInt8)
  | [] => some []
  | '%' :: high :: low :: rest => match unhex high, unhex low with
    | some h, some l => (unescape rest).map (UInt8.ofNat (16 * h + l) :: ·)
    | _, _ => none
  | c :: rest =>
    if c = '%' then none
    else if c = '+' then (unescape rest).map (0x20 :: ·)
    else (unescape rest).map (String.utf8EncodeChar c ++ ·)

/-- The pair of a part of a query that `url.ParseQuery` keeps. -/
def pair (part : Text) : Option (Text × Text) :=
  if part = [] ∨ ';' ∈ part then none
  else
    let (key, value) := cut '=' part
    match unescape key, unescape (value.getD []) with
    | some k, some v => match ofBytes k, ofBytes v with
      | some k, some v => some (k, v)
      | _, _ => none
    | _, _ => none

/-- `Query().Get`: the first value of a key, or else the empty text. -/
def get (query key : Text) : Text := (((split '&' query).filterMap pair).lookup key).getD []

example : get "a=1;&stack=my%20app%2Fb&stack=c".toList "stack".toList = "my app/b".toList := by
  decide

set_option maxRecDepth 2000 in
theorem unreserved_byte : ∀ n < 256, unreserved (Char.ofNat n) = true →
    String.utf8EncodeChar (Char.ofNat n) = [UInt8.ofNat n] ∧ Char.ofNat n ≠ '%' ∧
      Char.ofNat n ≠ '+' := by
  decide

theorem unhex_upperHex : ∀ n < 16, unhex (upperHex n) = some n := by decide

/-- A byte that was written is read back. -/
theorem unescape_escapeByte (b : UInt8) (rest : Text) :
    unescape (escapeByte b ++ rest) = (unescape rest).map (b :: ·) := by
  have hb : b.toNat < 256 := b.toNat_lt
  unfold escapeByte
  split
  · next hplain =>
    obtain ⟨hbytes, hpercent, hplus⟩ := unreserved_byte b.toNat hb hplain
    rw [List.singleton_append, unescape]
    · rw [if_neg hpercent, if_neg hplus, hbytes, UInt8.ofNat_toNat]
      rfl
    · rintro high low rest' hc -
      exact absurd hc hpercent
  · have hhigh : b.toNat / 16 < 16 := by omega
    have hvalue : 16 * (b.toNat / 16) + b.toNat % 16 = b.toNat := by omega
    simp only [List.cons_append, List.nil_append, unescape, unhex_upperHex _ hhigh,
      unhex_upperHex _ (Nat.mod_lt _ (by omega)), hvalue, UInt8.ofNat_toNat]

theorem unescape_encodeURIComponent (s : Text) :
    unescape (encodeURIComponent s) = some s.bytes := by
  unfold encodeURIComponent
  induction s.bytes with
  | nil => rfl
  | cons b rest ih => rw [List.flatMap_cons, unescape_escapeByte, ih, Option.map_some]

/-- The characters that structure a query. -/
def structural (c : Char) : Bool := c = '&' || c = '=' || c = ';'

theorem unreserved_plain {c : Char} (h : unreserved c = true) : structural c = false := by
  cases hc : structural c with
  | false => rfl
  | true =>
    simp only [structural, Bool.or_eq_true, decide_eq_true_eq] at hc
    rcases hc with (rfl | rfl) | rfl
    all_goals exact absurd h (by decide)

theorem upperHex_plain : ∀ n < 16, structural (upperHex n) = false := by decide

theorem escapeByte_plain {b : UInt8} {c : Char} (hc : c ∈ escapeByte b) : structural c = false := by
  have hb : b.toNat < 256 := b.toNat_lt
  unfold escapeByte at hc
  split at hc
  · next hplain =>
    obtain rfl := List.mem_singleton.mp hc
    exact unreserved_plain hplain
  · simp only [List.mem_cons, List.not_mem_nil, or_false] at hc
    rcases hc with rfl | rfl | rfl
    · decide
    · exact upperHex_plain _ (by omega)
    · exact upperHex_plain _ (by omega)

theorem encodeURIComponent_plain {s : Text} {c : Char} (hc : c ∈ encodeURIComponent s) :
    structural c = false := by
  obtain ⟨b, -, hb⟩ := List.mem_flatMap.mp hc
  exact escapeByte_plain hb

theorem encodeURIComponent_notMem {c : Char} (hc : structural c = true) (s : Text) :
    c ∉ encodeURIComponent s := by
  intro hmem
  rw [encodeURIComponent_plain hmem] at hc
  cases hc

/-- Nothing but the sign between a key and its value structures a parameter. -/
theorem parameter_notMem {c : Char} (hc : structural c = true) (hne : c ≠ '=') (key value : Text) :
    c ∉ encodeURIComponent key ++ '=' :: encodeURIComponent value := by
  intro hmem
  rcases List.mem_append.mp hmem with hkey | hrest
  · exact encodeURIComponent_notMem hc key hkey
  · rcases List.mem_cons.mp hrest with heq | hvalue
    · exact hne heq
    · exact encodeURIComponent_notMem hc value hvalue

theorem pair_encodeURIComponent (key value : Text) :
    pair (encodeURIComponent key ++ '=' :: encodeURIComponent value) = some (key, value) := by
  have hcut : cut '=' (encodeURIComponent key ++ '=' :: encodeURIComponent value) =
      (encodeURIComponent key, some (encodeURIComponent value)) := by
    rw [cut_append (encodeURIComponent_notMem (by decide) key)]
    simp [cut]
  have hsemicolon := parameter_notMem (c := ';') (by decide) (by decide) key value
  rw [pair, if_neg (by simpa using hsemicolon), hcut]
  simp only [Option.getD_some, unescape_encodeURIComponent, ofBytes_bytes]

/-- A parameter that was written is read back. -/
theorem get_encodeURIComponent (key value : Text) :
    get (encodeURIComponent key ++ '=' :: encodeURIComponent value) key = value := by
  rw [get, split_of_notMem (parameter_notMem (by decide) (by decide) key value),
    List.filterMap_cons, pair_encodeURIComponent]
  simp

end Query

end Doupro
