import Doupro.Go.Query
import Mathlib.Data.List.Nodup
import Mathlib.Data.List.Sort

/-!
# Query parameters

`url.Values` with one value a key, as `Set` leaves them: `Encode` writes the parameters in the
order of their keys, and `Query().Get` reads each of them back.
-/

namespace Doupro

namespace Query

open Text

/-- The characters `url.QueryEscape` leaves alone. -/
def queryChar (c : Char) : Bool :=
  URL.isLetter c || URL.isDigit c || "-_.~".toList.contains c

def queryEscapeByte (b : UInt8) : Text :=
  if b = 0x20 then ['+']
  else if queryChar (Char.ofNat b.toNat) then [Char.ofNat b.toNat]
  else ['%', upperHex (b.toNat / 16), upperHex (b.toNat % 16)]

/-- `url.QueryEscape`. -/
def queryEscape (s : Text) : Text := s.bytes.flatMap queryEscapeByte

/-- `url.Values` whose keys have one value each. -/
abbrev Values := List (Text × Text)

/-- A parameter that is set unless its value is empty. -/
def setNonempty (key : String) (value : Text) : Values :=
  if value = [] then [] else [(key.toList, value)]

def parameter (entry : Text × Text) : Text := queryEscape entry.1 ++ '=' :: queryEscape entry.2

/-- `Values.Encode`. -/
def encode (values : Values) : Text :=
  ['&'].intercalate ((values.insertionSort fun a b => a.1 ≤ b.1).map parameter)

example : encode [("limit".toList, "1000".toList), ("event".toList, "a b&c".toList)] =
    "event=a+b%26c&limit=1000".toList := by decide

/-! ### Escapes are read back -/

set_option maxRecDepth 2000 in
theorem queryChar_plain : ∀ n < 256, queryChar (Char.ofNat n) = true →
    String.utf8EncodeChar (Char.ofNat n) = [UInt8.ofNat n] ∧ Char.ofNat n ≠ '%' ∧
      Char.ofNat n ≠ '+' := by
  decide

theorem unescape_queryEscapeByte (b : UInt8) (rest : Text) :
    unescape (queryEscapeByte b ++ rest) = (unescape rest).map (b :: ·) := by
  have hb : b.toNat < 256 := b.toNat_lt
  unfold queryEscapeByte
  split
  · next hspace =>
    rw [List.singleton_append, unescape]
    · rw [if_neg (by decide), if_pos rfl, hspace]
    · rintro high low rest' hc -
      exact absurd hc (by decide)
  · split
    · next hplain =>
      obtain ⟨hbytes, hpercent, hplus⟩ := queryChar_plain b.toNat hb hplain
      rw [List.singleton_append, unescape]
      · rw [if_neg hpercent, if_neg hplus, hbytes, UInt8.ofNat_toNat]
        rfl
      · rintro high low rest' hc -
        exact absurd hc hpercent
    · have hhigh : b.toNat / 16 < 16 := by omega
      have hvalue : 16 * (b.toNat / 16) + b.toNat % 16 = b.toNat := by omega
      simp only [List.cons_append, List.nil_append, unescape, unhex_upperHex _ hhigh,
        unhex_upperHex _ (Nat.mod_lt _ (by omega)), hvalue, UInt8.ofNat_toNat]

theorem unescape_queryEscape (s : Text) : unescape (queryEscape s) = some s.bytes := by
  unfold queryEscape
  induction s.bytes with
  | nil => rfl
  | cons b rest ih => rw [List.flatMap_cons, unescape_queryEscapeByte, ih, Option.map_some]

/-- The characters that structure a URL after its path. -/
def delimiter (c : Char) : Bool := "&=;?#".toList.contains c

theorem upperHex_delimiter : ∀ n < 16, delimiter (upperHex n) = false := by decide

set_option maxRecDepth 2000 in
theorem queryChar_delimiter : ∀ n < 256, queryChar (Char.ofNat n) = true →
    delimiter (Char.ofNat n) = false := by
  decide

theorem queryEscapeByte_delimiter {b : UInt8} {c : Char} (hc : c ∈ queryEscapeByte b) :
    delimiter c = false := by
  have hb : b.toNat < 256 := b.toNat_lt
  unfold queryEscapeByte at hc
  split at hc
  · obtain rfl := List.mem_singleton.mp hc
    decide
  · split at hc
    · next hplain =>
      obtain rfl := List.mem_singleton.mp hc
      exact queryChar_delimiter _ hb hplain
    · simp only [List.mem_cons, List.not_mem_nil, or_false] at hc
      rcases hc with rfl | rfl | rfl
      · decide
      · exact upperHex_delimiter _ (by omega)
      · exact upperHex_delimiter _ (by omega)

theorem queryEscape_notMem {c : Char} (hc : delimiter c = true) (s : Text) :
    c ∉ queryEscape s := by
  intro hmem
  obtain ⟨b, -, hb⟩ := List.mem_flatMap.mp hmem
  rw [queryEscapeByte_delimiter hb] at hc
  cases hc

theorem parameter_delimiter {c : Char} (hc : delimiter c = true) (hne : c ≠ '=')
    (entry : Text × Text) : c ∉ parameter entry := by
  intro hmem
  rcases List.mem_append.mp hmem with hkey | hrest
  · exact queryEscape_notMem hc _ hkey
  · rcases List.mem_cons.mp hrest with heq | hvalue
    · exact hne heq
    · exact queryEscape_notMem hc _ hvalue

theorem pair_parameter (entry : Text × Text) : pair (parameter entry) = some entry := by
  have hcut : cut '=' (parameter entry) = (queryEscape entry.1, some (queryEscape entry.2)) := by
    rw [parameter, cut_append (queryEscape_notMem (by decide) entry.1)]
    simp [cut]
  have hsemicolon := parameter_delimiter (c := ';') (by decide) (by decide) entry
  have hne : parameter entry ≠ [] := by simp [parameter]
  rw [pair, if_neg (by simpa [hne] using hsemicolon), hcut]
  simp only [Option.getD_some, unescape_queryEscape, ofBytes_bytes]

/-! ### Parameters are read back -/

/-- A table without a key twice is looked up alike in any order. -/
theorem lookup_perm {κ β : Type} [BEq κ] [LawfulBEq κ] {l l' : List (κ × β)} (h : l.Perm l')
    (hkeys : (l.map Prod.fst).Nodup) (key : κ) : l.lookup key = l'.lookup key := by
  induction h with
  | nil => rfl
  | cons entry _ ih =>
    rw [List.lookup_cons, List.lookup_cons, ih (List.nodup_cons.mp hkeys).2]
  | swap first second l =>
    have hne : first.1 ≠ second.1 := by
      intro heq
      simp [heq] at hkeys
    rw [List.lookup_cons, List.lookup_cons, List.lookup_cons, List.lookup_cons]
    cases hfirst : key == first.1 with
    | false => rfl
    | true =>
      obtain rfl := eq_of_beq hfirst
      rw [beq_eq_false_iff_ne.mpr hne]
  | trans h _ ih ih' =>
    rw [ih hkeys, ih' ((h.map Prod.fst).nodup_iff.mp hkeys)]

/-- Each parameter that was set is read back. -/
theorem get_encode {values : Values} (hkeys : (values.map Prod.fst).Nodup) (key : Text) :
    get (encode values) key = (values.lookup key).getD [] := by
  have hperm := List.perm_insertionSort (fun a b : Text × Text => a.1 ≤ b.1) values
  unfold get encode
  generalize values.insertionSort (fun a b => a.1 ≤ b.1) = sorted at hperm
  have hparts : (split '&' (['&'].intercalate (sorted.map parameter))).filterMap pair = sorted := by
    cases hsorted : sorted with
    | nil => rfl
    | cons entry rest =>
      rw [split_intercalate (by simp)]
      · rw [List.filterMap_map, show pair ∘ parameter = some from funext pair_parameter,
          List.filterMap_some]
      · intro part hpart
        obtain ⟨entry, -, rfl⟩ := List.mem_map.mp hpart
        exact parameter_delimiter (by decide) (by decide) entry
  rw [hparts, lookup_perm hperm ((hperm.map Prod.fst).nodup_iff.mpr hkeys) key]

theorem setNonempty_keys (key : String) (value : Text) :
    ((setNonempty key value).map Prod.fst).Sublist [key.toList] := by
  unfold setNonempty
  split
  · exact List.nil_sublist _
  · exact List.Sublist.refl _

theorem lookup_setNonempty (key : String) (value : Text) (rest : Values) (k : Text) :
    ((setNonempty key value ++ rest).lookup k).getD [] =
      if k = key.toList ∧ value ≠ [] then value else (rest.lookup k).getD [] := by
  unfold setNonempty
  split
  · next hempty => rw [if_neg (by simp [hempty]), List.nil_append]
  · next hvalue =>
    rw [List.singleton_append, List.lookup_cons]
    cases hk : k == key.toList with
    | true => rw [if_pos ⟨eq_of_beq hk, hvalue⟩, Option.getD_some]
    | false => rw [if_neg fun h => beq_eq_false_iff_ne.mp hk h.1]

theorem lookup_setNonempty_last (key : String) (value : Text) (k : Text) :
    ((setNonempty key value).lookup k).getD [] =
      if k = key.toList ∧ value ≠ [] then value else [] := by
  have h := lookup_setNonempty key value [] k
  rwa [List.append_nil] at h

theorem encode_delimiter {c : Char} (hc : delimiter c = true) (hsign : c ≠ '=') (hand : c ≠ '&')
    (values : Values) : c ∉ encode values := by
  intro hmem
  rcases mem_intercalate hmem with heq | ⟨part, hpart, hin⟩
  · exact hand heq
  · obtain ⟨entry, -, rfl⟩ := List.mem_map.mp hpart
    exact parameter_delimiter hc hsign entry hin

end Query

end Doupro
