import Mathlib.Data.List.Basic

/-!
# Base64 without padding

`base64.RawStdEncoding`: three bytes become four letters. The last letters of a text may stand for
fewer than three bytes, and the decoder skips line ends.
-/

namespace Doupro

/-- A Go string is any sequence of bytes. -/
abbrev Bytes := List UInt8

/-- The bytes of a text. -/
def bytesOf (text : String) : Bytes := text.toUTF8.data.toList

namespace Base64

/-- The letter of six bits. -/
def letter (sextet : Nat) : UInt8 :=
  if sextet < 26 then UInt8.ofNat (65 + sextet)
  else if sextet < 52 then UInt8.ofNat (71 + sextet)
  else if sextet < 62 then UInt8.ofNat (sextet - 4)
  else if sextet = 62 then 43
  else 47

/-- The six bits of a letter. -/
def sextet (c : UInt8) : Option Nat :=
  if 65 ≤ c ∧ c ≤ 90 then some (c.toNat - 65)
  else if 97 ≤ c ∧ c ≤ 122 then some (c.toNat - 71)
  else if 48 ≤ c ∧ c ≤ 57 then some (c.toNat + 4)
  else if c = 43 then some 62
  else if c = 47 then some 63
  else none

/-- The six bits of each letter of the text. -/
def sextets : Bytes → List Nat
  | a :: b :: c :: rest =>
    let n := a.toNat * 65536 + b.toNat * 256 + c.toNat
    n / 262144 :: n / 4096 % 64 :: n / 64 % 64 :: n % 64 :: sextets rest
  | [a, b] =>
    let n := a.toNat * 256 + b.toNat
    [n / 1024, n / 16 % 64, n % 16 * 4]
  | [a] => [a.toNat / 4, a.toNat % 4 * 16]
  | [] => []

/-- The bytes of the six bits; what is left over of the last letter is not looked at. -/
def octets : List Nat → Option Bytes
  | a :: b :: c :: d :: rest =>
    let n := a * 262144 + b * 4096 + c * 64 + d
    (octets rest).map fun bytes =>
      UInt8.ofNat (n / 65536) :: UInt8.ofNat (n / 256) :: UInt8.ofNat n :: bytes
  | [a, b, c] =>
    let n := a * 4096 + b * 64 + c
    some [UInt8.ofNat (n / 1024), UInt8.ofNat (n / 4)]
  | [a, b] => some [UInt8.ofNat ((a * 64 + b) / 16)]
  | [_] => none
  | [] => some []

/-- `RawStdEncoding.EncodeToString`. -/
def encodeToString (bytes : Bytes) : Bytes := (sextets bytes).map letter

/-- `RawStdEncoding.DecodeString`. -/
def decodeString (text : Bytes) : Option Bytes :=
  ((text.filter fun c => c ≠ 10 ∧ c ≠ 13).mapM sextet).bind octets

theorem sextet_letter : ∀ n < 64, sextet (letter n) = some n := by decide

theorem letter_stays : ∀ n < 64, letter n ≠ 10 ∧ letter n ≠ 13 := by decide

theorem sextets_lt (bytes : Bytes) : ∀ n ∈ sextets bytes, n < 64 := by
  induction bytes using sextets.induct with
  | case1 a b c rest ih =>
    have ha := a.toNat_lt
    have hb := b.toNat_lt
    have hc := c.toNat_lt
    intro n hn
    simp only [sextets, List.mem_cons] at hn
    rcases hn with rfl | rfl | rfl | rfl | hn
    · omega
    · omega
    · omega
    · omega
    · exact ih n hn
  | case2 a b =>
    have ha := a.toNat_lt
    have hb := b.toNat_lt
    intro n hn
    simp only [sextets, List.mem_cons, List.not_mem_nil, or_false] at hn
    omega
  | case3 a =>
    have ha := a.toNat_lt
    intro n hn
    simp only [sextets, List.mem_cons, List.not_mem_nil, or_false] at hn
    omega
  | case4 => simp [sextets]

theorem octets_sextets (bytes : Bytes) : octets (sextets bytes) = some bytes := by
  have hbyte {n : Nat} {b : UInt8} (h : n % 256 = b.toNat) : UInt8.ofNat n = b :=
    UInt8.toNat_inj.mp (by simpa using h)
  induction bytes using sextets.induct with
  | case1 a b c rest ih =>
    have ha := a.toNat_lt
    have hb := b.toNat_lt
    have hc := c.toNat_lt
    simp only [sextets, octets, ih, Option.map_some]
    rw [hbyte (b := a) (by omega), hbyte (b := b) (by omega), hbyte (b := c) (by omega)]
  | case2 a b =>
    have ha := a.toNat_lt
    have hb := b.toNat_lt
    simp only [sextets, octets]
    rw [hbyte (b := a) (by omega), hbyte (b := b) (by omega)]
  | case3 a =>
    have ha := a.toNat_lt
    simp only [sextets, octets]
    rw [hbyte (b := a) (by omega)]
  | case4 => rfl

theorem mapM_sextet {ns : List Nat} (h : ∀ n ∈ ns, n < 64) :
    (ns.map letter).mapM sextet = some ns := by
  induction ns with
  | nil => rfl
  | cons n ns ih =>
    have hn := sextet_letter n (h n List.mem_cons_self)
    have hrest := ih fun m hm => h m (List.mem_cons_of_mem _ hm)
    simp [hn, hrest]

/-- What was encoded is decoded to itself. -/
theorem decodeString_encodeToString (bytes : Bytes) :
    decodeString (encodeToString bytes) = some bytes := by
  have hlt := sextets_lt bytes
  have hkept : (encodeToString bytes).filter (fun c => c ≠ 10 ∧ c ≠ 13) = encodeToString bytes := by
    rw [List.filter_eq_self]
    intro c hc
    obtain ⟨n, hn, rfl⟩ := List.mem_map.mp hc
    simpa using letter_stays n (hlt n hn)
  rw [decodeString, hkept, encodeToString, mapM_sextet hlt]
  exact octets_sextets bytes

end Base64
end Doupro
