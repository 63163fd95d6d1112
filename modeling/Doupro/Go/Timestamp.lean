import Mathlib.Data.Int.Basic

/-!
# Instants and their stored text

Instants are UTC nanoseconds since the Unix epoch. The store writes them in the
`time.RFC3339Nano` layout, which drops trailing zeros of the fraction, and SQL
compares the texts byte by byte.
-/

namespace Doupro

abbrev Time := Int
abbrev Duration := Int

def nanosecond : Duration := 1
def millisecond : Duration := 1000000
def second : Duration := 1000000000
def minute : Duration := 60 * second

namespace Time

/-- The last `width` decimal digits of `n`. -/
def padded : (width : Nat) → (n : Nat) → List Char
  | 0, _ => []
  | width + 1, n => padded width (n / 10) ++ [Char.ofNat (48 + n % 10)]

/-- Proleptic Gregorian year, month and day of a day number counted from the epoch. -/
def civil (days : Int) : Int × Nat × Nat :=
  let z := days + 719468
  let era := z / 146097
  let doe := (z % 146097).toNat
  let yoe := (doe - doe / 1460 + doe / 36524 - doe / 146096) / 365
  let doy := doe - (365 * yoe + yoe / 4 - yoe / 100)
  let mp := (5 * doy + 2) / 153
  let month := if mp < 10 then mp + 3 else mp - 9
  let year := (yoe : Int) + era * 400 + if month ≤ 2 then 1 else 0
  (year, month, doy - (153 * mp + 2) / 5 + 1)

/-- A year, with at least four digits. -/
def yearText (year : Int) : List Char :=
  let digits := if year.natAbs < 10000 then padded 4 year.natAbs else Nat.toDigits 10 year.natAbs
  if year < 0 then '-' :: digits else digits

def dropTrailingZeros (digits : List Char) : List Char :=
  (digits.reverse.dropWhile (· == '0')).reverse

/-- `t.UTC().Format(time.RFC3339Nano)`. -/
def rfc3339Nano (t : Time) : List Char :=
  let seconds := t / second
  let nanos := (t % second).toNat
  let clock := (seconds % 86400).toNat
  let (year, month, day) := civil (seconds / 86400)
  let fraction := if nanos = 0 then [] else '.' :: dropTrailingZeros (padded 9 nanos)
  yearText year ++ '-' :: padded 2 month ++ '-' :: padded 2 day ++
    'T' :: padded 2 (clock / 3600) ++ ':' :: padded 2 (clock / 60 % 60) ++
    ':' :: padded 2 (clock % 60) ++ fraction ++ ['Z']

/-- SQLite's `a <= b` on text columns: the bytes decide, and the texts are ASCII. -/
def textLE : List Char → List Char → Bool
  | [], _ => true
  | _ :: _, [] => false
  | a :: as, b :: bs => a.toNat < b.toNat || (a == b && textLE as bs)

/-- `a <= b` between two time columns. -/
def columnLE (a b : Time) : Bool := textLE a.rfc3339Nano b.rfc3339Nano

example : String.ofList (rfc3339Nano (1700000000 * second + 120000000)) =
    "2023-11-14T22:13:20.12Z" := by decide

end Time
end Doupro
