import Doupro.Go.Strings
import Doupro.Go.Timestamp

/-!
# Durations as text

`time.ParseDuration`. The digits after the point are cut off at a nanosecond exactly, where
Go multiplies floating point numbers.
-/

namespace Doupro

namespace Duration

/-- `unitMap`, in nanoseconds. -/
def unitOf (name : List Char) : Option Nat :=
  if name = "ns".toList then some 1
  else if name = "us".toList ∨ name = "µs".toList ∨ name = "μs".toList then some 1000
  else if name = "ms".toList then some 1000000
  else if name = "s".toList then some 1000000000
  else if name = "m".toList then some 60000000000
  else if name = "h".toList then some 3600000000000
  else none

/-- `leadingInt`: the value of the digits in front, unless it overflows, and the rest. -/
def leadingInt : Nat → List Char → Option (Nat × List Char)
  | x, [] => some (x, [])
  | x, c :: cs => match digitValue c with
    | none => some (x, c :: cs)
    | some d => if 2 ^ 63 / 10 < x ∨ 2 ^ 63 < x * 10 + d then none else leadingInt (x * 10 + d) cs

/-- `leadingFraction`: digits that would overflow are skipped. -/
def leadingFraction : (overflow : Bool) → (x scale : Nat) → List Char → Nat × Nat × List Char
  | _, x, scale, [] => (x, scale, [])
  | overflow, x, scale, c :: cs => match digitValue c with
    | none => (x, scale, c :: cs)
    | some d =>
      if overflow ∨ (2 ^ 63 - 1) / 10 < x ∨ 2 ^ 63 < x * 10 + d then leadingFraction true x scale cs
      else leadingFraction false (x * 10 + d) (scale * 10) cs

def inUnit (c : Char) : Bool := c ≠ '.' && (digitValue c).isNone

def quoted (s : List Char) : String := "\"" ++ String.ofList s ++ "\""

/-- One number with its unit, in nanoseconds. -/
def term (orig s : List Char) : Except String (Nat × List Char) :=
  let invalid := Except.error ("time: invalid duration " ++ quoted orig)
  match leadingInt 0 s with
  | none => invalid
  | some (v, rest) =>
    let (f, scale, tail) := match rest with
      | '.' :: fraction => leadingFraction false 0 1 fraction
      | _ => (0, 1, rest)
    let digits := rest.length ≠ s.length ∨ tail.length + 1 < rest.length
    if ¬ digits then invalid
    else if tail.takeWhile inUnit = [] then
      .error ("time: missing unit in duration " ++ quoted orig)
    else match unitOf (tail.takeWhile inUnit) with
      | none => .error ("time: unknown unit " ++ quoted (tail.takeWhile inUnit) ++ " in duration " ++
          quoted orig)
      | some unit =>
        if 2 ^ 63 / unit < v ∨ 2 ^ 63 < v * unit + f * unit / scale then invalid
        else .ok (v * unit + f * unit / scale, tail.dropWhile inUnit)

/-- The loop of `ParseDuration`; every term takes at least one character. -/
def terms (orig : List Char) : (fuel : Nat) → Nat → List Char → Except String Nat
  | 0, d, _ => .ok d
  | _, d, [] => .ok d
  | fuel + 1, d, s => do
    let (n, rest) ← term orig s
    if 2 ^ 63 < d + n then throw ("time: invalid duration " ++ quoted orig)
    terms orig fuel (d + n) rest

/-- `time.ParseDuration`. -/
def parse (text : String) : Except String Duration :=
  let orig := text.toList
  let (neg, s) := match orig with
    | '-' :: rest => (true, rest)
    | '+' :: rest => (false, rest)
    | _ => (false, orig)
  if s = ['0'] then .ok 0
  else if s = [] then .error ("time: invalid duration " ++ quoted orig)
  else do
    let d ← terms orig s.length 0 s
    if neg then return -(d : Int)
    if 2 ^ 63 - 1 < d then throw ("time: invalid duration " ++ quoted orig)
    return (d : Int)

example : (parse "1h30m").toOption = some (90 * minute) := by decide

end Duration
end Doupro
