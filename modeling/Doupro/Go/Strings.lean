import Mathlib.Data.String.Basic
import Mathlib.Algebra.Group.Int.Defs

/-!
# String helpers of the Go standard library

Only the functions the modelled code calls, on the characters of the text.
-/

namespace Doupro

/-- `strings.HasPrefix`. -/
def hasPrefix (s start : String) : Bool := start.toList.isPrefixOf s.toList

def digitValue (c : Char) : Option Nat :=
  if '0' ≤ c ∧ c ≤ '9' then some (c.toNat - 48) else none

def digitsValue : Nat → List Char → Option Nat
  | acc, [] => some acc
  | acc, c :: cs => (digitValue c).bind fun d => digitsValue (acc * 10 + d) cs

def unsignedValue : List Char → Option Nat
  | [] => none
  | c :: cs => digitsValue 0 (c :: cs)

/-- `strconv.Atoi` on a 64-bit platform: an optional sign, decimal digits, in range. -/
def atoi (s : String) : Option Int :=
  let value : Option Int := match s.toList with
    | '-' :: cs => (unsignedValue cs).map fun n => -(n : Int)
    | '+' :: cs => (unsignedValue cs).map fun n => (n : Int)
    | cs => (unsignedValue cs).map fun n => (n : Int)
  value.filter fun n => -2 ^ 63 ≤ n ∧ n < 2 ^ 63

example : atoi "137" = some 137 := by decide

/-- The lower case of a rune. Outside ASCII only the Kelvin sign and the dotted capital I
have an ASCII lower case, so the other runes are left as they are. -/
def lowerRune (c : Char) : Char :=
  if 'A' ≤ c ∧ c ≤ 'Z' then Char.ofNat (c.toNat + 32)
  else if c.toNat = 0x212A then 'k'
  else if c.toNat = 0x130 then 'i'
  else c

/-- `strings.ToLower`, as far as a comparison with an ASCII name can tell. -/
def toLower (s : String) : String := String.ofList (s.toList.map lowerRune)

/-- `strings.TrimPrefix(name, "/")`. -/
def trimSlash (name : String) : String :=
  match name.toList with
  | '/' :: rest => String.ofList rest
  | _ => name

theorem trimSlash_slash (name : String) : trimSlash ("/" ++ name) = name := by
  simp [trimSlash]

end Doupro
