import Mathlib.Data.List.Basic
import Mathlib.Algebra.Group.Nat.Defs

/-!
# Decoded JSON values

What `json.Unmarshal` builds in an `any`: numbers are float64, an object is a map.
`deepEqual` is `reflect.DeepEqual` on such values.
-/

namespace Doupro

inductive Json where
  | null
  | bool (b : Bool)
  | number (n : Int)
  | string (s : String)
  | array (items : List Json)
  | object (fields : List (String × Json))

/-- The float64 nearest to an integer, ties to even. -/
def float64 (n : Int) : Int :=
  let magnitude := n.natAbs
  if magnitude < 2 ^ 53 then n
  else
    let unit := 2 ^ (magnitude.log2 - 52)
    let low := magnitude / unit
    let rest := magnitude % unit
    let rounded := if 2 * rest < unit ∨ (2 * rest = unit ∧ low % 2 = 0) then low else low + 1
    n.sign * (rounded * unit : Nat)

namespace Json

mutual

/-- `reflect.DeepEqual`. Objects are maps, so the order of their fields is no matter. -/
def deepEqual : Json → Json → Bool
  | .null, .null => true
  | .bool a, .bool b => a == b
  | .number a, .number b => float64 a == float64 b
  | .string a, .string b => a == b
  | .array as, .array bs => deepEqualItems as bs
  | .object as, .object bs => as.length == bs.length && deepEqualFields as bs
  | _, _ => false

def deepEqualItems : List Json → List Json → Bool
  | [], [] => true
  | a :: as, b :: bs => deepEqual a b && deepEqualItems as bs
  | _, _ => false

def deepEqualFields : List (String × Json) → List (String × Json) → Bool
  | [], _ => true
  | (key, a) :: as, bs =>
    (match bs.lookup key with
      | some b => deepEqual a b
      | none => false) && deepEqualFields as bs

end

mutual

/-- `compareJSONSubset`; a mismatch is reported with its path. -/
def compareSubset (want got : Json) (path : String) : Option String :=
  match want, got with
  | .object w, .object g => compareSubsetFields w g path
  | .object _, _ => some (path ++ " type changed")
  | .array w, .array g => if deepEqualItems w g then none else some (path ++ " changed")
  | .array _, _ => some (path ++ " changed")
  | want, got => if deepEqual want got then none else some (path ++ " changed")

def compareSubsetFields (want got : List (String × Json)) (path : String) : Option String :=
  match want with
  | [] => none
  | (key, value) :: rest => match got.lookup key with
    | none => some (path ++ "." ++ key ++ " missing")
    | some actual => (compareSubset value actual (path ++ "." ++ key)).or
        (compareSubsetFields rest got path)

end

end Json
end Doupro
