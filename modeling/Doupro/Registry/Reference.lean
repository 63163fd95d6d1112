import Mathlib.Data.String.Basic

/-!
# Immutable references

`IsDigestReference` tells an image ID or a repository digest from a tag.
-/

namespace Doupro.Registry

/-- `unicode.IsSpace`. -/
def isSpace (c : Char) : Bool :=
  let n := c.toNat
  (9 ≤ n && n ≤ 13) || n == 0x20 || n == 0x85 || n == 0xA0 || n == 0x1680 ||
    (0x2000 ≤ n && n ≤ 0x200A) || n == 0x2028 || n == 0x2029 || n == 0x202F || n == 0x205F ||
    n == 0x3000

/-- `strings.TrimSpace`. -/
def trimSpace (text : List Char) : List Char :=
  ((text.dropWhile isSpace).reverse.dropWhile isSpace).reverse

/-- A text without characters to drop is kept. -/
theorem dropWhile_eq_self {p : Char → Bool} {text : List Char} (h : ∀ c ∈ text, p c = false) :
    text.dropWhile p = text := by
  cases text with
  | nil => rfl
  | cons c text => exact List.dropWhile_cons_of_neg (by simp [h c List.mem_cons_self])

theorem trimSpace_eq {text : List Char} (h : ∀ c ∈ text, isSpace c = false) :
    trimSpace text = text := by
  rw [trimSpace, dropWhile_eq_self h, dropWhile_eq_self fun c hc => h c (List.mem_reverse.mp hc),
    List.reverse_reverse]

def isLowerHex (c : Char) : Bool := ('0' ≤ c && c ≤ '9') || ('a' ≤ c && c ≤ 'f')

/-- The number of hex digits of each algorithm `digest.Parse` has available. -/
def digestLength (algorithm : List Char) : Option Nat :=
  if algorithm = "sha256".toList then some 64
  else if algorithm = "sha384".toList then some 96
  else if algorithm = "sha512".toList then some 128
  else none

/-- `digest.Parse` succeeds. -/
def isDigest (text : List Char) : Bool :=
  let algorithm := text.takeWhile (· != ':')
  let encoded := (text.dropWhile (· != ':')).drop 1
  match digestLength algorithm with
  | none => false
  | some length => decide (encoded.length = length) && encoded.all isLowerHex

/-- `registry.IsDigestReference`. -/
@[irreducible] def isDigestReference (image : String) : Bool :=
  let trimmed := trimSpace image.toList
  isDigest (trimmed.reverse.takeWhile (· != '@')).reverse

end Doupro.Registry
