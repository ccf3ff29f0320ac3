import SessionScript.Decimal.Layout

/-!
# Numbers of a JSON document

A number is kept exactly when it is a whole number between `-2 ^ 63` and `2 ^ 64 - 1`; every other
number is a floating-point number. The bounds are part of the type, so that the text of a whole
number always reads back as the same whole number.
-/

namespace SessionScript.Json

/-- A whole number that a document keeps exactly. -/
structure Whole where
  /-- The number. -/
  val : Int
  /-- It is at least the least signed 64-bit number. -/
  lower : -0x8000000000000000 ≤ val
  /-- It is at most the greatest unsigned 64-bit number. -/
  upper : val < 0x10000000000000000
  deriving DecidableEq

/-- The whole number with a given value, if it is in range. -/
def Whole.ofInt? (n : Int) : Option Whole :=
  if h : -0x8000000000000000 ≤ n ∧ n < 0x10000000000000000 then some ⟨n, h.1, h.2⟩ else none

/-- Is this a signed 64-bit number? -/
def isSigned64 (n : Int) : Bool := -0x8000000000000000 ≤ n && n < 0x8000000000000000

/-- Every unsigned 64-bit number is in range. -/
def Whole.ofUInt64 (n : UInt64) : Whole :=
  ⟨n.toNat, by omega, by have := n.toNat_lt; omega⟩

/-- Every unsigned 32-bit number is in range. -/
def Whole.ofUInt32 (n : UInt32) : Whole :=
  ⟨n.toNat, by omega, by have := n.toNat_lt; omega⟩

/-- A number of a document. -/
inductive Number where
  /-- A whole number in range. -/
  | whole (n : Whole)
  /-- Any other number, rounded. -/
  | float (x : Binary64)
  deriving DecidableEq

/-- Documents write a number positionally when the exponent of its first digit is between -5 and 15,
and otherwise as `1e+16` or `1e-6`. -/
def floatLayout : Decimal.Layout where
  isPositional lead := -5 ≤ lead && lead ≤ 15
  positiveMark := "e+"
  negativeMark := "e-"
  infinity := "inf"
  notANumber := "NaN"

/-- The text of a whole number: an optional minus sign and its decimal digits. -/
def Whole.text (n : Whole) : String :=
  if n.val < 0 then "-" ++ String.ofList (Nat.toDigits 10 n.val.natAbs)
  else String.ofList (Nat.toDigits 10 n.val.natAbs)

/-- The text of a number. -/
def Number.text : Number → String
  | .whole n => n.text
  | .float x => floatLayout.write x

end SessionScript.Json
