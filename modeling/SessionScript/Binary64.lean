/-!
# Binary floating-point numbers

A number of the 64-bit binary format is kept as its bits, so that equality is decidable and every
operation is exact natural-number arithmetic followed by one rounding. Rounding is to the nearest
representable number, a tie goes to the even significand, and a magnitude beyond the largest finite
number becomes infinite.
-/

namespace SessionScript

/-- A 64-bit binary floating-point number: a sign bit, eleven exponent bits, 52 fraction bits. -/
structure Binary64 where
  /-- The number's bits, the sign in the highest place. -/
  bits : UInt64
  deriving DecidableEq

namespace Binary64

/-- The nearest integer to `num / den`, a tie going to the even one. -/
def roundHalfEven (num den : Nat) : Nat :=
  let quotient := num / den
  let twice := 2 * (num % den)
  if twice < den then quotient
  else if den < twice then quotient + 1
  else quotient + quotient % 2

/-- The value of the sign bit. -/
def signBit : Nat := 0x8000000000000000

/-- The least significand of full length: the value of the bit that the format leaves out. -/
def hiddenBit : Nat := 0x10000000000000

/-- The bits of positive infinity: the least magnitude that is not finite. -/
def infiniteMagnitude : Nat := 0x7ff * hiddenBit

/-- The usual magnitude of what is not a number. -/
def undefinedMagnitude : Nat := infiniteMagnitude + hiddenBit / 2

/-- The number with the given sign whose lower 63 bits are `magnitude`. -/
def ofMagnitude (negative : Bool) (magnitude : Nat) : Binary64 :=
  ⟨(if negative then signBit + magnitude else magnitude).toUInt64⟩

/-- Is the sign bit set? Negative zero counts as negative. -/
def isNegative (x : Binary64) : Bool := signBit ≤ x.bits.toNat

/-- The lower 63 bits: an order-preserving code of the absolute value. -/
def magnitude (x : Binary64) : Nat := x.bits.toNat % signBit

/-- Finite numbers are those below infinity; the others are infinite or not a number. -/
def isFinite (x : Binary64) : Bool := x.magnitude < infiniteMagnitude

/-- Is this one of the two infinities? -/
def isInfinite (x : Binary64) : Bool := x.magnitude == infiniteMagnitude

/-- Is this one of the two zeros? -/
def isZero (x : Binary64) : Bool := x.magnitude == 0

/-- The integer `m` in `|x| = m * 2 ^ q`, for a finite `x`. -/
def significand (x : Binary64) : Nat :=
  let fraction := x.magnitude % hiddenBit
  if x.magnitude < hiddenBit then fraction else fraction + hiddenBit

/-- The exponent `q` in `|x| = m * 2 ^ q`, for a finite `x`. -/
def exponent (x : Binary64) : Int :=
  (max 1 (x.magnitude / hiddenBit) : Nat) - 1075

/-- The absolute value of a finite number as numerator and denominator. -/
def ratio (x : Binary64) : Nat × Nat :=
  (x.significand * Nat.pow 2 x.exponent.toNat, Nat.pow 2 (-x.exponent).toNat)

/-- The number nearest to `num / den` with the given sign. With `e = log2 num - log2 den` the
quotient lies strictly between `2 ^ (e - 1)` and `2 ^ (e + 1)`, so one of the two exponents `e -
53` and `e - 52` leaves a significand of 53 bits. The code of a significand `m` at exponent `q` is
`(q + 1074) * 2 ^ 52 + m`, which also carries correctly when rounding reaches the next power of
two, and covers the subnormal numbers at `q = -1074`. -/
def ofRatio (negative : Bool) (num den : Nat) : Binary64 :=
  if num = 0 then ofMagnitude negative 0 else
  let low : Int := (num.log2 : Int) - (den.log2 : Int) - 53
  let scaled (q : Int) : Nat × Nat := (num * Nat.pow 2 (-q).toNat, den * Nat.pow 2 q.toNat)
  let wide := scaled low
  let q : Int := max (-1074) (if wide.1 < wide.2 * (2 * hiddenBit) then low else low + 1)
  let exact := scaled q
  let code := (q + 1074).toNat * hiddenBit + roundHalfEven exact.1 exact.2
  ofMagnitude negative (min infiniteMagnitude code)

/-- The number nearest to a natural number. -/
def ofNat (n : Nat) : Binary64 := ofRatio false n 1

/-- The same magnitude with the given sign. -/
def withSign (negative : Bool) (x : Binary64) : Binary64 := ofMagnitude negative x.magnitude

/-- The rounded product of two finite numbers. -/
def mul (x y : Binary64) : Binary64 :=
  ofRatio (x.isNegative != y.isNegative) (x.ratio.1 * y.ratio.1) (x.ratio.2 * y.ratio.2)

/-- The rounded quotient of two finite numbers, the second not zero. -/
def div (x y : Binary64) : Binary64 :=
  ofRatio (x.isNegative != y.isNegative) (x.ratio.1 * y.ratio.2) (x.ratio.2 * y.ratio.1)

/-- The number nearest to `digits * 10 ^ exponent`. A decimal far outside the finite range is
settled by its number of digits alone. -/
def ofDecimal (negative : Bool) (digits : Nat) (exponent : Int) : Binary64 :=
  let places : Int := (Nat.toDigits 10 digits).length + exponent
  if digits = 0 then ofMagnitude negative 0
  else if 400 < places then ofMagnitude negative infiniteMagnitude
  else if places < -400 then ofMagnitude negative 0
  else ofRatio negative (digits * Nat.pow 10 exponent.toNat) (Nat.pow 10 (-exponent).toNat)

end Binary64

end SessionScript
