import SessionScript.Decimal.Shortest

/-!
# Writing a floating-point number

A `Layout` holds the decisions a format makes about the text of a number once its digits are known:
where positional notation ends, and how the exponent and the special values are spelled.
-/

namespace SessionScript.Decimal

/-- How a format lays out the digits of a floating-point number. -/
structure Layout where
  /-- The range of decimal exponents of the first digit that are written positionally. -/
  isPositional : Int → Bool
  /-- The mark between the digits and a positive exponent. -/
  positiveMark : String
  /-- The mark between the digits and a negative exponent, the minus sign included. -/
  negativeMark : String
  /-- The text of positive infinity. -/
  infinity : String
  /-- The text of a value that is not a number. -/
  notANumber : String

/-- Digits in positional notation, with at least one digit on both sides of the point. -/
def positional (d : Decimal) : String :=
  let text := Nat.toDigits 10 d.digits
  let whole : Int := text.length + d.exponent
  if 0 ≤ d.exponent then
    String.ofList (text ++ List.replicate d.exponent.toNat '0') ++ ".0"
  else if 0 < whole then
    String.ofList (text.take whole.toNat) ++ "." ++ String.ofList (text.drop whole.toNat)
  else
    "0." ++ String.ofList (List.replicate (-whole).toNat '0' ++ text)

/-- Digits in scientific notation: one digit before the point, and no point after a lone digit. -/
def scientific (layout : Layout) (d : Decimal) : String :=
  let text := Nat.toDigits 10 d.digits
  let lead : Int := (text.length : Int) - 1 + d.exponent
  let fraction := if text.length ≤ 1 then "" else "." ++ String.ofList (text.drop 1)
  let mark := if lead < 0 then layout.negativeMark else layout.positiveMark
  String.ofList (text.take 1) ++ fraction ++ mark ++ toString lead.natAbs

/-- The text of a number in a layout, with the fewest digits that read back. -/
def Layout.write (layout : Layout) (x : Binary64) : String :=
  let sign := if x.isNegative then "-" else ""
  if x.isInfinite then sign ++ layout.infinity
  else if !x.isFinite then layout.notANumber
  else
    let d := shortest x
    let lead : Int := (digitCount d.digits : Int) - 1 + d.exponent
    sign ++ (if layout.isPositional lead then positional d else scientific layout d)

end SessionScript.Decimal
