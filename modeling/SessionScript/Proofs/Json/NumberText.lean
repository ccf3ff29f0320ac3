import SessionScript.Json.Number

/-!
# The characters of a number

The text of a number is made of digits, signs, points, the mark of an exponent and the letters of
the special values. Which text a number has is not said here.
-/

namespace SessionScript.Json

/-- May the character stand in the text of a number? -/
def isNumberChar (c : Char) : Bool := c.isDigit || "+-.einfNa".toList.contains c

/-- All characters of the text may stand in a number. -/
def IsNumeric (s : String) : Prop := ∀ c ∈ s.toList, isNumberChar c = true

instance (s : String) : Decidable (IsNumeric s) :=
  decidable_of_iff (s.toList.all isNumberChar = true) List.all_eq_true

/-- Texts of numbers may be put together. -/
theorem IsNumeric.append {s t : String} (hs : IsNumeric s) (ht : IsNumeric t) :
    IsNumeric (s ++ t) := by
  intro c hc
  rw [String.toList_append] at hc
  rcases List.mem_append.mp hc with hc | hc
  · exact hs c hc
  · exact ht c hc

/-- A text of digits is numeric. -/
theorem isNumeric_digits {cs : List Char} (hcs : ∀ c ∈ cs, c.isDigit = true) :
    IsNumeric (String.ofList cs) := by
  intro c hc
  rw [String.toList_ofList] at hc
  simp [isNumberChar, hcs c hc]

/-- The decimal digits of a natural number are digits. -/
theorem isDigit_toDigits {n : Nat} {c : Char} (hc : c ∈ Nat.toDigits 10 n) : c.isDigit = true :=
  Nat.isDigit_of_mem_toDigits (by decide) (by decide) hc

/-- The text of a natural number is numeric. -/
theorem isNumeric_toString (n : Nat) : IsNumeric (toString n) := by
  rw [Nat.toString_eq_ofList_toDigits]
  exact isNumeric_digits fun _ hc => isDigit_toDigits hc

/-- The text of a whole number is numeric. -/
theorem isNumeric_whole (n : Whole) : IsNumeric n.text := by
  have hd := isNumeric_digits fun c (hc : c ∈ Nat.toDigits 10 n.val.natAbs) => isDigit_toDigits hc
  unfold Whole.text
  split
  · exact IsNumeric.append (by decide) hd
  · exact hd

/-- Positional notation is numeric. -/
theorem isNumeric_positional (d : Decimal) : IsNumeric (Decimal.positional d) := by
  have hzero : ∀ n, ∀ c ∈ List.replicate n '0', c.isDigit = true := by
    intro n c hc
    rw [List.eq_of_mem_replicate hc]
    decide
  unfold Decimal.positional
  dsimp only
  split
  · refine IsNumeric.append (isNumeric_digits fun c hc => ?_) (by decide)
    rcases List.mem_append.mp hc with hc | hc
    · exact isDigit_toDigits hc
    · exact hzero _ c hc
  · split
    · refine IsNumeric.append (IsNumeric.append (isNumeric_digits fun c hc => ?_)
        (by decide)) (isNumeric_digits fun c hc => ?_)
      · exact isDigit_toDigits (List.mem_of_mem_take hc)
      · exact isDigit_toDigits (List.mem_of_mem_drop hc)
    · refine IsNumeric.append (by decide) (isNumeric_digits fun c hc => ?_)
      rcases List.mem_append.mp hc with hc | hc
      · exact hzero _ c hc
      · exact isDigit_toDigits hc

/-- Scientific notation is numeric. -/
theorem isNumeric_scientific (d : Decimal) : IsNumeric (Decimal.scientific floatLayout d) := by
  unfold Decimal.scientific
  dsimp only
  refine IsNumeric.append (IsNumeric.append (IsNumeric.append ?_ ?_) ?_) (isNumeric_toString _)
  · exact isNumeric_digits fun c hc => isDigit_toDigits (List.mem_of_mem_take hc)
  · split
    · decide
    · refine IsNumeric.append (by decide) (isNumeric_digits fun c hc => ?_)
      exact isDigit_toDigits (List.mem_of_mem_drop hc)
  · split <;> decide

/-- The text of a number is numeric. -/
theorem isNumeric_text (n : Number) : IsNumeric n.text := by
  cases n with
  | whole n => exact isNumeric_whole n
  | float x =>
    unfold Number.text Decimal.Layout.write
    dsimp only
    have hsign : IsNumeric (if x.isNegative = true then "-" else "") := by
      split <;> decide
    split
    · exact hsign.append (by decide)
    · split
      · decide
      · refine hsign.append ?_
        split
        · exact isNumeric_positional _
        · exact isNumeric_scientific _

end SessionScript.Json
