import Mathlib.Data.List.TakeWhile
import SessionScript.Event.Basic
import SessionScript.Proofs.Json.NumberText

/-!
# The ids of tabs

A tab has a signed 64-bit whole number for its id, which may be recorded as a number or as a text.
Written as a text, with white space around it or without, a payload is the id of the same tab as
before, or still none at all: a whole number is read back from its digits, with the same limits, and
the text of any other number has a point or a letter in it.
-/

namespace SessionScript

namespace Text

/-- A text of white space only. -/
def IsWhite (s : String) : Prop := ∀ c ∈ s.toList, isWhiteSpace c = true

instance (s : String) : Decidable (IsWhite s) := List.decidableBAll _ s.toList

/-- White space at both ends is trimmed from a text. -/
theorem trim_append {front back : List Char} (hfront : ∀ c ∈ front, isWhiteSpace c = true)
    (hback : ∀ c ∈ back, isWhiteSpace c = true) (cs : List Char) :
    trim (front ++ cs ++ back) = trim cs := by
  have hblank : trimStart back = [] := List.dropWhile_eq_nil_iff.mpr hback
  have hend : ∀ {cs : List Char}, trimStart (back.reverse ++ cs) = trimStart cs := fun {cs} =>
    List.dropWhile_append_of_pos fun c hc => hback c (List.mem_reverse.mp hc)
  have hstart : trimStart (front ++ cs ++ back) = trimStart (cs ++ back) := by
    rw [List.append_assoc]
    exact List.dropWhile_append_of_pos hfront
  have happend : trimStart (cs ++ back) =
      if (trimStart cs).isEmpty then trimStart back else trimStart cs ++ back :=
    List.dropWhile_append
  unfold trim
  rw [hstart, happend]
  split
  · rename_i hempty
    rw [hblank, List.isEmpty_iff.mp hempty]
  · rw [List.reverse_append, hend]

/-- A text without white space is left as it is. -/
theorem trim_of_forall {cs : List Char} (h : ∀ c ∈ cs, isWhiteSpace c = false) : trim cs = cs := by
  have hstart : ∀ {cs : List Char}, (∀ c ∈ cs, isWhiteSpace c = false) → trimStart cs = cs := by
    intro cs h
    cases cs with
    | nil => rfl
    | cons c cs => exact List.dropWhile_cons_of_neg (by simp [h c List.mem_cons_self])
  have hreverse : ∀ c ∈ cs.reverse, isWhiteSpace c = false := fun c hc =>
    h c (List.mem_reverse.mp hc)
  rw [trim, hstart h, hstart hreverse, List.reverse_reverse]

/-- The printable characters of ASCII but the space are no white space. -/
theorem isWhiteSpace_eq_false {c : Char} (hlower : 0x21 ≤ c.toNat) (hupper : c.toNat < 0x85) :
    isWhiteSpace c = false := by
  have h₁ : 0x9 ≤ c.toNat := by omega
  have h₂ : 0xe ≤ c.toNat := by omega
  have h₃ : 0x20 ≤ c.toNat := by omega
  have h₄ : ¬0x85 ≤ c.toNat := by omega
  simp [isWhiteSpace, Boundaries.contains, Boundaries.passed, whiteSpaceBoundaries, h₁, h₂, h₃, h₄,
    hlower]

/-- No character of a number is white space. -/
theorem isWhiteSpace_of_isNumberChar {c : Char} (h : Json.isNumberChar c = true) :
    isWhiteSpace c = false := by
  rcases Bool.or_eq_true_iff.mp h with hdigit | hother
  · simp only [Char.isDigit, Bool.and_eq_true, decide_eq_true_eq] at hdigit
    have hlower : 48 ≤ c.toNat := hdigit.1
    have hupper : c.toNat ≤ 57 := hdigit.2
    exact isWhiteSpace_eq_false (by omega) (by omega)
  · have hall : "+-.einfNa".toList.all (fun c => !isWhiteSpace c) = true := rfl
    simpa using List.all_eq_true.mp hall c (List.contains_iff_mem.mp hother)

end Text

section Reading

/-- A whole number as a signed 64-bit number, if it is in range. -/
def signed64? (n : Int) : Option Int := if Json.isSigned64 n then some n else none

section Digits

variable {cs : List Char} (hne : cs ≠ []) (hcs : ∀ c ∈ cs, c.isDigit = true)

include hne hcs

/-- Digits stand for a number. -/
theorem value_digits : (if (cs.isEmpty || !cs.all Char.isDigit) = true then none
      else some (cs.foldl (fun n c => 10 * n + Json.digitValue c) 0)) =
    some (Nat.ofDigitChars 10 cs 0) := by
  have hvalid : ¬(cs.isEmpty || !cs.all Char.isDigit) = true := by
    simp [hne, List.all_eq_true.mpr hcs]
  rw [if_neg hvalid]
  rfl

/-- The number that digits stand for is read if it is in range. -/
theorem readInt64?_digits : readInt64? cs = signed64? (Nat.ofDigitChars 10 cs 0) := by
  have hminus : ∀ rest, cs = '-' :: rest → False := by
    rintro rest rfl
    exact absurd (hcs '-' List.mem_cons_self) (by decide)
  have hplus : ∀ rest, cs = '+' :: rest → False := by
    rintro rest rfl
    exact absurd (hcs '+' List.mem_cons_self) (by decide)
  rw [readInt64?.eq_3 cs hminus hplus]
  dsimp only
  rw [value_digits hne hcs, Option.bind_some, signed64?]

/-- The number that digits behind a minus sign stand for is read if it is in range. -/
theorem readInt64?_minus :
    readInt64? ('-' :: cs) = signed64? (-(Nat.ofDigitChars 10 cs 0 : Int)) := by
  rw [readInt64?]
  dsimp only
  rw [value_digits hne hcs, Option.bind_some, signed64?]

end Digits

/-- A text with a character that is neither a digit nor a sign is not read. -/
theorem readInt64?_eq_none {cs : List Char} {c : Char} (hc : c ∈ cs) (hdigit : c.isDigit = false)
    (hminus : c ≠ '-') (hplus : c ≠ '+') : readInt64? cs = none := by
  have hnone : ∀ {cs : List Char}, c ∈ cs → cs.all Char.isDigit = false := fun {cs} hc =>
    List.all_eq_false.mpr ⟨c, hc, by simp [hdigit]⟩
  unfold readInt64?
  split
  · rename_i rest
    simp [hnone (List.mem_of_ne_of_mem hminus hc)]
  · rename_i rest
    simp [hnone (List.mem_of_ne_of_mem hplus hc)]
  · simp [hnone hc]

/-- A whole number is read from its text within the limits. -/
theorem readInt64?_whole (n : Json.Whole) : readInt64? n.text.toList = signed64? n.val := by
  have hne : Nat.toDigits 10 n.val.natAbs ≠ [] := Nat.toDigits_ne_nil
  have hdigits : ∀ c ∈ Nat.toDigits 10 n.val.natAbs, c.isDigit = true :=
    fun c hc => Json.isDigit_toDigits hc
  have hvalue : Nat.ofDigitChars 10 (Nat.toDigits 10 n.val.natAbs) 0 = n.val.natAbs :=
    Nat.ofDigitChars_toDigits (by decide) (by decide)
  unfold Json.Whole.text
  split
  · have htext : ("-" ++ String.ofList (Nat.toDigits 10 n.val.natAbs)).toList =
        '-' :: Nat.toDigits 10 n.val.natAbs := by simp
    have habs : -(n.val.natAbs : Int) = n.val := by omega
    rw [htext, readInt64?_minus hne hdigits, hvalue, habs]
  · have habs : (n.val.natAbs : Int) = n.val := by omega
    rw [String.toList_ofList, readInt64?_digits hne hdigits, hvalue, habs]

/-- The text of a floating-point number has a point, or a letter in it. -/
theorem exists_mark_of_float (x : Binary64) :
    ∃ c ∈ ['.', 'e', 'i', 'N'], c ∈ (Json.Number.text (.float x)).toList := by
  have hpositional : ∀ d, '.' ∈ (Decimal.positional d).toList := by
    intro d
    unfold Decimal.positional
    dsimp only
    split
    · simp
    · split
      · simp
      · simp
  have hscientific : ∀ d, 'e' ∈ (Decimal.scientific Json.floatLayout d).toList := by
    intro d
    have hmark : ∀ b : Bool, 'e' ∈ (if b then Json.floatLayout.negativeMark
        else Json.floatLayout.positiveMark).toList := by decide
    unfold Decimal.scientific
    dsimp only
    simp only [String.toList_append, List.mem_append]
    have h := hmark (decide (((Nat.toDigits 10 d.digits).length : Int) - 1 + d.exponent < 0))
    simp only [decide_eq_true_eq] at h
    exact Or.inl (Or.inr h)
  unfold Json.Number.text Decimal.Layout.write
  generalize (if x.isNegative = true then "-" else "") = sign
  dsimp only
  split
  · exact ⟨'i', by decide, by simp [Json.floatLayout]⟩
  · split
    · exact ⟨'N', by decide, by simp [Json.floatLayout]⟩
    · generalize Json.floatLayout.isPositional _ = b
      cases b
      · exact ⟨'e', by decide, by simp [hscientific]⟩
      · exact ⟨'.', by decide, by simp [hpositional]⟩

/-- No number is read from the text of a floating-point number. -/
theorem readInt64?_float (x : Binary64) :
    readInt64? (Json.Number.text (.float x)).toList = none := by
  obtain ⟨c, hmark, hc⟩ := exists_mark_of_float x
  have hother : c.isDigit = false ∧ c ≠ '-' ∧ c ≠ '+' := by
    simp only [List.mem_cons, List.not_mem_nil, or_false] at hmark
    rcases hmark with rfl | rfl | rfl | rfl <;> decide
  obtain ⟨hdigit, hminus, hplus⟩ := hother
  exact readInt64?_eq_none hc hdigit hminus hplus

end Reading

namespace Payload

/-- Written as a text between white space, a payload is the id of the same tab as before. -/
theorem tabId?_text (p : Payload) {front back : String} (hfront : Text.IsWhite front)
    (hback : Text.IsWhite back) : (text (front ++ p.typed ++ back)).tabId? = p.tabId? := by
  have hread : (text (front ++ p.typed ++ back)).tabId? =
      readInt64? (Text.trim p.typed.toList) := by
    rw [← Text.trim_append hfront hback, tabId?, String.toList_append, String.toList_append]
  rw [hread]
  cases p with
  | size width height => rfl
  | point x y => rfl
  | text s => rfl
  | number n =>
    have htrim : Text.trim n.text.toList = n.text.toList := Text.trim_of_forall fun c hc =>
      Text.isWhiteSpace_of_isNumberChar (Json.isNumeric_text n c hc)
    rw [typed, htrim]
    cases n with
    | whole n => exact readInt64?_whole n
    | float x => exact readInt64?_float x

/-- A number is the id of a tab just if it is a signed 64-bit whole number. -/
theorem tabId?_number_iff (n : Json.Number) (id : Int) :
    (number n).tabId? = some id ↔ -0x8000000000000000 ≤ id ∧ id < 0x8000000000000000 ∧
      ∃ w : Json.Whole, n = .whole w ∧ w.val = id := by
  cases n with
  | float x => simp [tabId?]
  | whole w =>
    simp only [tabId?, Json.isSigned64, Bool.and_eq_true, decide_eq_true_eq,
      Option.ite_none_right_eq_some, Option.some.injEq, Json.Number.whole.injEq, exists_eq_left']
    constructor
    · rintro ⟨⟨hlower, hupper⟩, rfl⟩
      exact ⟨hlower, hupper, rfl⟩
    · rintro ⟨hlower, hupper, rfl⟩
      exact ⟨⟨hlower, hupper⟩, rfl⟩

end Payload

end SessionScript
