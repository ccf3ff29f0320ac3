import SessionScript.Proofs.Json.NumberText
import SessionScript.Script.Statement

/-!
# Names of variables

Scripts name frames and pictured elements by numbers. Such names have only the characters of names,
so no quote, point or slash can end them early, and different numbers give different names.
-/

namespace SessionScript.Script

/-- May the character stand in a name? -/
def isNameChar (c : Char) : Bool := c.isAlphanum || c = '_' || c = '$'

/-- A name has at least one character, and all of them may stand in names. -/
structure IsName (s : String) : Prop where
  /-- It is not empty. -/
  nonempty : s.toList ≠ []
  /-- Its characters may stand in names. -/
  chars : ∀ c ∈ s.toList, isNameChar c = true

/-- A name does not hold a character that no name may hold. -/
theorem IsName.not_mem {s : String} (hs : IsName s) {c : Char} (hc : isNameChar c = false) :
    c ∉ s.toList := by
  intro hm
  rw [hs.chars c hm] at hc
  cases hc

/-- The digits of a number are digits. -/
theorem isDigit_of_mem_toString {n : Nat} {c : Char} (hc : c ∈ (toString n).toList) :
    c.isDigit = true := by
  have hd : c ∈ Nat.toDigits 10 n := by simpa using hc
  exact Json.isDigit_toDigits hd

/-- Digits may stand in names. -/
theorem isNameChar_of_isDigit {c : Char} (hc : c.isDigit = true) : isNameChar c = true := by
  simp [isNameChar, Char.isAlphanum, hc]

/-- A name that ends in a number is a name. -/
theorem isName_numbered {s : String} (hs : s.toList.all isNameChar = true)
    (hn : s.toList ≠ []) (n : Nat) : IsName (s ++ toString n) := by
  constructor
  · rw [String.toList_append]
    exact List.append_ne_nil_of_left_ne_nil hn _
  · intro c hc
    rw [String.toList_append] at hc
    rcases List.mem_append.mp hc with hc | hc
    · exact List.all_eq_true.mp hs c hc
    · exact isNameChar_of_isDigit (isDigit_of_mem_toString hc)

/-- Different numbers give different names. -/
theorem eq_of_numbered (s : String) {m n : Nat} (h : s ++ toString m = s ++ toString n) :
    m = n := by
  have hl := congrArg String.toList h
  rw [String.toList_append, String.toList_append] at hl
  have hd : Nat.toDigits 10 m = Nat.toDigits 10 n := by simpa using List.append_cancel_left hl
  simpa using congrArg (Nat.ofDigitChars 10 · 0) hd

/-- A name that ends in a number starts with its text. -/
theorem numbered_ne {s t : String} (h : s.toList.isPrefixOf t.toList = false) (n : Nat) :
    s ++ toString n ≠ t := by
  rintro rfl
  rw [String.toList_append, Bool.eq_false_iff, ne_eq, List.isPrefixOf_iff_prefix] at h
  exact h (List.prefix_append _ _)

/-- The variable of a frame is a name. -/
theorem frameVariable_isName (id : UInt64) : IsName (frameVariable id) :=
  isName_numbered (by decide) (by decide) id.toNat

/-- Different frames have different variables. -/
theorem frameVariable_injective {a b : UInt64} (h : frameVariable a = frameVariable b) : a = b :=
  UInt64.toNat_inj.mp (eq_of_numbered "frame_" h)

/-- The variables of pictured elements are none of those of frames. -/
theorem element_ne_frameVariable (n : Nat) (id : UInt64) :
    "element" ++ toString n ≠ frameVariable id := by
  apply numbered_ne
  rw [frameVariable, String.toList_append]
  rfl

/-- The receiver of the statements of an event is a name. -/
theorem receiver_isName (e : Event) : IsName (receiver e) := by
  unfold receiver
  split
  · exact ⟨by decide, List.all_eq_true.mp (by decide)⟩
  · exact frameVariable_isName e.frame

end SessionScript.Script
