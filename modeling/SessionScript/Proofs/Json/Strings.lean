import SessionScript.Json.Printer
import SessionScript.Json.Token
import Mathlib.Tactic.SplitIfs

/-!
# Strings of a document and how they are spelled

A character of a string stands for itself, or is spelled by a letter behind a backslash, by the
four digits of its number, or by those of two surrogates. Reading a string accepts exactly the
spelled strings up to their closing quote, passing over a string accepts at least these, and what is
written for a string spells it. So the text behind a string never matters for reading it.
-/

namespace SessionScript.Json

/-- The characters that spell one character of a string. -/
inductive SpelledChar : List Char → Char → Prop where
  /-- A character that stands for itself. -/
  | plain {c : Char} : c ≠ '"' → c ≠ '\\' → ¬c.toNat < 0x20 → SpelledChar [c] c
  /-- A letter behind a backslash. -/
  | escape {e c : Char} : simpleEscape? e = some c → SpelledChar ['\\', e] c
  /-- The number of the character. -/
  | unit {h₁ h₂ h₃ h₄ : Char} {n : Nat} : hexUnit? h₁ h₂ h₃ h₄ = some n → isTrailing n = false →
      isLeading n = false → SpelledChar ['\\', 'u', h₁, h₂, h₃, h₄] (Char.ofNat n)
  /-- The numbers of two surrogates. -/
  | pair {h₁ h₂ h₃ h₄ k₁ k₂ k₃ k₄ : Char} {n m : Nat} : hexUnit? h₁ h₂ h₃ h₄ = some n →
      isTrailing n = false → isLeading n = true → hexUnit? k₁ k₂ k₃ k₄ = some m →
      isTrailing m = true →
      SpelledChar ['\\', 'u', h₁, h₂, h₃, h₄, '\\', 'u', k₁, k₂, k₃, k₄] (ofSurrogates n m)

/-- The characters that spell a string between its quotes. -/
inductive SpelledString : List Char → List Char → Prop where
  /-- The empty string. -/
  | nil : SpelledString [] []
  /-- One more character in front. -/
  | cons {unit body s : List Char} {c : Char} : SpelledChar unit c → SpelledString body s →
      SpelledString (unit ++ body) (c :: s)

/-- No letter of an escape marks the number of a character. -/
theorem ne_unitMark_of_simpleEscape? {e c : Char} (h : simpleEscape? e = some c) : e ≠ 'u' := by
  rintro rfl
  have hn : simpleEscape? 'u' = none := by decide
  rw [hn] at h
  cases h

/-- The closing quote ends the reading of a string. -/
theorem readString_quote (cs : List Char) : readString ('"' :: cs) = .ok ([], cs) := by
  rw [readString.eq_def]
  rfl

/-- The closing quote ends the passing over a string. -/
theorem skipString_quote (cs : List Char) : skipString ('"' :: cs) = .ok cs := by
  rw [skipString.eq_def]
  rfl

/-- A character that stands for itself is read as it is. -/
theorem readString_plain {c : Char} (hq : c ≠ '"') (hb : c ≠ '\\') (hc : ¬c.toNat < 0x20)
    (cs : List Char) : readString (c :: cs) = consChar c (readString cs) := by
  rw [readString.eq_def]
  simp only [hq, hb, hc, if_false]

/-- A character that stands for itself is passed over. -/
theorem skipString_plain {c : Char} (hq : c ≠ '"') (hb : c ≠ '\\') (hc : ¬c.toNat < 0x20)
    (cs : List Char) : skipString (c :: cs) = skipString cs := by
  rw [skipString.eq_def]
  simp only [hq, hb, hc, if_false]

/-- Reading takes one spelled character at a time. -/
theorem readString_unit {unit : List Char} {c : Char} (h : SpelledChar unit c) (cs : List Char) :
    readString (unit ++ cs) = consChar c (readString cs) := by
  cases h with
  | plain hq hb hc => exact readString_plain hq hb hc cs
  | @escape e c he =>
    have hu := ne_unitMark_of_simpleEscape? he
    simp [readString, hu, he]
  | unit hn ht hl => simp [readString, hn, ht, hl]
  | pair hn ht hl hm hmt => simp [readString, hn, ht, hl, hm, hmt]

/-- Passing over a string takes one spelled character at a time too. -/
theorem skipString_unit {unit : List Char} {c : Char} (h : SpelledChar unit c) (cs : List Char) :
    skipString (unit ++ cs) = skipString cs := by
  cases h with
  | plain hq hb hc => exact skipString_plain hq hb hc cs
  | @escape e c he =>
    have hu := ne_unitMark_of_simpleEscape? he
    simp [skipString, hu, he]
  | unit hn ht hl => simp [skipString, hn]
  | pair hn ht hl hm hmt => simp [skipString, hn, hm]

/-- A spelled string is read up to its closing quote, whatever follows. -/
theorem readString_spelled {body s : List Char} (h : SpelledString body s) (rest : List Char) :
    readString (body ++ '"' :: rest) = .ok (s, rest) := by
  induction h with
  | nil => exact readString_quote rest
  | cons hc _ ih => rw [List.append_assoc, readString_unit hc, ih]; rfl

/-- A spelled string is passed over up to its closing quote, whatever follows. -/
theorem skipString_spelled {body s : List Char} (h : SpelledString body s) (rest : List Char) :
    skipString (body ++ '"' :: rest) = .ok rest := by
  induction h with
  | nil => exact skipString_quote rest
  | cons hc _ ih => rw [List.append_assoc, skipString_unit hc, ih]

/-- What a string that was read behind a character was. -/
theorem consChar_eq_ok {c : Char} {reading : Reading (List Char × List Char)} {s rest : List Char}
    (h : consChar c reading = .ok (s, rest)) : ∃ s', reading = .ok (s', rest) ∧ s = c :: s' := by
  match reading with
  | .ok (s', rest') => cases h; exact ⟨s', rfl, rfl⟩
  | .error e => cases h

/-- A string that was read in front of other text is spelled by that text up to its quote. -/
theorem spelled_of_readString {cs s rest : List Char} (h : readString cs = .ok (s, rest)) :
    ∃ body, SpelledString body s ∧ cs = body ++ '"' :: rest := by
  -- one more spelled character in front of a string that is known to be spelled
  have hcons : ∀ {unit cs₁ s rest : List Char} {c : Char}, SpelledChar unit c →
      (∀ {s rest}, readString cs₁ = .ok (s, rest) →
        ∃ body, SpelledString body s ∧ cs₁ = body ++ '"' :: rest) →
      consChar c (readString cs₁) = .ok (s, rest) →
      ∃ body, SpelledString body s ∧ unit ++ cs₁ = body ++ '"' :: rest := by
    intro unit cs₁ s rest c hc ih h
    obtain ⟨s', hs', rfl⟩ := consChar_eq_ok h
    obtain ⟨body, hbody, rfl⟩ := ih hs'
    exact ⟨unit ++ body, .cons hc hbody, (List.append_assoc ..).symm⟩
  fun_induction readString cs generalizing s rest with
  | case2 cs => cases h; exact ⟨[], .nil, rfl⟩
  | case8 h₁ h₂ h₃ h₄ n hn ht hl k₁ k₂ k₃ k₄ cs₂ m hm hmt _ ih =>
    exact hcons (.pair hn (by simpa using ht) hl hm hmt) ih h
  | case14 h₁ h₂ h₃ h₄ cs₁ n hn ht hl _ ih =>
    exact hcons (.unit hn (by simpa using ht) (by simpa using hl)) ih h
  | case16 e cs₁ _ _ c he _ ih => exact hcons (.escape he) ih h
  | case19 c cs hq hb hc ih => exact hcons (.plain hq hb hc) ih h
  | _ => cases h

/-- Passing over a string does not look at the text behind its quote. -/
theorem skipString_append {cs rest : List Char} (h : skipString cs = .ok rest) :
    rest.length < cs.length ∧ ∀ more, skipString (cs ++ more) = .ok (rest ++ more) := by
  fun_induction skipString cs generalizing rest with
  | case2 cs => cases h; exact ⟨by simp, fun more => skipString_quote (cs ++ more)⟩
  | case5 h₁ h₂ h₃ h₄ cs₁ n hn _ ih =>
    obtain ⟨hlen, hmore⟩ := ih h
    refine ⟨by simp only [List.length_cons]; omega, fun more => ?_⟩
    simp [skipString, hn, hmore more]
  | case7 e cs₁ _ hu c he _ ih =>
    obtain ⟨hlen, hmore⟩ := ih h
    have hne : e ≠ 'u' := hu
    refine ⟨by simp only [List.length_cons]; omega, fun more => ?_⟩
    simp [skipString, hne, he, hmore more]
  | case10 c cs hq hb hc ih =>
    obtain ⟨hlen, hmore⟩ := ih h
    refine ⟨by simp only [List.length_cons]; omega, fun more => ?_⟩
    rw [List.cons_append, skipString_plain hq hb hc, hmore more]
  | _ => cases h

/-- Digits to the base sixteen are read back. -/
theorem hexUnit?_hexDigit {n : Nat} (hn : n < 0x20) :
    hexUnit? '0' '0' (hexDigit (n / 16)) (hexDigit (n % 16)) = some n := by
  have hall : ∀ n < 0x20,
      hexUnit? '0' '0' (hexDigit (n / 16)) (hexDigit (n % 16)) = some n := by decide
  exact hall n hn

/-- What is written for a character spells it. -/
theorem spelledChar_escapeChar (c : Char) : SpelledChar (escapeChar c) c := by
  unfold escapeChar
  split_ifs with hq hb hback htab hline hfeed hret hc
  · exact .escape (by rw [hq]; decide)
  · exact .escape (by rw [hb]; decide)
  · exact .escape (by rw [hback]; decide)
  · exact .escape (by rw [htab]; decide)
  · exact .escape (by rw [hline]; decide)
  · exact .escape (by rw [hfeed]; decide)
  · exact .escape (by rw [hret]; decide)
  · have htrail : isTrailing c.toNat = false := by
      simp only [isTrailing, Bool.and_eq_false_iff, decide_eq_false_iff_not]
      omega
    have hlead : isLeading c.toNat = false := by
      simp only [isLeading, Bool.and_eq_false_iff, decide_eq_false_iff_not]
      omega
    have hunit := SpelledChar.unit (hexUnit?_hexDigit hc) htrail hlead
    rw [Char.ofNat_toNat] at hunit
    exact hunit
  · exact .plain hq hb hc

/-- What is written for a string spells it. -/
theorem spelledString_escaped (s : List Char) : SpelledString (s.flatMap escapeChar) s := by
  induction s with
  | nil => exact .nil
  | cons c s ih =>
    rw [List.flatMap_cons]
    exact .cons (spelledChar_escapeChar c) ih

/-- A string that was written is read back. -/
theorem readString_quoted (s : String) (rest : List Char) :
    readString (s.toList.flatMap escapeChar ++ '"' :: rest) = .ok (s.toList, rest) :=
  readString_spelled (spelledString_escaped s.toList) rest

/-- Reading a string does not look at the text behind its quote. -/
theorem readString_append {cs s rest : List Char} (h : readString cs = .ok (s, rest)) :
    rest.length < cs.length ∧ ∀ more, readString (cs ++ more) = .ok (s, rest ++ more) := by
  obtain ⟨body, hbody, rfl⟩ := spelled_of_readString h
  refine ⟨by simp only [List.length_append, List.length_cons]; omega, fun more => ?_⟩
  rw [List.append_assoc]
  exact readString_spelled hbody (rest ++ more)

/-- A string that can be read can be passed over. -/
theorem skipString_of_readString {cs s rest : List Char} (h : readString cs = .ok (s, rest)) :
    skipString cs = .ok rest := by
  obtain ⟨body, hbody, rfl⟩ := spelled_of_readString h
  exact skipString_spelled hbody rest

end SessionScript.Json
