import SessionScript.Json.Reader
import SessionScript.Proofs.Json.NumberText

/-!
# Reading numbers

A number ends where the text does not go on with a digit, a point or the mark of an exponent. What
was read as a number is read again when such a text is put behind it, and whatever can be read can
be passed over. Whole numbers are read back from their text; whether a floating-point number is
depends on the number, because the digits are multiplied by a rounded power of ten.
-/

namespace SessionScript.Json

/-- Does the text go on with no character that a number may go on with? -/
def endsNumber : List Char → Bool
  | [] => true
  | c :: _ => !(c.isDigit || c = '.' || c = 'e' || c = 'E')

/-- May a text go on with `more`, when `rest` is left of it behind a number? -/
def MayFollow (rest more : List Char) : Prop := rest = [] → endsNumber more = true

/-- What may follow the end of the text may follow wherever more of the text is left. -/
theorem MayFollow.of_length {rest mid more : List Char} (h : MayFollow rest more)
    (hlen : rest.length ≤ mid.length) : MayFollow mid more := by
  intro hm
  apply h
  subst hm
  exact List.length_eq_zero_iff.mp (Nat.le_zero.mp hlen)

/-- What may follow the end of a number may follow wherever the end has not been reached. -/
theorem MayFollow.of_suffix {rest mid more : List Char} (h : MayFollow rest more)
    (hs : rest <:+ mid) : MayFollow mid more := h.of_length hs.length_le

/-- A number is not followed by a digit. -/
theorem startsWithDigit_of_endsNumber {cs : List Char} (h : endsNumber cs = true) :
    startsWithDigit cs = false := by
  cases cs with
  | nil => rfl
  | cons c cs =>
    simp only [endsNumber, Bool.not_eq_true', Bool.or_eq_false_iff] at h
    exact h.1.1.1

/-- What follows a number is none of the marks inside of a number. -/
theorem head_of_endsNumber {cs : List Char} (h : endsNumber cs = true) :
    ∀ c ∈ cs.head?, c ≠ '.' ∧ c ≠ 'e' ∧ c ≠ 'E' := by
  intro c hc
  obtain ⟨cs, rfl⟩ := List.head?_eq_some_iff.mp hc
  simp only [endsNumber, Bool.not_eq_true', Bool.or_eq_false_iff, decide_eq_false_iff_not] at h
  exact ⟨h.1.1.2, h.1.2, h.2⟩

/-- Whether a text starts with a digit does not depend on what may follow it. -/
theorem startsWithDigit_append {cs more : List Char} (hm : MayFollow cs more) :
    startsWithDigit (cs ++ more) = startsWithDigit cs := by
  cases cs with
  | nil => exact startsWithDigit_of_endsNumber (hm rfl)
  | cons c cs => rfl

/-- What one reader of numbers gives depends on nothing behind the number. -/
def StableNumber (read : List Char → Reading (Number × List Char)) : Prop :=
  ∀ ⦃cs n rest⦄, read cs = .ok (n, rest) →
    rest <:+ cs ∧ ∀ more, MayFollow rest more → read (cs ++ more) = .ok (n, rest ++ more)

/-- How far passing over a part of a number gets depends on nothing behind the number. -/
def StableSkip (skip : List Char → Reading (List Char)) : Prop :=
  ∀ ⦃cs rest⦄, skip cs = .ok rest →
    rest <:+ cs ∧ ∀ more, MayFollow rest more → skip (cs ++ more) = .ok (rest ++ more)

section Digits

/-- The digits at the start of a text are passed over as a whole. -/
theorem skipDigits_append {cs more : List Char} (hm : MayFollow (skipDigits cs) more) :
    skipDigits (cs ++ more) = skipDigits cs ++ more := by
  induction cs with
  | nil =>
    have hd := startsWithDigit_of_endsNumber (hm rfl)
    cases more with
    | nil => rfl
    | cons c more => exact List.dropWhile_cons_of_neg (by simpa [startsWithDigit] using hd)
  | cons c cs ih =>
    by_cases hc : c.isDigit = true
    · have hskip : skipDigits (c :: cs) = skipDigits cs := List.dropWhile_cons_of_pos hc
      have hmore : skipDigits (c :: (cs ++ more)) = skipDigits (cs ++ more) :=
        List.dropWhile_cons_of_pos hc
      rw [hskip] at hm ⊢
      rw [List.cons_append, hmore, ih hm]
    · have hskip : skipDigits (c :: cs) = c :: cs := List.dropWhile_cons_of_neg hc
      rw [hskip]
      exact List.dropWhile_cons_of_neg hc

/-- What is left behind digits is the end of the text. -/
theorem skipDigits_suffix (cs : List Char) : skipDigits cs <:+ cs := List.dropWhile_suffix _

/-- No digits are absorbed where there are none. -/
theorem absorbDigits_none {cs : List Char} (h : startsWithDigit cs = false) (n : Nat) :
    absorbDigits n cs = (n, cs) := by
  cases cs with
  | nil => rfl
  | cons c cs =>
    have hc : c.isDigit = false := h
    simp [absorbDigits, hc]

/-- The digits that a significand takes in do not depend on what is behind them. -/
theorem absorbDigits_append {n m : Nat} {cs rest : List Char} (h : absorbDigits n cs = (m, rest)) :
    rest <:+ cs ∧ ∀ more, MayFollow rest more → absorbDigits n (cs ++ more) = (m, rest ++ more) := by
  induction cs generalizing n with
  | nil =>
    obtain ⟨rfl, rfl⟩ := Prod.mk.inj h
    exact ⟨List.suffix_refl _, fun more hm =>
      absorbDigits_none (startsWithDigit_of_endsNumber (hm rfl)) n⟩
  | cons c cs ih =>
    simp only [absorbDigits] at h
    split at h
    · rename_i hc
      obtain ⟨hs, hmore⟩ := ih h
      refine ⟨hs.trans (List.suffix_cons c cs), fun more hm => ?_⟩
      simp only [List.cons_append, absorbDigits, hc, if_true]
      exact hmore more hm
    · rename_i hc
      obtain ⟨rfl, rfl⟩ := Prod.mk.inj h
      refine ⟨List.suffix_refl _, fun more _ => ?_⟩
      simp only [List.cons_append, absorbDigits, hc]
      rfl

/-- The digits that an exponent takes in do not depend on what is behind them. -/
theorem absorbExponent_append {n : Nat} {e : Option Nat} {cs rest : List Char}
    (h : absorbExponent n cs = (e, rest)) :
    rest <:+ cs ∧
      ∀ more, MayFollow rest more → absorbExponent n (cs ++ more) = (e, rest ++ more) := by
  induction cs generalizing n with
  | nil =>
    obtain ⟨rfl, rfl⟩ := Prod.mk.inj h
    refine ⟨List.suffix_refl _, fun more hm => ?_⟩
    have hd := startsWithDigit_of_endsNumber (hm rfl)
    cases more with
    | nil => rfl
    | cons c more =>
      have hc : c.isDigit = false := hd
      simp [absorbExponent, hc]
  | cons c cs ih =>
    simp only [absorbExponent] at h
    split at h
    · rename_i hc
      split at h
      · rename_i hn
        obtain ⟨hs, hmore⟩ := ih h
        refine ⟨hs.trans (List.suffix_cons c cs), fun more hm => ?_⟩
        simp only [List.cons_append, absorbExponent, hc, hn, if_true]
        exact hmore more hm
      · rename_i hn
        obtain ⟨rfl, rfl⟩ := Prod.mk.inj h
        refine ⟨List.suffix_cons c cs, fun more _ => ?_⟩
        simp only [List.cons_append, absorbExponent, hc, hn, if_true, if_false]
    · rename_i hc
      obtain ⟨rfl, rfl⟩ := Prod.mk.inj h
      refine ⟨List.suffix_refl _, fun more _ => ?_⟩
      simp only [List.cons_append, absorbExponent, hc]
      rfl

/-- Passing over digits goes on where a significand stopped to take them in. -/
theorem skipDigits_absorbDigits (n : Nat) (cs : List Char) :
    skipDigits (absorbDigits n cs).2 = skipDigits cs := by
  induction cs generalizing n with
  | nil => rfl
  | cons c cs ih =>
    simp only [absorbDigits]
    split
    · rename_i hc
      obtain ⟨hd, -⟩ := (Bool.and_eq_true _ _).mp hc
      rw [ih]
      exact (List.dropWhile_cons_of_pos hd).symm
    · rfl

/-- Passing over digits goes on where an exponent stopped to take them in. -/
theorem skipDigits_absorbExponent (n : Nat) (cs : List Char) :
    skipDigits (absorbExponent n cs).2 = skipDigits cs := by
  induction cs generalizing n with
  | nil => rfl
  | cons c cs ih =>
    simp only [absorbExponent]
    split
    · rename_i hc
      split
      · rw [ih]
        exact (List.dropWhile_cons_of_pos hc).symm
      · exact (List.dropWhile_cons_of_pos hc).symm
    · rfl

/-- An exponent that does not overflow takes in all its digits. -/
theorem absorbExponent_some {n e : Nat} {cs rest : List Char}
    (h : absorbExponent n cs = (some e, rest)) : skipDigits rest = rest := by
  induction cs generalizing n with
  | nil =>
    obtain ⟨-, rfl⟩ := Prod.mk.inj h
    rfl
  | cons c cs ih =>
    simp only [absorbExponent] at h
    split at h
    · split at h
      · exact ih h
      · cases h
    · rename_i hc
      obtain ⟨-, rfl⟩ := Prod.mk.inj h
      exact List.dropWhile_cons_of_neg hc

end Digits

section Reading

variable (negative : Bool) (significand : Nat)

/-- The text behind a number only passes through when its parts are put together. -/
theorem finishFloat_eq_ok {negative : Bool} {significand : Nat} {exponent : Int} {cs rest : List Char}
    {n : Number} (h : finishFloat negative significand exponent cs = .ok (n, rest)) :
    rest = cs ∧ ∀ more, finishFloat negative significand exponent more = .ok (n, more) := by
  unfold finishFloat at h ⊢
  cases hx : scaleSignificand significand exponent with
  | none => rw [hx] at h; cases h
  | some x =>
    rw [hx] at h
    cases h
    exact ⟨rfl, fun more => rfl⟩

/-- The sign of an exponent does not depend on what is behind it. -/
theorem exponentSign_append {cs : List Char} (h : cs ≠ []) (more : List Char) :
    exponentSign (cs ++ more) = ((exponentSign cs).1, (exponentSign cs).2 ++ more) := by
  fun_cases exponentSign cs with
  | case1 => rfl
  | case2 => rfl
  | case3 cs hplus hminus =>
    cases cs with
    | nil => exact absurd rfl h
    | cons c cs =>
      have hp : c ≠ '+' := fun hc => hplus cs (by rw [hc])
      have hm : c ≠ '-' := fun hc => hminus cs (by rw [hc])
      simp [exponentSign, hp, hm]

/-- The digits of an exponent are the end of its text. -/
theorem exponentSign_suffix (cs : List Char) : (exponentSign cs).2 <:+ cs := by
  fun_cases exponentSign cs with
  | case1 cs => exact List.suffix_cons _ cs
  | case2 cs => exact List.suffix_cons _ cs
  | case3 cs => exact List.suffix_refl cs

/-- An exponent is read up to its last digit. -/
theorem readExponent_stable (start : Int) :
    StableNumber (readExponent negative significand start) := by
  intro cs n rest h
  have hne : cs ≠ [] := by
    rintro rfl
    cases h
  have hsuffix := exponentSign_suffix cs
  have hsign := exponentSign_append hne
  unfold readExponent at h ⊢
  rcases hcs : exponentSign cs with ⟨down, digits⟩
  simp only [hcs] at h hsuffix hsign
  cases digits with
  | nil => cases h
  | cons c digits =>
    have hbehind : digits <:+ cs := (List.suffix_cons c digits).trans hsuffix
    simp only [List.cons_append] at hsign
    dsimp only at h
    by_cases hc : (!c.isDigit) = true
    · rw [if_pos hc] at h
      cases h
    · rw [if_neg hc] at h
      rcases he : absorbExponent (digitValue c) digits with ⟨e, mid⟩
      obtain ⟨hmid, habsorb⟩ := absorbExponent_append he
      rw [he] at h
      cases e with
      | some e =>
        obtain ⟨rfl, hfinish⟩ := finishFloat_eq_ok h
        refine ⟨hmid.trans hbehind, fun more hm => ?_⟩
        simp only [hsign, habsorb more hm, hc]
        exact hfinish _
      | none =>
        dsimp only at h
        split at h
        · cases h
        · rename_i hzero
          cases h
          refine ⟨(skipDigits_suffix mid).trans (hmid.trans hbehind), fun more hm => ?_⟩
          have hm' := hm.of_suffix (skipDigits_suffix mid)
          simp only [hsign, habsorb more hm', hc, hzero, skipDigits_append hm]
          rfl

/-- A number without an exponent ends behind its last digit. -/
theorem readTail_unmarked {cs : List Char} (h : ∀ c ∈ cs.head?, c ≠ 'e' ∧ c ≠ 'E') (exponent : Int) :
    readTail negative significand exponent cs =
      finishFloat negative significand exponent cs := by
  unfold readTail
  split
  · exact absurd rfl (h 'e' rfl).1
  · exact absurd rfl (h 'E' rfl).2
  · rfl

/-- The end of a number behind its last digit is read without looking further. -/
theorem readTail_stable (exponent : Int) : StableNumber (readTail negative significand exponent) := by
  intro cs n rest h
  cases cs with
  | nil =>
    obtain ⟨rfl, hfinish⟩ := finishFloat_eq_ok h
    refine ⟨List.suffix_refl _, fun more hm => ?_⟩
    have hhead := head_of_endsNumber (hm rfl)
    rw [List.nil_append, readTail_unmarked _ _ fun c hc => (hhead c hc).2]
    exact hfinish more
  | cons c cs =>
    by_cases hc : c = 'e' ∨ c = 'E'
    · have hread : ∀ more, readTail negative significand exponent (c :: more) =
          readExponent negative significand exponent more := by
        rcases hc with rfl | rfl <;> exact fun more => rfl
      rw [hread] at h
      obtain ⟨hs, hmore⟩ := readExponent_stable negative significand exponent h
      refine ⟨hs.trans (List.suffix_cons c cs), fun more hm => ?_⟩
      rw [List.cons_append, hread, hmore more hm]
    · have hread : ∀ more, readTail negative significand exponent (c :: more) =
          finishFloat negative significand exponent (c :: more) := by
        intro more
        exact readTail_unmarked negative significand (by simpa using hc) exponent
      rw [hread] at h
      obtain ⟨rfl, hfinish⟩ := finishFloat_eq_ok h
      exact ⟨List.suffix_refl _, fun more _ => (hread _).trans (hfinish _)⟩

/-- The digits behind the point are read without looking further than to their end. -/
theorem readFraction_stable (start : Nat) :
    StableNumber (readFraction negative significand start) := by
  intro cs n rest h
  unfold readFraction at h ⊢
  rcases hcs : absorbDigits significand cs with ⟨all, mid⟩
  obtain ⟨hmid, habsorb⟩ := absorbDigits_append hcs
  -- how many digits were taken in does not depend on what follows
  have hplaces : ∀ more, (cs ++ more).length - (mid ++ more).length = cs.length - mid.length := by
    intro more
    simp only [List.length_append]
    omega
  simp only [hcs] at h
  by_cases hd : startsWithDigit mid = true
  · rw [if_pos hd] at h
    obtain ⟨hs, hmore⟩ := readTail_stable negative all _ h
    refine ⟨hs.trans ((skipDigits_suffix mid).trans hmid), fun more hm => ?_⟩
    have hskip := hm.of_suffix hs
    have hfollow := hskip.of_suffix (skipDigits_suffix mid)
    simp only [habsorb more hfollow, hplaces, startsWithDigit_append hfollow, hd, if_true,
      skipDigits_append hskip]
    exact hmore more hm
  · rw [if_neg hd] at h
    by_cases hp : cs.length - mid.length = 0
    · rw [if_pos hp] at h
      cases mid <;> cases h
    · rw [if_neg hp] at h
      obtain ⟨hs, hmore⟩ := readTail_stable negative all _ h
      refine ⟨hs.trans hmid, fun more hm => ?_⟩
      have hfollow := hm.of_suffix hs
      simp only [habsorb more hfollow, hplaces, startsWithDigit_append hfollow, hd, hp, if_false,
        Bool.false_eq_true]
      exact hmore more hm

/-- Where no fraction and no exponent follow, the digits are the number. -/
theorem readAfterDigits_plain {cs : List Char} (h : endsNumber cs = true) :
    readAfterDigits negative significand cs = .ok (wholeNumber negative significand, cs) := by
  have hd := startsWithDigit_of_endsNumber h
  unfold readAfterDigits
  rw [if_neg (by simp [hd])]
  cases cs with
  | nil => rfl
  | cons c cs =>
    obtain ⟨hpoint, hlower, hupper⟩ := head_of_endsNumber h c rfl
    split <;> simp_all

/-- The end of a number behind digits that did not fit is read without looking further. -/
theorem readAfterExtra_stable (extra : Nat) :
    StableNumber (readAfterExtra negative significand extra) := by
  intro cs n rest h
  cases cs with
  | nil =>
    have hread : readTail negative significand extra [] = .ok (n, rest) := by
      simpa [readAfterExtra] using h
    obtain ⟨hs, hmore⟩ := readTail_stable negative significand extra hread
    refine ⟨hs, fun more hm => ?_⟩
    have hends := (hm.of_suffix hs) rfl
    rw [List.nil_append, readAfterExtra]
    · exact hmore more hm
    · rintro cs rfl
      exact absurd rfl (head_of_endsNumber hends '.' rfl).1
  | cons c cs =>
    by_cases hc : c = '.'
    · subst hc
      obtain ⟨hs, hmore⟩ := readFraction_stable negative significand extra h
      exact ⟨hs.trans (List.suffix_cons _ cs), hmore⟩
    · have hread : ∀ more, readAfterExtra negative significand extra (c :: more) =
          readTail negative significand extra (c :: more) := by
        intro more
        simp [readAfterExtra, hc]
      rw [hread] at h
      obtain ⟨hs, hmore⟩ := readTail_stable negative significand extra h
      refine ⟨hs, fun more hm => ?_⟩
      rw [List.cons_append, hread]
      exact hmore more hm

/-- Where digits follow that do not fit into the significand, they only count. -/
theorem readAfterDigits_extra {cs : List Char} (h : startsWithDigit cs = true) :
    readAfterDigits negative significand cs =
      readAfterExtra negative significand (cs.length - (skipDigits cs).length) (skipDigits cs) := by
  unfold readAfterDigits
  rw [if_pos h]

/-- What follows the whole digits is read without looking further than to the end of the number. -/
theorem readAfterDigits_stable : StableNumber (readAfterDigits negative significand) := by
  intro cs n rest h
  by_cases hd : startsWithDigit cs = true
  · have hextra : ∀ more, (cs ++ more).length - (skipDigits cs ++ more).length =
        cs.length - (skipDigits cs).length := by
      intro more
      simp only [List.length_append]
      omega
    rw [readAfterDigits_extra _ _ hd] at h
    obtain ⟨hs, hmore⟩ := readAfterExtra_stable negative significand _ h
    have hsuffix := hs.trans (skipDigits_suffix cs)
    refine ⟨hsuffix, fun more hm => ?_⟩
    have hd' := (startsWithDigit_append (hm.of_suffix hsuffix)).trans hd
    rw [readAfterDigits_extra _ _ hd', skipDigits_append (hm.of_suffix hs), hextra]
    exact hmore more hm
  · cases cs with
    | nil =>
      cases h
      exact ⟨List.suffix_refl _, fun more hm => readAfterDigits_plain _ _ (hm rfl)⟩
    | cons c cs =>
      by_cases hpoint : c = '.'
      · subst hpoint
        obtain ⟨hs, hmore⟩ := readFraction_stable negative significand 0 h
        exact ⟨hs.trans (List.suffix_cons _ cs), hmore⟩
      · by_cases hmark : c = 'e' ∨ c = 'E'
        · have hread : ∀ more, readAfterDigits negative significand (c :: more) =
              readExponent negative significand 0 more := by
            rcases hmark with rfl | rfl <;> exact fun more => rfl
          rw [hread] at h
          obtain ⟨hs, hmore⟩ := readExponent_stable negative significand 0 h
          refine ⟨hs.trans (List.suffix_cons c cs), fun more hm => ?_⟩
          rw [List.cons_append, hread, hmore more hm]
        · have hends : ∀ more, endsNumber (c :: more) = true := by
            intro more
            have hc : c.isDigit = false := (Bool.not_eq_true _).mp hd
            simp only [not_or] at hmark
            simp [endsNumber, hc, hpoint, hmark]
          rw [readAfterDigits_plain _ _ (hends cs)] at h
          cases h
          exact ⟨List.suffix_refl _, fun more _ => readAfterDigits_plain _ _ (hends (cs ++ more))⟩

/-- A number is read without looking further than to its end. -/
theorem readUnsigned_stable : StableNumber (readUnsigned negative) := by
  intro cs n rest h
  cases cs with
  | nil => cases h
  | cons c cs =>
    by_cases hzero : c = '0'
    · subst hzero
      have hd : startsWithDigit cs = false := by
        cases hd : startsWithDigit cs with
        | false => rfl
        | true => simp [readUnsigned, hd] at h
      have hread : readAfterDigits negative 0 cs = .ok (n, rest) := by
        simpa [readUnsigned, hd] using h
      obtain ⟨hs, hmore⟩ := readAfterDigits_stable negative 0 hread
      refine ⟨hs.trans (List.suffix_cons _ cs), fun more hm => ?_⟩
      have hd' := (startsWithDigit_append (hm.of_suffix hs)).trans hd
      simpa [readUnsigned, hd'] using hmore more hm
    · by_cases hc : c.isDigit = true
      · rcases habs : absorbDigits (digitValue c) cs with ⟨all, mid⟩
        obtain ⟨hmid, habsorb⟩ := absorbDigits_append habs
        have hread : readAfterDigits negative all mid = .ok (n, rest) := by
          simpa [readUnsigned, hzero, hc, habs] using h
        obtain ⟨hs, hmore⟩ := readAfterDigits_stable negative all hread
        refine ⟨hs.trans (hmid.trans (List.suffix_cons c cs)), fun more hm => ?_⟩
        have hfollow := hm.of_suffix hs
        simpa [readUnsigned, hzero, hc, habsorb more hfollow] using hmore more hm
      · simp [readUnsigned, hc] at h

/-- A number has at least one digit. -/
theorem readUnsigned_length {negative : Bool} {cs rest : List Char} {n : Number}
    (h : readUnsigned negative cs = .ok (n, rest)) : rest.length < cs.length := by
  unfold readUnsigned at h
  split at h
  · cases h
  · split at h
    · cases h
    · have hle := (readAfterDigits_stable _ _ h).1.length_le
      simp only [List.length_cons]
      omega
  · rename_i c cs _
    split at h
    · rcases habs : absorbDigits (digitValue c) cs with ⟨all, mid⟩
      rw [habs] at h
      have hmid := (absorbDigits_append habs).1.length_le
      have hle := (readAfterDigits_stable _ _ h).1.length_le
      simp only [List.length_cons]
      omega
    · cases h

end Reading

section Skipping

/-- An exponent is passed over up to its last digit. -/
theorem skipExponent_stable : StableSkip skipExponent := by
  intro cs rest h
  have hne : cs ≠ [] := by
    rintro rfl
    cases h
  have hsuffix := exponentSign_suffix cs
  unfold skipExponent at h ⊢
  cases hcs : (exponentSign cs).2 with
  | nil => rw [hcs] at h; cases h
  | cons c digits =>
    rw [hcs] at h hsuffix
    dsimp only at h
    split at h
    · rename_i hc
      cases h
      have hbehind := (List.suffix_cons c digits).trans hsuffix
      refine ⟨(skipDigits_suffix digits).trans hbehind, fun more hm => ?_⟩
      simp only [exponentSign_append hne, hcs, List.cons_append, hc, if_true, skipDigits_append hm]
    · cases h

/-- Passing over an exponent gets as far as reading it. -/
theorem skipExponent_of_readExponent {negative : Bool} {significand : Nat} {start : Int}
    {cs rest : List Char} {n : Number}
    (h : readExponent negative significand start cs = .ok (n, rest)) :
    skipExponent cs = .ok rest := by
  unfold readExponent at h
  unfold skipExponent
  rcases hcs : exponentSign cs with ⟨down, digits⟩
  rw [hcs] at h
  cases digits with
  | nil => cases h
  | cons c digits =>
    dsimp only at h ⊢
    by_cases hc : c.isDigit = true
    · rw [if_neg (by simp [hc])] at h
      rw [if_pos hc]
      have hskip := skipDigits_absorbExponent (digitValue c) digits
      rcases he : absorbExponent (digitValue c) digits with ⟨e, mid⟩
      rw [he] at h hskip
      cases e with
      | some e =>
        obtain ⟨rfl, -⟩ := finishFloat_eq_ok h
        rw [← hskip, absorbExponent_some he]
      | none =>
        dsimp only at h
        split at h
        · cases h
        · cases h
          rw [← hskip]
    · rw [if_pos (by simp [hc])] at h
      cases h

/-- A number without an exponent is passed over up to its last digit. -/
theorem skipTail_unmarked {cs : List Char} (h : ∀ c ∈ cs.head?, c ≠ 'e' ∧ c ≠ 'E') :
    skipTail cs = .ok cs := by
  unfold skipTail
  split
  · exact absurd rfl (h 'e' rfl).1
  · exact absurd rfl (h 'E' rfl).2
  · rfl

/-- The end of a number behind its last digit is passed over without looking further. -/
theorem skipTail_stable : StableSkip skipTail := by
  intro cs rest h
  cases cs with
  | nil =>
    cases h
    refine ⟨List.suffix_refl _, fun more hm => ?_⟩
    have hhead := head_of_endsNumber (hm rfl)
    exact skipTail_unmarked fun c hc => (hhead c hc).2
  | cons c cs =>
    by_cases hc : c = 'e' ∨ c = 'E'
    · have hskip : ∀ more, skipTail (c :: more) = skipExponent more := by
        rcases hc with rfl | rfl <;> exact fun more => rfl
      rw [hskip] at h
      obtain ⟨hs, hmore⟩ := skipExponent_stable h
      refine ⟨hs.trans (List.suffix_cons c cs), fun more hm => ?_⟩
      rw [List.cons_append, hskip, hmore more hm]
    · have hskip : ∀ more, skipTail (c :: more) = .ok (c :: more) := by
        intro more
        exact skipTail_unmarked (by simpa using hc)
      rw [hskip] at h
      cases h
      exact ⟨List.suffix_refl _, fun more _ => hskip (cs ++ more)⟩

/-- Passing over the end of a number gets as far as reading it. -/
theorem skipTail_of_readTail {negative : Bool} {significand : Nat} {exponent : Int}
    {cs rest : List Char} {n : Number}
    (h : readTail negative significand exponent cs = .ok (n, rest)) : skipTail cs = .ok rest := by
  cases cs with
  | nil =>
    obtain ⟨rfl, -⟩ := finishFloat_eq_ok h
    rfl
  | cons c cs =>
    by_cases hc : c = 'e' ∨ c = 'E'
    · rcases hc with rfl | rfl <;> exact skipExponent_of_readExponent h
    · have hplain : ∀ c' ∈ (c :: cs).head?, c' ≠ 'e' ∧ c' ≠ 'E' := by simpa using hc
      rw [readTail_unmarked negative significand hplain] at h
      obtain ⟨rfl, -⟩ := finishFloat_eq_ok h
      exact skipTail_unmarked hplain

/-- Where no digit stands, none is passed over. -/
theorem skipDigits_none {cs : List Char} (h : startsWithDigit cs = false) : skipDigits cs = cs := by
  cases cs with
  | nil => rfl
  | cons c cs => exact List.dropWhile_cons_of_neg (by simpa [startsWithDigit] using h)

/-- The digits behind a point are passed over as far as they are read. -/
theorem skipTail_of_readFraction {negative : Bool} {significand start : Nat} {cs rest : List Char}
    {n : Number} (h : readFraction negative significand start cs = .ok (n, rest)) :
    startsWithDigit cs = true ∧ skipTail (skipDigits cs) = .ok rest := by
  have hskip := skipDigits_absorbDigits significand cs
  unfold readFraction at h
  rcases hcs : absorbDigits significand cs with ⟨all, mid⟩
  simp only [hcs] at h hskip
  have hstart : cs ≠ mid → startsWithDigit cs = true := by
    intro hne
    cases hd : startsWithDigit cs with
    | true => rfl
    | false =>
      rw [absorbDigits_none hd] at hcs
      exact absurd (Prod.mk.inj hcs).2 hne
  by_cases hd : startsWithDigit mid = true
  · rw [if_pos hd, hskip] at h
    refine ⟨?_, skipTail_of_readTail h⟩
    by_cases heq : cs = mid
    · rw [heq]
      exact hd
    · exact hstart heq
  · rw [if_neg hd] at h
    by_cases hp : cs.length - mid.length = 0
    · rw [if_pos hp] at h
      cases mid <;> cases h
    · rw [if_neg hp] at h
      have hmid : skipDigits mid = mid := skipDigits_none ((Bool.not_eq_true _).mp hd)
      rw [← hskip, hmid]
      refine ⟨hstart fun heq => hp ?_, skipTail_of_readTail h⟩
      rw [heq, Nat.sub_self]

/-- Behind the digits of a number without a fraction there may be an exponent. -/
theorem skipAfterDigits_pointless {cs : List Char} (h : ∀ c ∈ cs.head?, c ≠ '.') :
    skipAfterDigits cs = skipTail cs := by
  unfold skipAfterDigits
  split
  · exact absurd rfl (h '.' rfl)
  · rfl

/-- A fraction is passed over as far as it is read. -/
theorem skipAfterDigits_of_readFraction {negative : Bool} {significand start : Nat}
    {cs rest : List Char} {n : Number}
    (h : readFraction negative significand start cs = .ok (n, rest)) :
    skipAfterDigits ('.' :: cs) = .ok rest := by
  obtain ⟨hd, hskip⟩ := skipTail_of_readFraction h
  rw [skipAfterDigits, if_pos hd, hskip]

/-- What follows digits that did not fit is passed over as far as it is read. -/
theorem skipAfterDigits_of_readAfterExtra {negative : Bool} {significand extra : Nat}
    {cs rest : List Char} {n : Number}
    (h : readAfterExtra negative significand extra cs = .ok (n, rest)) :
    skipAfterDigits cs = .ok rest := by
  unfold readAfterExtra at h
  split at h
  · exact skipAfterDigits_of_readFraction h
  · rename_i hpoint
    rw [skipAfterDigits_pointless]
    · exact skipTail_of_readTail h
    · intro c hc hp
      obtain ⟨cs', hcs⟩ := List.head?_eq_some_iff.mp hc
      exact hpoint cs' (hp ▸ hcs)

/-- What follows the whole digits of a number is passed over as far as it is read. -/
theorem skipAfterDigits_of_readAfterDigits {negative : Bool} {significand : Nat}
    {cs rest : List Char} {n : Number}
    (h : readAfterDigits negative significand cs = .ok (n, rest)) :
    skipAfterDigits (skipDigits cs) = .ok rest := by
  by_cases hd : startsWithDigit cs = true
  · rw [readAfterDigits_extra _ _ hd] at h
    exact skipAfterDigits_of_readAfterExtra h
  · rw [skipDigits_none ((Bool.not_eq_true _).mp hd)]
    unfold readAfterDigits at h
    rw [if_neg hd] at h
    split at h
    · exact skipAfterDigits_of_readFraction h
    · exact skipExponent_of_readExponent h
    · exact skipExponent_of_readExponent h
    · rename_i hpoint hlower hupper
      cases h
      have hmark : ∀ c ∈ cs.head?, c ≠ '.' ∧ c ≠ 'e' ∧ c ≠ 'E' := by
        intro c hc
        obtain ⟨cs', hcs⟩ := List.head?_eq_some_iff.mp hc
        exact ⟨fun hp => hpoint cs' (hp ▸ hcs), fun hl => hlower cs' (hl ▸ hcs),
          fun hu => hupper cs' (hu ▸ hcs)⟩
      rw [skipAfterDigits_pointless fun c hc => (hmark c hc).1]
      exact skipTail_unmarked fun c hc => (hmark c hc).2

/-- What can be read as a number can be passed over. -/
theorem skipUnsigned_of_readUnsigned {negative : Bool} {cs rest : List Char} {n : Number}
    (h : readUnsigned negative cs = .ok (n, rest)) : skipUnsigned cs = .ok rest := by
  unfold readUnsigned at h
  split at h
  · cases h
  · rename_i cs
    split at h
    · cases h
    · rename_i hd
      have hskip := skipAfterDigits_of_readAfterDigits h
      rw [skipDigits_none ((Bool.not_eq_true _).mp hd)] at hskip
      rw [skipUnsigned, if_neg hd, hskip]
  · rename_i c cs hzero
    split at h
    · rename_i hc
      have hskip := skipAfterDigits_of_readAfterDigits h
      rw [skipDigits_absorbDigits] at hskip
      rw [skipUnsigned, if_pos hc, hskip]
      exact hzero
    · cases h

/-- What follows the whole digits is passed over without looking further than to the end. -/
theorem skipAfterDigits_stable : StableSkip skipAfterDigits := by
  intro cs rest h
  cases cs with
  | nil =>
    cases h
    refine ⟨List.suffix_refl _, fun more hm => ?_⟩
    have hskip : skipTail ([] ++ more) = .ok more := (skipTail_stable rfl).2 more hm
    have hhead := head_of_endsNumber (hm rfl)
    rw [List.nil_append, skipAfterDigits_pointless fun c hc => (hhead c hc).1]
    exact hskip
  | cons c cs =>
    by_cases hc : c = '.'
    · subst hc
      rw [skipAfterDigits] at h
      split at h
      · rename_i hd
        obtain ⟨hs, hmore⟩ := skipTail_stable h
        have hsuffix := hs.trans (skipDigits_suffix cs)
        refine ⟨hsuffix.trans (List.suffix_cons _ cs), fun more hm => ?_⟩
        have hd' := (startsWithDigit_append (hm.of_suffix hsuffix)).trans hd
        rw [List.cons_append, skipAfterDigits, if_pos hd', skipDigits_append (hm.of_suffix hs)]
        exact hmore more hm
      · cases h
    · have hskip : ∀ more, skipAfterDigits (c :: more) = skipTail (c :: more) := by
        intro more
        exact skipAfterDigits_pointless (by simpa using hc)
      rw [hskip] at h
      obtain ⟨hs, hmore⟩ := skipTail_stable h
      refine ⟨hs, fun more hm => ?_⟩
      rw [List.cons_append, hskip]
      exact hmore more hm

/-- A number is passed over without looking further than to its end. -/
theorem skipUnsigned_stable : StableSkip skipUnsigned := by
  intro cs rest h
  cases cs with
  | nil => cases h
  | cons c cs =>
    by_cases hzero : c = '0'
    · subst hzero
      rw [skipUnsigned] at h
      split at h
      · cases h
      · rename_i hd
        obtain ⟨hs, hmore⟩ := skipAfterDigits_stable h
        refine ⟨hs.trans (List.suffix_cons _ cs), fun more hm => ?_⟩
        rw [← startsWithDigit_append (hm.of_suffix hs)] at hd
        rw [List.cons_append, skipUnsigned, if_neg hd]
        exact hmore more hm
    · have hskip : ∀ more, skipUnsigned (c :: more) =
          if c.isDigit then skipAfterDigits (skipDigits more)
          else .error (.seen .invalidNumber (c :: more)) := by
        intro more
        rw [skipUnsigned]
        exact hzero
      rw [hskip] at h
      split at h
      · rename_i hc
        obtain ⟨hs, hmore⟩ := skipAfterDigits_stable h
        refine ⟨hs.trans ((skipDigits_suffix cs).trans (List.suffix_cons c cs)), fun more hm => ?_⟩
        rw [List.cons_append, hskip, if_pos hc, skipDigits_append (hm.of_suffix hs)]
        exact hmore more hm
      · cases h

/-- A number that is passed over has at least one digit. -/
theorem skipUnsigned_length {cs rest : List Char} (h : skipUnsigned cs = .ok rest) :
    rest.length < cs.length := by
  unfold skipUnsigned at h
  split at h
  · cases h
  · split at h
    · cases h
    · have hle := (skipAfterDigits_stable h).1.length_le
      simp only [List.length_cons]
      omega
  · rename_i c cs _
    split at h
    · have hdigits := (skipDigits_suffix cs).length_le
      have hle := (skipAfterDigits_stable h).1.length_le
      simp only [List.length_cons]
      omega
    · cases h

end Skipping

section Whole

/-- Appending digits never makes a number smaller. -/
theorem le_ofDigitChars (digits : List Char) (n : Nat) : n ≤ Nat.ofDigitChars 10 digits n := by
  rw [Nat.ofDigitChars_eq_ofDigitChars_zero]
  have hpow : 0 < 10 ^ digits.length := Nat.pow_pos (by decide)
  have hmul : n ≤ 10 ^ digits.length * n := Nat.le_mul_of_pos_left n hpow
  omega

/-- A significand takes in all digits of a number that fits. -/
theorem absorbDigits_digits {digits rest : List Char} (hd : ∀ c ∈ digits, c.isDigit = true)
    (hrest : startsWithDigit rest = false) {n : Nat}
    (hmax : Nat.ofDigitChars 10 digits n ≤ maxSignificand) :
    absorbDigits n (digits ++ rest) = (Nat.ofDigitChars 10 digits n, rest) := by
  induction digits generalizing n with
  | nil => exact absorbDigits_none hrest n
  | cons c digits ih =>
    obtain ⟨hc, hdigits⟩ := List.forall_mem_cons.mp hd
    have hnext : 10 * n + (c.toNat - '0'.toNat) = n * 10 + digitValue c := by
      rw [Nat.mul_comm]
      rfl
    rw [Nat.ofDigitChars_cons, hnext] at hmax ⊢
    have hfit : n * 10 + digitValue c ≤ maxSignificand :=
      Nat.le_trans (le_ofDigitChars digits _) hmax
    simp only [List.cons_append, absorbDigits, hc, hfit, decide_true, Bool.and_self, if_true]
    exact ih hdigits hmax

/-- A positive number is written without a zero in front. -/
theorem toDigits_head {n : Nat} (hn : 0 < n) :
    ∃ c digits, Nat.toDigits 10 n = c :: digits ∧ c ≠ '0' := by
  induction n using Nat.strongRecOn with
  | ind n ih =>
    by_cases hlt : n < 10
    · have hdigit : ∀ m < 10, 0 < m → Nat.digitChar m ≠ '0' := by decide
      exact ⟨n.digitChar, [], Nat.toDigits_of_lt_base hlt, hdigit n hlt hn⟩
    · obtain ⟨c, digits, heq, hc⟩ := ih (n / 10) (by omega) (by omega)
      refine ⟨c, digits ++ [(n % 10).digitChar], ?_, hc⟩
      rw [Nat.toDigits_of_base_le (by decide) (by omega), heq]
      rfl

/-- The digits of a number that fits are read as that number. -/
theorem readUnsigned_toDigits (negative : Bool) {n : Nat} (hn : n ≤ maxSignificand)
    {rest : List Char} (hrest : endsNumber rest = true) :
    readUnsigned negative (Nat.toDigits 10 n ++ rest) = .ok (wholeNumber negative n, rest) := by
  have hstart := startsWithDigit_of_endsNumber hrest
  by_cases hzero : n = 0
  · subst hzero
    rw [Nat.toDigits_zero, List.singleton_append, readUnsigned, if_neg (by simp [hstart])]
    exact readAfterDigits_plain negative 0 hrest
  · obtain ⟨c, digits, heq, hc⟩ := toDigits_head (Nat.pos_of_ne_zero hzero)
    have hall : ∀ d ∈ c :: digits, d.isDigit = true := by
      intro d hd
      rw [← heq] at hd
      exact isDigit_toDigits hd
    obtain ⟨hdigit, hdigits⟩ := List.forall_mem_cons.mp hall
    -- the first digit is the significand to which the others are appended
    have hvalue : Nat.ofDigitChars 10 digits (digitValue c) = n := by
      have hten := Nat.ofDigitChars_ten_toDigits (n := n)
      rw [heq, Nat.ofDigitChars_cons] at hten
      simpa [digitValue] using hten
    have habsorb : absorbDigits (digitValue c) (digits ++ rest) = (n, rest) := by
      rw [absorbDigits_digits hdigits hstart (hvalue.symm ▸ hn), hvalue]
    rw [heq, List.cons_append, readUnsigned, if_pos hdigit, habsorb]
    · exact readAfterDigits_plain negative n hrest
    · exact hc

/-- A whole number is the one with its sign and its absolute value. -/
theorem wholeNumber_natAbs (n : Whole) :
    wholeNumber (decide (n.val < 0)) n.val.natAbs = .whole n := by
  have hvalue : (if decide (n.val < 0) = true then -(n.val.natAbs : Int) else n.val.natAbs) =
      n.val := by
    split
    · rename_i h
      have := of_decide_eq_true h
      omega
    · rename_i h
      have := of_decide_eq_false ((Bool.not_eq_true _).mp h)
      omega
  have hzero : (decide (n.val < 0) && decide (n.val.natAbs = 0)) = false := by
    rw [Bool.and_eq_false_iff, decide_eq_false_iff_not, decide_eq_false_iff_not]
    omega
  have hrange : Whole.ofInt? n.val = some n := by
    rw [Whole.ofInt?, dif_pos ⟨n.lower, n.upper⟩]
  unfold wholeNumber
  dsimp only
  rw [hvalue, hzero, hrange]

end Whole

end SessionScript.Json
