import SessionScript.Proofs.Json.Reading

/-!
# Values that are passed over

`Skips` says how far a text is passed over when a value starts it that stands inside of open
brackets: up to the end of the outermost bracket. As for reading, the number of steps is left out,
and the text behind is of no importance. Whatever can be read can be passed over, since a value that
is passed over may also be nested too deeply or hold numbers that are too large.
-/

namespace SessionScript.Json

mutual

/-- The text starts with a value inside of open brackets. -/
inductive Skips (rest : List Char) : List Bracket → List Char → Prop where
  /-- A word, a number or a string. -/
  | scalar {brackets : List Bracket} {cs mid : List Char} : skipScalar (skipBlanks cs) = .ok mid →
      SkipsInside rest true brackets mid → Skips rest brackets cs
  /-- An array. -/
  | square {brackets : List Bracket} {cs tail : List Char} : skipBlanks cs = '[' :: tail →
      SkipsInside rest false (.square :: brackets) tail → Skips rest brackets cs
  /-- An object. -/
  | curly {brackets : List Bracket} {cs tail : List Char} : skipBlanks cs = '\x7b' :: tail →
      SkipsInside rest false (.curly :: brackets) tail → Skips rest brackets cs

/-- The text goes on inside of open brackets, before or after a value. -/
inductive SkipsInside (rest : List Char) : Bool → List Bracket → List Char → Prop where
  /-- No bracket is open. -/
  | done {after : Bool} : SkipsInside rest after [] rest
  /-- The array ends. -/
  | endSquare {after : Bool} {brackets : List Bracket} {cs tail : List Char} :
      skipBlanks cs = ']' :: tail → SkipsInside rest true brackets tail →
      SkipsInside rest after (.square :: brackets) cs
  /-- The first item of the array follows. -/
  | firstItem {brackets : List Bracket} {c : Char} {cs tail : List Char} :
      skipBlanks cs = c :: tail → c ≠ ']' → Skips rest (.square :: brackets) (c :: tail) →
      SkipsInside rest false (.square :: brackets) cs
  /-- Another item of the array follows. -/
  | nextItem {brackets : List Bracket} {cs tail : List Char} : skipBlanks cs = ',' :: tail →
      Skips rest (.square :: brackets) tail → SkipsInside rest true (.square :: brackets) cs
  /-- The object ends. -/
  | endCurly {after : Bool} {brackets : List Bracket} {cs tail : List Char} :
      skipBlanks cs = '\x7d' :: tail → SkipsInside rest true brackets tail →
      SkipsInside rest after (.curly :: brackets) cs
  /-- The first member of the object follows. -/
  | firstMember {brackets : List Bracket} {c : Char} {cs tail mid : List Char} :
      skipBlanks cs = c :: tail → c ≠ '\x7d' → skipKey (c :: tail) = .ok mid →
      Skips rest (.curly :: brackets) mid → SkipsInside rest false (.curly :: brackets) cs
  /-- Another member of the object follows. -/
  | nextMember {brackets : List Bracket} {cs tail mid : List Char} :
      skipBlanks cs = ',' :: tail → skipKey tail = .ok mid → Skips rest (.curly :: brackets) mid →
      SkipsInside rest true (.curly :: brackets) cs

end

/-- What is passed over is a value and what follows it inside of the brackets. -/
theorem skips_of_skipValueIn (fuel : Nat) :
    (∀ {brackets cs rest}, skipValueIn fuel brackets cs = .ok rest → Skips rest brackets cs) ∧
      ∀ {after brackets cs rest}, skipInside fuel after brackets cs = .ok rest →
        SkipsInside rest after brackets cs := by
  induction fuel with
  | zero => exact ⟨nofun, nofun⟩
  | succ fuel ih =>
    obtain ⟨hvalue, hinside⟩ := ih
    refine ⟨fun {brackets cs rest} h => ?_, fun {after brackets cs rest} h => ?_⟩
    · unfold skipValueIn at h
      split at h
      · rename_i hcs
        exact .square hcs (hinside h)
      · rename_i hcs
        exact .curly hcs (hinside h)
      · obtain ⟨mid, hscalar, h⟩ := bind_eq_ok.mp h
        exact .scalar hscalar (hinside h)
    · match brackets with
      | [] =>
        cases h
        exact .done
      | .square :: brackets =>
        unfold skipInside at h
        split at h
        · cases h
        · rename_i hcs
          exact .endSquare hcs (hinside h)
        · rename_i c tail hclose hcs
          cases after with
          | false => exact .firstItem hcs hclose (hvalue h)
          | true =>
            simp only [Bool.not_true, Bool.false_eq_true, if_false] at h
            split at h
            · rename_i hcomma
              subst hcomma
              exact .nextItem hcs (hvalue h)
            · cases h
      | .curly :: brackets =>
        unfold skipInside at h
        split at h
        · cases h
        · rename_i hcs
          exact .endCurly hcs (hinside h)
        · rename_i c tail hclose hcs
          cases after with
          | false =>
            obtain ⟨mid, hkey, h⟩ := bind_eq_ok.mp h
            exact .firstMember hcs hclose hkey (hvalue h)
          | true =>
            simp only [Bool.not_true, Bool.false_eq_true, if_false] at h
            split at h
            · rename_i hcomma
              subst hcomma
              obtain ⟨mid, hkey, h⟩ := bind_eq_ok.mp h
              exact .nextMember hcs hkey (hvalue h)
            · cases h

section Extent

/-- A key that is passed over is a string in front of a colon. -/
theorem skipKey_eq_ok {cs rest : List Char} :
    skipKey cs = .ok rest ↔ ∃ tail mid, skipBlanks cs = '"' :: tail ∧ skipString tail = .ok mid ∧
      skipBlanks mid = ':' :: rest := by
  constructor
  · intro h
    unfold skipKey at h
    split at h
    · cases h
    · rename_i tail hcs
      obtain ⟨mid, hstring, h⟩ := bind_eq_ok.mp h
      exact ⟨tail, mid, hcs, hstring, readColon_eq_ok.mp h⟩
    · cases h
  · rintro ⟨tail, mid, hcs, hstring, hcolon⟩
    simp only [skipKey, hcs]
    exact bind_eq_ok.mpr ⟨mid, hstring, readColon_eq_ok.mpr hcolon⟩

/-- A key is passed over without looking further than to its colon. -/
theorem skipKey_stable {cs rest : List Char} (h : skipKey cs = .ok rest) :
    rest.length < cs.length ∧ ∀ more, skipKey (cs ++ more) = .ok (rest ++ more) := by
  obtain ⟨tail, mid, hcs, hstring, hcolon⟩ := skipKey_eq_ok.mp h
  obtain ⟨hlen, hmore⟩ := skipString_append hstring
  have hstart := length_lt_of_skipBlanks hcs
  have hend := length_lt_of_skipBlanks hcolon
  refine ⟨by omega, fun more => skipKey_eq_ok.mpr ?_⟩
  exact ⟨_, _, skipBlanks_append hcs more, hmore more, skipBlanks_append hcolon more⟩

/-- No scalar that is passed over starts with a bracket. -/
theorem skipScalar_not_bracket {c : Char} {cs rest : List Char}
    (h : skipScalar (c :: cs) = .ok rest) : c ≠ '[' ∧ c ≠ '\x7b' := by
  constructor
  · rintro rfl
    cases h
  · rintro rfl
    cases h

mutual

/-- A value takes at least one character. -/
theorem Skips.length {brackets : List Bracket} {cs rest : List Char} (h : Skips rest brackets cs) :
    rest.length < cs.length := by
  match h with
  | .scalar hs hin =>
    have hblanks := (skipBlanks_suffix cs).length_le
    have hscalar := (skipScalar_stable hs).1
    have hinner := hin.length
    omega
  | .square hopen hin =>
    have hstart := length_lt_of_skipBlanks hopen
    have hinner := hin.length
    omega
  | .curly hopen hin =>
    have hstart := length_lt_of_skipBlanks hopen
    have hinner := hin.length
    omega

/-- Going on inside of brackets does not give text back. -/
theorem SkipsInside.length {after : Bool} {brackets : List Bracket} {cs rest : List Char}
    (h : SkipsInside rest after brackets cs) : rest.length ≤ cs.length := by
  match h with
  | .done => exact Nat.le_refl _
  | .endSquare hcs hin =>
    have hstart := length_lt_of_skipBlanks hcs
    have hinner := hin.length
    omega
  | .firstItem hcs _ hvalue =>
    have hstart := length_lt_of_skipBlanks hcs
    have hinner := hvalue.length
    rw [List.length_cons] at hinner
    omega
  | .nextItem hcs hvalue =>
    have hstart := length_lt_of_skipBlanks hcs
    have hinner := hvalue.length
    omega
  | .endCurly hcs hin =>
    have hstart := length_lt_of_skipBlanks hcs
    have hinner := hin.length
    omega
  | .firstMember hcs _ hkey hvalue =>
    have hstart := length_lt_of_skipBlanks hcs
    have hname := (skipKey_stable hkey).1
    have hinner := hvalue.length
    rw [List.length_cons] at hname
    omega
  | .nextMember hcs hkey hvalue =>
    have hstart := length_lt_of_skipBlanks hcs
    have hname := (skipKey_stable hkey).1
    have hinner := hvalue.length
    omega

end

end Extent

section Completeness

/-- A scalar is passed over as such, and what is around it goes on. -/
theorem skipValueIn_scalar {brackets : List Bracket} {cs mid : List Char}
    (h : skipScalar (skipBlanks cs) = .ok mid) (fuel : Nat) :
    skipValueIn (fuel + 1) brackets cs = skipInside fuel true brackets mid := by
  cases hcs : skipBlanks cs with
  | nil =>
    rw [hcs] at h
    cases h
  | cons c tail =>
    rw [hcs] at h
    obtain ⟨hsquare, hcurly⟩ := skipScalar_not_bracket h
    simp [skipValueIn, hcs, hsquare, hcurly, h, bind, Except.bind]

mutual

/-- A value is passed over, given two units of fuel for each character. -/
theorem Skips.skipValueIn {brackets : List Bracket} {cs rest : List Char}
    (h : Skips rest brackets cs) (fuel : Nat) (hfuel : 2 * cs.length ≤ fuel + 2 * rest.length) :
    Json.skipValueIn fuel brackets cs = .ok rest := by
  have hlen := h.length
  obtain ⟨fuel, rfl⟩ : ∃ n, fuel = n + 1 := ⟨fuel - 1, by omega⟩
  match h with
  | .scalar hs hin =>
    have hblanks := (skipBlanks_suffix cs).length_le
    have hscalar := (skipScalar_stable hs).1
    rw [skipValueIn_scalar hs]
    exact hin.skipInside fuel (by omega)
  | .square hopen hin =>
    have hstart := length_lt_of_skipBlanks hopen
    simp only [Json.skipValueIn, hopen]
    exact hin.skipInside fuel (by omega)
  | .curly hopen hin =>
    have hstart := length_lt_of_skipBlanks hopen
    simp only [Json.skipValueIn, hopen]
    exact hin.skipInside fuel (by omega)

/-- Going on inside of brackets reaches their end, given enough fuel. -/
theorem SkipsInside.skipInside {after : Bool} {brackets : List Bracket} {cs rest : List Char}
    (h : SkipsInside rest after brackets cs) (fuel : Nat)
    (hfuel : 2 * cs.length < fuel + 2 * rest.length) :
    Json.skipInside fuel after brackets cs = .ok rest := by
  have hlen := h.length
  obtain ⟨fuel, rfl⟩ : ∃ n, fuel = n + 1 := ⟨fuel - 1, by omega⟩
  match h with
  | .done => rfl
  | .endSquare hcs hin =>
    have hstart := length_lt_of_skipBlanks hcs
    simp only [Json.skipInside, hcs]
    exact hin.skipInside fuel (by omega)
  | .firstItem hcs hclose hvalue =>
    have hstart := length_lt_of_skipBlanks hcs
    simp only [Json.skipInside, hcs, Bool.not_false, if_true]
    exact hvalue.skipValueIn fuel (by rw [List.length_cons]; omega)
  | .nextItem hcs hvalue =>
    have hstart := length_lt_of_skipBlanks hcs
    simp only [Json.skipInside, hcs, Bool.not_true, Bool.false_eq_true, if_false]
    exact hvalue.skipValueIn fuel (by omega)
  | .endCurly hcs hin =>
    have hstart := length_lt_of_skipBlanks hcs
    simp only [Json.skipInside, hcs]
    exact hin.skipInside fuel (by omega)
  | .firstMember hcs hclose hkey hvalue =>
    have hstart := length_lt_of_skipBlanks hcs
    have hname := (skipKey_stable hkey).1
    rw [List.length_cons] at hname
    simp only [Json.skipInside, hcs, Bool.not_false, if_true]
    exact bind_eq_ok.mpr ⟨_, hkey, hvalue.skipValueIn fuel (by omega)⟩
  | .nextMember hcs hkey hvalue =>
    have hstart := length_lt_of_skipBlanks hcs
    have hname := (skipKey_stable hkey).1
    simp only [Json.skipInside, hcs, Bool.not_true, Bool.false_eq_true, if_false]
    exact bind_eq_ok.mpr ⟨_, hkey, hvalue.skipValueIn fuel (by omega)⟩

end

/-- With the fuel that it is given, passing over a value gets exactly as far as the value goes. -/
theorem skipValue_eq_ok_iff {cs rest : List Char} : skipValue cs = .ok rest ↔ Skips rest [] cs := by
  constructor
  · exact (skips_of_skipValueIn (fuelFor cs)).1
  · intro h
    exact h.skipValueIn (fuelFor cs) (by unfold fuelFor; omega)

end Completeness

section Stability

mutual

/-- What follows a value that is passed over is of no importance, a number at the end excepted. -/
theorem Skips.append {brackets : List Bracket} {cs rest more : List Char}
    (h : Skips rest brackets cs) (hm : MayFollow rest more) :
    Skips (rest ++ more) brackets (cs ++ more) := by
  match h with
  | .scalar hs hin =>
    cases hcs : skipBlanks cs with
    | nil =>
      rw [hcs] at hs
      cases hs
    | cons c tail =>
      rw [hcs] at hs
      refine .scalar ?_ (hin.append hm)
      rw [skipBlanks_append hcs more]
      exact (skipScalar_stable hs).2 more (hm.of_length hin.length)
  | .square hopen hin => exact .square (skipBlanks_append hopen more) (hin.append hm)
  | .curly hopen hin => exact .curly (skipBlanks_append hopen more) (hin.append hm)

/-- What follows the outermost bracket is of no importance. -/
theorem SkipsInside.append {after : Bool} {brackets : List Bracket} {cs rest more : List Char}
    (h : SkipsInside rest after brackets cs) (hm : MayFollow rest more) :
    SkipsInside (rest ++ more) after brackets (cs ++ more) := by
  match h with
  | .done => exact .done
  | .endSquare hcs hin => exact .endSquare (skipBlanks_append hcs more) (hin.append hm)
  | .firstItem hcs hclose hvalue =>
    exact .firstItem (skipBlanks_append hcs more) hclose (hvalue.append hm)
  | .nextItem hcs hvalue => exact .nextItem (skipBlanks_append hcs more) (hvalue.append hm)
  | .endCurly hcs hin => exact .endCurly (skipBlanks_append hcs more) (hin.append hm)
  | .firstMember hcs hclose hkey hvalue =>
    exact .firstMember (skipBlanks_append hcs more) hclose ((skipKey_stable hkey).2 more)
      (hvalue.append hm)
  | .nextMember hcs hkey hvalue =>
    exact .nextMember (skipBlanks_append hcs more) ((skipKey_stable hkey).2 more) (hvalue.append hm)

end

end Stability

section Reading

/-- Blanks in front of a value are passed over with it. -/
theorem Skips.of_skipBlanks {brackets : List Bracket} {cs rest : List Char}
    (h : Skips rest brackets (skipBlanks cs)) : Skips rest brackets cs := by
  cases h with
  | scalar hs hin => exact .scalar (skipBlanks_skipBlanks cs ▸ hs) hin
  | square hopen hin => exact .square (skipBlanks_skipBlanks cs ▸ hopen) hin
  | curly hopen hin => exact .curly (skipBlanks_skipBlanks cs ▸ hopen) hin

mutual

/-- A document that can be read can be passed over, whatever is around it. -/
theorem Reads.skips {depth : Nat} {cs mid : List Char} {v : Json} (h : Reads depth cs v mid)
    {brackets : List Bracket} {rest : List Char} (hrest : SkipsInside rest true brackets mid) :
    Skips rest brackets cs := by
  cases h with
  | scalar hs => exact .scalar hs.skip hrest
  | array _ hopen hitems hclose => exact .square hopen (hitems.skips hclose hrest)
  | object _ hopen hmembers hclose => exact .curly hopen (hmembers.skips hclose hrest)

/-- Items that can be read can be passed over up to the bracket behind them. -/
theorem ReadsItems.skips {depth : Nat} {first : Bool} {cs mid tail : List Char} {items : List Json}
    (h : ReadsItems depth first cs items mid) (hclose : skipBlanks mid = ']' :: tail)
    {brackets : List Bracket} {rest : List Char} (hrest : SkipsInside rest true brackets tail) :
    SkipsInside rest (!first) (.square :: brackets) cs := by
  cases h with
  | nil hnext =>
    cases hnext with
    | close hcs =>
      cases hclose
      exact .endSquare hcs hrest
  | cons hnext hitem hitems =>
    have hvalue := hitem.skips (hitems.skips hclose hrest)
    cases hnext with
    | first hcs hne => exact .firstItem hcs hne hvalue
    | next hcs htail _ => exact .nextItem hcs (Skips.of_skipBlanks (htail ▸ hvalue))

/-- Members that can be read can be passed over up to the brace behind them. -/
theorem ReadsMembers.skips {depth : Nat} {first : Bool} {cs mid tail : List Char}
    {members : List (String × Json)} (h : ReadsMembers depth first cs members mid)
    (hclose : skipBlanks mid = '\x7d' :: tail) {brackets : List Bracket} {rest : List Char}
    (hrest : SkipsInside rest true brackets tail) :
    SkipsInside rest (!first) (.curly :: brackets) cs := by
  cases h with
  | nil hnext =>
    cases hnext with
    | close hcs =>
      cases hclose
      exact .endCurly hcs hrest
  | cons hnext hcolon hvalue hmembers =>
    have hskip := hvalue.skips (hmembers.skips hclose hrest)
    cases hnext with
    | @first _ tail' _ _ hcs hs =>
      have hquote : skipBlanks ('"' :: tail') = '"' :: tail' := rfl
      have hkey := skipKey_eq_ok.mpr ⟨_, _, hquote, skipString_of_readString hs, hcolon⟩
      exact .firstMember hcs (by decide) hkey hskip
    | next hcs htail hs =>
      have hkey := skipKey_eq_ok.mpr ⟨_, _, htail, skipString_of_readString hs, hcolon⟩
      exact .nextMember hcs hkey hskip

end

end Reading

end SessionScript.Json
