import SessionScript.Proofs.Json.Tokens

/-!
# Documents at the start of a text

`Reads` says which document a text starts with, and which text is left behind it, without counting
steps. The reader of documents follows it exactly: what it gives stands in the relation, and what
stands in the relation it gives, provided that it has two units of fuel for each character it takes
in. What follows a document is of no importance, a number at the very end excepted.
-/

namespace SessionScript.Json

mutual

/-- The text starts with a document, brackets being nested to a limited depth. -/
inductive Reads : Nat → List Char → Json → List Char → Prop where
  /-- A word, a number or a string. -/
  | scalar {depth : Nat} {cs rest : List Char} {v : Json} : ReadsScalar (skipBlanks cs) v rest →
      Reads depth cs v rest
  /-- An array. -/
  | array {depth : Nat} {cs tail mid rest : List Char} {items : List Json} : 1 < depth →
      skipBlanks cs = '[' :: tail → ReadsItems (depth - 1) true tail items mid →
      skipBlanks mid = ']' :: rest → Reads depth cs (.arr items) rest
  /-- An object. -/
  | object {depth : Nat} {cs tail mid rest : List Char} {members : List (String × Json)} :
      1 < depth → skipBlanks cs = '\x7b' :: tail → ReadsMembers (depth - 1) true tail members mid →
      skipBlanks mid = '\x7d' :: rest → Reads depth cs (.obj members) rest

/-- The text goes on with items of an array, up to its closing bracket. -/
inductive ReadsItems : Nat → Bool → List Char → List Json → List Char → Prop where
  /-- There are no more items. -/
  | nil {depth : Nat} {first : Bool} {cs rest : List Char} : NextItem first cs false rest →
      ReadsItems depth first cs [] rest
  /-- There is another item. -/
  | cons {depth : Nat} {first : Bool} {cs mid mid' rest : List Char} {item : Json}
      {items : List Json} : NextItem first cs true mid → Reads depth mid item mid' →
      ReadsItems depth false mid' items rest → ReadsItems depth first cs (item :: items) rest

/-- The text goes on with members of an object, up to its closing brace. -/
inductive ReadsMembers : Nat → Bool → List Char → List (String × Json) → List Char → Prop where
  /-- There are no more members. -/
  | nil {depth : Nat} {first : Bool} {cs rest : List Char} : NextKey first cs none rest →
      ReadsMembers depth first cs [] rest
  /-- There is another member. -/
  | cons {depth : Nat} {first : Bool} {cs mid tail mid' rest : List Char} {key : String}
      {value : Json} {members : List (String × Json)} : NextKey first cs (some key) mid →
      skipBlanks mid = ':' :: tail → Reads depth tail value mid' →
      ReadsMembers depth false mid' members rest →
      ReadsMembers depth first cs ((key, value) :: members) rest

end

/-- What the reader gives is what the text starts with. -/
theorem reads_of_readValue (fuel : Nat) :
    (∀ {depth cs v rest}, readValue fuel depth cs = .ok (v, rest) → Reads depth cs v rest) ∧
      (∀ {depth first cs items rest}, readItems fuel depth first cs = .ok (items, rest) →
        ReadsItems depth first cs items rest) ∧
      ∀ {depth first cs members rest}, readMembers fuel depth first cs = .ok (members, rest) →
        ReadsMembers depth first cs members rest := by
  induction fuel with
  | zero => exact ⟨nofun, nofun, nofun⟩
  | succ fuel ih =>
    obtain ⟨hvalue, hitems, hmembers⟩ := ih
    refine ⟨fun {depth cs v rest} h => ?_, fun {depth first cs items rest} h => ?_,
      fun {depth first cs members rest} h => ?_⟩
    · unfold readValue at h
      split at h
      · cases h
      · rename_i tail hcs
        split at h
        · cases h
        · rename_i hdepth
          obtain ⟨⟨items, mid⟩, hread, h⟩ := bind_eq_ok.mp h
          obtain ⟨rest', hclose, h⟩ := bind_eq_ok.mp h
          cases h
          exact .array (Nat.lt_of_not_le hdepth) hcs (hitems hread) (closeArray_eq_ok.mp hclose)
      · rename_i tail hcs
        split at h
        · cases h
        · rename_i hdepth
          obtain ⟨⟨members, mid⟩, hread, h⟩ := bind_eq_ok.mp h
          obtain ⟨rest', hclose, h⟩ := bind_eq_ok.mp h
          cases h
          exact .object (Nat.lt_of_not_le hdepth) hcs (hmembers hread) (closeObject_eq_ok.mp hclose)
      · split at h
        · rename_i reading hscalar
          subst h
          exact .scalar (readScalar?_eq_ok_iff.mp hscalar)
        · cases h
    · unfold readItems at h
      obtain ⟨⟨goesOn, mid⟩, hnext, h⟩ := bind_eq_ok.mp h
      cases goesOn with
      | false =>
        cases h
        exact .nil (nextItem_eq_ok_iff.mp hnext)
      | true =>
        obtain ⟨⟨item, mid'⟩, hitem, h⟩ := bind_eq_ok.mp h
        obtain ⟨⟨items', rest'⟩, hrest, h⟩ := bind_eq_ok.mp h
        cases h
        exact .cons (nextItem_eq_ok_iff.mp hnext) (hvalue hitem) (hitems hrest)
    · unfold readMembers at h
      obtain ⟨⟨key, mid⟩, hnext, h⟩ := bind_eq_ok.mp h
      cases key with
      | none =>
        cases h
        exact .nil (nextKey_eq_ok_iff.mp hnext)
      | some key =>
        obtain ⟨tail, hcolon, h⟩ := bind_eq_ok.mp h
        obtain ⟨⟨value, mid'⟩, hread, h⟩ := bind_eq_ok.mp h
        obtain ⟨⟨members', rest'⟩, hrest, h⟩ := bind_eq_ok.mp h
        cases h
        exact .cons (nextKey_eq_ok_iff.mp hnext) (readColon_eq_ok.mp hcolon) (hvalue hread)
          (hmembers hrest)

section Start

/-- A scalar is a document. -/
theorem Reads.of_scalar {depth : Nat} {cs rest : List Char} {v : Json} (h : ReadsScalar cs v rest) :
    Reads depth cs v rest :=
  .scalar (by rwa [h.skipBlanks])

/-- Blanks in front of a document may be left out or put there. -/
theorem reads_skipBlanks_iff {depth : Nat} {cs rest : List Char} {v : Json} :
    Reads depth (skipBlanks cs) v rest ↔ Reads depth cs v rest := by
  have hidem := skipBlanks_skipBlanks cs
  constructor
  · intro h
    cases h with
    | scalar hs => exact .scalar (by rwa [hidem] at hs)
    | array hdepth hopen hin hclose => exact .array hdepth (by rwa [hidem] at hopen) hin hclose
    | object hdepth hopen hin hclose => exact .object hdepth (by rwa [hidem] at hopen) hin hclose
  · intro h
    cases h with
    | scalar hs => exact .scalar (by rwa [hidem])
    | array hdepth hopen hin hclose => exact .array hdepth (by rwa [hidem]) hin hclose
    | object hdepth hopen hin hclose => exact .object hdepth (by rwa [hidem]) hin hclose

/-- A document starts with a token that does not close a bracket. -/
theorem Reads.start {depth : Nat} {cs rest : List Char} {v : Json} (h : Reads depth cs v rest) :
    ∃ c tail, skipBlanks cs = c :: tail ∧ c ≠ ']' := by
  cases h with
  | scalar hs =>
    generalize skipBlanks cs = start at hs
    cases hs with
    | positive hc _ => exact ⟨_, _, rfl, by rintro rfl; revert hc; decide⟩
    | _ => exact ⟨_, _, rfl, by decide⟩
  | array _ hopen _ _ => exact ⟨_, _, hopen, by decide⟩
  | object _ hopen _ _ => exact ⟨_, _, hopen, by decide⟩

end Start

section Extent

mutual

/-- A document takes at least one character. -/
theorem Reads.length {depth : Nat} {cs rest : List Char} {v : Json} (h : Reads depth cs v rest) :
    rest.length < cs.length := by
  cases h with
  | scalar hs =>
    have hblanks := (skipBlanks_suffix cs).length_le
    have hscalar := hs.stable.2.1
    omega
  | array _ hopen hitems hclose =>
    have hstart := length_lt_of_skipBlanks hopen
    have hinner := hitems.length
    have hend := length_lt_of_skipBlanks hclose
    omega
  | object _ hopen hmembers hclose =>
    have hstart := length_lt_of_skipBlanks hopen
    have hinner := hmembers.length
    have hend := length_lt_of_skipBlanks hclose
    omega

/-- Items do not give text back. -/
theorem ReadsItems.length {depth : Nat} {first : Bool} {cs rest : List Char} {items : List Json}
    (h : ReadsItems depth first cs items rest) : rest.length ≤ cs.length := by
  cases h with
  | nil hnext => exact hnext.stable.2.1
  | cons hnext hitem hitems =>
    have hstart := hnext.stable.2.1
    have hinner := hitem.length
    have hend := hitems.length
    omega

/-- Members do not give text back. -/
theorem ReadsMembers.length {depth : Nat} {first : Bool} {cs rest : List Char}
    {members : List (String × Json)} (h : ReadsMembers depth first cs members rest) :
    rest.length ≤ cs.length := by
  cases h with
  | nil hnext => exact hnext.stable.2.1
  | cons hnext hcolon hvalue hmembers =>
    have hstart := hnext.stable.2.1
    have hmark := length_lt_of_skipBlanks hcolon
    have hinner := hvalue.length
    have hend := hmembers.length
    omega

end

/-- Behind an item the text is not at its end. -/
theorem ReadsItems.start_ne_nil {depth : Nat} {first : Bool} {cs rest : List Char}
    {items : List Json} (h : ReadsItems depth first cs items rest) : cs ≠ [] := by
  rintro rfl
  cases h with
  | nil hnext => exact hnext.start_ne_nil rfl
  | cons hnext _ _ => exact hnext.start_ne_nil rfl

/-- Behind a member the text is not at its end. -/
theorem ReadsMembers.start_ne_nil {depth : Nat} {first : Bool} {cs rest : List Char}
    {members : List (String × Json)} (h : ReadsMembers depth first cs members rest) : cs ≠ [] := by
  rintro rfl
  cases h with
  | nil hnext => exact hnext.start_ne_nil rfl
  | cons hnext _ _ _ => exact hnext.start_ne_nil rfl

end Extent

section Completeness

mutual

/-- The reader reads what the text starts with, given two units of fuel for each character. -/
theorem Reads.readValue {depth : Nat} {cs rest : List Char} {v : Json} (h : Reads depth cs v rest)
    (fuel : Nat) (hfuel : 2 * cs.length ≤ fuel + 2 * rest.length) :
    Json.readValue fuel depth cs = .ok (v, rest) := by
  have hlen := h.length
  obtain ⟨fuel, rfl⟩ : ∃ n, fuel = n + 1 := ⟨fuel - 1, by omega⟩
  cases h with
  | scalar hs =>
    cases hcs : skipBlanks cs with
    | nil =>
      rw [hcs] at hs
      cases hs
    | cons c tail =>
      rw [hcs] at hs
      obtain ⟨hsquare, hcurly⟩ := hs.not_bracket
      simp [Json.readValue, hcs, hsquare, hcurly, readScalar?_eq_ok_iff.mpr hs]
  | array hdepth hopen hitems hclose =>
    have hstart := length_lt_of_skipBlanks hopen
    have hend := length_lt_of_skipBlanks hclose
    have hread := hitems.readItems fuel (by omega)
    simp only [Json.readValue, hopen, Nat.not_le.mpr hdepth, if_false]
    exact bind_eq_ok.mpr ⟨_, hread, bind_eq_ok.mpr ⟨_, closeArray_eq_ok.mpr hclose, rfl⟩⟩
  | object hdepth hopen hmembers hclose =>
    have hstart := length_lt_of_skipBlanks hopen
    have hend := length_lt_of_skipBlanks hclose
    have hread := hmembers.readMembers fuel (by omega)
    simp only [Json.readValue, hopen, Nat.not_le.mpr hdepth, if_false]
    exact bind_eq_ok.mpr ⟨_, hread, bind_eq_ok.mpr ⟨_, closeObject_eq_ok.mpr hclose, rfl⟩⟩

/-- The reader reads the items that the text goes on with. -/
theorem ReadsItems.readItems {depth : Nat} {first : Bool} {cs rest : List Char} {items : List Json}
    (h : ReadsItems depth first cs items rest) (fuel : Nat)
    (hfuel : 2 * cs.length < fuel + 2 * rest.length) :
    Json.readItems fuel depth first cs = .ok (items, rest) := by
  have hlen := h.length
  obtain ⟨fuel, rfl⟩ : ∃ n, fuel = n + 1 := ⟨fuel - 1, by omega⟩
  cases h with
  | nil hnext => exact bind_eq_ok.mpr ⟨_, nextItem_eq_ok_iff.mpr hnext, rfl⟩
  | cons hnext hitem hitems =>
    have hstart := hnext.stable.2.1
    have hinner := hitem.length
    have hend := hitems.length
    have hread := hitem.readValue fuel (by omega)
    have hreads := hitems.readItems fuel (by omega)
    refine bind_eq_ok.mpr ⟨_, nextItem_eq_ok_iff.mpr hnext, ?_⟩
    exact bind_eq_ok.mpr ⟨_, hread, bind_eq_ok.mpr ⟨_, hreads, rfl⟩⟩

/-- The reader reads the members that the text goes on with. -/
theorem ReadsMembers.readMembers {depth : Nat} {first : Bool} {cs rest : List Char}
    {members : List (String × Json)} (h : ReadsMembers depth first cs members rest) (fuel : Nat)
    (hfuel : 2 * cs.length < fuel + 2 * rest.length) :
    Json.readMembers fuel depth first cs = .ok (members, rest) := by
  have hlen := h.length
  obtain ⟨fuel, rfl⟩ : ∃ n, fuel = n + 1 := ⟨fuel - 1, by omega⟩
  cases h with
  | nil hnext => exact bind_eq_ok.mpr ⟨_, nextKey_eq_ok_iff.mpr hnext, rfl⟩
  | cons hnext hcolon hvalue hmembers =>
    have hstart := hnext.stable.2.1
    have hmark := length_lt_of_skipBlanks hcolon
    have hinner := hvalue.length
    have hend := hmembers.length
    have hread := hvalue.readValue fuel (by omega)
    have hreads := hmembers.readMembers fuel (by omega)
    refine bind_eq_ok.mpr ⟨_, nextKey_eq_ok_iff.mpr hnext, ?_⟩
    refine bind_eq_ok.mpr ⟨_, readColon_eq_ok.mpr hcolon, ?_⟩
    exact bind_eq_ok.mpr ⟨_, hread, bind_eq_ok.mpr ⟨_, hreads, rfl⟩⟩

end

/-- With the fuel that it is given, the reader reads exactly what the text starts with. -/
theorem readValue_eq_ok_iff {depth : Nat} {cs rest : List Char} {v : Json} :
    readValue (fuelFor cs) depth cs = .ok (v, rest) ↔ Reads depth cs v rest := by
  constructor
  · exact (reads_of_readValue (fuelFor cs)).1
  · intro h
    exact h.readValue (fuelFor cs) (by unfold fuelFor; omega)

end Completeness

section Stability

mutual

/-- What follows a document is of no importance, a number at the end of the text excepted. -/
theorem Reads.append {depth : Nat} {cs rest more : List Char} {v : Json} (h : Reads depth cs v rest)
    (hm : MayFollow rest more) : Reads depth (cs ++ more) v (rest ++ more) := by
  cases h with
  | scalar hs =>
    cases hcs : skipBlanks cs with
    | nil =>
      rw [hcs] at hs
      cases hs
    | cons c tail =>
      rw [hcs] at hs
      refine .scalar ?_
      rw [skipBlanks_append hcs more]
      exact hs.stable.2.2 more hm
  | array hdepth hopen hitems hclose =>
    exact .array hdepth (skipBlanks_append hopen more) (hitems.append more)
      (skipBlanks_append hclose more)
  | object hdepth hopen hmembers hclose =>
    exact .object hdepth (skipBlanks_append hopen more) (hmembers.append more)
      (skipBlanks_append hclose more)

/-- What follows the items of an array is of no importance. -/
theorem ReadsItems.append {depth : Nat} {first : Bool} {cs rest : List Char} {items : List Json}
    (h : ReadsItems depth first cs items rest) (more : List Char) :
    ReadsItems depth first (cs ++ more) items (rest ++ more) := by
  cases h with
  | nil hnext => exact .nil (hnext.stable.2.2 more)
  | cons hnext hitem hitems =>
    -- the text behind the item is not at its end: a comma or the closing bracket follows
    have hmid := hitems.start_ne_nil
    exact .cons (hnext.stable.2.2 more) (hitem.append fun h => absurd h hmid) (hitems.append more)

/-- What follows the members of an object is of no importance. -/
theorem ReadsMembers.append {depth : Nat} {first : Bool} {cs rest : List Char}
    {members : List (String × Json)} (h : ReadsMembers depth first cs members rest)
    (more : List Char) : ReadsMembers depth first (cs ++ more) members (rest ++ more) := by
  cases h with
  | nil hnext => exact .nil (hnext.stable.2.2 more)
  | cons hnext hcolon hvalue hmembers =>
    have hmid := hmembers.start_ne_nil
    exact .cons (hnext.stable.2.2 more) (skipBlanks_append hcolon more)
      (hvalue.append fun h => absurd h hmid) (hmembers.append more)

end

end Stability

end SessionScript.Json
