import SessionScript.Proofs.Json.Decoding

/-!
# Decoding arrays from text

The items of an array are decoded one after the other, up to its closing bracket. An array whose
items are decoded lawfully is decoded lawfully itself: an item is never the end of the text, since a
comma or the bracket stands behind it.
-/

namespace SessionScript.Json

variable {α : Type} {d : Decoder α} {depth : Nat}

/-- The text goes on with items of an array, each of which is decoded, up to the closing bracket. -/
inductive ReadsEach (d : Decoder α) (depth : Nat) :
    Bool → List Char → List α → List Char → Prop where
  /-- There are no more items. -/
  | nil {first : Bool} {cs rest : List Char} : NextItem first cs false rest →
      ReadsEach d depth first cs [] rest
  /-- There is another item. -/
  | cons {first : Bool} {cs mid mid' rest : List Char} {a : α} {as : List α} :
      NextItem first cs true mid → d.ofText depth mid = .ok (a, mid') →
      ReadsEach d depth false mid' as rest → ReadsEach d depth first cs (a :: as) rest

section Items

variable {first : Bool} {cs rest : List Char} {as : List α}

/-- What items are decoded from is what the text goes on with. -/
theorem readsEach_of_itemsOfText {fuel : Nat}
    (h : d.itemsOfText depth fuel first cs = .ok (as, rest)) :
    ReadsEach d depth first cs as rest := by
  induction fuel generalizing first cs as with
  | zero => cases h
  | succ fuel ih =>
    obtain ⟨⟨goesOn, mid⟩, hnext, h⟩ := bind_eq_ok.mp h
    have hitem := nextItem_eq_ok_iff.mp hnext
    cases goesOn with
    | false =>
      cases h
      exact .nil hitem
    | true =>
      obtain ⟨⟨a, mid'⟩, ha, h⟩ := bind_eq_ok.mp h
      obtain ⟨⟨as', rest'⟩, has, h⟩ := bind_eq_ok.mp h
      cases h
      exact .cons hitem ha (ih has)

/-- Items that a document gives are decoded from the text of the document. -/
theorem ReadsItems.each (hd : d.Lawful) {items : List Json}
    (h : ReadsItems depth first cs items rest) (hitems : d.itemsOfJson items = .ok as) :
    ReadsEach d depth first cs as rest := by
  induction items generalizing first cs as with
  | nil =>
    cases hitems
    cases h with
    | nil hnext => exact .nil hnext
  | cons v items ih =>
    obtain ⟨a, ha, hitems⟩ := bind_eq_ok.mp hitems
    obtain ⟨as', has, heq⟩ := bind_eq_ok.mp hitems
    cases heq
    cases h with
    | cons hnext hv hrest => exact .cons hnext (hd.agrees hv ha) (ih hrest has)

/-- Behind an item the text is not at its end. -/
theorem ReadsEach.start_ne_nil (h : ReadsEach d depth first cs as rest) : cs ≠ [] := by
  cases h with
  | nil hnext => exact hnext.start_ne_nil
  | cons hnext _ _ => exact hnext.start_ne_nil

/-- Items do not give text back. -/
theorem ReadsEach.length (hd : d.Lawful) (h : ReadsEach d depth first cs as rest) :
    rest.length ≤ cs.length := by
  induction h with
  | nil hnext => exact hnext.stable.2.1
  | cons hnext ha _ ih =>
    have hstart := hnext.stable.2.1
    have hitem := hd.takes ha
    omega

/-- The items that the text goes on with are decoded, given a unit of fuel for each character and
one more. -/
theorem ReadsEach.itemsOfText (hd : d.Lawful) (h : ReadsEach d depth first cs as rest) (fuel : Nat)
    (hfuel : cs.length < fuel + rest.length) :
    d.itemsOfText depth fuel first cs = .ok (as, rest) := by
  induction h generalizing fuel with
  | nil hnext =>
    have hstart := hnext.stable.2.1
    obtain ⟨fuel, rfl⟩ : ∃ n, fuel = n + 1 := ⟨fuel - 1, by omega⟩
    exact bind_eq_ok.mpr ⟨_, nextItem_eq_ok_iff.mpr hnext, rfl⟩
  | cons hnext ha hrest ih =>
    have hstart := hnext.stable.2.1
    have hitem := hd.takes ha
    have hend := hrest.length hd
    obtain ⟨fuel, rfl⟩ : ∃ n, fuel = n + 1 := ⟨fuel - 1, by omega⟩
    refine bind_eq_ok.mpr ⟨_, nextItem_eq_ok_iff.mpr hnext, ?_⟩
    exact bind_eq_ok.mpr ⟨_, ha, bind_eq_ok.mpr ⟨_, ih fuel (by omega), rfl⟩⟩

/-- What follows the items is of no importance. -/
theorem ReadsEach.append (hd : d.Lawful) (h : ReadsEach d depth first cs as rest)
    (more : List Char) : ReadsEach d depth first (cs ++ more) as (rest ++ more) := by
  induction h with
  | nil hnext => exact .nil (hnext.stable.2.2 more)
  | cons hnext ha hrest ih =>
    -- the item is followed by a comma or the closing bracket
    have hmid := hrest.start_ne_nil
    exact .cons (hnext.stable.2.2 more) (hd.stable ha fun h => absurd h hmid) ih

end Items

/-- An array is decoded from text when its items are, between its brackets. -/
theorem Decoder.list_ofText_iff (hd : d.Lawful) {cs rest : List Char} {as : List α} :
    d.list.ofText depth cs = .ok (as, rest) ↔ ∃ tail mid, 1 < depth ∧ skipBlanks cs = '[' :: tail ∧
      ReadsEach d (depth - 1) true tail as mid ∧ skipBlanks mid = ']' :: rest := by
  constructor
  · intro h
    simp only [Decoder.list] at h
    split at h
    · rename_i tail hopen
      split at h
      · cases h
      · rename_i hdepth
        obtain ⟨⟨as', mid⟩, hitems, h⟩ := bind_eq_ok.mp h
        obtain ⟨rest', hclose, h⟩ := bind_eq_ok.mp h
        cases h
        exact ⟨tail, mid, Nat.lt_of_not_le hdepth, hopen, readsEach_of_itemsOfText hitems,
          closeArray_eq_ok.mp hclose⟩
    · cases h
  · rintro ⟨tail, mid, hdepth, hopen, hitems, hclose⟩
    have hlen := hitems.length hd
    have hread := hitems.itemsOfText hd (fuelFor tail) (by unfold fuelFor; omega)
    simp only [Decoder.list, hopen, Nat.not_le.mpr hdepth, if_false]
    exact bind_eq_ok.mpr ⟨_, hread, bind_eq_ok.mpr ⟨_, closeArray_eq_ok.mpr hclose, rfl⟩⟩

/-- Arrays are decoded lawfully when their items are. -/
theorem Decoder.Lawful.list (hd : d.Lawful) : d.list.Lawful where
  agrees {depth cs v rest as} hread has := by
    cases v with
    | arr items =>
      obtain ⟨tail, mid, hdepth, hopen, hitems, hclose⟩ := hread.of_arr
      exact (list_ofText_iff hd).mpr ⟨tail, mid, hdepth, hopen, hitems.each hd has, hclose⟩
    | _ => cases has
  takes h := by
    obtain ⟨tail, mid, -, hopen, hitems, hclose⟩ := (list_ofText_iff hd).mp h
    have hstart := length_lt_of_skipBlanks hopen
    have hinner := hitems.length hd
    have hend := length_lt_of_skipBlanks hclose
    omega
  stable h more _ := by
    obtain ⟨tail, mid, hdepth, hopen, hitems, hclose⟩ := (list_ofText_iff hd).mp h
    exact (list_ofText_iff hd).mpr ⟨_, _, hdepth, skipBlanks_append hopen more,
      hitems.append hd more, skipBlanks_append hclose more⟩

end SessionScript.Json
