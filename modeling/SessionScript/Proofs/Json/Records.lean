import SessionScript.Proofs.Json.Decoding

/-!
# Decoding records from text

The fields of a record are read one after the other, in the order of the text for an object and in
the order of the shape for an array. A record whose fields are decoded lawfully is decoded lawfully
itself. Since its text ends with a bracket, no text of a record is the beginning of another one.
-/

namespace SessionScript.Json

variable {σ : Type} (shape : Shape σ)

/-- The text goes on with members of an object, which are entered into a record up to the closing
brace. -/
inductive ReadsFields (depth : Nat) :
    Bool → Draft σ → List Char → Draft σ → List Char → Prop where
  /-- There are no more members. -/
  | nil {first : Bool} {draft : Draft σ} {cs rest : List Char} : NextKey first cs none rest →
      ReadsFields depth first draft cs draft rest
  /-- There is a member that means nothing. -/
  | other {first : Bool} {draft draft' : Draft σ} {cs mid tail mid' rest : List Char} {key : String} :
      NextKey first cs (some key) mid → shape.field? key = none → skipBlanks mid = ':' :: tail →
      Skips mid' [] tail → ReadsFields depth false draft mid' draft' rest →
      ReadsFields depth first draft cs draft' rest
  /-- There is a field that has not been met. -/
  | field {first : Bool} {draft draft' : Draft σ} {cs mid tail mid' rest : List Char} {key : String}
      {f : Field σ} {put : σ → σ} : NextKey first cs (some key) mid → shape.field? key = some f →
      draft.seen.contains key = false → skipBlanks mid = ':' :: tail →
      f.put.ofText depth tail = .ok (put, mid') →
      ReadsFields depth false ⟨key :: draft.seen, put draft.record⟩ mid' draft' rest →
      ReadsFields depth first draft cs draft' rest

/-- The text goes on with members of an object, up to its closing brace. Among them may be others
that mean nothing to a record, whose values are of no importance as long as they can be passed
over. -/
inductive ReadsAmong (depth : Nat) :
    Bool → List Char → List (String × Json) → List Char → Prop where
  /-- There are no more members. -/
  | nil {first : Bool} {cs rest : List Char} : NextKey first cs none rest →
      ReadsAmong depth first cs [] rest
  /-- There is a member that means nothing. -/
  | other {first : Bool} {cs mid tail mid' rest : List Char} {key : String}
      {members : List (String × Json)} : NextKey first cs (some key) mid →
      shape.field? key = none → skipBlanks mid = ':' :: tail → Skips mid' [] tail →
      ReadsAmong depth false mid' members rest → ReadsAmong depth first cs members rest
  /-- There is a member. -/
  | member {first : Bool} {cs mid tail mid' rest : List Char} {key : String} {value : Json}
      {members : List (String × Json)} : NextKey first cs (some key) mid →
      skipBlanks mid = ':' :: tail → Reads depth tail value mid' →
      ReadsAmong depth false mid' members rest →
      ReadsAmong depth first cs ((key, value) :: members) rest

/-- All fields of a record are decoded lawfully. -/
def Shape.LawfulFields : Prop := ∀ f ∈ shape.fields, f.put.Lawful

variable {shape} {depth : Nat}

section Members

/-- What the members of an object are read as is what the text goes on with. -/
theorem readsFields_of_readMembers {fuel : Nat} {first : Bool} {draft draft' : Draft σ}
    {cs rest : List Char} (h : shape.readMembers depth fuel first draft cs = .ok (draft', rest)) :
    ReadsFields shape depth first draft cs draft' rest := by
  induction fuel generalizing first draft cs with
  | zero => cases h
  | succ fuel ih =>
    unfold Shape.readMembers at h
    obtain ⟨⟨key, mid⟩, hnext, h⟩ := bind_eq_ok.mp h
    have hkey := nextKey_eq_ok_iff.mp hnext
    cases key with
    | none =>
      cases h
      exact .nil hkey
    | some key =>
      dsimp only at h
      split at h
      · rename_i hfield
        obtain ⟨tail, hcolon, h⟩ := bind_eq_ok.mp h
        obtain ⟨mid', hskip, h⟩ := bind_eq_ok.mp h
        exact .other hkey hfield (readColon_eq_ok.mp hcolon) (skipValue_eq_ok_iff.mp hskip) (ih h)
      · rename_i f hfield
        split at h
        · cases h
        · rename_i hseen
          obtain ⟨tail, hcolon, h⟩ := bind_eq_ok.mp h
          obtain ⟨⟨put, mid'⟩, hput, h⟩ := bind_eq_ok.mp h
          exact .field hkey hfield (by simpa using hseen) (readColon_eq_ok.mp hcolon) hput (ih h)

/-- Behind a member the text is not at its end. -/
theorem ReadsFields.start_ne_nil {first : Bool} {draft draft' : Draft σ} {cs rest : List Char}
    (h : ReadsFields shape depth first draft cs draft' rest) : cs ≠ [] := by
  cases h with
  | nil hnext => exact hnext.start_ne_nil
  | other hnext _ _ _ _ => exact hnext.start_ne_nil
  | field hnext _ _ _ _ _ => exact hnext.start_ne_nil

/-- A field that is found by its key is decoded lawfully. -/
theorem Shape.LawfulFields.put (h : shape.LawfulFields) {key : String} {f : Field σ}
    (hf : shape.field? key = some f) : f.put.Lawful :=
  h f (List.mem_of_find?_eq_some hf)

/-- Members do not give text back. -/
theorem ReadsFields.length (hfields : shape.LawfulFields) {first : Bool} {draft draft' : Draft σ}
    {cs rest : List Char} (h : ReadsFields shape depth first draft cs draft' rest) :
    rest.length ≤ cs.length := by
  induction h with
  | nil hnext => exact hnext.stable.2.1
  | other hnext _ hcolon hskip _ ih =>
    have hstart := hnext.stable.2.1
    have hmark := length_lt_of_skipBlanks hcolon
    have hvalue := hskip.length
    omega
  | field hnext hfield _ hcolon hput _ ih =>
    have hstart := hnext.stable.2.1
    have hmark := length_lt_of_skipBlanks hcolon
    have hvalue := (hfields.put hfield).takes hput
    omega

/-- The members that the text goes on with are read, given a unit of fuel for each character. -/
theorem ReadsFields.readMembers (hfields : shape.LawfulFields) {first : Bool}
    {draft draft' : Draft σ} {cs rest : List Char}
    (h : ReadsFields shape depth first draft cs draft' rest) (fuel : Nat)
    (hfuel : cs.length < fuel + rest.length) :
    shape.readMembers depth fuel first draft cs = .ok (draft', rest) := by
  induction h generalizing fuel with
  | nil hnext =>
    have hlen := hnext.stable.2.1
    obtain ⟨fuel, rfl⟩ : ∃ n, fuel = n + 1 := ⟨fuel - 1, by omega⟩
    exact bind_eq_ok.mpr ⟨_, nextKey_eq_ok_iff.mpr hnext, rfl⟩
  | other hnext hfield hcolon hskip hin ih =>
    have hstart := hnext.stable.2.1
    have hmark := length_lt_of_skipBlanks hcolon
    have hvalue := hskip.length
    have hend := hin.length hfields
    obtain ⟨fuel, rfl⟩ : ∃ n, fuel = n + 1 := ⟨fuel - 1, by omega⟩
    refine bind_eq_ok.mpr ⟨_, nextKey_eq_ok_iff.mpr hnext, ?_⟩
    simp only [hfield]
    refine bind_eq_ok.mpr ⟨_, readColon_eq_ok.mpr hcolon, ?_⟩
    exact bind_eq_ok.mpr ⟨_, skipValue_eq_ok_iff.mpr hskip, ih fuel (by omega)⟩
  | field hnext hfield hseen hcolon hput hin ih =>
    have hstart := hnext.stable.2.1
    have hmark := length_lt_of_skipBlanks hcolon
    have hvalue := (hfields.put hfield).takes hput
    have hend := hin.length hfields
    obtain ⟨fuel, rfl⟩ : ∃ n, fuel = n + 1 := ⟨fuel - 1, by omega⟩
    refine bind_eq_ok.mpr ⟨_, nextKey_eq_ok_iff.mpr hnext, ?_⟩
    simp only [hfield, hseen, Bool.false_eq_true, if_false]
    refine bind_eq_ok.mpr ⟨_, readColon_eq_ok.mpr hcolon, ?_⟩
    exact bind_eq_ok.mpr ⟨_, hput, ih fuel (by omega)⟩

/-- What follows the members is of no importance. -/
theorem ReadsFields.append (hfields : shape.LawfulFields) {first : Bool} {draft draft' : Draft σ}
    {cs rest : List Char} (h : ReadsFields shape depth first draft cs draft' rest)
    (more : List Char) : ReadsFields shape depth first draft (cs ++ more) draft' (rest ++ more) := by
  induction h with
  | nil hnext => exact .nil (hnext.stable.2.2 more)
  | other hnext hfield hcolon hskip hin ih =>
    -- the value is followed by a comma or the closing brace
    have hmid := hin.start_ne_nil
    exact .other (hnext.stable.2.2 more) hfield (skipBlanks_append hcolon more)
      (hskip.append fun h => absurd h hmid) ih
  | field hnext hfield hseen hcolon hput hin ih =>
    have hmid := hin.start_ne_nil
    exact .field (hnext.stable.2.2 more) hfield hseen (skipBlanks_append hcolon more)
      ((hfields.put hfield).stable hput fun h => absurd h hmid) ih

/-- Members that can be entered into a record are entered when they are read from text, and so are
they when members that mean nothing stand among them. -/
theorem ReadsAmong.enter (hfields : shape.LawfulFields) {members : List (String × Json)}
    {first : Bool} {draft draft' : Draft σ} {cs rest : List Char}
    (h : ReadsAmong shape depth first cs members rest)
    (henter : shape.enterMembers members draft = .ok draft') :
    ReadsFields shape depth first draft cs draft' rest := by
  induction h generalizing draft with
  | nil hnext =>
    cases henter
    exact .nil hnext
  | other hnext hfield hcolon hskip _ ih => exact .other hnext hfield hcolon hskip (ih henter)
  | member hnext hcolon hvalue _ ih =>
    unfold Shape.enterMembers at henter
    split at henter
    · rename_i hfield
      exact .other hnext hfield hcolon (hvalue.skips .done) (ih henter)
    · rename_i f hfield
      split at henter
      · cases henter
      · rename_i hseen
        obtain ⟨put, hput, henter⟩ := bind_eq_ok.mp henter
        have hread := (hfields.put hfield).agrees hvalue hput
        exact .field hnext hfield (by simpa using hseen) hcolon hread (ih henter)

/-- Members that are all read are read. -/
theorem ReadsMembers.among {members : List (String × Json)} {first : Bool} {cs rest : List Char}
    (h : ReadsMembers depth first cs members rest) :
    ReadsAmong shape depth first cs members rest := by
  induction members generalizing first cs with
  | nil =>
    cases h with
    | nil hnext => exact .nil hnext
  | cons member members ih =>
    cases h with
    | cons hnext hcolon hvalue hmembers => exact .member hnext hcolon hvalue (ih hmembers)

end Members

section Items

/-- Items that can be entered into the fields of a record are entered when they are read from
text. The text may be left in front of the blanks before the closing bracket. -/
theorem ReadsItems.enter {fields : List (Field σ)} (hfields : ∀ f ∈ fields, f.put.Lawful)
    {index : Nat} {first : Bool} {items : List Json} {record record' : σ} {cs rest : List Char}
    (h : ReadsItems depth first cs items rest)
    (henter : shape.enterItems index fields items record = .ok (record', [])) :
    ∃ mid, shape.readItems depth index fields first record cs = .ok (record', mid) ∧
      skipBlanks mid = skipBlanks rest := by
  induction fields generalizing index first items record cs with
  | nil =>
    cases henter
    cases h with
    | nil hnext =>
      cases hnext with
      | close hcs => exact ⟨cs, rfl, hcs⟩
  | cons f fields ih =>
    have htail : ∀ g ∈ fields, g.put.Lawful := fun g hg => hfields g (List.mem_cons_of_mem f hg)
    cases h with
    | nil hnext =>
      have hstop := nextItem_eq_ok_iff.mpr hnext
      unfold Shape.enterItems at henter
      split at henter
      · cases henter
      · rename_i hrequired
        -- the text stays in front of the closing bracket for all the fields that are left
        cases hnext with
        | @close _ _ tail hcs =>
          have hagain : NextItem first (']' :: tail) false (']' :: tail) := .close rfl
          obtain ⟨mid, hread, hmid⟩ := ih htail (.nil hagain) henter
          refine ⟨mid, bind_eq_ok.mpr ⟨_, hstop, ?_⟩, hmid⟩
          simpa [hrequired] using hread
    | cons hnext hitem hitems =>
      unfold Shape.enterItems at henter
      obtain ⟨put, hput, henter⟩ := bind_eq_ok.mp henter
      have hread := (hfields f List.mem_cons_self).agrees hitem hput
      obtain ⟨mid, hreads, hmid⟩ := ih htail hitems henter
      refine ⟨mid, bind_eq_ok.mpr ⟨_, nextItem_eq_ok_iff.mpr hnext, ?_⟩, hmid⟩
      exact bind_eq_ok.mpr ⟨_, hread, hreads⟩

/-- What follows the items of a record is of no importance, unless the text ends behind them. -/
theorem Shape.readItems_stable {fields : List (Field σ)} (hfields : ∀ f ∈ fields, f.put.Lawful)
    {index : Nat} {first : Bool} {record record' : σ} {cs rest : List Char}
    (h : shape.readItems depth index fields first record cs = .ok (record', rest))
    (hrest : rest ≠ []) : rest.length ≤ cs.length ∧ ∀ more,
      shape.readItems depth index fields first record (cs ++ more) = .ok (record', rest ++ more) := by
  induction fields generalizing index first record cs with
  | nil =>
    cases h
    exact ⟨Nat.le_refl _, fun more => rfl⟩
  | cons f fields ih =>
    have htail : ∀ g ∈ fields, g.put.Lawful := fun g hg => hfields g (List.mem_cons_of_mem f hg)
    unfold Shape.readItems at h
    obtain ⟨⟨goesOn, mid⟩, hnext, h⟩ := bind_eq_ok.mp h
    obtain ⟨-, hstart, hmore⟩ := (nextItem_eq_ok_iff.mp hnext).stable
    cases goesOn with
    | true =>
      obtain ⟨⟨put, mid'⟩, hput, h⟩ := bind_eq_ok.mp h
      have hlawful := hfields f List.mem_cons_self
      have hvalue := hlawful.takes hput
      obtain ⟨hend, hstable⟩ := ih htail h
      -- more text is left behind the value than behind all the items
      have hmid : mid' ≠ [] := by
        rintro rfl
        exact hrest (List.length_eq_zero_iff.mp (Nat.le_zero.mp hend))
      refine ⟨by omega, fun more => bind_eq_ok.mpr ⟨_, nextItem_eq_ok_iff.mpr (hmore more), ?_⟩⟩
      exact bind_eq_ok.mpr ⟨_, hlawful.stable hput fun h => absurd h hmid, hstable more⟩
    | false =>
      simp only [Bool.false_eq_true, if_false] at h
      split at h
      · cases h
      · rename_i hrequired
        obtain ⟨hend, hstable⟩ := ih htail h
        refine ⟨by omega, fun more => bind_eq_ok.mpr ⟨_, nextItem_eq_ok_iff.mpr (hmore more), ?_⟩⟩
        simpa [hrequired] using hstable more

end Items

section Records

/-- Placing a refusal changes no result. -/
theorem placeAt_eq_ok {α : Type} {settle : List Char → List Char} {reading : Reading (α × List Char)}
    {a : α} {rest : List Char} :
    placeAt settle reading = .ok (a, rest) ↔ reading = .ok (a, rest) := by
  cases reading with
  | ok p => rfl
  | error e => cases e <;> exact ⟨nofun, nofun⟩

/-- The ways in which a record is decoded from text. -/
inductive ReadsRecord (shape : Shape σ) (depth : Nat) : List Char → σ → List Char → Prop where
  /-- From an object. -/
  | object {cs tail mid rest : List Char} {draft : Draft σ} : 1 < depth →
      skipBlanks cs = '\x7b' :: tail →
      ReadsFields shape (depth - 1) true ⟨[], shape.blank⟩ tail draft mid →
      shape.missing? draft.seen = none → skipBlanks mid = '\x7d' :: rest →
      ReadsRecord shape depth cs draft.record rest
  /-- From an array. -/
  | array {cs tail mid rest : List Char} {record : σ} : 1 < depth → skipBlanks cs = '[' :: tail →
      shape.readItems (depth - 1) 0 shape.fields true shape.blank tail = .ok (record, mid) →
      skipBlanks mid = ']' :: rest → ReadsRecord shape depth cs record rest

/-- A record that is decoded from text is read in one of these ways. -/
theorem readsRecord_of_ofText {cs rest : List Char} {record : σ}
    (h : shape.ofText depth cs = .ok (record, rest)) : ReadsRecord shape depth cs record rest := by
  unfold Shape.ofText at h
  split at h
  · rename_i tail hcs
    split at h
    · cases h
    · rename_i hdepth
      obtain ⟨⟨record', mid⟩, hread, h⟩ := bind_eq_ok.mp (placeAt_eq_ok.mp h)
      obtain ⟨rest', hclose, h⟩ := bind_eq_ok.mp h
      cases h
      exact .array (Nat.lt_of_not_le hdepth) hcs hread (closeArray_eq_ok.mp hclose)
  · rename_i tail hcs
    split at h
    · cases h
    · rename_i hdepth
      obtain ⟨⟨draft, mid⟩, hread, h⟩ := bind_eq_ok.mp (placeAt_eq_ok.mp h)
      dsimp only at h
      split at h
      · cases h
      · rename_i hmissing
        obtain ⟨rest', hclose, h⟩ := bind_eq_ok.mp h
        cases h
        exact .object (Nat.lt_of_not_le hdepth) hcs (readsFields_of_readMembers hread) hmissing
          (closeObject_eq_ok.mp hclose)
  · cases h

/-- A record that is read in one of these ways is decoded from text. -/
theorem ReadsRecord.ofText (hfields : shape.LawfulFields) {cs rest : List Char} {record : σ}
    (h : ReadsRecord shape depth cs record rest) : shape.ofText depth cs = .ok (record, rest) := by
  cases h with
  | @object tail _ _ _ hdepth hcs hread hmissing hclose =>
    have hlen := hread.length hfields
    have hmembers := hread.readMembers hfields (fuelFor tail) (by unfold fuelFor; omega)
    simp only [Shape.ofText, hcs, Nat.not_le.mpr hdepth, if_false]
    refine placeAt_eq_ok.mpr (bind_eq_ok.mpr ⟨_, hmembers, ?_⟩)
    simp only [hmissing]
    exact bind_eq_ok.mpr ⟨_, closeObject_eq_ok.mpr hclose, rfl⟩
  | array hdepth hcs hread hclose =>
    simp only [Shape.ofText, hcs, Nat.not_le.mpr hdepth, if_false]
    refine placeAt_eq_ok.mpr (bind_eq_ok.mpr ⟨_, hread, ?_⟩)
    exact bind_eq_ok.mpr ⟨_, closeArray_eq_ok.mpr hclose, rfl⟩

/-- Nothing that follows a record is of importance, since its last bracket ends it. -/
theorem ReadsRecord.stable (hfields : shape.LawfulFields) {cs rest : List Char} {record : σ}
    (h : ReadsRecord shape depth cs record rest) :
    rest.length < cs.length ∧ ∀ more, ReadsRecord shape depth (cs ++ more) record (rest ++ more) := by
  cases h with
  | object hdepth hcs hread hmissing hclose =>
    have hstart := length_lt_of_skipBlanks hcs
    have hinner := hread.length hfields
    have hend := length_lt_of_skipBlanks hclose
    refine ⟨by omega, fun more => ?_⟩
    exact .object hdepth (skipBlanks_append hcs more) (hread.append hfields more) hmissing
      (skipBlanks_append hclose more)
  | array hdepth hcs hread hclose =>
    have hstart := length_lt_of_skipBlanks hcs
    have hend := length_lt_of_skipBlanks hclose
    obtain ⟨hinner, hmore⟩ := Shape.readItems_stable hfields hread (ne_nil_of_skipBlanks hclose)
    refine ⟨by omega, fun more => ?_⟩
    exact .array hdepth (skipBlanks_append hcs more) (hmore more) (skipBlanks_append hclose more)

/-- A record that an object gives is read from a text that has the members of the object. -/
theorem ReadsAmong.record (hfields : shape.LawfulFields) {cs tail mid rest : List Char}
    {members : List (String × Json)} {record : σ} (hdepth : 1 < depth)
    (hopen : skipBlanks cs = '\x7b' :: tail)
    (hmembers : ReadsAmong shape (depth - 1) true tail members mid)
    (hclose : skipBlanks mid = '\x7d' :: rest) (hrecord : shape.ofJson (.obj members) = .ok record) :
    ReadsRecord shape depth cs record rest := by
  obtain ⟨draft, henter, hrecord⟩ := bind_eq_ok.mp hrecord
  split at hrecord
  · cases hrecord
  · rename_i hmissing
    cases hrecord
    exact .object hdepth hopen (hmembers.enter hfields henter) hmissing hclose

/-- A record that a document gives is read from the text of the document. -/
theorem ReadsRecord.of_reads (hfields : shape.LawfulFields) {cs rest : List Char} {v : Json}
    {record : σ} (h : Reads depth cs v rest) (hrecord : shape.ofJson v = .ok record) :
    ReadsRecord shape depth cs record rest := by
  cases h with
  | scalar hs =>
    generalize skipBlanks cs = start at hs
    cases hs <;> cases hrecord
  | array hdepth hopen hitems hclose =>
    obtain ⟨⟨record', left⟩, henter, hrecord⟩ := bind_eq_ok.mp hrecord
    dsimp only at hrecord
    split at hrecord
    · rename_i hleft
      cases hrecord
      rw [List.isEmpty_iff.mp hleft] at henter
      obtain ⟨mid, hread, hmid⟩ := hitems.enter hfields henter
      exact .array hdepth hopen hread (hmid.trans hclose)
    · cases hrecord
  | object hdepth hopen hmembers hclose =>
    exact hmembers.among.record hfields hdepth hopen hclose hrecord

/-- Records whose fields are decoded lawfully are decoded lawfully. -/
theorem Shape.lawful (hfields : shape.LawfulFields) : shape.decoder.Lawful where
  agrees hread hrecord := (ReadsRecord.of_reads hfields hread hrecord).ofText hfields
  takes h := ((readsRecord_of_ofText h).stable hfields).1
  stable h more _ := (((readsRecord_of_ofText h).stable hfields).2 more).ofText hfields

/-- A text is decoded when a value is read from it and nothing but blanks is left. -/
theorem Decoder.decodeText_of_ofText {α : Type} {d : Decoder α} {text : String} {a : α}
    {rest : List Char} (h : d.ofText depthLimit text.toList = .ok (a, rest))
    (hrest : skipBlanks rest = []) : d.decodeText text = .ok a :=
  finish_eq_ok.mpr ⟨rest, h, hrest⟩

/-- A text that is one document is decoded when its document is. -/
theorem Decoder.Lawful.decodeText {α : Type} {d : Decoder α} (h : d.Lawful) {text : String}
    {v : Json} {a : α} {rest : List Char} (hread : Reads depthLimit text.toList v rest)
    (hrest : skipBlanks rest = []) (ha : d.ofJson v = .ok a) : d.decodeText text = .ok a :=
  Decoder.decodeText_of_ofText (h.agrees hread ha) hrest

/-- The text of a record does not go on behind another text of a record. -/
theorem Shape.eq_nil_of_decodeText (hfields : shape.LawfulFields) {start : String}
    {more : List Char} {record record' : σ} (hstart : shape.decoder.decodeText start = .ok record)
    (hwhole : shape.decoder.ofText depthLimit (start.toList ++ more) = .ok (record', [])) :
    more = [] := by
  obtain ⟨rest, hread, -⟩ := finish_eq_ok.mp hstart
  have hlong := (((readsRecord_of_ofText hread).stable hfields).2 more).ofText hfields
  have heq := Except.ok.inj (hlong.symm.trans hwhole)
  exact (List.append_eq_nil_iff.mp (Prod.mk.inj heq).2).2

end Records

end SessionScript.Json
