import SessionScript.Proofs.Json.Records

/-!
# Records that were written as objects

A record is written member by member, and an optional field that is absent is left out. `Fills`
says that such members, wherever they stand among others, change a record in a certain way, which
keys they can have, and which they must have; it is put together along the members. What a field
may enter into a record is what all its decoder's results do, so a property of records that every
field keeps holds of all decoded records.
-/

namespace SessionScript.Json

variable {σ : Type} {shape : Shape σ}

/-- Entering the members turns one record into another. They have keys among `keys` only, and all
of `met`. -/
def Fills (shape : Shape σ) (members : List (String × Json)) (record record' : σ)
    (keys met : List String) : Prop :=
  ∀ seen, (∀ k ∈ keys, k ∉ seen) → ∀ rest, ∃ seen', (∀ k ∈ seen', k ∈ keys ∨ k ∈ seen) ∧
    (∀ k, k ∈ met ∨ k ∈ seen → k ∈ seen') ∧
    shape.enterMembers (members ++ rest) ⟨seen, record⟩ = shape.enterMembers rest ⟨seen', record'⟩

section Filling

/-- One member with the key of a field fills that field. -/
theorem fills_one {key : String} {value : Json} {f : Field σ} {put : σ → σ} {record : σ}
    (hfield : shape.field? key = some f) (hput : f.put.ofJson value = .ok put) :
    Fills shape [(key, value)] record (put record) [key] [key] := by
  intro seen hfresh rest
  have hkey : key ∉ seen := hfresh key (List.mem_singleton_self key)
  refine ⟨key :: seen, fun k hk => ?_, fun k hk => ?_, ?_⟩
  · rcases List.mem_cons.mp hk with rfl | hk
    · exact .inl (List.mem_singleton_self k)
    · exact .inr hk
  · rcases hk with hk | hk
    · rw [List.mem_singleton.mp hk]
      exact List.mem_cons_self
    · exact List.mem_cons_of_mem key hk
  · simp only [List.singleton_append, Shape.enterMembers, hfield, List.contains_iff_mem, hkey,
      if_false, hput]
    rfl

/-- A member that is present fills its field. -/
theorem fills_present {α : Type} {key : String} {required : Bool} {value : Json} {a : α}
    {d : Decoder α} {set : α → σ → σ} {record record' : σ}
    (hfield : shape.field? key = some ⟨key, required, d.map set⟩) (hvalue : d.ofJson value = .ok a)
    (hset : set a record = record') : Fills shape [(key, value)] record record' [key] [key] := by
  subst hset
  exact fills_one hfield (map_eq_ok.mpr ⟨a, hvalue, rfl⟩)

/-- No members fill nothing. -/
theorem fills_nil {record : σ} {keys : List String} : Fills shape [] record record keys [] := by
  intro seen _ rest
  refine ⟨seen, fun k hk => .inr hk, fun k hk => ?_, rfl⟩
  rcases hk with hk | hk
  · exact absurd hk List.not_mem_nil
  · exact hk

/-- Members with different keys may stand one behind the other. -/
theorem Fills.append {members₁ members₂ : List (String × Json)} {record record' record'' : σ}
    {keys₁ keys₂ met₁ met₂ : List String} (h₁ : Fills shape members₁ record record' keys₁ met₁)
    (h₂ : Fills shape members₂ record' record'' keys₂ met₂) (hkeys : ∀ k ∈ keys₂, k ∉ keys₁) :
    Fills shape (members₁ ++ members₂) record record'' (keys₁ ++ keys₂) (met₁ ++ met₂) := by
  intro seen hfresh rest
  obtain ⟨seen', hwithin', hmet', henter'⟩ :=
    h₁ seen (fun k hk => hfresh k (List.mem_append_left _ hk)) (members₂ ++ rest)
  have hfresh' : ∀ k ∈ keys₂, k ∉ seen' := by
    intro k hk hmem
    rcases hwithin' k hmem with hmem | hmem
    · exact hkeys k hk hmem
    · exact hfresh k (List.mem_append_right _ hk) hmem
  obtain ⟨seen'', hwithin'', hmet'', henter''⟩ := h₂ seen' hfresh' rest
  refine ⟨seen'', fun k hk => ?_, fun k hk => ?_, ?_⟩
  · rw [List.mem_append, or_assoc]
    rcases hwithin'' k hk with hk | hk
    · exact .inr (.inl hk)
    · rcases hwithin' k hk with hk | hk
      · exact .inl hk
      · exact .inr (.inr hk)
  · rw [List.mem_append, or_assoc] at hk
    rcases hk with hk | hk | hk
    · exact hmet'' k (.inr (hmet' k (.inl hk)))
    · exact hmet'' k (.inl hk)
    · exact hmet'' k (.inr (hmet' k (.inr hk)))
  · rw [List.append_assoc, henter', henter'']

/-- Members that fill a record need not be required ones. -/
theorem Fills.optional {members : List (String × Json)} {record record' : σ}
    {keys met : List String} (h : Fills shape members record record' keys met) :
    Fills shape members record record' keys [] := by
  intro seen hfresh rest
  obtain ⟨seen', hwithin, hmet, henter⟩ := h seen hfresh rest
  exact ⟨seen', hwithin, fun k hk => hmet k (hk.imp_left (absurd · List.not_mem_nil)), henter⟩

/-- A value that is not `null` is decoded as a present one. -/
theorem Decoder.option_ofJson {α : Type} {d : Decoder α} {v : Json} {a : α} (hv : v ≠ .null)
    (h : d.ofJson v = .ok a) : d.option.ofJson v = .ok (some a) := by
  have hmap : (d.ofJson v).map some = .ok (some a) := map_eq_ok.mpr ⟨a, h, rfl⟩
  cases v with
  | null => exact absurd rfl hv
  | _ => exact hmap

/-- What holds of the value of an optional member holds of the member. -/
theorem forall_mem_member {α : Type} {key : String} {toJson : α → Json} {value : Option α}
    {P : String × Json → Prop} :
    (∀ m ∈ member key toJson value, P m) ↔ ∀ a ∈ value, P (key, toJson a) := by
  cases value <;> simp [member]

/-- A decoder undoes a way to write values if none is written as `null` and all are decoded again
from what is written. -/
def Decoder.Undoes {α : Type} (d : Decoder α) (toJson : α → Json) : Prop :=
  ∀ a, toJson a ≠ .null ∧ d.ofJson (toJson a) = .ok a

/-- An optional member fills its field, or leaves it as absent as it was. -/
theorem fills_member {α : Type} {key : String} {toJson : α → Json} {value : Option α}
    {d : Decoder α} {set : Option α → σ → σ} {record record' : σ}
    (hfield : shape.field? key = some (.optional key d.option set))
    (hvalue : ∀ a ∈ value, toJson a ≠ .null ∧ d.ofJson (toJson a) = .ok a)
    (habsent : set none record = record) (hset : set value record = record') :
    Fills shape (member key toJson value) record record' [key] [] := by
  subst hset
  cases value with
  | none =>
    rw [habsent]
    exact fills_nil
  | some a =>
    have hpresent := Decoder.option_ofJson (hvalue a rfl).1 (hvalue a rfl).2
    exact (fills_present hfield hpresent rfl).optional

/-- A record is decoded from the object of its members, if these have all required keys. -/
theorem Fills.ofJson {members : List (String × Json)} {record : σ} {keys met : List String}
    (h : Fills shape members shape.blank record keys met)
    (hrequired : ∀ f ∈ shape.fields, f.required = true → f.key ∈ met) :
    shape.ofJson (.obj members) = .ok record := by
  obtain ⟨seen, -, hmet, henter⟩ := h [] (fun _ _ => List.not_mem_nil) []
  rw [List.append_nil] at henter
  have hmissing : shape.missing? seen = none := by
    unfold Shape.missing?
    rw [List.find?_eq_none]
    intro f hf hmiss
    rw [Bool.and_eq_true] at hmiss
    have hmem := hmet f.key (.inl (hrequired f hf hmiss.1))
    simp [hmem] at hmiss
  refine bind_eq_ok.mpr ⟨⟨seen, record⟩, henter, ?_⟩
  simp only [hmissing]
  rfl

/-- The items of an array that were written one by one are decoded as such. -/
theorem Decoder.list_ofJson {α : Type} {d : Decoder α} {toJson : α → Json} {as : List α}
    (h : ∀ a ∈ as, d.ofJson (toJson a) = .ok a) : d.list.ofJson (.arr (as.map toJson)) = .ok as := by
  have hitems : d.itemsOfJson (as.map toJson) = .ok as := by
    induction as with
    | nil => rfl
    | cons a as ih =>
      obtain ⟨ha, has⟩ := List.forall_mem_cons.mp h
      exact bind_eq_ok.mpr ⟨a, ha, bind_eq_ok.mpr ⟨as, ih has, rfl⟩⟩
  exact hitems

end Filling

/-- Whatever the decoder gives has a property. -/
structure Decoder.Yields {α : Type} (d : Decoder α) (P : α → Prop) : Prop where
  /-- What is decoded from a document has it. -/
  ofJson : ∀ {v a}, d.ofJson v = .ok a → P a
  /-- What is decoded from text has it. -/
  ofText : ∀ {depth cs a rest}, d.ofText depth cs = .ok (a, rest) → P a

/-- What the decoder of a field enters into a record keeps a property of records. -/
def Field.Keeps (f : Field σ) (P : σ → Prop) : Prop :=
  f.put.Yields fun put => ∀ record, P record → P (put record)

section Keeping

/-- What the results become has a property if it follows from one of the results. -/
theorem Decoder.Yields.map {α β : Type} {d : Decoder α} {P : α → Prop} {Q : β → Prop} {f : α → β}
    (h : d.Yields P) (hf : ∀ a, P a → Q (f a)) : (d.map f).Yields Q where
  ofJson hb := by
    obtain ⟨a, ha, rfl⟩ := map_eq_ok.mp hb
    exact hf a (h.ofJson ha)
  ofText hb := by
    obtain ⟨⟨a, rest⟩, ha, heq⟩ := map_eq_ok.mp hb
    obtain ⟨rfl, rfl⟩ := Prod.mk.inj heq
    exact hf a (h.ofText ha)

/-- What is decoded out of documents has a property if all that is decoded from text does. -/
theorem Decoder.yields_buffered {α : Type} {f : Json → Except Cause α} {P : α → Prop}
    (h : ∀ {v a}, f v = .ok a → P a) : (Decoder.buffered f).Yields P where
  ofJson := h
  ofText ha := by
    obtain ⟨⟨v, rest⟩, -, ha⟩ := bind_eq_ok.mp ha
    dsimp only at ha
    split at ha
    · rename_i hv
      cases ha
      exact h hv
    · cases ha

/-- What is decoded from a whole text has the property too. -/
theorem Decoder.Yields.decodeText {α : Type} {d : Decoder α} {P : α → Prop} (h : d.Yields P)
    {text : String} {a : α} (ha : d.decodeText text = .ok a) : P a := by
  obtain ⟨rest, hread, -⟩ := finish_eq_ok.mp ha
  exact h.ofText hread

/-- Nothing is asked of the values of a field that keeps a property for all of them. -/
theorem Decoder.keeps_of_set {α : Type} (d : Decoder α) {P : σ → Prop} {set : α → σ → σ}
    (h : ∀ a record, P record → P (set a record)) :
    (d.map set).Yields fun put => ∀ record, P record → P (put record) := by
  have hany : d.Yields fun _ => True := ⟨fun _ => trivial, fun _ => trivial⟩
  exact hany.map fun a _ => h a

/-- What all values have, all values of a list have. -/
theorem Decoder.Yields.list {α : Type} {d : Decoder α} {P : α → Prop} (h : d.Yields P) :
    d.list.Yields fun items => ∀ a ∈ items, P a := by
  have hjson : ∀ {items : List Json} {as}, d.itemsOfJson items = .ok as → ∀ a ∈ as, P a := by
    intro items
    induction items with
    | nil =>
      intro as has
      cases has
      exact nofun
    | cons v items ih =>
      intro as has
      obtain ⟨a, ha, has⟩ := bind_eq_ok.mp has
      obtain ⟨as', has', heq⟩ := bind_eq_ok.mp has
      cases heq
      exact List.forall_mem_cons.mpr ⟨h.ofJson ha, ih has'⟩
  have htext : ∀ {depth fuel first cs as rest},
      d.itemsOfText depth fuel first cs = .ok (as, rest) → ∀ a ∈ as, P a := by
    intro depth fuel
    induction fuel with
    | zero => exact nofun
    | succ fuel ih =>
      intro first cs as rest has
      obtain ⟨⟨goesOn, mid⟩, -, has⟩ := bind_eq_ok.mp has
      cases goesOn with
      | false =>
        cases has
        exact nofun
      | true =>
        obtain ⟨⟨a, mid'⟩, ha, has⟩ := bind_eq_ok.mp has
        obtain ⟨⟨as', rest'⟩, has', heq⟩ := bind_eq_ok.mp has
        cases heq
        exact List.forall_mem_cons.mpr ⟨h.ofText ha, ih has'⟩
  constructor
  · intro v as has
    cases v with
    | arr items => exact hjson has
    | _ => cases has
  · intro depth cs as rest has
    simp only [Decoder.list] at has
    split at has
    · split at has
      · cases has
      · obtain ⟨⟨as', mid⟩, has', has⟩ := bind_eq_ok.mp has
        obtain ⟨rest', -, heq⟩ := bind_eq_ok.mp has
        cases heq
        exact htext has'
    · cases has

variable {P : σ → Prop}

/-- Members keep what the fields keep. -/
theorem Shape.enterMembers_keeps (hkeeps : ∀ f ∈ shape.fields, f.Keeps P)
    {members : List (String × Json)} {draft draft' : Draft σ} (hdraft : P draft.record)
    (h : shape.enterMembers members draft = .ok draft') : P draft'.record := by
  induction members generalizing draft with
  | nil =>
    cases h
    exact hdraft
  | cons m members ih =>
    unfold Shape.enterMembers at h
    split at h
    · exact ih hdraft h
    · rename_i f hfield
      split at h
      · cases h
      · obtain ⟨put, hput, h⟩ := bind_eq_ok.mp h
        have hf := hkeeps f (List.mem_of_find?_eq_some hfield)
        exact ih (hf.ofJson hput draft.record hdraft) h

/-- Items keep what the fields keep. -/
theorem Shape.enterItems_keeps {fields : List (Field σ)} (hkeeps : ∀ f ∈ fields, f.Keeps P)
    {index : Nat} {items left : List Json} {record record' : σ} (hrecord : P record)
    (h : shape.enterItems index fields items record = .ok (record', left)) : P record' := by
  induction fields generalizing index items record with
  | nil =>
    cases h
    exact hrecord
  | cons f fields ih =>
    obtain ⟨hf, hfields⟩ := List.forall_mem_cons.mp hkeeps
    cases items with
    | nil =>
      unfold Shape.enterItems at h
      split at h
      · cases h
      · exact ih hfields hrecord h
    | cons v items =>
      obtain ⟨put, hput, h⟩ := bind_eq_ok.mp h
      exact ih hfields (hf.ofJson hput record hrecord) h

/-- Members that are read from text keep what the fields keep. -/
theorem ReadsFields.keeps (hkeeps : ∀ f ∈ shape.fields, f.Keeps P) {depth : Nat} {first : Bool}
    {draft draft' : Draft σ} {cs rest : List Char}
    (h : ReadsFields shape depth first draft cs draft' rest) (hdraft : P draft.record) :
    P draft'.record := by
  induction h with
  | nil _ => exact hdraft
  | other _ _ _ _ _ ih => exact ih hdraft
  | field _ hfield _ _ hput _ ih =>
    have hf := hkeeps _ (List.mem_of_find?_eq_some hfield)
    exact ih (hf.ofText hput _ hdraft)

/-- Items that are read from text keep what the fields keep. -/
theorem Shape.readItems_keeps {fields : List (Field σ)} (hkeeps : ∀ f ∈ fields, f.Keeps P)
    {depth index : Nat} {first : Bool} {record record' : σ} {cs rest : List Char} (hrecord : P record)
    (h : shape.readItems depth index fields first record cs = .ok (record', rest)) : P record' := by
  induction fields generalizing index first record cs with
  | nil =>
    cases h
    exact hrecord
  | cons f fields ih =>
    obtain ⟨hf, hfields⟩ := List.forall_mem_cons.mp hkeeps
    obtain ⟨⟨goesOn, mid⟩, -, h⟩ := bind_eq_ok.mp h
    cases goesOn with
    | true =>
      obtain ⟨⟨put, mid'⟩, hput, h⟩ := bind_eq_ok.mp h
      exact ih hfields (hf.ofText hput record hrecord) h
    | false =>
      simp only [Bool.false_eq_true, if_false] at h
      split at h
      · cases h
      · exact ih hfields hrecord h

/-- A property that the blank record has and all fields keep is one of all decoded records. -/
theorem Shape.yields (hblank : P shape.blank) (hkeeps : ∀ f ∈ shape.fields, f.Keeps P) :
    shape.decoder.Yields P where
  ofJson {v record} h := by
    cases v with
    | obj members =>
      obtain ⟨draft, henter, h⟩ := bind_eq_ok.mp h
      split at h
      · cases h
      · cases h
        exact Shape.enterMembers_keeps hkeeps hblank henter
    | arr items =>
      obtain ⟨⟨record', left⟩, henter, h⟩ := bind_eq_ok.mp h
      dsimp only at h
      split at h
      · cases h
        exact Shape.enterItems_keeps hkeeps hblank henter
      · cases h
    | _ => cases h
  ofText h := by
    cases readsRecord_of_ofText h with
    | object _ _ hread _ _ => exact hread.keeps hkeeps hblank
    | array _ _ hread _ => exact Shape.readItems_keeps hkeeps hblank hread

end Keeping

end SessionScript.Json
