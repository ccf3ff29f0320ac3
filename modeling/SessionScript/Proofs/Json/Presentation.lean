import SessionScript.Proofs.Json.Members
import Mathlib.Data.List.Forall2
import Mathlib.Data.List.Nodup

/-!
# The ways to write a record

One record can be written in many ways: as an object with its members in any order, members that
mean nothing among them, an absent field left out or `null`; or as an array with its tail of `null`s
cut off. `Presents` says what these documents have in common, given the keys and the values of the
fields. A record that is put together field by field comes out the same from all of them. What
carries the proof is the record with some of the fields only, those whose keys have been met: a
field that is entered brings it from one set of keys to the next, whatever the order.
-/

namespace SessionScript.Json

/-- The documents that present a record with the given keys and values, `null` being the value of an
absent field. -/
inductive Presents (written : List (String × Json)) : Json → Prop where
  /-- The fields that are not absent are members of an object, under no key twice. Its other members
  have no key of a field, or are `null` under the key of an absent one. -/
  | object {members : List (String × Json)} :
      (∀ m ∈ written, m.2 ≠ .null → m ∈ members) →
      (∀ m ∈ written, ∀ value, (m.1, value) ∈ members → value = m.2) →
      ((members.map Prod.fst).filter (· ∈ written.map Prod.fst)).Nodup →
      Presents written (.obj members)
  /-- The values stand in an array in order, of which a tail of `null`s may be missing. -/
  | array {items : List Json} {missing : Nat} :
      items ++ List.replicate missing .null = written.map Prod.snd → Presents written (.arr items)

variable {σ : Type} {shape : Shape σ} {partly : List String → σ}

/-- The value is what a record has in a field, where `partly` gives the record with the fields of
some keys only. -/
def Field.Enters (partly : List String → σ) (f : Field σ) (value : Json) : Prop :=
  ∃ put, f.put.ofJson value = .ok put ∧ ∀ keys, put (partly keys) = partly (f.key :: keys)

/-- The member is what a record has in a field. -/
structure Field.Writes (partly : List String → σ) (f : Field σ) (m : String × Json) : Prop where
  /-- It has the key of the field. -/
  key : f.key = m.1
  /-- A required field is not absent. -/
  present : f.required = true → m.2 ≠ .null
  /-- Its value enters the field. -/
  enters : f.Enters partly m.2

/-- The members are what a record has in the fields of a shape, in order. -/
structure Shape.Writes (shape : Shape σ) (partly : List String → σ)
    (written : List (String × Json)) : Prop where
  /-- Without any field the record is blank. -/
  blank : partly [] = shape.blank
  /-- Each member is what the record has in its field. -/
  fields : List.Forall₂ (Field.Writes partly) shape.fields written

/-- What is in the first of two lists that go together has a partner in the second. -/
theorem exists_mem_of_forall₂ {α β : Type} {R : α → β → Prop} {as : List α} {bs : List β}
    (h : List.Forall₂ R as bs) : ∀ a ∈ as, ∃ b ∈ bs, R a b := by
  induction h with
  | nil => nofun
  | cons hab _ ih =>
    refine List.forall_mem_cons.mpr ⟨⟨_, List.mem_cons_self, hab⟩, fun a ha => ?_⟩
    obtain ⟨b, hb, hab⟩ := ih a ha
    exact ⟨b, List.mem_cons_of_mem _ hb, hab⟩

/-- The members stand under the keys of the fields. -/
theorem keys_of_writes {fields : List (Field σ)} {written : List (String × Json)}
    (h : List.Forall₂ (Field.Writes partly) fields written) :
    fields.map Field.key = written.map Prod.fst := by
  induction h with
  | nil => rfl
  | cons hf _ ih => rw [List.map_cons, List.map_cons, hf.key, ih]

section Objects

/-- The field with a key has that key. -/
theorem Shape.key_of_field? {key : String} {f : Field σ} (h : shape.field? key = some f) :
    f.key = key := by
  have hkey := List.find?_some h
  exact of_decide_eq_true hkey

/-- The keys of members that are keys of fields. -/
def Shape.metKeys (shape : Shape σ) (members : List (String × Json)) : List String :=
  (members.map Prod.fst).filter fun key => (shape.field? key).isSome

/-- Members in any order bring the record from the fields that have been met to these and their
own. -/
theorem Shape.enterMembers_partly {members : List (String × Json)}
    (henters : ∀ m ∈ members, ∀ f, shape.field? m.1 = some f → f.Enters partly m.2)
    {seen : List String} (honce : ((shape.metKeys members).reverse ++ seen).Nodup) :
    shape.enterMembers members ⟨seen, partly seen⟩ =
      .ok ⟨(shape.metKeys members).reverse ++ seen,
        partly ((shape.metKeys members).reverse ++ seen)⟩ := by
  induction members generalizing seen with
  | nil => rfl
  | cons m members ih =>
    obtain ⟨key, value⟩ := m
    obtain ⟨hm, hmembers⟩ := List.forall_mem_cons.mp henters
    cases hfield : shape.field? key with
    | none =>
      have hmet : shape.metKeys ((key, value) :: members) = shape.metKeys members := by
        rw [metKeys, List.map_cons, List.filter_cons_of_neg (by simp [hfield])]
        rfl
      rw [hmet] at honce ⊢
      rw [enterMembers, hfield]
      exact ih hmembers honce
    | some f =>
      have hmet : (shape.metKeys ((key, value) :: members)).reverse ++ seen =
          (shape.metKeys members).reverse ++ key :: seen := by
        rw [metKeys, List.map_cons, List.filter_cons_of_pos (by simp [hfield]), List.reverse_cons,
          List.append_assoc]
        rfl
      rw [hmet] at honce ⊢
      -- the key has not been met before, since no field is met twice
      have hfresh : seen.contains key = false := by
        have hkey := (List.nodup_cons.mp (List.nodup_append'.mp honce).2.1).1
        simpa using hkey
      obtain ⟨put, hvalue, hnext⟩ := hm f hfield
      rw [Shape.key_of_field? hfield] at hnext
      rw [enterMembers, hfield]
      simp only [hfresh, Bool.false_eq_true, if_false, hvalue]
      have hrest := ih hmembers honce
      rw [← hnext seen] at hrest
      exact hrest

/-- A record is decoded from an object that has all its fields that are not absent, and no field
twice. -/
theorem Shape.ofJson_members {written members : List (String × Json)}
    (hwrites : shape.Writes partly written)
    (hpresent : ∀ m ∈ written, m.2 ≠ .null → m ∈ members)
    (hvalue : ∀ m ∈ written, ∀ value, (m.1, value) ∈ members → value = m.2)
    (honce : ((members.map Prod.fst).filter (· ∈ written.map Prod.fst)).Nodup) :
    ∃ keys, (∀ m ∈ written, m.2 ≠ .null → m.1 ∈ keys) ∧
      shape.ofJson (.obj members) = .ok (partly keys) := by
  have hmet : shape.metKeys members =
      (members.map Prod.fst).filter (· ∈ written.map Prod.fst) := by
    refine List.filter_congr fun key _ => ?_
    rw [Bool.eq_iff_iff, decide_eq_true_eq, ← keys_of_writes hwrites.fields, field?,
      List.find?_isSome, List.mem_map]
    simp only [decide_eq_true_eq]
  have hkeys : ∀ m ∈ written, m.2 ≠ .null → m.1 ∈ (shape.metKeys members).reverse := by
    intro m hm hnull
    rw [List.mem_reverse, hmet, List.mem_filter]
    exact ⟨List.mem_map_of_mem (hpresent m hm hnull), decide_eq_true (List.mem_map_of_mem hm)⟩
  have henters : ∀ m ∈ members, ∀ f, shape.field? m.1 = some f → f.Enters partly m.2 := by
    intro m hm f hfield
    obtain ⟨w, hw, hwrites⟩ :=
      exists_mem_of_forall₂ hwrites.fields f (List.mem_of_find?_eq_some hfield)
    have hkey : w.1 = m.1 := hwrites.key.symm.trans (Shape.key_of_field? hfield)
    rw [hvalue w hw m.2 (hkey ▸ hm)]
    exact hwrites.enters
  have hmissing : shape.missing? (shape.metKeys members).reverse = none := by
    refine List.find?_eq_none.mpr fun f hf hmiss => ?_
    obtain ⟨m, hm, hwrites⟩ := exists_mem_of_forall₂ hwrites.fields f hf
    obtain ⟨hrequired, hunmet⟩ := (Bool.and_eq_true _ _).mp hmiss
    have hkey := hkeys m hm (hwrites.present hrequired)
    rw [← hwrites.key, ← List.contains_iff_mem] at hkey
    rw [hkey] at hunmet
    cases hunmet
  have henter := Shape.enterMembers_partly henters (by
    rw [List.append_nil, List.nodup_reverse, hmet]
    exact honce)
  rw [List.append_nil, hwrites.blank] at henter
  refine ⟨_, hkeys, bind_eq_ok.mpr ⟨_, henter, ?_⟩⟩
  simp only [hmissing]
  rfl

end Objects

section Arrays

/-- Fields that need not be present are left alone at the end of an array. -/
theorem Shape.enterItems_nil {fields : List (Field σ)}
    (hoptional : ∀ f ∈ fields, f.required = false) (index : Nat) (record : σ) :
    shape.enterItems index fields [] record = .ok (record, []) := by
  induction fields generalizing index with
  | nil => rfl
  | cons f fields ih =>
    obtain ⟨hf, hfields⟩ := List.forall_mem_cons.mp hoptional
    rw [enterItems, hf]
    exact ih hfields (index + 1)

/-- Items bring the record from the fields that have been met to these and the next ones. -/
theorem Shape.enterItems_partly {fields : List (Field σ)} {items : List Json}
    (henters : List.Forall₂ (Field.Enters partly) (fields.take items.length) items)
    (hoptional : ∀ f ∈ fields.drop items.length, f.required = false) (index : Nat)
    (seen : List String) :
    shape.enterItems index fields items (partly seen) =
      .ok (partly (((fields.take items.length).map Field.key).reverse ++ seen), []) := by
  induction items generalizing fields index seen with
  | nil => exact Shape.enterItems_nil hoptional index (partly seen)
  | cons value items ih =>
    cases fields with
    | nil => cases henters
    | cons f fields =>
      obtain ⟨⟨put, hvalue, hnext⟩, hitems⟩ := List.forall₂_cons.mp henters
      rw [enterItems, hvalue]
      have hrest := ih hitems hoptional (index + 1) (f.key :: seen)
      rw [← hnext seen] at hrest
      rw [List.length_cons, List.take_succ_cons, List.map_cons, List.reverse_cons,
        List.append_assoc]
      exact hrest

/-- A record is decoded from an array of all its values, of which a tail of `null`s may be missing. -/
theorem Shape.ofJson_items {written : List (String × Json)} (hwrites : shape.Writes partly written)
    {items : List Json} {missing : Nat}
    (hitems : items ++ List.replicate missing .null = written.map Prod.snd) :
    ∃ keys, (∀ m ∈ written, m.2 ≠ .null → m.1 ∈ keys) ∧
      shape.ofJson (.arr items) = .ok (partly keys) := by
  have hgiven : (written.take items.length).map Prod.snd = items := by
    rw [List.map_take, ← hitems, List.take_left]
  have hnull : ∀ m ∈ written.drop items.length, m.2 = .null := by
    intro m hm
    have hvalue : m.2 ∈ (written.drop items.length).map Prod.snd := List.mem_map_of_mem hm
    rw [List.map_drop, ← hitems, List.drop_left] at hvalue
    exact List.eq_of_mem_replicate hvalue
  have henters : List.Forall₂ (Field.Enters partly) (shape.fields.take items.length) items := by
    have hvalues := List.forall₂_map_right_iff.mpr
      ((List.forall₂_take items.length hwrites.fields).imp fun _ _ h => h.enters)
    rwa [hgiven] at hvalues
  have hoptional : ∀ f ∈ shape.fields.drop items.length, f.required = false := by
    intro f hf
    obtain ⟨m, hm, hwrites⟩ :=
      exists_mem_of_forall₂ (List.forall₂_drop items.length hwrites.fields) f hf
    -- what is cut off are absent fields, and these need not be present
    exact Bool.eq_false_iff.mpr fun hrequired => hwrites.present hrequired (hnull m hm)
  have henter : shape.enterItems 0 shape.fields items (partly []) = _ :=
    Shape.enterItems_partly henters hoptional 0 []
  rw [hwrites.blank, List.append_nil] at henter
  refine ⟨_, fun m hm hpresent => ?_, bind_eq_ok.mpr ⟨_, henter, rfl⟩⟩
  rw [List.mem_reverse, keys_of_writes (List.forall₂_take items.length hwrites.fields)]
  rw [← List.take_append_drop items.length written] at hm
  exact List.mem_map_of_mem ((List.mem_append.mp hm).resolve_right fun hm => hpresent (hnull m hm))

end Arrays

/-- A record is decoded from every document that presents it, in which all its fields that are not
absent are met. -/
theorem Shape.ofJson_presents {written : List (String × Json)}
    (hwrites : shape.Writes partly written) {v : Json} (h : Presents written v) :
    ∃ keys, (∀ m ∈ written, m.2 ≠ .null → m.1 ∈ keys) ∧ shape.ofJson v = .ok (partly keys) := by
  cases h with
  | object hpresent hvalue honce => exact Shape.ofJson_members hwrites hpresent hvalue honce
  | array hitems => exact Shape.ofJson_items hwrites hitems

section Fields

/-- A value, or `null` when it is absent. -/
def orNull {α : Type} (toJson : α → Json) (value : Option α) : Json := (value.map toJson).getD .null

/-- What a record has in a field that must be present. -/
theorem writes_needed {α : Type} {key : String} {d : Decoder α} {set : α → σ → σ} {value : Json}
    {a : α} (hpresent : value ≠ .null) (hvalue : d.ofJson value = .ok a)
    (hset : ∀ keys, set a (partly keys) = partly (key :: keys)) :
    Field.Writes partly (.needed key d set) (key, value) :=
  ⟨rfl, fun _ => hpresent, set a, map_eq_ok.mpr ⟨a, hvalue, rfl⟩, hset⟩

/-- What a record has in a field that may be absent. -/
theorem writes_optional {α : Type} {key : String} {d : Decoder α} {set : Option α → σ → σ}
    {toJson : α → Json} {value : Option α} (hd : d.Undoes toJson)
    (hset : ∀ keys, set value (partly keys) = partly (key :: keys)) :
    Field.Writes partly (.optional key d.option set) (key, orNull toJson value) := by
  refine ⟨rfl, nofun, set value, map_eq_ok.mpr ⟨value, ?_, rfl⟩, hset⟩
  cases value with
  | none => rfl
  | some a => exact Decoder.option_ofJson (hd a).1 (hd a).2

/-- A field is kept as it is, be it absent, when its key has been met unless it is absent. -/
theorem kept_of_met {α : Type} {d : Decoder α} {toJson : α → Json} (hd : d.Undoes toJson)
    {value : Option α} {key : String} {keys : List String}
    (h : orNull toJson value ≠ .null → key ∈ keys) :
    (if key ∈ keys then value else none) = value := by
  cases value with
  | none => exact ite_self none
  | some a => exact if_pos (h (hd a).1)

end Fields

section Printed

/-- The members are what is written, in order, absent fields being left out. -/
structure Trims (written members : List (String × Json)) : Prop where
  /-- Nothing is added. -/
  within : members.Sublist written
  /-- Only absent fields are left out. -/
  present : ∀ m ∈ written, m.2 ≠ .null → m ∈ members

/-- A field that must be present is not left out. -/
theorem trims_needed (m : String × Json) : Trims [m] [m] := ⟨.refl _, fun _ hm _ => hm⟩

/-- A field that may be absent is left out when it is. -/
theorem trims_member {α : Type} (key : String) (toJson : α → Json) (value : Option α) :
    Trims [(key, orNull toJson value)] (member key toJson value) := by
  cases value with
  | none =>
    refine ⟨List.nil_sublist _, fun m hm hpresent => ?_⟩
    rw [List.mem_singleton.mp hm] at hpresent
    exact absurd rfl hpresent
  | some a => exact trims_needed (key, toJson a)

/-- Fields are left out one by one. -/
theorem Trims.append {written written' members members' : List (String × Json)}
    (h : Trims written members) (h' : Trims written' members') :
    Trims (written ++ written') (members ++ members') where
  within := h.within.append h'.within
  present m hm hpresent := List.mem_append.mpr ((List.mem_append.mp hm).imp
    (h.present m · hpresent) (h'.present m · hpresent))

/-- A record is presented by the object of its members without the absent ones. -/
theorem Trims.presents {written members : List (String × Json)} (h : Trims written members)
    (hkeys : (written.map Prod.fst).Nodup) : Presents written (.obj members) := by
  refine .object h.present (fun m hm value hmember => ?_) ?_
  · have hsame := List.inj_on_of_nodup_map hkeys (h.within.subset hmember) hm rfl
    rw [← hsame]
  · exact (hkeys.sublist (h.within.map Prod.fst)).filter _

end Printed

section Texts

/-- The text is a document. If that is an object, the text may have further members, which mean
nothing to a record and are passed over. -/
inductive Shape.Spells (shape : Shape σ) (text : String) : Json → Prop where
  /-- All of the document is read. -/
  | whole {v : Json} : parse text = .ok v → Spells shape text v
  /-- Members of an object are passed over. -/
  | object {tail mid rest : List Char} {members : List (String × Json)} :
      skipBlanks text.toList = '\x7b' :: tail →
      ReadsAmong shape (depthLimit - 1) true tail members mid →
      skipBlanks mid = '\x7d' :: rest → skipBlanks rest = [] → Spells shape text (.obj members)

/-- A text is decoded as its document is. -/
theorem Shape.Spells.decodeText (hfields : shape.LawfulFields) {text : String} {v : Json}
    {record : σ} (h : shape.Spells text v) (hrecord : shape.ofJson v = .ok record) :
    shape.decoder.decodeText text = .ok record := by
  cases h with
  | whole hparse =>
    obtain ⟨rest, hread, hrest⟩ := finish_eq_ok.mp hparse
    exact (Shape.lawful hfields).decodeText (readValue_eq_ok_iff.mp hread) hrest hrecord
  | object hopen hmembers hclose hrest =>
    have hread := hmembers.record hfields (by decide) hopen hclose hrecord
    exact Decoder.decodeText_of_ofText (hread.ofText hfields) hrest

end Texts

end SessionScript.Json
