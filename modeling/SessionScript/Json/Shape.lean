import SessionScript.Json.Decoder

/-!
# Records

A record is written as an object, or as an array of its fields in order. In an object the fields may
stand in any order among keys that mean nothing, but none may be given twice; in an array the tail
may be missing. A `Shape` lists the fields of a record type with their decoders, and decodes both
forms.
-/

namespace SessionScript.Json

/-- A field of a record of type `σ`. -/
structure Field (σ : Type) where
  /-- The key of the field. -/
  key : String
  /-- Whether a record without the field is refused. -/
  required : Bool
  /-- How the field is decoded and entered into the record. -/
  put : Decoder (σ → σ)

/-- A field that must be present. -/
def Field.needed {σ α : Type} (key : String) (d : Decoder α) (set : α → σ → σ) : Field σ :=
  ⟨key, true, d.map set⟩

/-- A field that may be absent. -/
def Field.optional {σ α : Type} (key : String) (d : Decoder α) (set : α → σ → σ) : Field σ :=
  ⟨key, false, d.map set⟩

/-- The form of records of type `σ`. -/
structure Shape (σ : Type) where
  /-- What messages call the record. -/
  title : String
  /-- The record before any field has been entered. -/
  blank : σ
  /-- The fields, in the order of the array form. -/
  fields : List (Field σ)

/-- A record that is being read from an object. -/
structure Draft (σ : Type) where
  /-- The keys that have been met, the last one first. -/
  seen : List String
  /-- The record so far. -/
  record : σ

namespace Shape

variable {σ : Type} (shape : Shape σ)

/-- The field with a key. -/
def field? (key : String) : Option (Field σ) := shape.fields.find? (·.key = key)

/-- The first required field that has not been met. -/
def missing? (seen : List String) : Option (Field σ) :=
  shape.fields.find? fun f => f.required && !seen.contains f.key

/-- What messages call an array of the right length. -/
def arrayTitle : String := shape.title ++ " with " ++ toString shape.fields.length ++ " elements"

/-- Enter the members of an object one after the other. -/
def enterMembers : List (String × Json) → Draft σ → Except Cause (Draft σ)
  | [], draft => .ok draft
  | (key, value) :: rest, draft =>
    match shape.field? key with
    | none => enterMembers rest draft
    | some f =>
      if draft.seen.contains key then .error (.duplicateField key)
      else do
        let put ← f.put.ofJson value
        enterMembers rest ⟨key :: draft.seen, put draft.record⟩

/-- Enter the items of an array into the fields in order; the items that are left over are
returned. -/
def enterItems (index : Nat) : List (Field σ) → List Json → σ → Except Cause (σ × List Json)
  | [], items, record => .ok (record, items)
  | f :: fields, [], record =>
    if f.required then .error (.wrongLength index shape.arrayTitle)
    else enterItems (index + 1) fields [] record
  | f :: fields, item :: items, record => do
    let put ← f.put.ofJson item
    enterItems (index + 1) fields items (put record)

/-- Decode a record from a document. -/
def ofJson : Json → Except Cause σ
  | .obj members => do
    let draft ← shape.enterMembers members ⟨[], shape.blank⟩
    match shape.missing? draft.seen with
    | some f => .error (.missingField f.key)
    | none => return draft.record
  | .arr items => do
    let (record, left) ← shape.enterItems 0 shape.fields items shape.blank
    if left.isEmpty then return record
    else .error (.wrongLength items.length "fewer elements in array")
  | v => .error (.wrongKind v.found shape.title)

/-- Read the members of an object from text, up to its closing brace. -/
def readMembers (depth : Nat) : (fuel : Nat) → (first : Bool) → Draft σ → List Char →
    Reading (Draft σ × List Char)
  | 0, _, _, _ => .error (.atEnd .endInObject)
  | fuel + 1, first, draft, cs => do
    let (key, cs) ← nextKey first cs
    match key with
    | none => return (draft, cs)
    | some key =>
      match shape.field? key with
      | none =>
        let cs ← readColon cs
        let cs ← skipValue cs
        readMembers depth fuel false draft cs
      | some f =>
        if draft.seen.contains key then .error (.floating (.duplicateField key) cs)
        else
          let cs ← readColon cs
          let (put, cs) ← f.put.ofText depth cs
          readMembers depth fuel false ⟨key :: draft.seen, put draft.record⟩ cs

/-- Read the items of an array from text into the fields in order. -/
def readItems (depth index : Nat) :
    List (Field σ) → (first : Bool) → σ → List Char → Reading (σ × List Char)
  | [], _, record, cs => .ok (record, cs)
  | f :: fields, first, record, cs => do
    let (more, cs) ← nextItem first cs
    if more then
      let (put, cs) ← f.put.ofText depth cs
      readItems depth (index + 1) fields false (put record) cs
    else if f.required then .error (.floating (.wrongLength index shape.arrayTitle) cs)
    else readItems depth (index + 1) fields first record cs

/-- Read an object from behind its opening brace. -/
def readObject (depth : Nat) (cs : List Char) : Reading (σ × List Char) := do
  let (draft, cs) ← shape.readMembers depth (fuelFor cs) true ⟨[], shape.blank⟩ cs
  match shape.missing? draft.seen with
  | some f => .error (.floating (.missingField f.key) cs)
  | none =>
    let cs ← closeObject cs
    return (draft.record, cs)

/-- Read an array from behind its opening bracket. -/
def readArray (depth : Nat) (cs : List Char) : Reading (σ × List Char) := do
  let (record, cs) ← shape.readItems depth 0 shape.fields true shape.blank cs
  let cs ← closeArray cs
  return (record, cs)

end Shape

/-- The unread text once an object that was refused has been closed as far as possible. -/
def settleObject (cs : List Char) : List Char :=
  match skipBlanks cs with
  | '\x7d' :: rest => rest
  | rest => rest

/-- The unread text once an array that was refused has been closed as far as possible. -/
def settleArray (cs : List Char) : List Char :=
  match skipBlanks cs with
  | ']' :: rest => rest
  | ',' :: rest => skipBlanks rest
  | rest => rest

/-- Give a floating refusal its place. -/
def placeAt {α : Type} (settle : List Char → List Char) :
    Reading (α × List Char) → Reading (α × List Char)
  | .error (.floating cause rest) => .error (.here cause (settle rest))
  | reading => reading

namespace Shape

variable {σ : Type} (shape : Shape σ)

/-- Decode a record from text. -/
def ofText (depth : Nat) (cs : List Char) : Reading (σ × List Char) :=
  match skipBlanks cs with
  | '[' :: rest =>
    if depth ≤ 1 then .error (.seen .tooDeep ('[' :: rest))
    else placeAt settleArray (shape.readArray (depth - 1) rest)
  | '\x7b' :: rest =>
    if depth ≤ 1 then .error (.seen .tooDeep ('\x7b' :: rest))
    else placeAt settleObject (shape.readObject (depth - 1) rest)
  | rest => .error (refuseKind shape.title rest)

/-- The decoder of a record type. -/
def decoder : Decoder σ := ⟨shape.ofJson, shape.ofText⟩

end Shape

end SessionScript.Json
