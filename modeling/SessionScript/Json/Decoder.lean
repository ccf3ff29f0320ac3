import SessionScript.Json.Skip

/-!
# Decoding values of a type

A `Decoder` reads values of one type in two ways: out of a document that has already been read, and
straight from text. The second way meets faults of form and faults of kind in the order in which
they stand in the text, so it is not the composition of reading a document and decoding it.
-/

namespace SessionScript.Json

/-- A way to read values of type `α`. -/
structure Decoder (α : Type) where
  /-- Decode a document. -/
  ofJson : Json → Except Cause α
  /-- Decode the value at the start of a text, with so many brackets that may still be opened. -/
  ofText : (depth : Nat) → List Char → Reading (α × List Char)

/-- What a message calls a document. -/
def found : Json → Found
  | .null => .null
  | .bool b => .boolean b
  | .num (.whole n) => .integer n.val
  | .num (.float x) => .float x
  | .str s => .string s
  | .arr _ => .sequence
  | .obj _ => .map

/-- The refusal of the value at the start of a text because of its kind. A scalar is read first, and
may turn out to be malformed; an array or an object is refused in front of its bracket. -/
def refuseKind (expected : String) (cs : List Char) : Refusal :=
  match cs with
  | [] => .atEnd .endInValue
  | '[' :: _ => .here (.wrongKind .sequence expected) cs
  | '\x7b' :: _ => .here (.wrongKind .map expected) cs
  | _ =>
    match readScalar? cs with
    | none => .seen .expectedValue cs
    | some (.error e) => e
    | some (.ok (v, rest)) => .here (.wrongKind v.found expected) rest

namespace Decoder

/-- Decode an `α` and turn it into a `β`. -/
def map {α β : Type} (f : α → β) (d : Decoder α) : Decoder β where
  ofJson v := (d.ofJson v).map f
  ofText depth cs := (d.ofText depth cs).map fun (a, rest) => (f a, rest)

/-- Decode an `α` and turn it into a `β` if it passes a check; a refusal stands behind the value. -/
def refine {α β : Type} (f : α → Except Cause β) (d : Decoder α) : Decoder β where
  ofJson v := d.ofJson v >>= f
  ofText depth cs := do
    let (a, rest) ← d.ofText depth cs
    match f a with
    | .ok b => return (b, rest)
    | .error cause => .error (.here cause rest)

/-- Read a whole value before it is decoded; a refusal has no place of its own. -/
def buffered {α : Type} (f : Json → Except Cause α) : Decoder α where
  ofJson := f
  ofText depth cs := do
    let (v, rest) ← readValue (fuelFor cs) depth cs
    match f v with
    | .ok a => return (a, rest)
    | .error cause => .error (.floating cause rest)

/-- Strings that messages call `name`. -/
def text (name : String) : Decoder String where
  ofJson
    | .str s => .ok s
    | v => .error (.wrongKind v.found name)
  ofText _ cs :=
    match skipBlanks cs with
    | '"' :: rest => (readString rest).map fun (s, rest) => (String.ofList s, rest)
    | rest => .error (refuseKind name rest)

/-- Strings. -/
def string : Decoder String := text "a string"

/-- Numbers of any kind. -/
def number : Decoder Number where
  ofJson
    | .num n => .ok n
    | v => .error (.wrongKind v.found "a JSON number")
  ofText _ cs :=
    match skipBlanks cs with
    | '-' :: rest => readUnsigned true rest
    | rest =>
      if startsWithDigit rest then readUnsigned false rest
      else .error (refuseKind "a JSON number" rest)

/-- Truth values. -/
def bool : Decoder Bool where
  ofJson
    | .bool b => .ok b
    | v => .error (.wrongKind v.found "a boolean")
  ofText _ cs :=
    match skipBlanks cs with
    | 't' :: rest => (readWord ['r', 'u', 'e'] rest).map fun rest => (true, rest)
    | 'f' :: rest => (readWord ['a', 'l', 's', 'e'] rest).map fun rest => (false, rest)
    | rest => .error (refuseKind "a boolean" rest)

/-- The natural number below `limit` that a number is; messages call this kind of number `name`. -/
def naturalBelow (limit : Nat) (name : String) : Number → Except Cause Nat
  | .whole n =>
    if 0 ≤ n.val ∧ n.val < limit then .ok n.val.toNat
    else .error (.wrongValue (.integer n.val) name)
  | .float x => .error (.wrongKind (.float x) name)

/-- Natural numbers below a limit. -/
def natural (limit : Nat) (name : String) : Decoder Nat where
  ofJson
    | .num n => naturalBelow limit name n
    | v => .error (.wrongKind v.found name)
  ofText _ cs :=
    let settle : Reading (Number × List Char) → Reading (Nat × List Char)
      | .error e => .error e
      | .ok (n, rest) =>
        match naturalBelow limit name n with
        | .ok n => .ok (n, rest)
        | .error cause => .error (.here cause rest)
    match skipBlanks cs with
    | '-' :: rest => settle (readUnsigned true rest)
    | rest =>
      if startsWithDigit rest then settle (readUnsigned false rest)
      else .error (refuseKind name rest)

/-- Unsigned 32-bit numbers. -/
def uint32 : Decoder UInt32 := (natural UInt32.size "u32").map Nat.toUInt32

/-- Unsigned 64-bit numbers. -/
def uint64 : Decoder UInt64 := (natural UInt64.size "u64").map Nat.toUInt64

/-- Counts, which have 64 bits too. -/
def count : Decoder UInt64 := (natural UInt64.size "usize").map Nat.toUInt64

/-- A value or `null`. -/
def option {α : Type} (d : Decoder α) : Decoder (Option α) where
  ofJson
    | .null => .ok none
    | v => (d.ofJson v).map some
  ofText depth cs :=
    match skipBlanks cs with
    | 'n' :: rest => (readWord ['u', 'l', 'l'] rest).map fun rest => (none, rest)
    | rest => (d.ofText depth rest).map fun (a, rest) => (some a, rest)

/-- Any document, objects being read as maps. -/
def any : Decoder Json where
  ofJson v := .ok v.canonical
  ofText depth cs := (readValue (fuelFor cs) depth cs).map fun (v, rest) => (v.canonical, rest)

/-- Decode the items of an array that has been read. -/
def itemsOfJson {α : Type} (d : Decoder α) : List Json → Except Cause (List α)
  | [] => .ok []
  | v :: rest => do
    let a ← d.ofJson v
    let rest ← itemsOfJson d rest
    return a :: rest

/-- Decode the items of an array from text, up to its closing bracket. -/
def itemsOfText {α : Type} (d : Decoder α) (depth : Nat) :
    (fuel : Nat) → (first : Bool) → List Char → Reading (List α × List Char)
  | 0, _, _ => .error (.atEnd .endInArray)
  | fuel + 1, first, cs => do
    let (more, cs) ← nextItem first cs
    if more then
      let (a, cs) ← d.ofText depth cs
      let (rest, cs) ← itemsOfText d depth fuel false cs
      return (a :: rest, cs)
    else
      return ([], cs)

/-- Arrays of values of one type. -/
def list {α : Type} (d : Decoder α) : Decoder (List α) where
  ofJson
    | .arr items => itemsOfJson d items
    | v => .error (.wrongKind v.found "a sequence")
  ofText depth cs :=
    match skipBlanks cs with
    | '[' :: rest =>
      if depth ≤ 1 then .error (.seen .tooDeep ('[' :: rest))
      else do
        let (items, rest) ← itemsOfText d (depth - 1) (fuelFor rest) true rest
        let rest ← closeArray rest
        return (items, rest)
    | rest => .error (refuseKind "a sequence" rest)

/-- The value that a fixed word stands for. -/
def lookupWord {α : Type} (words : List (String × α)) (word : String) : Except Cause α :=
  match words.find? (·.1 = word) with
  | some (_, a) => .ok a
  | none => .error (.unknownVariant word (words.map (·.1)))

/-- One of a fixed list of words. The word may also stand as the only key of an object, over
`null`. -/
def word {α : Type} (words : List (String × α)) : Decoder α where
  ofJson
    | .str s => lookupWord words s
    | .obj [(key, value)] => do
      let a ← lookupWord words key
      match value with
      | .null => return a
      | value => .error (.wrongKind value.found "unit")
    | .obj _ => .error (.wrongValue .map "map with a single key")
    | v => .error (.wrongKind v.found "string or map")
  ofText depth cs :=
    match skipBlanks cs with
    | [] => .error (.atEnd .endInValue)
    | '"' :: rest => (string.refine (lookupWord words)).ofText depth ('"' :: rest)
    | '\x7b' :: rest =>
      if depth ≤ 1 then .error (.seen .tooDeep ('\x7b' :: rest))
      else do
        let (key?, rest) ← nextKey true rest
        let a ← match key?.map (lookupWord words) with
          | none => .error (.seen .expectedValue rest)
          | some (.error cause) => .error (.here cause rest)
          | some (.ok a) => .ok a
        let rest ← readColon rest
        let rest ← match skipBlanks rest with
          | 'n' :: rest => readWord ['u', 'l', 'l'] rest
          | rest => .error (refuseKind "unit" rest)
        match skipBlanks rest with
        | [] => .error (.atEnd .endInObject)
        | '\x7d' :: rest => return (a, rest)
        | rest => .error (.here .expectedValue rest)
    | rest => .error (.seen .expectedValue rest)

/-- Decode a text that is one value. -/
def decodeText {α : Type} (d : Decoder α) (text : String) : Except Refusal α :=
  finish (d.ofText depthLimit text.toList)

end Decoder

end SessionScript.Json
