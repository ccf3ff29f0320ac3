import SessionScript.Json.Token
import SessionScript.Json.Value

/-!
# Reading a whole document

A value is read from left to right, and the first fault in that order is reported. At most 127
brackets may be open at a time. Every recursive call takes one unit of fuel; a text of `n`
characters needs at most `2 * n + 2` units, which is what `parse` supplies.
-/

namespace SessionScript.Json

/-- One more than the number of brackets that may be open at a time. -/
def depthLimit : Nat := 128

/-- Fuel that is enough to read any value from a text. -/
def fuelFor (cs : List Char) : Nat := 2 * cs.length + 2

/-- Whether another item of an array follows. The text starts behind the opening bracket or behind
an item; it is left in front of the item, or in front of the closing bracket. -/
def nextItem (first : Bool) (cs : List Char) : Reading (Bool × List Char) :=
  match skipBlanks cs with
  | [] => .error (.atEnd .endInArray)
  | ']' :: rest => .ok (false, ']' :: rest)
  | c :: rest =>
    if first then .ok (true, c :: rest)
    else if c = ',' then
      match skipBlanks rest with
      | [] => .error (.atEnd .endInValue)
      | ']' :: rest => .error (.seen .trailingComma (']' :: rest))
      | rest => .ok (true, rest)
    else .error (.seen .expectedCommaOrBracket (c :: rest))

/-- Read a key from behind its opening quote. -/
def readKey (cs : List Char) : Reading (Option String × List Char) :=
  match readString cs with
  | .ok (key, rest) => .ok (some (String.ofList key), rest)
  | .error e => .error e

/-- The next key of an object, if another member follows. The text starts behind the opening brace
or behind a member; it is left behind the key, or in front of the closing brace. -/
def nextKey (first : Bool) (cs : List Char) : Reading (Option String × List Char) :=
  match skipBlanks cs with
  | [] => .error (.atEnd .endInObject)
  | '\x7d' :: rest => .ok (none, '\x7d' :: rest)
  | c :: rest =>
    if first then
      if c = '"' then readKey rest else .error (.seen .keyNotString (c :: rest))
    else if c = ',' then
      match skipBlanks rest with
      | [] => .error (.atEnd .endInValue)
      | '"' :: rest => readKey rest
      | '\x7d' :: rest => .error (.seen .trailingComma ('\x7d' :: rest))
      | rest => .error (.seen .keyNotString rest)
    else .error (.seen .expectedCommaOrBrace (c :: rest))

/-- Pass over the colon behind a key. -/
def readColon (cs : List Char) : Reading (List Char) :=
  match skipBlanks cs with
  | [] => .error (.atEnd .endInObject)
  | ':' :: rest => .ok rest
  | rest => .error (.seen .expectedColon rest)

/-- Pass over the bracket that closes an array. -/
def closeArray (cs : List Char) : Reading (List Char) :=
  match skipBlanks cs with
  | [] => .error (.atEnd .endInArray)
  | ']' :: rest => .ok rest
  | ',' :: rest =>
    match skipBlanks rest with
    | ']' :: rest => .error (.seen .trailingComma (']' :: rest))
    | rest => .error (.seen .trailingCharacters rest)
  | rest => .error (.seen .trailingCharacters rest)

/-- Pass over the brace that closes an object. -/
def closeObject (cs : List Char) : Reading (List Char) :=
  match skipBlanks cs with
  | [] => .error (.atEnd .endInObject)
  | '\x7d' :: rest => .ok rest
  | ',' :: rest => .error (.seen .trailingComma (',' :: rest))
  | rest => .error (.seen .trailingCharacters rest)

/-- Read a word, a string or a number; `none` for a bracket and for anything else. The text starts
with the first character of the value. -/
def readScalar? (cs : List Char) : Option (Reading (Json × List Char)) :=
  let word (rest word : List Char) (value : Json) : Reading (Json × List Char) :=
    (readWord word rest).map fun rest => (value, rest)
  let number (negative : Bool) (rest : List Char) : Reading (Json × List Char) :=
    (readUnsigned negative rest).map fun (n, rest) => (.num n, rest)
  match cs with
  | 'n' :: rest => some (word rest ['u', 'l', 'l'] .null)
  | 't' :: rest => some (word rest ['r', 'u', 'e'] (.bool true))
  | 'f' :: rest => some (word rest ['a', 'l', 's', 'e'] (.bool false))
  | '-' :: rest => some (number true rest)
  | '"' :: rest => some ((readString rest).map fun (s, rest) => (.str (String.ofList s), rest))
  | c :: rest => if c.isDigit then some (number false (c :: rest)) else none
  | [] => none

mutual

/-- Read one value; `depth` is one more than the number of brackets that may still be opened. -/
def readValue : (fuel depth : Nat) → List Char → Reading (Json × List Char)
  | 0, _, _ => .error (.atEnd .endInValue)
  | fuel + 1, depth, cs =>
    match skipBlanks cs with
    | [] => .error (.atEnd .endInValue)
    | '[' :: rest =>
      if depth ≤ 1 then .error (.seen .tooDeep ('[' :: rest))
      else do
        let (items, rest) ← readItems fuel (depth - 1) true rest
        let rest ← closeArray rest
        return (.arr items, rest)
    | '\x7b' :: rest =>
      if depth ≤ 1 then .error (.seen .tooDeep ('\x7b' :: rest))
      else do
        let (members, rest) ← readMembers fuel (depth - 1) true rest
        let rest ← closeObject rest
        return (.obj members, rest)
    | cs =>
      match readScalar? cs with
      | some reading => reading
      | none => .error (.seen .expectedValue cs)

/-- Read the items of an array up to its closing bracket. -/
def readItems : (fuel depth : Nat) → (first : Bool) → List Char → Reading (List Json × List Char)
  | 0, _, _, _ => .error (.atEnd .endInArray)
  | fuel + 1, depth, first, cs => do
    let (more, cs) ← nextItem first cs
    if more then
      let (item, cs) ← readValue fuel depth cs
      let (items, cs) ← readItems fuel depth false cs
      return (item :: items, cs)
    else
      return ([], cs)

/-- Read the members of an object up to its closing brace. -/
def readMembers : (fuel depth : Nat) → (first : Bool) → List Char →
    Reading (List (String × Json) × List Char)
  | 0, _, _, _ => .error (.atEnd .endInObject)
  | fuel + 1, depth, first, cs => do
    let (key, cs) ← nextKey first cs
    match key with
    | none => return ([], cs)
    | some key =>
      let cs ← readColon cs
      let (value, cs) ← readValue fuel depth cs
      let (members, cs) ← readMembers fuel depth false cs
      return ((key, value) :: members, cs)

end

/-- Nothing but blanks may follow a document. -/
def finish {α : Type} (reading : Reading (α × List Char)) : Except Refusal α :=
  match reading with
  | .error e => .error e
  | .ok (a, rest) =>
    match skipBlanks rest with
    | [] => .ok a
    | rest => .error (.seen .trailingCharacters rest)

/-- Read a text that is one document. -/
def parseChars (cs : List Char) : Except Refusal Json :=
  finish (readValue (fuelFor cs) depthLimit cs)

/-- Read a text that is one document. -/
def parse (text : String) : Except Refusal Json := parseChars text.toList

end SessionScript.Json
