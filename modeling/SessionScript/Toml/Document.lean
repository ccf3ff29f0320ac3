import SessionScript.Toml.Token

/-!
# Settings files

A settings file assigns values to keys and groups them into tables. Keys may be dotted, tables may
be opened by headers in any order, and there are arrays of tables; but nothing may be defined
twice. The reader keeps for every entry where it stands in the text.
-/

namespace SessionScript.Toml

/-- A stretch of the text, by the bytes that are left unread at its two ends. -/
structure Span where
  /-- The bytes from the start of the stretch to the end of the text. -/
  fromStart : Nat
  /-- The bytes from the end of the stretch to the end of the text. -/
  fromEnd : Nat

/-- The stretch between two points of the unread text. -/
def Span.between (start stop : List Char) : Span := ⟨Text.byteCount start, Text.byteCount stop⟩

/-- A key and where it stands. -/
structure Key where
  /-- The key without quotes. -/
  name : String
  /-- Where the key stands, its quotes included. -/
  span : Span

/-- How a table came to be. -/
structure Origin where
  /-- It is only there because something below it is. -/
  implied : Bool := false
  /-- It was implied by a dotted key. -/
  dotted : Bool := false
  /-- From the header that opened it to the last value that was assigned under it, if any was. -/
  extent : Option Span := none

/-- What stands under a key. The items of arrays and of tables in braces are not kept. -/
inductive Item where
  /-- A value. -/
  | value (v : Json) (span : Span)
  /-- A table. -/
  | table (origin : Origin) (entries : List (Key × Item))
  /-- An array of tables. -/
  | tables (elements : List Item)

/-- A table of entries. -/
structure Table where
  /-- How the table came to be. -/
  origin : Origin := {}
  /-- The entries, in the order in which they were first mentioned. -/
  entries : List (Key × Item) := []

namespace Table

/-- The entry with a name. -/
def find? (t : Table) (name : String) : Option (Key × Item) :=
  t.entries.find? fun entry => entry.1.name = name

/-- Add an entry at the end. -/
def push (t : Table) (key : Key) (item : Item) : Table :=
  { t with entries := t.entries ++ [(key, item)] }

/-- Replace the item of an entry. -/
def replace (t : Table) (name : String) (item : Item) : Table :=
  { t with entries := t.entries.map fun (k, i) => if k.name = name then (k, item) else (k, i) }

/-- Remove an entry. -/
def erase (t : Table) (name : String) : Table :=
  { t with entries := t.entries.filter fun (k, _) => k.name ≠ name }

/-- The table as an item. -/
def toItem (t : Table) : Item := .table t.origin t.entries

/-- Change the table that a path leads to. Tables on the way are made where they are missing; in an
array of tables the way goes through the last one. A dotted key may not enter a table that has been
defined. -/
def modify (dotted : Bool) (f : Table → Option Table) : List Key → Table → Option Table
  | [], t => f t
  | key :: path, t =>
    match t.find? key.name with
    | none => do
      let inner ← modify dotted f path { origin := { implied := true, dotted } }
      return t.push key inner.toItem
    | some (_, .value ..) => none
    | some (_, .table origin entries) =>
      if dotted && !origin.implied then none
      else do
        let inner ← modify dotted f path ⟨origin, entries⟩
        return t.replace key.name inner.toItem
    | some (_, .tables elements) =>
      match elements.getLast? with
      | some (.table origin entries) => do
        let inner ← modify dotted f path ⟨origin, entries⟩
        return t.replace key.name (.tables (elements.dropLast ++ [inner.toItem]))
      | _ => none

/-- The table that a path leads to. -/
def at? : List Key → Table → Option Table
  | [], t => some t
  | key :: path, t =>
    match t.find? key.name with
    | some (_, .table origin entries) => at? path ⟨origin, entries⟩
    | some (_, .tables elements) =>
      match elements.getLast? with
      | some (.table origin entries) => at? path ⟨origin, entries⟩
      | _ => none
    | _ => none

/-- Assign a value to a key, which may be dotted. -/
def assign (path : List Key) (key : Key) (item : Item) (t : Table) : Option Table :=
  t.modify true (fun inner =>
    if inner.origin.dotted == path.isEmpty then none
    else if (inner.find? key.name).isSome then none
    else some (inner.push key item)) path

/-- Let the extent of a table that has one reach to the end of a stretch. -/
def extendTo (t : Table) (span : Span) : Table :=
  { t with origin.extent := t.origin.extent.map ({ · with fromEnd := span.fromEnd }) }

end Table

/-- Read one part of a key. -/
def readSimpleKey (cs : List Char) : Scan (Key × List Char) := do
  let (name, rest) ← match cs with
    | '"' :: rest => readBasic cs.length rest
    | '\'' :: rest => readVerbatim rest
    | _ =>
      let name := cs.takeWhile isBareKeyChar
      if name.isEmpty then none else some (name, cs.drop name.length)
  return (⟨String.ofList name, .between cs rest⟩, rest)

/-- The greatest depth of keys and brackets, plus one. -/
def depthLimit : Nat := 80

/-- Read a key and its dotted parts. -/
def readKeyParts : (fuel : Nat) → List Char → Scan (List Key × List Char)
  | 0, _ => none
  | fuel + 1, cs => do
    let (key, rest) ← readSimpleKey (skipSpaces cs)
    match skipSpaces rest with
    | '.' :: rest =>
      let (keys, rest) ← readKeyParts fuel rest
      return (key :: keys, rest)
    | rest => return ([key], rest)

/-- Read a key: the path to its table and its last part. -/
def readKey (cs : List Char) : Scan ((List Key × Key) × List Char) := do
  let (keys, rest) ← readKeyParts cs.length cs
  if depthLimit ≤ keys.length then none
  let last ← keys.getLast?
  return ((keys.dropLast, last), rest)

/-- The text after all blanks, comments and ends of lines at its start. -/
def skipTrivia : (fuel : Nat) → List Char → List Char
  | 0, cs => cs
  | fuel + 1, cs =>
    let rest := skipSpaces cs
    match readNewline (skipComment rest) with
    | some rest => skipTrivia fuel rest
    | none => rest

mutual

/-- Read a value; `depth` is one more than the number of brackets that may still be opened. -/
def readValue : (fuel depth : Nat) → List Char → Scan (Json × List Char)
  | 0, _, _ => none
  | fuel + 1, depth, cs =>
    match cs with
    | '[' :: rest =>
      if depth ≤ 1 then none
      else (readItems fuel (depth - 1) rest).map fun rest => (.arr [], rest)
    | '\x7b' :: rest =>
      if depth ≤ 1 then none
      else (readPairs fuel (depth - 1) true {} rest).map fun rest => (.obj [], rest)
    | 't' :: 'r' :: 'u' :: 'e' :: rest => some (.bool true, rest)
    | 'f' :: 'a' :: 'l' :: 's' :: 'e' :: rest => some (.bool false, rest)
    | '"' :: _ | '\'' :: _ => (readString cs).map fun (s, rest) => (.str s, rest)
    | _ => readDateTime cs <|> readFloat cs <|> readSpecial cs <|> readInteger cs

/-- Pass over the items of an array and its closing bracket. -/
def readItems : (fuel depth : Nat) → List Char → Scan (List Char)
  | 0, _, _ => none
  | fuel + 1, depth, cs => do
    match skipTrivia cs.length cs with
    | ']' :: rest => return rest
    | cs =>
      let (_, cs) ← readValue fuel depth cs
      match skipTrivia cs.length cs with
      | ',' :: rest => readItems fuel depth rest
      | ']' :: rest => return rest
      | _ => none

/-- Pass over the entries of a table in braces and its closing brace, none of which may be given
twice. -/
def readPairs : (fuel depth : Nat) → (first : Bool) → Table → List Char → Scan (List Char)
  | 0, _, _, _, _ => none
  | fuel + 1, depth, first, t, cs =>
    match skipSpaces cs, first with
    | '\x7d' :: rest, true => some rest
    | cs, _ => do
      let ((path, key), cs) ← readKey cs
      let cs ← readChar '=' cs
      let start := skipSpaces cs
      let (v, rest) ← readValue fuel depth start
      let t ← t.assign path key (.value v (.between start rest))
      match skipSpaces rest with
      | ',' :: rest => readPairs fuel depth false t rest
      | '\x7d' :: rest => return rest
      | _ => none

end

/-- A settings file that is being read. -/
structure Progress where
  /-- The tables that have been closed. -/
  root : Table := {}
  /-- The table that is open. -/
  current : Table := {}
  /-- Where the open table belongs; the path to its table and its key. The first table has none. -/
  place : Option (List Key × Key) := none
  /-- Does the open table belong to an array of tables? -/
  inArray : Bool := false

namespace Progress

/-- Close the open table. -/
def close (p : Progress) : Option Table :=
  match p.place with
  | none => some p.current
  | some (path, key) =>
    p.root.modify false (fun parent =>
      match parent.find? key.name, p.inArray with
      | none, true => some (parent.push key (.tables [p.current.toItem]))
      | some (_, .tables elements), true =>
        some (parent.replace key.name (.tables (elements ++ [p.current.toItem])))
      | none, false => some (parent.push key p.current.toItem)
      | _, _ => none) path

/-- Open a table by its header. A table that was only implied so far keeps its entries. -/
def openTable (p : Progress) (path : List Key) (key : Key) (header : Span) : Option Progress := do
  let root ← p.close
  let root ← root.modify false some path
  let parent ← root.at? path
  let kept ← match parent.find? key.name with
    | none => some []
    | some (_, .table origin entries) =>
      if origin.implied && !origin.dotted then some entries else none
    | some _ => none
  let root ← root.modify false (fun parent => some (parent.erase key.name)) path
  return { root, current := ⟨{ extent := some header }, kept⟩, place := some (path, key) }

/-- Open the next table of an array of tables by its header. -/
def openElement (p : Progress) (path : List Key) (key : Key) (header : Span) : Option Progress := do
  let root ← p.close
  let root ← root.modify false (fun parent =>
    match parent.find? key.name with
    | none => some (parent.push key (.tables []))
    | some (_, .tables _) => some parent
    | some _ => none) path
  return { root, current := { origin := { extent := some header } }, place := some (path, key),
           inArray := true }

/-- Assign a value to a key in the open table. -/
def assign (p : Progress) (path : List Key) (key : Key) (v : Json) (span : Span) :
    Option Progress := do
  let current ← p.current.assign path key (.value v span)
  return { p with current := current.extendTo span }

end Progress

/-- Read a settings file line by line. -/
def readLines : (fuel : Nat) → Progress → List Char → Scan Table
  | 0, _, _ => none
  | fuel + 1, p, cs =>
    match skipSpaces cs with
    | [] => p.close
    | '#' :: rest => do
      let rest ← readLineEnd ('#' :: rest)
      readLines fuel p rest
    | '\n' :: rest => readLines fuel p rest
    | '\r' :: '\n' :: rest => readLines fuel p rest
    | '[' :: '[' :: rest => do
      let ((path, key), after) ← readKey rest
      let after ← readChar ']' after
      let after ← readChar ']' after
      let p ← p.openElement path key (.between ('[' :: '[' :: rest) after)
      let after ← readLineEnd after
      readLines fuel p after
    | '[' :: rest => do
      let ((path, key), after) ← readKey rest
      let after ← readChar ']' after
      let p ← p.openTable path key (.between ('[' :: rest) after)
      let after ← readLineEnd after
      readLines fuel p after
    | cs => do
      let ((path, key), cs) ← readKey cs
      let cs ← readChar '=' cs
      let start := skipSpaces cs
      let (v, rest) ← readValue (2 * start.length + 2) depthLimit start
      let p ← p.assign path key v (.between start rest)
      let rest ← readLineEnd rest
      readLines fuel p rest

/-- The text after a byte order mark, if there is one. -/
def skipMark : List Char → List Char
  | '\ufeff' :: rest => rest
  | cs => cs

/-- Read a settings file. -/
def parseChars (cs : List Char) : Option Table := readLines (cs.length + 1) {} (skipMark cs)

/-- Where an entry stands: its value, the extents of its tables, or its key. -/
def spanOf (key : Key) : Item → Span
  | .value _ span => span
  | .table origin _ => origin.extent.getD key.span
  | .tables elements =>
    let extent : Item → Option Span
      | .table origin _ => origin.extent
      | _ => none
    match elements.head?.bind extent, elements.getLast?.bind extent with
    | some first, some last => ⟨first.fromStart, last.fromEnd⟩
    | _, _ => key.span

/-- An item as a document, as far as its kind goes. -/
def Item.toJson : Item → Json
  | .value v _ => v
  | .table .. => .obj []
  | .tables _ => .arr []

end SessionScript.Toml
