import SessionScript.Pattern.Atom

/-!
# Classes of a pattern

A class in brackets is a set of characters: characters, ranges, named classes and classes in
brackets, which stand together or are joined by operators. Nothing is kept of a class but how deep
it is nested.
-/

namespace SessionScript.Pattern

/-- The names of classes of ASCII characters. -/
def classNames : List String :=
  ["alnum", "alpha", "ascii", "blank", "cntrl", "digit", "graph", "lower", "print", "punct",
   "space", "upper", "word", "xdigit"]

/-- Read a named class from behind its bracket: whether it is negated, and the text after it. -/
def readNamed : List Char → Option (Bool × List Char)
  | ':' :: cs =>
    let negated := cs.head? = some '^'
    let cs := if negated then cs.drop 1 else cs
    let name := cs.takeWhile (· ≠ ':')
    match cs.drop name.length with
    | ':' :: ']' :: rest =>
      if classNames.contains (String.ofList name) then some (negated, rest) else none
    | _ => none
  | _ => none

/-- Can the builder take a named class? -/
def Flags.takesNamed (f : Flags) (negated : Bool) : Bool :=
  if f.unicode then !f.ignoreCase else !negated

/-- Read a character or an escape in a class. -/
def readClassAtom (f : Flags) : List Char → Option (Atom × List Char)
  | [] => none
  | '\\' :: rest => readEscape f rest
  | c :: rest => some (.literal c false, rest)

/-- Pass over a character, a range or a shorthand. A dash in front of the closing bracket or of
another dash makes no range. -/
def readMember (f : Flags) (cs : List Char) : Option (List Char) := do
  let (first, rest) ← readClassAtom f cs
  let single (rest : List Char) := if f.takes true first then some rest else none
  match f.skip rest with
  | '-' :: after =>
    if f.peek? after = some ']' || f.peek? after = some '-' then single ('-' :: after)
    else
      let (last, rest) ← readClassAtom f (f.skip after)
      match first, last with
      | .literal a _, .literal b _ =>
        if a ≤ b && f.takes true first && f.takes true last then some rest else none
      | _, _ => none
  | rest => single rest

/-- Pass over the sign of a negated class. A class of bytes cannot be negated, since it would match
parts of characters. -/
def openClass (f : Flags) (cs : List Char) : Option (List Char) :=
  match f.skip cs with
  | '^' :: rest => if f.unicode then some rest else none
  | rest => some rest

/-- How deep members are nested, with what stands on the left of the last operator. -/
def joined (left : Option Nat) (members : List Nat) : Nat :=
  match left with
  | none => together members
  | some depth => 1 + max depth (together members)

/-- Read a class up to its closing bracket. In its opening all dashes stand for themselves, and so
does a closing bracket that comes first. -/
def readMembers (f : Flags) : (fuel : Nat) → (opening : Bool) → (left : Option Nat) →
    (members : List Nat) → List Char → Option (Nat × List Char)
  | 0, _, _, _, _ => none
  | fuel + 1, opening, left, members, cs =>
    match f.skip cs with
    | [] => none
    | c :: rest =>
      if opening && (c = '-' || (c = ']' && members.isEmpty)) then
        if f.takesLiteral true c false then
          readMembers f fuel (c = '-') left (0 :: members) rest
        else none
      else if c = ']' then some (joined left members, rest)
      else if c = '[' then
        match readNamed rest with
        | some (negated, rest) =>
          if f.takesNamed negated then readMembers f fuel false left (0 :: members) rest else none
        | none => do
          let (depth, rest) ← readMembers f fuel true none [] (← openClass f rest)
          readMembers f fuel false left ((1 + depth) :: members) rest
      else if (c = '&' || c = '-' || c = '~') && rest.head? = some c then
        readMembers f fuel false (some (joined left members)) [] (rest.drop 1)
      else do
        let rest ← readMember f (c :: rest)
        readMembers f fuel false left (0 :: members) rest

/-- Read a class from behind its bracket: how deep it is nested, and the text after it. -/
def readClass (f : Flags) (cs : List Char) : Option (Nat × List Char) := do
  let (depth, rest) ← readMembers f (cs.length + 1) true none [] (← openClass f cs)
  return (1 + depth, rest)

end SessionScript.Pattern
