import SessionScript.Json.Reader

/-!
# Passing over a value

The value under a key that means nothing is passed over without being built. Brackets may then be
nested to any depth and numbers may have any size; only the form of the text matters. The open
brackets are kept on a list, innermost first.
-/

namespace SessionScript.Json

/-- A bracket that is open. -/
inductive Bracket where
  /-- An array. -/
  | square
  /-- An object. -/
  | curly
  deriving DecidableEq

/-- Pass over a key of an object and its colon. -/
def skipKey (cs : List Char) : Reading (List Char) :=
  match skipBlanks cs with
  | [] => .error (.atEnd .endInObject)
  | '"' :: rest => do
    let rest ← skipString rest
    readColon rest
  | rest => .error (.seen .keyNotString rest)

/-- Pass over a word, a string or a number. -/
def skipScalar (cs : List Char) : Reading (List Char) :=
  match cs with
  | 'n' :: rest => readWord ['u', 'l', 'l'] rest
  | 't' :: rest => readWord ['r', 'u', 'e'] rest
  | 'f' :: rest => readWord ['a', 'l', 's', 'e'] rest
  | '-' :: rest => skipUnsigned rest
  | '"' :: rest => skipString rest
  | c :: rest =>
    if c.isDigit then skipUnsigned (c :: rest) else .error (.seen .expectedValue (c :: rest))
  | [] => .error (.atEnd .endInValue)

mutual

/-- Pass over a value inside the given open brackets, and over all that follows it up to the end of
the outermost bracket. -/
def skipValueIn : (fuel : Nat) → List Bracket → List Char → Reading (List Char)
  | 0, _, _ => .error (.atEnd .endInValue)
  | fuel + 1, brackets, cs =>
    match skipBlanks cs with
    | '[' :: rest => skipInside fuel false (.square :: brackets) rest
    | '\x7b' :: rest => skipInside fuel false (.curly :: brackets) rest
    | cs => do
      let rest ← skipScalar cs
      skipInside fuel true brackets rest

/-- Go on inside the innermost open bracket; `after` tells whether an item has been passed there. -/
def skipInside : (fuel : Nat) → (after : Bool) → List Bracket → List Char →
    Reading (List Char)
  | 0, _, _, _ => .error (.atEnd .endInValue)
  | _ + 1, _, [], cs => .ok cs
  | fuel + 1, after, .square :: brackets, cs =>
    match skipBlanks cs with
    | [] => .error (.atEnd .endInArray)
    | ']' :: rest => skipInside fuel true brackets rest
    | c :: rest =>
      if !after then skipValueIn fuel (.square :: brackets) (c :: rest)
      else if c = ',' then skipValueIn fuel (.square :: brackets) rest
      else .error (.seen .expectedCommaOrBracket (c :: rest))
  | fuel + 1, after, .curly :: brackets, cs =>
    match skipBlanks cs with
    | [] => .error (.atEnd .endInObject)
    | '\x7d' :: rest => skipInside fuel true brackets rest
    | c :: rest =>
      if !after then do
        let rest ← skipKey (c :: rest)
        skipValueIn fuel (.curly :: brackets) rest
      else if c = ',' then do
        let rest ← skipKey rest
        skipValueIn fuel (.curly :: brackets) rest
      else .error (.seen .expectedCommaOrBrace (c :: rest))

end

/-- Pass over one value. -/
def skipValue (cs : List Char) : Reading (List Char) := skipValueIn (fuelFor cs) [] cs

end SessionScript.Json
