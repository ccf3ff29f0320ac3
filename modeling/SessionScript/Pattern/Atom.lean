import SessionScript.Text.Blank
import SessionScript.Text.Hexadecimal
import SessionScript.Text.WordCharacter

/-!
# The characters of a pattern

A pattern is a regular expression. Here it is only read, never matched: what matters is whether a
machine could be built for it. The builder has no tables of the Unicode character database, so it
refuses characters that stand for both cases and the shorthands for digits, white space and word
characters. Where a flag limits a pattern to ASCII these are understood, but nothing may match a
part of the UTF-8 form of a character.
-/

namespace SessionScript.Pattern

/-- What the flags say at a place of a pattern. -/
structure Flags where
  /-- Do letters stand for both cases? -/
  ignoreCase : Bool := false
  /-- Is the pattern about characters of Unicode, and not about bytes? -/
  unicode : Bool := true
  /-- Are white space and comments left out? -/
  spaced : Bool := false

/-- The text after the white space and the comments at its start. A comment runs from a number sign
to the end of its line. -/
def skipSpaced : (inComment : Bool) → List Char → List Char
  | _, [] => []
  | true, c :: cs => skipSpaced (c ≠ '\n') cs
  | false, c :: cs =>
    if Text.isWhiteSpace c then skipSpaced false cs
    else if c = '#' then skipSpaced true cs
    else c :: cs

/-- The text from the next character that counts on. -/
def Flags.skip (f : Flags) (cs : List Char) : List Char :=
  if f.spaced then skipSpaced false cs else cs

/-- The first character that is neither white space nor the start of a comment. -/
def peekSpaced : (inComment : Bool) → List Char → Option Char
  | _, [] => none
  | inComment, c :: cs =>
    if Text.isWhiteSpace c then peekSpaced inComment cs
    else if c = '#' && !inComment then peekSpaced true cs
    else some c

/-- The character that decides on the meaning of what stands in front of it. -/
def Flags.peek? (f : Flags) (cs : List Char) : Option Char :=
  if f.spaced then peekSpaced false cs <|> cs.head? else cs.head?

/-- A character or an escape. -/
inductive Atom where
  /-- A character that stands for itself. It is given as a byte if two hexadecimal digits give it.
  -/
  | literal (c : Char) (asByte : Bool)
  /-- The digits, the white space or the word characters, or all characters but these. -/
  | shorthand (negated : Bool)
  /-- The start or the end of the text. -/
  | textEdge
  /-- A start or an end of a word, or any other place. -/
  | wordEdge

/-- Read hexadecimal digits, given the value of those before them. -/
def readHexDigits (f : Flags) : (count value : Nat) → List Char → Option (Nat × List Char)
  | 0, value, cs => some (value, cs)
  | count + 1, value, cs =>
    match f.skip cs with
    | [] => none
    | c :: rest => do readHexDigits f count (16 * value + (← Text.hexDigitValue? c)) rest

/-- Read a character that is given by hexadecimal digits. -/
def readNumbered (f : Flags) (count : Nat) (cs : List Char) : Option (Atom × List Char) := do
  let (n, rest) ← readHexDigits f count 0 cs
  if n.isValidChar then some (.literal (Char.ofNat n) (count = 2), rest) else none

/-- Can a backslash stand in front of a character without giving it a meaning? -/
def isEscapable (c : Char) : Bool := c.toNat < 0x80 && !c.isAlphanum && c ≠ '<' && c ≠ '>'

/-- Read an escape from behind its backslash. -/
def readEscape (f : Flags) : List Char → Option (Atom × List Char)
  | [] => none
  | c :: rest =>
    match c with
    | 'x' => readNumbered f 2 rest
    | 'u' => readNumbered f 4 rest
    | 'U' => readNumbered f 8 rest
    | 'd' | 's' | 'w' => some (.shorthand false, rest)
    | 'D' | 'S' | 'W' => some (.shorthand true, rest)
    | 'a' => some (.literal '\x07' false, rest)
    | 'f' => some (.literal '\x0c' false, rest)
    | 't' => some (.literal '\t' false, rest)
    | 'n' => some (.literal '\n' false, rest)
    | 'r' => some (.literal '\r' false, rest)
    | 'v' => some (.literal '\x0b' false, rest)
    | 'A' | 'z' => some (.textEdge, rest)
    | 'b' | 'B' | '<' | '>' => some (.wordEdge, rest)
    | c => if isEscapable c then some (.literal c false, rest) else none

/-- Can the builder take a character that stands for itself? -/
def Flags.takesLiteral (f : Flags) (inClass : Bool) (c : Char) (asByte : Bool) : Bool :=
  if f.unicode then !f.ignoreCase else c.toNat < 0x80 || !(asByte || inClass)

/-- Can the builder take an atom? Edges have no place in a class. -/
def Flags.takes (f : Flags) (inClass : Bool) : Atom → Bool
  | .literal c asByte => f.takesLiteral inClass c asByte
  | .shorthand negated => !f.unicode && !negated
  | .textEdge | .wordEdge => !inClass

/-- How deep things are nested that stand together, given how deep each of them is. One thing alone
adds nothing. -/
def together : List Nat → Nat
  | [] => 0
  | [depth] => depth
  | depths => 1 + depths.foldl max 0

end SessionScript.Pattern
