import SessionScript.Json.Refusal
import SessionScript.Text.Blank
import SessionScript.Text.Hexadecimal

/-!
# Words, strings and numbers of a document

The readers of this module take the unread text and give what they read together with the text
after it. A number is read as digits are read from left to right: as many as fit into 64 bits form
the significand, and a number with a fraction or an exponent is that significand multiplied or
divided by rounded powers of ten. The result can therefore differ from the nearest number in the
last place.
-/

namespace SessionScript.Json

/-- What a reader gives, or a refusal. The result is usually a pair with the text that is left. -/
abbrev Reading := Except Refusal

/-- The unread text from the next token on. -/
def skipBlanks (cs : List Char) : List Char := cs.dropWhile Text.isBlank

/-- Read the rest of a fixed word, character by character. -/
def readWord : (word : List Char) → List Char → Reading (List Char)
  | [], cs => .ok cs
  | _ :: _, [] => .error (.atEnd .endInValue)
  | w :: word, c :: cs =>
    if c = w then readWord word cs else .error (.seen .expectedWord (c :: cs))

/-- The value of four hexadecimal digits. -/
def hexUnit? (a b c d : Char) : Option Nat := Text.hexValue? [a, b, c, d]

/-- The character behind a backslash and a single letter. -/
def simpleEscape? (c : Char) : Option Char :=
  if c = '"' then some '"'
  else if c = '\\' then some '\\'
  else if c = '/' then some '/'
  else if c = 'b' then some '\x08'
  else if c = 'f' then some '\x0c'
  else if c = 'n' then some '\n'
  else if c = 'r' then some '\r'
  else if c = 't' then some '\t'
  else none

/-- The refusal of an escape that does not go on with four hexadecimal digits. -/
def badHexUnit (rest : List Char) : Refusal :=
  if Text.byteCount rest < 4 then .atEnd .endInString else .past .invalidEscape 4 rest

/-- Is this unit the first half of a surrogate pair? -/
def isLeading (unit : Nat) : Bool := 0xd800 ≤ unit && unit ≤ 0xdbff

/-- Is this unit the second half of a surrogate pair? -/
def isTrailing (unit : Nat) : Bool := 0xdc00 ≤ unit && unit ≤ 0xdfff

/-- The character that a surrogate pair stands for. -/
def ofSurrogates (leading trailing : Nat) : Char :=
  Char.ofNat ((leading - 0xd800) * 0x400 + (trailing - 0xdc00) + 0x10000)

/-- Put a character in front of the string that was read. -/
def consChar (c : Char) : Reading (List Char × List Char) → Reading (List Char × List Char)
  | .ok (s, rest) => .ok (c :: s, rest)
  | .error e => .error e

/-- Read a string from behind its opening quote to its closing quote. -/
def readString : List Char → Reading (List Char × List Char)
  | [] => .error (.atEnd .endInString)
  | c :: cs =>
    if c = '"' then .ok ([], cs)
    else if c = '\\' then
      match cs with
      | [] => .error (.atEnd .endInString)
      | 'u' :: h₁ :: h₂ :: h₃ :: h₄ :: cs₁ =>
        match hexUnit? h₁ h₂ h₃ h₄ with
        | none => .error (badHexUnit (h₁ :: h₂ :: h₃ :: h₄ :: cs₁))
        | some unit =>
          if isTrailing unit then .error (.here .loneSurrogate cs₁)
          else if isLeading unit then
            match cs₁ with
            | [] => .error (.atEnd .endInString)
            | '\\' :: 'u' :: k₁ :: k₂ :: k₃ :: k₄ :: cs₂ =>
              match hexUnit? k₁ k₂ k₃ k₄ with
              | none => .error (badHexUnit (k₁ :: k₂ :: k₃ :: k₄ :: cs₂))
              | some second =>
                if isTrailing second then consChar (ofSurrogates unit second) (readString cs₂)
                else .error (.here .loneSurrogate cs₂)
            | '\\' :: 'u' :: cs₂ => .error (badHexUnit cs₂)
            | '\\' :: [] => .error (.atEnd .endInString)
            | '\\' :: cs₂ => .error (.seen .unfinishedSurrogate cs₂)
            | cs₂ => .error (.seen .unfinishedSurrogate cs₂)
          else consChar (Char.ofNat unit) (readString cs₁)
      | 'u' :: cs₁ => .error (badHexUnit cs₁)
      | e :: cs₁ =>
        match simpleEscape? e with
        | some c => consChar c (readString cs₁)
        | none => .error (.seen .invalidEscape (e :: cs₁))
    else if c.toNat < 0x20 then .error (.seen .controlCharacter (c :: cs))
    else consChar c (readString cs)

/-- Pass over a string from behind its opening quote, without asking whether its escapes pair up. -/
def skipString : List Char → Reading (List Char)
  | [] => .error (.atEnd .endInString)
  | c :: cs =>
    if c = '"' then .ok cs
    else if c = '\\' then
      match cs with
      | [] => .error (.atEnd .endInString)
      | 'u' :: h₁ :: h₂ :: h₃ :: h₄ :: cs₁ =>
        match hexUnit? h₁ h₂ h₃ h₄ with
        | none => .error (badHexUnit (h₁ :: h₂ :: h₃ :: h₄ :: cs₁))
        | some _ => skipString cs₁
      | 'u' :: cs₁ => .error (badHexUnit cs₁)
      | e :: cs₁ =>
        match simpleEscape? e with
        | some _ => skipString cs₁
        | none => .error (.seen .invalidEscape (e :: cs₁))
    else if c.toNat < 0x20 then .error (.here .controlCharacter (c :: cs))
    else skipString cs

/-- The value of a decimal digit. -/
def digitValue (c : Char) : Nat := c.toNat - '0'.toNat

/-- Does the text start with a decimal digit? -/
def startsWithDigit : List Char → Bool
  | [] => false
  | c :: _ => c.isDigit

/-- The greatest significand. -/
def maxSignificand : Nat := 0xffffffffffffffff

/-- Append the digits at the start of the text to a significand, as long as it fits into 64 bits. -/
def absorbDigits (significand : Nat) : List Char → Nat × List Char
  | [] => (significand, [])
  | c :: cs =>
    let next := significand * 10 + digitValue c
    if c.isDigit && next ≤ maxSignificand then absorbDigits next cs else (significand, c :: cs)

/-- The text after the digits at its start. -/
def skipDigits (cs : List Char) : List Char := cs.dropWhile Char.isDigit

/-- The power of ten, rounded. -/
def powerOfTen (n : Nat) : Binary64 := Binary64.ofNat (Nat.pow 10 n)

/-- Divide by the greatest power of ten in use, `times` times or until nothing is left. -/
def shrink : (times : Nat) → Binary64 → Binary64
  | 0, x => x
  | times + 1, x => if x.isZero then x else shrink times (x.div (powerOfTen 308))

/-- The number `significand * 10 ^ exponent` by one multiplication, or by divisions of at most
`10 ^ 308` each. A number that becomes infinite is refused. -/
def scaleSignificand (significand : Nat) (exponent : Int) : Option Binary64 :=
  let x := Binary64.ofNat significand
  if 308 < exponent then
    if x.isZero then some x else none
  else if 0 ≤ exponent then
    let y := x.mul (powerOfTen exponent.toNat)
    if y.isInfinite then none else some y
  else
    let places := (-exponent).toNat
    let times := (places - 1) / 308
    some ((shrink times x).div (powerOfTen (places - 308 * times)))

/-- A floating-point number from its parts; `rest` is the text after it. -/
def finishFloat (negative : Bool) (significand : Nat) (exponent : Int) (rest : List Char) :
    Reading (Number × List Char) :=
  match scaleSignificand significand exponent with
  | some x => .ok (.float (x.withSign negative), rest)
  | none => .error (.here .numberOutOfRange rest)

/-- The greatest exponent that is told from an overflow. -/
def maxExponent : Nat := 0x7fffffff

/-- Append the digits at the start of the text to an exponent; `none` stands for an overflow, and
the text then goes on behind the digit that caused it. -/
def absorbExponent (exponent : Nat) : List Char → Option Nat × List Char
  | [] => (some exponent, [])
  | c :: cs =>
    if c.isDigit then
      let next := exponent * 10 + digitValue c
      if next ≤ maxExponent then absorbExponent next cs else (none, cs)
    else (some exponent, c :: cs)

/-- The sign in front of an exponent, `true` for a minus, and the text behind it. -/
def exponentSign : List Char → Bool × List Char
  | '+' :: rest => (false, rest)
  | '-' :: rest => (true, rest)
  | cs => (false, cs)

/-- Read the exponent from behind its mark; `start` is the exponent that the digits already have. -/
def readExponent (negative : Bool) (significand : Nat) (start : Int) (cs : List Char) :
    Reading (Number × List Char) :=
  match exponentSign cs with
  | (_, []) => .error (.atEnd .endInValue)
  | (down, c :: rest) =>
    if !c.isDigit then .error (.seen .invalidNumber (c :: rest))
    else
      match absorbExponent (digitValue c) rest with
      | (some e, rest) =>
        finishFloat negative significand (if down then start - e else start + e) rest
      | (none, rest) =>
        if significand ≠ 0 && !down then .error (.here .numberOutOfRange rest)
        else .ok (.float (Binary64.ofMagnitude negative 0), skipDigits rest)

/-- Go on behind the last digit: an exponent may follow. -/
def readTail (negative : Bool) (significand : Nat) (exponent : Int) (cs : List Char) :
    Reading (Number × List Char) :=
  match cs with
  | 'e' :: rest | 'E' :: rest => readExponent negative significand exponent rest
  | _ => finishFloat negative significand exponent cs

/-- Read the fraction from behind its point; `start` counts the whole digits that did not fit. -/
def readFraction (negative : Bool) (significand : Nat) (start : Nat) (cs : List Char) :
    Reading (Number × List Char) :=
  let (all, rest) := absorbDigits significand cs
  let places := cs.length - rest.length
  if startsWithDigit rest then readTail negative all ((start : Int) - places) (skipDigits rest)
  else if places = 0 then
    match rest with
    | [] => .error (.atEnd .endInValue)
    | _ => .error (.seen .invalidNumber rest)
  else readTail negative all ((start : Int) - places) rest

/-- The number without fraction and exponent. Negative zero and what is below the signed 64-bit
numbers is a floating-point number. -/
def wholeNumber (negative : Bool) (n : Nat) : Number :=
  let value : Int := if negative then -n else n
  match negative && n = 0, Whole.ofInt? value with
  | false, some w => .whole w
  | _, _ => .float ((Binary64.ofNat n).withSign negative)

/-- Go on behind whole digits of which the last `extra` did not fit into the significand. -/
def readAfterExtra (negative : Bool) (significand extra : Nat) (cs : List Char) :
    Reading (Number × List Char) :=
  match cs with
  | '.' :: rest => readFraction negative significand extra rest
  | _ => readTail negative significand extra cs

/-- Go on behind the whole digits that form the significand. -/
def readAfterDigits (negative : Bool) (significand : Nat) (cs : List Char) :
    Reading (Number × List Char) :=
  if startsWithDigit cs then
    let rest := skipDigits cs
    readAfterExtra negative significand (cs.length - rest.length) rest
  else
    match cs with
    | '.' :: rest => readFraction negative significand 0 rest
    | 'e' :: rest | 'E' :: rest => readExponent negative significand 0 rest
    | _ => .ok (wholeNumber negative significand, cs)

/-- Read a number from behind its sign. -/
def readUnsigned (negative : Bool) (cs : List Char) : Reading (Number × List Char) :=
  match cs with
  | [] => .error (.atEnd .endInValue)
  | '0' :: rest =>
    if startsWithDigit rest then .error (.seen .invalidNumber rest)
    else readAfterDigits negative 0 rest
  | c :: rest =>
    if c.isDigit then
      let (significand, rest) := absorbDigits (digitValue c) rest
      readAfterDigits negative significand rest
    else .error (.seen .invalidNumber cs)

/-- Pass over an exponent from behind its mark. -/
def skipExponent (cs : List Char) : Reading (List Char) :=
  match (exponentSign cs).2 with
  | [] => .error (.atEnd .invalidNumber)
  | c :: rest =>
    if c.isDigit then .ok (skipDigits rest) else .error (.seen .invalidNumber (c :: rest))

/-- Pass over the exponent of a number, if it has one. -/
def skipTail (cs : List Char) : Reading (List Char) :=
  match cs with
  | 'e' :: rest | 'E' :: rest => skipExponent rest
  | _ => .ok cs

/-- Pass over the fraction and the exponent of a number. -/
def skipAfterDigits (cs : List Char) : Reading (List Char) :=
  match cs with
  | '.' :: rest =>
    if startsWithDigit rest then skipTail (skipDigits rest) else .error (.seen .invalidNumber rest)
  | _ => skipTail cs

/-- Pass over a number from behind its sign, whatever its size. -/
def skipUnsigned (cs : List Char) : Reading (List Char) :=
  match cs with
  | [] => .error (.atEnd .invalidNumber)
  | '0' :: rest =>
    if startsWithDigit rest then .error (.seen .invalidNumber rest) else skipAfterDigits rest
  | c :: rest =>
    if c.isDigit then skipAfterDigits (skipDigits rest) else .error (.seen .invalidNumber cs)

end SessionScript.Json
