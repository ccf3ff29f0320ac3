import SessionScript.Json.Value
import SessionScript.Json.Token
import SessionScript.Instant.Calendar

/-!
# Keys, strings, numbers and dates of a settings file

The readers of this module follow version 1.0 of the TOML format. They take the unread text and
give what they read with the text after it; a text that does not follow the format gives `none`,
because the form of a mistake is not reported.
-/

namespace SessionScript.Toml

/-- What a reader gives, or nothing when the text does not follow the format. -/
abbrev Scan := Option

/-- Blanks inside a line. -/
def isSpace (c : Char) : Bool := c = ' ' || c = '\t'

/-- The text after the blanks inside a line. -/
def skipSpaces (cs : List Char) : List Char := cs.dropWhile isSpace

/-- Pass over the end of a line. -/
def readNewline : List Char → Scan (List Char)
  | '\n' :: rest => some rest
  | '\r' :: '\n' :: rest => some rest
  | _ => none

/-- Characters that may stand in a comment: no control character but the tab. -/
def isPlain (c : Char) : Bool := c = '\t' || (0x20 ≤ c.toNat && c.toNat ≠ 0x7f)

/-- The text after a comment, if there is one. -/
def skipComment : List Char → List Char
  | '#' :: rest => rest.dropWhile isPlain
  | cs => cs

/-- Pass over the rest of a line that holds nothing more than a comment. -/
def readLineEnd (cs : List Char) : Scan (List Char) :=
  match skipComment (skipSpaces cs) with
  | [] => some []
  | rest => readNewline rest

/-- Characters of a key that needs no quotes. -/
def isBareKeyChar (c : Char) : Bool := c.isAlphanum || c = '-' || c = '_'

/-- Read the number of a character in `width` hexadecimal digits. -/
def readScalar (width : Nat) (cs : List Char) : Scan (Char × List Char) := do
  let digits := cs.take width
  if digits.length ≠ width then none
  let n ← Text.hexValue? digits
  if n.isValidChar then some (Char.ofNat n, cs.drop width) else none

/-- Read an escape from behind its backslash. -/
def readEscape : List Char → Scan (Char × List Char)
  | 'b' :: rest => some ('\x08', rest)
  | 't' :: rest => some ('\t', rest)
  | 'n' :: rest => some ('\n', rest)
  | 'f' :: rest => some ('\x0c', rest)
  | 'r' :: rest => some ('\r', rest)
  | '"' :: rest => some ('"', rest)
  | '\\' :: rest => some ('\\', rest)
  | 'u' :: rest => readScalar 4 rest
  | 'U' :: rest => readScalar 8 rest
  | _ => none

/-- Read a string in double quotes from behind its opening quote. -/
def readBasic : (fuel : Nat) → List Char → Scan (List Char × List Char)
  | 0, _ => none
  | _ + 1, [] => none
  | fuel + 1, c :: cs =>
    if c = '"' then some ([], cs)
    else if c = '\\' then do
      let (c, cs) ← readEscape cs
      let (s, cs) ← readBasic fuel cs
      return (c :: s, cs)
    else if isPlain c then do
      let (s, cs) ← readBasic fuel cs
      return (c :: s, cs)
    else none

/-- Read a string in single quotes from behind its opening quote. -/
def readVerbatim (cs : List Char) : Scan (List Char × List Char) :=
  let s := cs.takeWhile fun c => isPlain c && c ≠ '\''
  match cs.drop s.length with
  | '\'' :: rest => some (s, rest)
  | _ => none

/-- How many quotes the text starts with. -/
def quoteRun (quote : Char) (cs : List Char) : Nat := (cs.takeWhile (· = quote)).length

/-- The text after all blanks and ends of lines at its start. -/
def skipLines : (fuel : Nat) → List Char → List Char
  | 0, cs => cs
  | fuel + 1, cs =>
    let rest := skipSpaces cs
    match readNewline rest with
    | some rest => skipLines fuel rest
    | none => rest

/-- Read a string of several lines from behind its opening quotes. Up to two quotes may stand in
front of the three that close it. With `escapes`, a backslash starts an escape or joins lines. -/
def readMultiline (quote : Char) (escapes : Bool) :
    (fuel : Nat) → List Char → Scan (List Char × List Char)
  | 0, _ => none
  | _ + 1, [] => none
  | fuel + 1, c :: cs =>
    let run := min 5 (quoteRun quote (c :: cs))
    if 3 ≤ run then some (List.replicate (run - 3) quote, (c :: cs).drop run)
    else if c = '\\' && escapes then
      match readNewline (skipSpaces cs) with
      | some rest => readMultiline quote escapes fuel (skipLines rest.length rest)
      | none => do
        let (c, cs) ← readEscape cs
        let (s, cs) ← readMultiline quote escapes fuel cs
        return (c :: s, cs)
    else if isPlain c then do
      let (s, cs) ← readMultiline quote escapes fuel cs
      return (c :: s, cs)
    else do
      let cs ← readNewline (c :: cs)
      let (s, cs) ← readMultiline quote escapes fuel cs
      return ('\n' :: s, cs)

/-- The text after the end of the line at its start, if there is one. -/
def skipNewline (cs : List Char) : List Char := (readNewline cs).getD cs

/-- Read a string of any kind. -/
def readString (cs : List Char) : Scan (String × List Char) :=
  let text := Option.map fun ((s, rest) : List Char × List Char) => (String.ofList s, rest)
  match cs with
  | '"' :: '"' :: '"' :: rest => text (readMultiline '"' true cs.length (skipNewline rest))
  | '"' :: rest => text (readBasic cs.length rest)
  | '\'' :: '\'' :: '\'' :: rest => text (readMultiline '\'' false cs.length (skipNewline rest))
  | '\'' :: rest => text (readVerbatim rest)
  | _ => none

/-- Read the digits behind a first one; an underscore may stand between two digits. -/
def moreDigits (isDigit : Char → Bool) : List Char → Scan (List Char × List Char)
  | '_' :: d :: rest =>
    if isDigit d then (moreDigits isDigit rest).map fun (ds, rest) => (d :: ds, rest) else none
  | ['_'] => none
  | d :: rest =>
    if isDigit d then (moreDigits isDigit rest).map fun (ds, rest) => (d :: ds, rest)
    else some ([], d :: rest)
  | [] => some ([], [])

/-- Read one or more digits; an underscore may stand between two digits. -/
def digitRun (isDigit : Char → Bool) : List Char → Scan (List Char × List Char)
  | d :: rest =>
    if isDigit d then (moreDigits isDigit rest).map fun (ds, rest) => (d :: ds, rest) else none
  | [] => none

/-- The value of decimal digits. -/
def decimalValue (ds : List Char) : Nat := ds.foldl (fun n d => 10 * n + Json.digitValue d) 0

/-- Read an optional sign; is it a minus? -/
def readSign : List Char → Bool × List Char
  | '+' :: rest => (false, rest)
  | '-' :: rest => (true, rest)
  | cs => (false, cs)

/-- Read the digits of a decimal number, which has no zero in front of other digits. -/
def wholeDigits : List Char → Scan (List Char × List Char)
  | '0' :: rest => some (['0'], rest)
  | cs => digitRun Char.isDigit cs

/-- The whole number with a value, within the signed 64-bit numbers. -/
def integerOf (n : Int) : Option Json :=
  if Json.isSigned64 n then (Json.Whole.ofInt? n).map fun w => .num (.whole w) else none

/-- Read a whole number, decimal or with the mark of another base. -/
def readInteger (cs : List Char) : Scan (Json × List Char) := do
  let inBase (base : Nat) (isDigit : Char → Bool) (cs : List Char) : Scan (Json × List Char) := do
    let (ds, rest) ← digitRun isDigit cs
    let n := ds.foldl (fun n d => base * n + (Text.hexDigitValue? d).getD 0) 0
    return (← integerOf n, rest)
  match cs with
  | '0' :: 'x' :: rest => inBase 16 (fun c => (Text.hexDigitValue? c).isSome) rest
  | '0' :: 'o' :: rest => inBase 8 (fun c => '0' ≤ c && c ≤ '7') rest
  | '0' :: 'b' :: rest => inBase 2 (fun c => c = '0' || c = '1') rest
  | cs =>
    let (negative, cs) := readSign cs
    let (ds, rest) ← wholeDigits cs
    let n : Int := decimalValue ds
    return (← integerOf (if negative then -n else n), rest)

/-- Read an exponent from behind its mark. -/
def readExponent (cs : List Char) : Scan (Int × List Char) := do
  let (negative, cs) := readSign cs
  let (ds, rest) ← digitRun Char.isDigit cs
  let n : Int := decimalValue ds
  return (if negative then -n else n, rest)

/-- Read a number with a fraction, an exponent or both. It must not be too large. -/
def readFloat (cs : List Char) : Scan (Json × List Char) := do
  let (negative, cs) := readSign cs
  let (ds, cs) ← wholeDigits cs
  let (fraction, exponent, rest) ← match cs with
    | '.' :: cs => do
      let (fraction, cs) ← digitRun Char.isDigit cs
      match cs with
      | 'e' :: cs | 'E' :: cs => do
        let (exponent, cs) ← readExponent cs
        pure (fraction, exponent, cs)
      | cs => pure (fraction, 0, cs)
    | 'e' :: cs | 'E' :: cs => do
      let (exponent, cs) ← readExponent cs
      pure ([], exponent, cs)
    | _ => none
  let x := Binary64.ofDecimal negative (decimalValue (ds ++ fraction)) (exponent - fraction.length)
  if x.isInfinite && !negative then none else return (.num (.float x), rest)

/-- Read an infinite number or one that is not a number. -/
def readSpecial (cs : List Char) : Scan (Json × List Char) :=
  let (negative, cs) := readSign cs
  match cs with
  | 'i' :: 'n' :: 'f' :: rest =>
    some (.num (.float (.ofMagnitude negative Binary64.infiniteMagnitude)), rest)
  | 'n' :: 'a' :: 'n' :: rest =>
    some (.num (.float (.ofMagnitude negative Binary64.undefinedMagnitude)), rest)
  | _ => none

/-- Read a number of `width` digits that lies between two bounds. -/
def fixedNumber (width least greatest : Nat) (cs : List Char) : Scan (Nat × List Char) :=
  let ds := cs.take width
  let n := decimalValue ds
  if ds.length = width && ds.all Char.isDigit && least ≤ n && n ≤ greatest then
    some (n, cs.drop width)
  else none

/-- Pass over one character. -/
def readChar (expected : Char) : List Char → Scan (List Char)
  | c :: rest => if c = expected then some rest else none
  | [] => none

/-- Pass over a date. -/
def readDate (cs : List Char) : Scan (List Char) := do
  let (year, cs) ← fixedNumber 4 0 9999 cs
  let cs ← readChar '-' cs
  let (month, cs) ← fixedNumber 2 1 12 cs
  let cs ← readChar '-' cs
  let (_, cs) ← fixedNumber 2 1 (Date.daysInMonth year month) cs
  return cs

/-- Pass over a time of day. -/
def readTime (cs : List Char) : Scan (List Char) := do
  let (_, cs) ← fixedNumber 2 0 23 cs
  let cs ← readChar ':' cs
  let (_, cs) ← fixedNumber 2 0 59 cs
  let cs ← readChar ':' cs
  let (_, cs) ← fixedNumber 2 0 60 cs
  match cs with
  | '.' :: rest => if Json.startsWithDigit rest then return Json.skipDigits rest else none
  | _ => return cs

/-- Pass over an offset from universal time, if there is one. -/
def skipOffset (cs : List Char) : List Char :=
  let offset (rest : List Char) : Scan (List Char) := do
    let (_, rest) ← fixedNumber 2 0 23 rest
    let rest ← readChar ':' rest
    let (_, rest) ← fixedNumber 2 0 59 rest
    return rest
  match cs with
  | 'Z' :: rest | 'z' :: rest => rest
  | '+' :: rest | '-' :: rest => (offset rest).getD cs
  | _ => cs

/-- Read a date, a time or both. No setting is one, so only its kind is kept. -/
def readDateTime (cs : List Char) : Scan (Json × List Char) :=
  match readDate cs with
  | none => (readTime cs).map fun rest => (.obj [], rest)
  | some afterDate =>
    let afterTime : Option (List Char) :=
      match afterDate with
      | 'T' :: rest | 't' :: rest | ' ' :: rest => (readTime rest).map skipOffset
      | _ => none
    some (.obj [], afterTime.getD afterDate)

end SessionScript.Toml
