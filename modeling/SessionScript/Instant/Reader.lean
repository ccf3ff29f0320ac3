import SessionScript.Instant.Printer
import SessionScript.Text.Blank
import SessionScript.Text.Bytes

/-!
# Reading an instant

The text is a date, one of `T`, `t` and a blank, a time of day and a zone. Fields may have fewer
digits than usual, white space may stand in front of a field or a dash, and the zone may be written
with or without a colon. The first defect from left to right is reported; whether the date exists
is asked last.
-/

namespace SessionScript.Instant

/-- Why a text is not an instant. -/
inductive Defect where
  /-- The text ends too early. -/
  | premature
  /-- A character does not belong where it stands. -/
  | invalid
  /-- A field has a value that it cannot have. -/
  | outOfRange
  /-- Something follows the instant. -/
  | trailing
  /-- The zone moves the instant out of the calendar. -/
  | impossible
  deriving DecidableEq

/-- The words for a defect. -/
def Defect.message : Defect → String
  | .premature => "premature end of input"
  | .invalid => "input contains invalid characters"
  | .outOfRange => "input is out of range"
  | .trailing => "trailing input"
  | .impossible => "no possible date and time matching input"

/-- A part of an instant and the text after it, or a defect. -/
abbrev Scan := Except Defect

/-- Read a number of one to `width` digits. -/
def readNumber (width : Nat) (cs : List Char) : Scan (Nat × List Char) :=
  match cs with
  | [] => .error .premature
  | c :: _ =>
    if !c.isDigit then .error .invalid
    else
      let digits := (cs.take width).takeWhile Char.isDigit
      let n := digits.foldl (fun n d => 10 * n + (d.toNat - '0'.toNat)) 0
      if n < 0x8000000000000000 then .ok (n, cs.drop digits.length) else .error .outOfRange

/-- Read a number of one or two digits that lies between two bounds. -/
def readField (least greatest : Nat) (cs : List Char) : Scan (Nat × List Char) := do
  let (n, rest) ← readNumber 2 (Text.trimStart cs)
  if least ≤ n ∧ n ≤ greatest then return (n, rest) else .error .outOfRange

/-- Read the year: up to four digits, or any number of digits behind a sign. -/
def readYear (cs : List Char) : Scan (Int × List Char) := do
  let (year, rest) ← match Text.trimStart cs with
    | '-' :: rest => (readNumber rest.length rest).map fun (n, rest) => (-(n : Int), rest)
    | '+' :: rest => (readNumber rest.length rest).map fun (n, rest) => ((n : Int), rest)
    | rest => (readNumber 4 rest).map fun (n, rest) => ((n : Int), rest)
  if -0x80000000 ≤ year ∧ year < 0x80000000 then return (year, rest) else .error .outOfRange

/-- Pass over a sign that separates two fields. -/
def readSeparator (separator : Char) (cs : List Char) : Scan (List Char) :=
  match Text.trimStart cs with
  | [] => .error .premature
  | c :: rest => if c = separator then .ok rest else .error .invalid

/-- Read a date that may not exist in its month. -/
def readDate (cs : List Char) : Scan (Date × List Char) := do
  let (year, cs) ← readYear cs
  let cs ← readSeparator '-' cs
  let (month, cs) ← readField 1 12 cs
  let cs ← readSeparator '-' cs
  let (day, cs) ← readField 1 31 cs
  return (⟨year, month, day⟩, cs)

/-- Read a part of a second from behind its point, in nanoseconds; nine digits count. -/
def readFraction (cs : List Char) : Scan (Nat × List Char) := do
  let (n, rest) ← readNumber 9 cs
  let places := cs.length - rest.length
  return (n * Nat.pow 10 (9 - places), rest.dropWhile Char.isDigit)

/-- Read a time of day: the second of the day, and the nanoseconds of a second or a leap second. -/
def readTime (cs : List Char) : Scan ((Nat × Nat) × List Char) := do
  let (hour, cs) ← readField 0 23 cs
  let cs ← readSeparator ':' cs
  let (minute, cs) ← readField 0 59 cs
  let cs ← readSeparator ':' cs
  let (second, cs) ← readField 0 60 cs
  let (nano, cs) ← match cs with
    | '.' :: rest => readFraction rest
    | _ => .ok (0, cs)
  let whole := hour * 3600 + minute * 60
  if second = 60 then return ((whole + 59, nano + nanosPerSecond), cs)
  else return ((whole + second, nano), cs)

/-- Read two digits. -/
def readPair (cs : List Char) : Scan (Nat × List Char) :=
  match cs with
  | a :: b :: rest =>
    if a.isDigit && b.isDigit then
      .ok ((a.toNat - '0'.toNat) * 10 + (b.toNat - '0'.toNat), rest)
    else .error .invalid
  | _ => if Text.byteCount cs < 2 then .error .premature else .error .invalid

/-- Read hours and minutes of an offset from behind its sign, in seconds. -/
def readOffset (cs : List Char) : Scan (Nat × List Char) := do
  let (hours, cs) ← readPair cs
  let cs := cs.dropWhile fun c => c = ':' || Text.isWhiteSpace c
  let (minutes, cs) ← readPair cs
  if minutes < 60 then return (hours * 3600 + minutes * 60, cs) else .error .outOfRange

/-- Read a zone as its distance from universal time in seconds. -/
def readZone (cs : List Char) : Scan (Int × List Char) :=
  let cs := Text.trimStart cs
  if (cs.take 3).map Char.toLower = ['u', 't', 'c'] then .ok (0, cs.drop 3)
  else
    match cs with
    | [] => .error .premature
    | 'Z' :: rest | 'z' :: rest => .ok (0, rest)
    | '+' :: rest => (readOffset rest).map fun (n, rest) => ((n : Int), rest)
    | '-' :: rest | '−' :: rest => (readOffset rest).map fun (n, rest) => (-(n : Int), rest)
    | _ => .error .invalid

/-- The first and the last year of the calendar. -/
def isCalendarYear (year : Int) : Bool := -262143 ≤ year && year ≤ 262142

/-- The instant of a local time, if date and offset exist. -/
def ofLocal (date : Date) (second nano : Nat) (offset : Int) : Scan Instant :=
  if !(isCalendarYear date.year && date.isValid) then .error .outOfRange
  else if secondsPerDay ≤ offset.natAbs then .error .outOfRange
  else
    let t := ofElapsed (date.toDays * secondsPerDay + second - offset) nano
    if isCalendarYear (Date.ofDays t.day).year then .ok t else .error .impossible

/-- Read an instant from a whole text. -/
def parseChars (cs : List Char) : Scan Instant := do
  let (date, cs) ← readDate cs
  let cs ← match cs with
    | [] => .error .premature
    | c :: rest => if c = 'T' || c = 't' || c = ' ' then .ok rest else .error .invalid
  let ((second, nano), cs) ← readTime cs
  let (offset, cs) ← readZone cs
  if (Text.trimStart cs).isEmpty then ofLocal date second nano offset else .error .trailing

/-- Read an instant from a whole text. -/
def parse (text : String) : Except Defect Instant := parseChars text.toList

end SessionScript.Instant
