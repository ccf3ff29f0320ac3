import SessionScript.Instant.Calendar

/-!
# Instants and their text

An instant is a day, a second of that day and a part of that second, all in universal time. A leap
second is the second before it with a part of one second or more.
-/

namespace SessionScript

/-- A point in time. -/
structure Instant where
  /-- The days since the first of January 1970. -/
  day : Int
  /-- The seconds since midnight. -/
  second : Nat
  /-- The nanoseconds since that second began; more than a second's worth inside a leap second. -/
  nano : Nat
  deriving DecidableEq

namespace Instant

/-- How many nanoseconds a second has. -/
def nanosPerSecond : Nat := 1000000000

/-- How many seconds a day has. -/
def secondsPerDay : Int := 86400

/-- The instant so many seconds and nanoseconds after the first of January 1970 began. -/
def ofElapsed (seconds : Int) (nano : Nat) : Instant :=
  ⟨seconds / secondsPerDay, (seconds % secondsPerDay).toNat, nano⟩

/-- The digits of a number, with zeros in front up to a width. -/
def padded (width n : Nat) : String :=
  let digits := Nat.toDigits 10 n
  String.ofList (List.replicate (width - digits.length) '0' ++ digits)

/-- A year has four digits, and a sign when it has more or is negative. -/
def yearText (year : Int) : String :=
  if 0 ≤ year ∧ year ≤ 9999 then padded 4 year.toNat
  else (if year < 0 then "-" else "+") ++ padded 4 year.natAbs

/-- The fewest groups of three digits that lose nothing of a part of a second. -/
def fractionText (nano : Nat) : String :=
  if nano = 0 then ""
  else if nano % 1000000 = 0 then "." ++ padded 3 (nano / 1000000)
  else if nano % 1000 = 0 then "." ++ padded 6 (nano / 1000)
  else "." ++ padded 9 nano

/-- The second of the minute as it is shown: sixty inside a leap second. -/
def shownSecond (t : Instant) : Nat := t.second % 60 + t.nano / nanosPerSecond

/-- Date and time of day, without a zone. -/
def localText (t : Instant) : String :=
  let date := Date.ofDays t.day
  yearText date.year ++ "-" ++ padded 2 date.month ++ "-" ++ padded 2 date.day ++ "T"
    ++ padded 2 (t.second / 3600) ++ ":" ++ padded 2 (t.second / 60 % 60) ++ ":"
    ++ padded 2 t.shownSecond ++ fractionText (t.nano % nanosPerSecond)

/-- The text of an instant in documents. -/
def text (t : Instant) : String := t.localText ++ "Z"

/-- The text of an instant with its zone as an offset. -/
def offsetText (t : Instant) : String := t.localText ++ "+00:00"

/-- The text of an instant in file names, to the second. -/
def stamp (t : Instant) : String :=
  let date := Date.ofDays t.day
  yearText date.year ++ padded 2 date.month ++ padded 2 date.day ++ "_"
    ++ padded 2 (t.second / 3600) ++ padded 2 (t.second / 60 % 60) ++ padded 2 t.shownSecond

end Instant

end SessionScript
