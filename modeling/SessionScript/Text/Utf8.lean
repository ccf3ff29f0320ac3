/-!
# Texts as bytes

Files hold bytes; texts are written to them in UTF-8. A file's lines end in a line feed, in front of
which a carriage return may stand; the last line may lack its end.
-/

namespace SessionScript.Text

/-- What a file holds. -/
abbrev Bytes := List UInt8

/-- The bytes of a text. -/
def encode (s : String) : Bytes := s.toUTF8.toList

/-- The text with the given bytes, if they are the bytes of one. -/
def decode? (bs : Bytes) : Option String := String.fromUTF8? ⟨bs.toArray⟩

/-- The byte that ends a line. -/
def lineFeed : UInt8 := 10

/-- The byte that may stand in front of the end of a line. -/
def carriageReturn : UInt8 := 13

/-- A line without the carriage return at its end. -/
def stripReturn (line : Bytes) : Bytes :=
  if line.getLast? = some carriageReturn then line.dropLast else line

/-- The lines of a file; `line` holds the bytes of the current line, newest first. -/
def linesFrom (line : Bytes) : Bytes → List Bytes
  | [] => if line.isEmpty then [] else [line.reverse]
  | b :: rest =>
    if b = lineFeed then stripReturn line.reverse :: linesFrom [] rest
    else linesFrom (b :: line) rest

/-- The lines of a file. -/
def lines (bs : Bytes) : List Bytes := linesFrom [] bs

end SessionScript.Text
