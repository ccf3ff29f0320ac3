import SessionScript.Toml.Document

/-!
# Pointing at a stretch of a settings file

A complaint about an entry shows its line, with carets under the entry, and the message below.
Columns count characters; the carets count the bytes of the entry, but do not go on behind the end
of the line.
-/

namespace SessionScript.Toml

/-- The line on which the text after `before` goes on: its number from zero, its characters up to
that point, and the line itself. -/
structure Spot where
  /-- The number of the line, from zero. -/
  line : Nat
  /-- How many characters of the line come before the point. -/
  column : Nat
  /-- The line. -/
  content : List Char

/-- The spot after a number of bytes; `line` and `start` belong to the line that has been reached,
and `column` counts its characters so far. -/
def spotFrom (line column : Nat) (start : List Char) : (bytes : Nat) → List Char → Spot
  | bytes, [] => ⟨line, column + bytes, start⟩
  | bytes, c :: cs =>
    if bytes = 0 then ⟨line, column, start.takeWhile (· ≠ '\n')⟩
    else if c = '\n' then spotFrom (line + 1) 0 cs (bytes - 1) cs
    else spotFrom line (column + 1) start (bytes - c.utf8Size) cs

/-- A complaint about a stretch of a text. -/
def complaint (text : List Char) (span : Span) (message : String) : String :=
  let spot := spotFrom 0 0 text (Text.byteCount text - span.fromStart) text
  let number := toString (spot.line + 1)
  let margin := String.ofList (List.replicate (number.length + 1) ' ') ++ "|"
  let content := spot.content.takeWhile (· ≠ '\n')
  let carets :=
    max 1 (min (span.fromStart - span.fromEnd) (Text.byteCount content - spot.column))
  "TOML parse error at line " ++ number ++ ", column " ++ toString (spot.column + 1) ++ "\n"
    ++ margin ++ "\n"
    ++ number ++ " | " ++ String.ofList content ++ "\n"
    ++ margin ++ String.ofList (List.replicate (spot.column + 1) ' ' ++ List.replicate carets '^')
    ++ "\n" ++ message ++ "\n"

end SessionScript.Toml
