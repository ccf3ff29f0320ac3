import SessionScript.Json.Value
import SessionScript.Text.Blank

/-!
# The text of a JSON document

A document is written in one of two layouts: one without any space, and one that puts each item and
each member on a line of its own, indented by two spaces a level. In strings only the quote, the
backslash and the control characters below U+0020 are escaped.
-/

namespace SessionScript.Json

/-- The lower-case hexadecimal digit of a number below sixteen. -/
def hexDigit (n : Nat) : Char := (Nat.toDigits 16 (n % 16)).headD '0'

/-- How one character of a string is written between the quotes. -/
def escapeChar (c : Char) : List Char :=
  if c = '"' then ['\\', '"']
  else if c = '\\' then ['\\', '\\']
  else if c = '\x08' then ['\\', 'b']
  else if c = '\t' then ['\\', 't']
  else if c = '\n' then ['\\', 'n']
  else if c = '\x0c' then ['\\', 'f']
  else if c = '\r' then ['\\', 'r']
  else if c.toNat < 0x20 then
    ['\\', 'u', '0', '0', hexDigit (c.toNat / 16), hexDigit (c.toNat % 16)]
  else [c]

/-- A string as document text, its quotes included. -/
def quoteChars (s : String) : List Char := '"' :: (s.toList.flatMap escapeChar ++ ['"'])

/-- Where the text of a document has blanks. -/
structure Layout where
  /-- What stands in front of an item, a member or a closing bracket behind so many brackets. -/
  lineBreak : (level : Nat) → List Char
  /-- What stands between a colon and a value. -/
  afterColon : List Char
  /-- Only blanks stand in front of a token. -/
  lineBreak_blank : ∀ level, ∀ c ∈ lineBreak level, Text.isBlank c = true
  /-- Only blanks stand behind a colon. -/
  afterColon_blank : ∀ c ∈ afterColon, Text.isBlank c = true

namespace Layout

/-- No space at all. -/
def tight : Layout where
  lineBreak _ := []
  afterColon := []
  lineBreak_blank _ := nofun
  afterColon_blank := nofun

/-- One item or member a line, indented by two spaces a level. -/
def indented : Layout where
  lineBreak level := '\n' :: List.replicate (2 * level) ' '
  afterColon := [' ']
  lineBreak_blank level c hc := by
    rcases List.mem_cons.mp hc with rfl | hc
    · decide
    · rw [List.eq_of_mem_replicate hc]
      decide
  afterColon_blank c hc := by
    rw [List.mem_singleton.mp hc]
    decide

variable (layout : Layout)

mutual

/-- The text of a document; `level` counts the enclosing brackets. -/
def chars (level : Nat) : Json → List Char
  | .null => "null".toList
  | .bool true => "true".toList
  | .bool false => "false".toList
  | .num n => n.text.toList
  | .str s => quoteChars s
  | .arr [] => ['[', ']']
  | .arr (v :: rest) =>
    '[' :: (layout.lineBreak (level + 1) ++ (chars (level + 1) v ++ items level rest))
  | .obj [] => ['\x7b', '\x7d']
  | .obj ((k, v) :: rest) =>
    '\x7b' :: (layout.lineBreak (level + 1) ++ (quoteChars k ++ ':' ::
      (layout.afterColon ++ (chars (level + 1) v ++ members level rest))))

/-- The items of an array after the first, and its closing bracket. -/
def items (level : Nat) : List Json → List Char
  | [] => layout.lineBreak level ++ [']']
  | v :: rest =>
    ',' :: (layout.lineBreak (level + 1) ++ (chars (level + 1) v ++ items level rest))

/-- The members of an object after the first, and its closing brace. -/
def members (level : Nat) : List (String × Json) → List Char
  | [] => layout.lineBreak level ++ ['\x7d']
  | (k, v) :: rest =>
    ',' :: (layout.lineBreak (level + 1) ++ (quoteChars k ++ ':' ::
      (layout.afterColon ++ (chars (level + 1) v ++ members level rest))))

end

end Layout

/-- The text of a document without any space. -/
def compact (v : Json) : String := String.ofList (Layout.tight.chars 0 v)

/-- The text of a document with one item or member a line. -/
def pretty (v : Json) : String := String.ofList (Layout.indented.chars 0 v)

end SessionScript.Json
