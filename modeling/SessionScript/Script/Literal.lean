/-!
# Single-quoted literals

Recorded texts enter a script as single-quoted literals. `escape` gives the text between the
quotes, and `readLiteral` reads a literal back from behind its opening quote.
-/

namespace SessionScript.Script

/-- How one character is written inside a single-quoted literal. -/
def escapeChar (c : Char) : List Char :=
  if c = '\\' then ['\\', '\\']
  else if c = '\'' then ['\\', '\'']
  else if c = '\n' then ['\\', 'n']
  else if c = '\r' then ['\\', 'r']
  else [c]

/-- The text between the quotes of the literal that stands for a text. -/
def escape (s : String) : String := String.ofList (s.toList.flatMap escapeChar)

/-- Put a character in front of a literal that was read. -/
def consLiteral (c : Char) : Option (List Char × List Char) → Option (List Char × List Char)
  | some (s, rest) => some (c :: s, rest)
  | none => none

/-- Read a literal from behind its opening quote: the text it stands for and what follows its
closing quote. A literal must not be broken across lines. -/
def readLiteral : List Char → Option (List Char × List Char)
  | [] => none
  | c :: cs =>
    if c = '\'' then some ([], cs)
    else if c = '\\' then
      match cs with
      | [] => none
      | e :: cs =>
        consLiteral (if e = 'n' then '\n' else if e = 'r' then '\r' else e) (readLiteral cs)
    else if c = '\n' || c = '\r' then none
    else consLiteral c (readLiteral cs)

end SessionScript.Script
