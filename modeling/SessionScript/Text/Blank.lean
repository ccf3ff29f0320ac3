import SessionScript.Text.Boundaries

/-!
# White space

Two classes are in use: the four blanks that may stand between the tokens of a document, and the
characters with the Unicode property *White_Space*, which are trimmed from texts.
-/

namespace SessionScript.Text

/-- Where membership in the class of white space changes. -/
def whiteSpaceBoundaries : Boundaries :=
  [0x9, 0xe, 0x20, 0x21, 0x85, 0x86, 0xa0, 0xa1, 0x1680, 0x1681, 0x2000, 0x200b, 0x2028, 0x202a,
   0x202f, 0x2030, 0x205f, 0x2060, 0x3000, 0x3001]

/-- Does a character have the property *White_Space*? -/
def isWhiteSpace (c : Char) : Bool := whiteSpaceBoundaries.contains c

/-- Is this one of the blanks that may stand between the tokens of a document? -/
def isBlank (c : Char) : Bool := c = ' ' || c = '\n' || c = '\t' || c = '\r'

/-- The text without the white space at its start. -/
def trimStart (cs : List Char) : List Char := cs.dropWhile isWhiteSpace

/-- The text without the white space at its two ends. -/
def trim (cs : List Char) : List Char := (trimStart (trimStart cs).reverse).reverse

end SessionScript.Text
