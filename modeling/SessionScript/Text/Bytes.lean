/-!
# Counting bytes

Positions in a document count the bytes of its UTF-8 form, while the documents themselves are read
character by character.
-/

namespace SessionScript.Text

/-- How many bytes the UTF-8 form of a text has. -/
def byteCount (cs : List Char) : Nat := cs.foldl (fun n c => n + c.utf8Size) 0

/-- The text after its first `n` bytes. A character that is only partly passed is left out. -/
def dropBytes : (n : Nat) → List Char → List Char
  | 0, cs => cs
  | _, [] => []
  | n + 1, c :: cs => dropBytes (n + 1 - c.utf8Size) cs

/-- The first `n` bytes of a text. A character that is only partly passed is kept. -/
def takeBytes : (n : Nat) → List Char → List Char
  | 0, _ => []
  | _, [] => []
  | n + 1, c :: cs => c :: takeBytes (n + 1 - c.utf8Size) cs

/-- A place in a text. -/
structure Place where
  /-- The line, counted from one. -/
  line : Nat
  /-- How many bytes of the line come before the place. -/
  column : Nat
  deriving DecidableEq

/-- The place reached from `start` after the first `bytes` bytes of a text. Bytes of a character
that is only partly passed count. -/
def Place.advance (start : Place) : List Char → (bytes : Nat) → Place
  | [], _ => start
  | c :: cs, bytes =>
    if bytes = 0 then start
    else if c = '\n' then advance ⟨start.line + 1, 0⟩ cs (bytes - 1)
    else advance ⟨start.line, start.column + min c.utf8Size bytes⟩ cs (bytes - c.utf8Size)

/-- The place after the first `bytes` bytes of a text. -/
def Place.of (cs : List Char) (bytes : Nat) : Place := Place.advance ⟨1, 0⟩ cs bytes

end SessionScript.Text
