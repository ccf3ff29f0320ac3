import SessionScript.Mismatch
import SessionScript.Json.Number
import SessionScript.Text.Bytes

/-!
# Why a document was refused

A refusal has a cause and, when the document is read as text, a place. Most causes know their
place: the bytes that are left unread there. A few do not, such as a missing field; they float with
the unread text until the record they belong to has been closed.
-/

namespace SessionScript.Json

/-- What was wrong with a document. -/
inductive Cause where
  /-- The text ended where a value was due. -/
  | endInValue
  /-- The text ended inside an object. -/
  | endInObject
  /-- The text ended inside an array. -/
  | endInArray
  /-- The text ended inside a string. -/
  | endInString
  /-- No value starts like this. -/
  | expectedValue
  /-- A word other than `null`, `true` and `false`. -/
  | expectedWord
  /-- A key is not followed by a colon. -/
  | expectedColon
  /-- A member is followed by neither a comma nor a closing brace. -/
  | expectedCommaOrBrace
  /-- An item is followed by neither a comma nor a closing bracket. -/
  | expectedCommaOrBracket
  /-- A key does not start with a quote. -/
  | keyNotString
  /-- A comma stands before the closing bracket. -/
  | trailingComma
  /-- Something follows where the value should have ended. -/
  | trailingCharacters
  /-- The digits do not form a number. -/
  | invalidNumber
  /-- The number is too large. -/
  | numberOutOfRange
  /-- A backslash is followed by something else than an escape. -/
  | invalidEscape
  /-- Half of a surrogate pair stands alone. -/
  | loneSurrogate
  /-- The first half of a surrogate pair is not followed by an escape. -/
  | unfinishedSurrogate
  /-- A control character stands unescaped in a string. -/
  | controlCharacter
  /-- Brackets are nested too deeply. -/
  | tooDeep
  /-- A value of the wrong kind. -/
  | wrongKind (found : Found) (expected : String)
  /-- A value of the right kind that is out of range. -/
  | wrongValue (found : Found) (expected : String)
  /-- An array of the wrong length. -/
  | wrongLength (length : Nat) (expected : String)
  /-- A required field is absent. -/
  | missingField (key : String)
  /-- A field is given twice. -/
  | duplicateField (key : String)
  /-- A word that is none of a fixed list of words. -/
  | unknownVariant (found : String) (known : List String)
  /-- A value that fits none of the shapes of a type. -/
  | noShape (type : String)
  /-- A string that is refused for a reason of its own. -/
  | rejected (reason : String)

/-- A word between backquotes. -/
def backquoted (s : String) : String := "`" ++ s ++ "`"

/-- The words for a cause. -/
def Cause.message : Cause → String
  | .endInValue => "EOF while parsing a value"
  | .endInObject => "EOF while parsing an object"
  | .endInArray => "EOF while parsing a list"
  | .endInString => "EOF while parsing a string"
  | .expectedValue => "expected value"
  | .expectedWord => "expected ident"
  | .expectedColon => "expected `:`"
  | .expectedCommaOrBrace => "expected `,` or `\x7d`"
  | .expectedCommaOrBracket => "expected `,` or `]`"
  | .keyNotString => "key must be a string"
  | .trailingComma => "trailing comma"
  | .trailingCharacters => "trailing characters"
  | .invalidNumber => "invalid number"
  | .numberOutOfRange => "number out of range"
  | .invalidEscape => "invalid escape"
  | .loneSurrogate => "lone leading surrogate in hex escape"
  | .unfinishedSurrogate => "unexpected end of hex escape"
  | .controlCharacter =>
    "control character (\\u0000-\\u001F) found while parsing a string"
  | .tooDeep => "recursion limit exceeded"
  | .wrongKind found expected =>
    "invalid type: " ++ found.describe floatLayout ++ ", expected " ++ expected
  | .wrongValue found expected =>
    "invalid value: " ++ found.describe floatLayout ++ ", expected " ++ expected
  | .wrongLength length expected =>
    "invalid length " ++ toString length ++ ", expected " ++ expected
  | .missingField key => "missing field " ++ backquoted key
  | .duplicateField key => "duplicate field " ++ backquoted key
  | .unknownVariant found known =>
    "unknown variant " ++ backquoted found ++ ", expected one of "
      ++ ", ".intercalate (known.map backquoted)
  | .noShape type => "data did not match any variant of untagged enum " ++ type
  | .rejected reason => reason

/-- A cause together with the place in the text, as far as it is known. -/
inductive Refusal where
  /-- The place is known: so many bytes are left unread there. -/
  | placed (cause : Cause) (left : Nat)
  /-- The place is that where the enclosing record ends; the text is still unread from here on. -/
  | floating (cause : Cause) (rest : List Char)

namespace Refusal

/-- A refusal in front of the unread text. -/
def here (cause : Cause) (rest : List Char) : Refusal := .placed cause (Text.byteCount rest)

/-- A refusal that has looked at the next `bytes` bytes of the unread text. -/
def past (cause : Cause) (bytes : Nat) (rest : List Char) : Refusal :=
  .placed cause (Text.byteCount rest - bytes)

/-- A refusal because of the next byte. -/
def seen (cause : Cause) (rest : List Char) : Refusal := past cause 1 rest

/-- A refusal at the end of the text. -/
def atEnd (cause : Cause) : Refusal := .placed cause 0

/-- The cause alone. -/
def cause : Refusal → Cause
  | .placed cause _ => cause
  | .floating cause _ => cause

/-- The words for a refusal of `text`, with line and column where the place is known. -/
def message (text : List Char) : Refusal → String
  | .placed cause left =>
    let place := Text.Place.of text (Text.byteCount text - left)
    cause.message ++ " at line " ++ toString place.line ++ " column " ++ toString place.column
  | .floating cause _ => cause.message

end Refusal

end SessionScript.Json
