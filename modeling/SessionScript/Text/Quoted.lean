import SessionScript.Text.Unprintable

/-!
# Quoted text in messages

Messages and log lines show a text between double quotes. Quotes, backslashes and the common control
characters are escaped by a letter, other characters that cannot be shown by their number in braces.
-/

namespace SessionScript.Text

/-- How one character is shown between double quotes. -/
def showChar (c : Char) : List Char :=
  if c = '\x00' then ['\\', '0']
  else if c = '\t' then ['\\', 't']
  else if c = '\r' then ['\\', 'r']
  else if c = '\n' then ['\\', 'n']
  else if c = '"' then ['\\', '"']
  else if c = '\\' then ['\\', '\\']
  else if isUnprintable c then '\\' :: 'u' :: '\x7b' :: (Nat.toDigits 16 c.toNat ++ ['\x7d'])
  else [c]

/-- A text between double quotes, with what cannot be shown escaped. -/
def quoted (s : String) : String :=
  String.ofList ('"' :: (s.toList.flatMap showChar ++ ['"']))

end SessionScript.Text
