/-!
# Keys

A key is recorded by its name, and in older recordings only by its code. Names of one character
stand for that character; while characters are being composed, every key is called `Process` and
has the code 229.
-/

namespace SessionScript

/-- What a key does to the text of a field. -/
inductive KeyKind where
  /-- No key was recorded, or only the code of a character. -/
  | unrecorded
  /-- The key stands for one character. -/
  | printable
  /-- A character is being composed. -/
  | composing
  /-- Any other key: enter, arrows, modifiers, function keys. -/
  | other
  deriving DecidableEq

namespace Keyboard

/-- Does the name stand for a single character? -/
def isPrintable (key : String) : Bool := key.length = 1

/-- Is this the name of a key while characters are being composed? -/
def isComposing (key : String) : Bool := key = "Process"

/-- The keys that change the meaning of others. -/
def modifiers : List String :=
  ["Alt", "AltGraph", "CapsLock", "Control", "Fn", "FnLock", "Hyper", "Meta", "NumLock",
   "ScrollLock", "Shift", "Super", "Symbol", "SymbolLock"]

/-- Does the key change the meaning of others? -/
def isModifier (key : String) : Bool := modifiers.contains key

/-- The code of every key while characters are being composed. -/
def composingCode : UInt32 := 229

/-- Is this the code of a key that never gives text? These are backspace, tab, clear and enter;
shift to caps lock; escape; page up to the arrows; print screen, insert and delete; the meta and
menu keys; F1 to F24; num lock and scroll lock. -/
def isControlCode (code : UInt32) : Bool :=
  code = 8 || code = 9 || code = 12 || code = 13 || (16 ≤ code && code ≤ 20) || code = 27
    || (33 ≤ code && code ≤ 40) || (44 ≤ code && code ≤ 46) || (91 ≤ code && code ≤ 93)
    || (112 ≤ code && code ≤ 135) || code = 144 || code = 145

/-- The codes of control keys that have a name. -/
def codeNames : List (UInt32 × String) :=
  [(8, "Backspace"), (9, "Tab"), (13, "Enter"), (16, "Shift"), (17, "Control"), (18, "Alt"),
   (27, "Escape"), (33, "PageUp"), (34, "PageDown"), (35, "End"), (36, "Home"),
   (37, "ArrowLeft"), (38, "ArrowUp"), (39, "ArrowRight"), (40, "ArrowDown"), (45, "Insert"),
   (46, "Delete"), (91, "Meta"), (112, "F1"), (113, "F2"), (114, "F3"), (115, "F4"), (116, "F5"),
   (117, "F6"), (118, "F7"), (119, "F8"), (120, "F9"), (121, "F10"), (122, "F11"), (123, "F12")]

/-- The name of the control key with a code. -/
def codeName? (code : UInt32) : Option String := codeNames.lookup code

end Keyboard

namespace KeyKind

open Keyboard

/-- The kind of a key by its name alone. -/
def ofKey : Option String → KeyKind
  | none => .unrecorded
  | some key =>
    if isComposing key then .composing
    else if isPrintable key then .printable
    else .other

/-- The kind of a key by its name, or by its code when it has none. A code alone never stands for a
character, because the text is then in the recorded value. -/
def of (key : Option String) (code : Option UInt32) : KeyKind :=
  match key, code with
  | some key, _ => ofKey (some key)
  | none, none => .unrecorded
  | none, some code =>
    if code = composingCode then .composing
    else if isControlCode code then .other
    else .unrecorded

/-- May a keystroke of this kind be taken together with others into one assignment? -/
def isMergeable : KeyKind → Bool
  | .other => false
  | _ => true

end KeyKind

end SessionScript
