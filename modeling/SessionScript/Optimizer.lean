import SessionScript.Event.Basic
import SessionScript.Keyboard

/-!
# Shrinking a session

Three passes over the events of a session merge or drop neighbours and never reorder. Runs of
typing in one element become one fill, of repeated waits for a navigation the first remains, and so
does of repeated strokes of a held modifier key. Each pass compares an event with the last one it
has kept, so a pass is a fold whose state is its output, newest event first.
-/

namespace SessionScript.Optimizer

/-- The kind of the key of an event. -/
def keyKind (e : Event) : KeyKind := .of e.key e.keyCode

/-- Typing is a keystroke, or a change of anything but a drop-down list, that may be merged. -/
def isTyping (e : Event) : Bool :=
  match e.action with
  | .keydown => (keyKind e).isMergeable
  | .change => !e.isSelect && (keyKind e).isMergeable
  | _ => false

/-- Do two events have the same frame, address, selector and tag? -/
def sameTarget (a b : Event) : Bool :=
  a.frameId = b.frameId && a.href = b.href && a.selector = b.selector && a.tagName = b.tagName

/-- The text of the element after a typing event: the recorded value, and the character of the key
that has not reached it yet. -/
def typedText (e : Event) : String :=
  e.typedValue ++ (if keyKind e = .printable then e.key.getD "" else "")

/-- The same event as an assignment of a text. -/
def asFill (e : Event) (text : String) : Event :=
  { e with action := .fill, value := some (.text text) }

/-- One step of `squash`: typing overwrites the fill before it when that has the same target, and
otherwise starts a fill. -/
def squashStep (kept : List Event) (e : Event) : List Event :=
  if isTyping e then
    match kept with
    | last :: rest =>
      if last.action = .fill && sameTarget last e then
        { last with value := some (.text (typedText e)) } :: rest
      else asFill e (typedText e) :: last :: rest
    | [] => [asFill e (typedText e)]
  else e :: kept

/-- Take runs of typing in one element together into fills. -/
def squash (events : List Event) : List Event := (events.foldl squashStep []).reverse

/-- One step of dropping an event that repeats the last one kept. -/
def dropStep (repeats : Event → Event → Bool) (kept : List Event) (e : Event) : List Event :=
  match kept with
  | last :: _ => if repeats last e then kept else e :: kept
  | [] => [e]

/-- Of neighbours that repeat each other keep the first. -/
def dropRepeats (repeats : Event → Event → Bool) (events : List Event) : List Event :=
  (events.foldl (dropStep repeats) []).reverse

/-- Are both events waits for a navigation? -/
def repeatsNavigation (last e : Event) : Bool :=
  e.action = .navigation && last.action = .navigation

/-- Are both events strokes of one modifier key in one frame? -/
def repeatsModifier (last e : Event) : Bool :=
  e.action = .keydown && last.action = .keydown && e.key = last.key
    && e.key.any Keyboard.isModifier && e.frameId = last.frameId

/-- Keep the first of neighbouring waits for a navigation. -/
def dropNavigations (events : List Event) : List Event := dropRepeats repeatsNavigation events

/-- Keep the first of neighbouring strokes of a held modifier key. -/
def dropModifiers (events : List Event) : List Event := dropRepeats repeatsModifier events

/-- All three passes, one after the other. -/
def optimize (events : List Event) : List Event := dropModifiers (dropNavigations (squash events))

end SessionScript.Optimizer
