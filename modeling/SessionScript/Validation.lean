import SessionScript.Event.Basic
import SessionScript.Fault

/-!
# Strict validation

Generation passes over events with an unknown action. Strict validation refuses them instead, and
lists each with its position.
-/

namespace SessionScript

/-- The events with an unknown action: position and tag, in order. -/
def unknownActions (events : List Event) : List (Nat × String) :=
  events.zipIdx.filterMap fun (e, index) =>
    if e.action.isKnown then none else some (index, e.action.tag)

/-- The document of an event with an unknown action. -/
def unknownActionJson (entry : Nat × String) : Json :=
  .obj [("index", Json.ofNat entry.1), ("action", .str entry.2)]

/-- What might help against unknown actions. -/
def unknownActionHints : List String :=
  ["Re-record with a current version of the extension",
   "Run without --strict to skip these events"]

/-- Refuse events whose action is not known. -/
def validate (events : List Event) : Except Fault Unit :=
  match unknownActions events with
  | [] => .ok ()
  | unknown =>
    .error <| ((Fault.unknownActions unknown.length).withSuggestions unknownActionHints).withContext
      (.obj [("events", .arr (unknown.map unknownActionJson))])

end SessionScript
