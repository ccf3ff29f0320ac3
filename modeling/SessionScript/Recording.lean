import SessionScript.Event.Basic
import SessionScript.Instant.Reader

/-!
# Recordings

A recording is a name, the time it was made, and the events in order. A document holds either a
named recording or only its events, which then go by the name that the reader supplies.
-/

namespace SessionScript

open Json (Shape Decoder)

/-- The decoder of instants, which are strings in documents. -/
def Instant.decoder : Decoder Instant :=
  (Decoder.text "an RFC 3339 formatted date and time string").refine fun s =>
    match Instant.parse s with
    | .ok t => .ok t
    | .error defect => .error (.rejected defect.message)

/-- A recorded session. -/
structure Recording where
  /-- What the session is called. -/
  name : String := ""
  /-- When it was recorded. -/
  recordedAt : Option Instant := none
  /-- What happened, in order. -/
  events : List Event := []
  deriving DecidableEq

namespace Recording

/-- The document of a recording. -/
def toJson (r : Recording) : Json :=
  .obj (("name", .str r.name) ::
    (Json.member "recordedAt" (fun t => .str (Instant.text t)) r.recordedAt
      ++ [("events", .arr (r.events.map Event.toJson))]))

/-- The form of a recording. -/
def shape : Shape Recording where
  title := "struct Recording"
  blank := {}
  fields :=
    [ .optional "name" Decoder.string fun v r => { r with name := v },
      .optional "recordedAt" Instant.decoder.option fun v r => { r with recordedAt := v },
      .optional "events" Event.listDecoder fun v r => { r with events := v } ]

/-- Decode a recording from a document. -/
def ofJson (v : Json) : Except Json.Cause Recording := shape.ofJson v

/-- Decode a document that holds a list of events or a named recording; `fallback` is the name of a
recording that has none. -/
def ofDocument (fallback : String) (v : Json) : Except Json.Cause Recording :=
  match Event.listDecoder.ofJson v, shape.ofJson v with
  | .ok events, _ => .ok { name := fallback, events }
  | .error _, .ok r => .ok (if r.name.isEmpty then { r with name := fallback } else r)
  | .error _, .error _ => .error (.noShape "RecordingFile")

/-- Read a recording from a text. The whole document is read before its form is looked at, so a
fault of form in the text is reported first. -/
def parse (fallback text : String) : Except Json.Refusal Recording :=
  (Decoder.buffered (ofDocument fallback)).decodeText text

end Recording

end SessionScript
