import SessionScript.Recording
import SessionScript.Text.Utf8

/-!
# The text of a stored recording

A stored recording is a file of lines. The first line is a header with the name, the time and the
number of events; each further line is one event. The number is not relied on when the file is read,
and empty lines are passed over.
-/

namespace SessionScript.Store

open Json (Shape Decoder)

/-- The first line of a stored recording. -/
structure Header where
  /-- The name of the recording. -/
  name : String
  /-- When it was recorded. -/
  recordedAt : Option Instant
  /-- How many events were written. -/
  events : UInt64
  deriving DecidableEq

namespace Header

/-- The document of a header. -/
def toJson (h : Header) : Json :=
  .obj
    [ ("name", .str h.name),
      ("recordedAt", match h.recordedAt with
        | some t => .str t.text
        | none => .null),
      ("events", Json.ofUInt64 h.events) ]

/-- The form of a header. -/
def shape : Shape Header where
  title := "struct Header"
  blank := ⟨"", none, 0⟩
  fields :=
    [ .needed "name" Decoder.string fun v h => { h with name := v },
      .optional "recordedAt" Instant.decoder.option fun v h => { h with recordedAt := v },
      .needed "events" Decoder.count fun v h => { h with events := v } ]

/-- Decode a text that is one header. -/
def parse (text : String) : Except Json.Refusal Header := shape.decoder.decodeText text

end Header

/-- The header of a recording that is stored at an instant. -/
def headerOf (now : Instant) (r : Recording) : Header :=
  ⟨r.name, r.recordedAt.or (some now), r.events.length.toUInt64⟩

/-- The text of a recording that is stored at an instant. -/
def recordingText (now : Instant) (r : Recording) : String :=
  String.join (((headerOf now r).toJson.compact :: r.events.map Event.text).map (· ++ "\n"))

/-- Why a file is not a stored recording. -/
inductive LineError where
  /-- There is no header. -/
  | empty
  /-- A line is not a text. -/
  | notText
  /-- The header was refused. -/
  | header (text : String) (refusal : Json.Refusal)
  /-- The event on a line, counted from one, was refused. -/
  | event (line : Nat) (text : String) (refusal : Json.Refusal)

/-- Read the events on lines; the first of them has the given number. -/
def readEvents (number : Nat) : List Text.Bytes → Except LineError (List Event)
  | [] => .ok []
  | line :: rest =>
    match Text.decode? line with
    | none => .error .notText
    | some text =>
      if text.isEmpty then readEvents (number + 1) rest
      else
        match Event.parse text with
        | .error refusal => .error (.event number text refusal)
        | .ok e => do
          let events ← readEvents (number + 1) rest
          return e :: events

/-- Read a stored recording from the bytes of its file. -/
def readRecordingBytes (bytes : Text.Bytes) : Except LineError Recording :=
  match Text.lines bytes with
  | [] => .error .empty
  | first :: rest =>
    match Text.decode? first with
    | none => .error .notText
    | some text =>
      match Header.parse text with
      | .error refusal => .error (.header text refusal)
      | .ok h => do
        let events ← readEvents 2 rest
        return { name := h.name, recordedAt := h.recordedAt, events }

end SessionScript.Store
