import SessionScript.Json.Printer
import SessionScript.Json.Shape

/-!
# Faults

A fault tells a person and a program why recordings or options were not accepted: a code, a
message, and where they help suggestions and a context. It has a document of its own, from which it
can be read back.
-/

namespace SessionScript

open Json (Shape Decoder)

/-- The kinds of fault. -/
inductive FaultCode where
  /-- A recording cannot be read. -/
  | invalidRecording
  /-- Options cannot be read. -/
  | invalidOptions
  /-- An action is not known. -/
  | unknownAction
  /-- A file cannot be used. -/
  | io
  /-- Anything else. -/
  | unknown
  deriving DecidableEq

namespace FaultCode

/-- The code in documents. -/
def tag : FaultCode → String
  | .invalidRecording => "INVALID_RECORDING"
  | .invalidOptions => "INVALID_OPTIONS"
  | .unknownAction => "UNKNOWN_ACTION"
  | .io => "IO"
  | .unknown => "UNKNOWN"

/-- The code in messages. -/
def title : FaultCode → String
  | .invalidRecording => "InvalidRecording"
  | .invalidOptions => "InvalidOptions"
  | .unknownAction => "UnknownAction"
  | .io => "Io"
  | .unknown => "Unknown"

/-- All codes. -/
def all : List FaultCode := [.invalidRecording, .invalidOptions, .unknownAction, .io, .unknown]

/-- The decoder of codes. -/
def decoder : Decoder FaultCode := Decoder.word (all.map fun code => (code.tag, code))

end FaultCode

/-- A fault. -/
structure Fault where
  /-- The kind of fault. -/
  code : FaultCode
  /-- What went wrong. -/
  message : String
  /-- What might help. -/
  suggestions : List String := []
  /-- Data about the fault. -/
  context : Option Json := none

namespace Fault

/-- A recording cannot be read, for a reason. -/
def invalidRecording (reason : String) : Fault :=
  { code := .invalidRecording, message := "Invalid recording: " ++ reason }

/-- Options cannot be read, for a reason. -/
def invalidOptions (reason : String) : Fault :=
  { code := .invalidOptions, message := "Invalid options: " ++ reason }

/-- So many events have an action that is not known. -/
def unknownActions (count : Nat) : Fault :=
  { code := .unknownAction,
    message := toString count ++ " event(s) carry an action no generator handles" }

/-- A file cannot be used, for a reason. -/
def io (reason : String) : Fault := { code := .io, message := reason }

/-- Add suggestions. -/
def withSuggestions (f : Fault) (suggestions : List String) : Fault :=
  { f with suggestions }

/-- Add a context, whose objects are maps. -/
def withContext (f : Fault) (context : Json) : Fault := { f with context := some context.canonical }

/-- The fault in one line. -/
def display (f : Fault) : String := "[" ++ f.code.title ++ "] " ++ f.message

/-- The document of a fault. -/
def toJson (f : Fault) : Json :=
  .obj (("code", .str f.code.tag) :: ("message", .str f.message) ::
    ((if f.suggestions.isEmpty then [] else [("suggestions", .arr (f.suggestions.map .str))])
      ++ Json.member "context" id f.context))

/-- The form of a fault. -/
def shape : Shape Fault where
  title := "struct Error"
  blank := { code := .unknown, message := "" }
  fields :=
    [ .needed "code" FaultCode.decoder fun v f => { f with code := v },
      .needed "message" Decoder.string fun v f => { f with message := v },
      .optional "suggestions" Decoder.string.list fun v f => { f with suggestions := v },
      .optional "context" Decoder.any.option fun v f => { f with context := v } ]

/-- Decode a text that is one fault. -/
def parse (text : String) : Except Json.Refusal Fault := shape.decoder.decodeText text

/-- The text of a fault, without any space. -/
def text (f : Fault) : String := f.toJson.compact

end Fault

end SessionScript
