import SessionScript.Event.Action
import SessionScript.Event.Payload
import SessionScript.Json.Printer

/-!
# Events of a recorded session

An event is one interaction: an action together with what was recorded about it. All fields but the
action may be absent, and absent fields are left out when the event is written.
-/

namespace SessionScript

/-- One recorded interaction. -/
structure Event where
  /-- What happened. -/
  action : Action
  /-- The element it happened to. -/
  selector : Option String := none
  /-- What it carries. -/
  value : Option Payload := none
  /-- The address of a link or of a page. -/
  href : Option String := none
  /-- The name of a key. -/
  key : Option String := none
  /-- The code of a key. -/
  keyCode : Option UInt32 := none
  /-- The tag of the element. -/
  tagName : Option String := none
  /-- The frame it happened in; absent and zero both mean the page itself. -/
  frameId : Option UInt64 := none
  /-- The address of that frame. -/
  frameUrl : Option String := none
  deriving DecidableEq

namespace Event

/-- The frame of an event, the page itself being zero. -/
def frame (e : Event) : UInt64 := e.frameId.getD 0

/-- Did the event happen to a drop-down list? -/
def isSelect (e : Event) : Bool := e.tagName = some "SELECT"

/-- The selector, empty when absent. -/
def target (e : Event) : String := e.selector.getD ""

/-- The payload as it is typed, empty when absent. -/
def typedValue (e : Event) : String := (e.value.map Payload.typed).getD ""

/-- The id of the tab that the event is about. -/
def tabId? (e : Event) : Option Int := e.value.bind Payload.tabId?

/-- Record the element. -/
def withSelector (e : Event) (selector : String) : Event := { e with selector := some selector }

/-- Record what the event carries. -/
def withValue (e : Event) (value : Payload) : Event := { e with value := some value }

/-- Record an address. -/
def withHref (e : Event) (href : String) : Event := { e with href := some href }

/-- Record the name of the key. -/
def withKey (e : Event) (key : String) : Event := { e with key := some key }

/-- Record the code of the key. -/
def withKeyCode (e : Event) (code : UInt32) : Event := { e with keyCode := some code }

/-- Record the tag of the element. -/
def withTagName (e : Event) (tagName : String) : Event := { e with tagName := some tagName }

/-- Record the frame and its address. -/
def withFrame (e : Event) (id : UInt64) (url : String) : Event :=
  { e with frameId := some id, frameUrl := some url }

/-- The document of an event. -/
def toJson (e : Event) : Json :=
  .obj (("action", .str e.action.tag) ::
    (Json.member "selector" .str e.selector
      ++ Json.member "value" Payload.toJson e.value
      ++ Json.member "href" .str e.href
      ++ Json.member "key" .str e.key
      ++ Json.member "keyCode" Json.ofUInt32 e.keyCode
      ++ Json.member "tagName" .str e.tagName
      ++ Json.member "frameId" Json.ofUInt64 e.frameId
      ++ Json.member "frameUrl" .str e.frameUrl))

open Json (Shape Field Decoder)

/-- The form of an event. -/
def shape : Shape Event where
  title := "struct Event"
  blank := { action := .other "" }
  fields :=
    [ .needed "action" Decoder.string fun tag e => { e with action := Action.ofTag tag },
      .optional "selector" Decoder.string.option fun v e => { e with selector := v },
      .optional "value" Payload.decoder.option fun v e => { e with value := v },
      .optional "href" Decoder.string.option fun v e => { e with href := v },
      .optional "key" Decoder.string.option fun v e => { e with key := v },
      .optional "keyCode" Decoder.uint32.option fun v e => { e with keyCode := v },
      .optional "tagName" Decoder.string.option fun v e => { e with tagName := v },
      .optional "frameId" Decoder.uint64.option fun v e => { e with frameId := v },
      .optional "frameUrl" Decoder.string.option fun v e => { e with frameUrl := v } ]

/-- The decoder of events. -/
def decoder : Decoder Event := shape.decoder

/-- The decoder of lists of events. -/
def listDecoder : Decoder (List Event) := decoder.list

/-- Decode an event from a document. -/
def ofJson (v : Json) : Except Json.Cause Event := decoder.ofJson v

/-- Decode a text that is one event. -/
def parse (text : String) : Except Json.Refusal Event := decoder.decodeText text

/-- The text of an event, without any space. -/
def text (e : Event) : String := e.toJson.compact

end Event

end SessionScript
