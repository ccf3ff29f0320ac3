import SessionScript.Json.Shape

/-!
# What an event carries

The payload of an event is a viewport size, a point, a number or a text, and its form alone tells
which. An object with a width and a height is a size, even when it has coordinates too.
-/

namespace SessionScript

/-- The payload of an event. -/
inductive Payload where
  /-- A viewport size. -/
  | size (width height : UInt32)
  /-- The coordinates of the pointer. -/
  | point (x y : Json.Number)
  /-- A number, such as the id of a tab. -/
  | number (n : Json.Number)
  /-- Typed text, the value of a choice, or a selector. -/
  | text (s : String)
  deriving DecidableEq

/-- The value of a decimal text with an optional sign, within the signed 64-bit numbers. -/
def readInt64? (cs : List Char) : Option Int :=
  let digits (cs : List Char) : Option Nat :=
    if cs.isEmpty || !cs.all Char.isDigit then none
    else some (cs.foldl (fun n c => 10 * n + Json.digitValue c) 0)
  let inRange (n : Int) : Option Int := if Json.isSigned64 n then some n else none
  match cs with
  | '-' :: rest => (digits rest).bind fun n => inRange (-(n : Int))
  | '+' :: rest => (digits rest).bind fun n => inRange n
  | cs => (digits cs).bind fun n => inRange n

namespace Payload

/-- The text, if the payload is a text. -/
def text? : Payload → Option String
  | .text s => some s
  | _ => none

/-- The payload as it is typed; sizes and points have no such form and give the empty text. -/
def typed : Payload → String
  | .text s => s
  | .number n => n.text
  | .size .. => ""
  | .point .. => ""

/-- The id of a tab: a signed 64-bit whole number, or a text that is one between white space. -/
def tabId? : Payload → Option Int
  | .number (.whole n) => if Json.isSigned64 n.val then some n.val else none
  | .text s => readInt64? (Text.trim s.toList)
  | _ => none

/-- Width and height, if the payload is a size. -/
def size? : Payload → Option (UInt32 × UInt32)
  | .size width height => some (width, height)
  | _ => none

/-- The coordinates, if the payload is a point. -/
def point? : Payload → Option (Json.Number × Json.Number)
  | .point x y => some (x, y)
  | _ => none

/-- The document of a payload. -/
def toJson : Payload → Json
  | .size width height =>
    .obj [("width", Json.ofUInt32 width), ("height", Json.ofUInt32 height)]
  | .point x y => .obj [("x", .num x), ("y", .num y)]
  | .number n => .num n
  | .text s => .str s

open Json (Shape Field Decoder)

/-- The form of a size. -/
def sizeShape : Shape (UInt32 × UInt32) where
  title := "size"
  blank := (0, 0)
  fields :=
    [ .needed "width" Decoder.uint32 fun width size => (width, size.2),
      .needed "height" Decoder.uint32 fun height size => (size.1, height) ]

/-- The form of a point. -/
def pointShape : Shape (Json.Number × Json.Number) where
  title := "point"
  blank := (.float ⟨0⟩, .float ⟨0⟩)
  fields :=
    [ .needed "x" Decoder.number fun x point => (x, point.2),
      .needed "y" Decoder.number fun y point => (point.1, y) ]

/-- Decode a payload by its form: a size if it can be one, else a point, a number or a text. -/
def ofJson (v : Json) : Except Json.Cause Payload :=
  match v with
  | .obj _ =>
    match sizeShape.ofJson v, pointShape.ofJson v with
    | .ok (width, height), _ => .ok (.size width height)
    | .error _, .ok (x, y) => .ok (.point x y)
    | .error _, .error _ => .error (.noShape "EventValue")
  | .num n => .ok (.number n)
  | .str s => .ok (.text s)
  | _ => .error (.noShape "EventValue")

/-- The decoder of payloads, which reads the whole value before it looks at its form. -/
def decoder : Decoder Payload := Decoder.buffered ofJson

end Payload

end SessionScript
