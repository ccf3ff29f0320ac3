import SessionScript.Json.Number

/-!
# JSON documents

Objects keep their members in document order, repeated keys included, because the order and the
repetition are what a decoder may have to complain about. `canonical` gives the reading in which an
object is a map: keys in code point order, the last of several members with one key winning.
-/

namespace SessionScript

/-- A JSON document. -/
inductive Json where
  /-- The literal `null`. -/
  | null
  /-- A truth value. -/
  | bool (b : Bool)
  /-- A number. -/
  | num (n : Json.Number)
  /-- A string. -/
  | str (s : String)
  /-- An array. -/
  | arr (items : List Json)
  /-- An object, its members in document order. -/
  | obj (members : List (String × Json))

namespace Json

/-- The document of a natural number; one that is out of range is written as a float. -/
def ofNat (n : Nat) : Json :=
  .num <| match Whole.ofInt? n with
    | some w => .whole w
    | none => .float (Binary64.ofNat n)

/-- The document of an unsigned 64-bit number. -/
def ofUInt64 (n : UInt64) : Json := .num (.whole (Whole.ofUInt64 n))

/-- The document of an unsigned 32-bit number. -/
def ofUInt32 (n : UInt32) : Json := .num (.whole (Whole.ofUInt32 n))

/-- Enter a member into members sorted by key, replacing one with the same key. -/
def putMember (key : String) (value : Json) : List (String × Json) → List (String × Json)
  | [] => [(key, value)]
  | (k, v) :: rest =>
    if key < k then (key, value) :: (k, v) :: rest
    else if key = k then (key, value) :: rest
    else (k, v) :: putMember key value rest

mutual

/-- Read every object as a map: sort its members by key and let the last of equal keys win. -/
def canonical : Json → Json
  | .arr items => .arr (canonicalItems items)
  | .obj members => .obj (canonicalMembers members [])
  | v => v

/-- `canonical` on each item of an array. -/
def canonicalItems : List Json → List Json
  | [] => []
  | v :: rest => canonical v :: canonicalItems rest

/-- Enter the members of an object into `sorted` one after the other. -/
def canonicalMembers : List (String × Json) → List (String × Json) → List (String × Json)
  | [], sorted => sorted
  | (k, v) :: rest, sorted => canonicalMembers rest (putMember k (canonical v) sorted)

end

/-- A member of an object, left out when its value is absent. -/
def member {α : Type} (key : String) (toJson : α → Json) (value : Option α) :
    List (String × Json) :=
  (value.map fun a => (key, toJson a)).toList

/-- The value of the first member with a key, in an object. -/
def get? (key : String) : Json → Option Json
  | .obj members => (members.find? (·.1 = key)).map (·.2)
  | _ => none

end Json

end SessionScript
