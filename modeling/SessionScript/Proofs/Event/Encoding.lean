import SessionScript.Event.Basic
import SessionScript.Proofs.Json.Presentation
import SessionScript.Proofs.Json.Printing

/-!
# Events and their documents

An event whose action has been named by a tag is decoded from its own document, and from the text of
that document. The tags that are aliases are not written, so it is the action that comes back and
not the tag. All events that are decoded at all have such actions.

Other documents present the event as well as its own: objects with the values of its fields in any
order, among other members, and arrays of these values. The order cannot matter since each field is
entered on its own. An event with some of its fields only is what there is of it while a document is
being decoded, and a field brings it from one set of keys to the next.
-/

namespace SessionScript

open Json (Decoder Shape Fills Legible Presents fills_present orNull trims_member trims_needed
  writes_needed writes_optional)

section Actions

/-- Some tag names the action. None names an unknown action that goes by the tag of a known one. -/
def Action.IsTagged (a : Action) : Prop := ∃ tag, a = Action.ofTag tag

/-- The tag that is written for an action that a tag names is read as that action. -/
theorem Action.ofTag_tag {a : Action} (h : a.IsTagged) : Action.ofTag a.tag = a := by
  obtain ⟨tag, rfl⟩ := h
  fun_cases Action.ofTag tag
  case case18 => simp_all [Action.tag, Action.ofTag]
  all_goals decide

end Actions

section Numbers

/-- A number below the limit is read as itself. -/
theorem Json.natural_ofJson {limit n : Nat} (name : String) {w : Json.Whole} (hw : w.val = n)
    (hn : n < limit) : (Decoder.natural limit name).ofJson (.num (.whole w)) = .ok n := by
  have hrange : 0 ≤ w.val ∧ w.val < limit := by omega
  have hvalue : w.val.toNat = n := by omega
  simp only [Decoder.natural, Decoder.naturalBelow, if_pos hrange, hvalue]

/-- The document of a 32-bit number is decoded as the number. -/
theorem Json.uint32_ofJson (n : UInt32) : Decoder.uint32.ofJson (Json.ofUInt32 n) = .ok n := by
  have hnat := Json.natural_ofJson (w := Json.Whole.ofUInt32 n) "u32" rfl n.toNat_lt_size
  simp only [Decoder.uint32, Decoder.map, Json.ofUInt32, hnat]
  exact congrArg Except.ok UInt32.ofNat_toNat

/-- The document of a 64-bit number is decoded as the number, whatever messages call it. -/
theorem Json.uint64_ofJson (name : String) (n : UInt64) :
    ((Decoder.natural UInt64.size name).map Nat.toUInt64).ofJson (Json.ofUInt64 n) = .ok n := by
  have hnat := Json.natural_ofJson (w := Json.Whole.ofUInt64 n) name rfl n.toNat_lt_size
  simp only [Decoder.map, Json.ofUInt64, hnat]
  exact congrArg Except.ok UInt64.ofNat_toNat

end Numbers

section Scalars

/-- Strings come back. -/
theorem Json.string_undoes : Decoder.string.Undoes .str := fun _ => ⟨nofun, rfl⟩

/-- Numbers of 32 bits come back. -/
theorem Json.uint32_undoes : Decoder.uint32.Undoes Json.ofUInt32 :=
  fun n => ⟨nofun, Json.uint32_ofJson n⟩

/-- Numbers of 64 bits come back. -/
theorem Json.uint64_undoes : Decoder.uint64.Undoes Json.ofUInt64 :=
  fun n => ⟨nofun, Json.uint64_ofJson "u64" n⟩

end Scalars

section Payloads

/-- The numbers that occur in a payload, sizes apart. -/
def Payload.numbers : Payload → List Json.Number
  | .size .. => []
  | .point x y => [x, y]
  | .number n => [n]
  | .text _ => []

/-- An object that can be a size is one. -/
theorem Payload.ofJson_size {members : List (String × Json)} {width height : UInt32}
    (h : Payload.sizeShape.ofJson (.obj members) = .ok (width, height)) :
    Payload.ofJson (.obj members) = .ok (.size width height) := by
  simp only [Payload.ofJson, h]

/-- An object that can be a point and no size is a point. -/
theorem Payload.ofJson_point {members : List (String × Json)} {cause : Json.Cause}
    {x y : Json.Number} (hsize : Payload.sizeShape.ofJson (.obj members) = .error cause)
    (h : Payload.pointShape.ofJson (.obj members) = .ok (x, y)) :
    Payload.ofJson (.obj members) = .ok (.point x y) := by
  simp only [Payload.ofJson, hsize, h]

/-- A payload is decoded from its own document. -/
theorem Payload.ofJson_toJson (p : Payload) : Payload.ofJson p.toJson = .ok p := by
  cases p with
  | size width height =>
    have hwidth : Fills Payload.sizeShape [("width", Json.ofUInt32 width)] (0, 0) (width, 0)
        ["width"] ["width"] := fills_present rfl (Json.uint32_ofJson width) rfl
    have hheight : Fills Payload.sizeShape [("height", Json.ofUInt32 height)] (width, 0)
        (width, height) ["height"] ["height"] := fills_present rfl (Json.uint32_ofJson height) rfl
    exact Payload.ofJson_size ((hwidth.append hheight (by decide)).ofJson (by decide))
  | point x y =>
    have hx : Fills Payload.pointShape [("x", .num x)] Payload.pointShape.blank
        (x, Payload.pointShape.blank.2) ["x"] ["x"] := fills_present rfl rfl rfl
    have hy : Fills Payload.pointShape [("y", .num y)] (x, Payload.pointShape.blank.2) (x, y)
        ["y"] ["y"] := fills_present rfl rfl rfl
    have hsize : Payload.sizeShape.ofJson (.obj [("x", .num x), ("y", .num y)]) =
        .error (.missingField "width") := rfl
    exact Payload.ofJson_point hsize ((hx.append hy (by decide)).ofJson (by decide))
  | number n => rfl
  | text s => rfl

/-- Payloads come back. -/
theorem Payload.decoder_undoes : Payload.decoder.Undoes Payload.toJson :=
  fun p => ⟨by cases p <;> exact nofun, Payload.ofJson_toJson p⟩

/-- The document of a payload can be read back from its text. -/
theorem Payload.legible_toJson {p : Payload} (h : ∀ n ∈ p.numbers, n.IsLegible) {depth : Nat}
    (hdepth : 1 < depth) : Legible depth p.toJson := by
  cases p with
  | size width height =>
    refine .obj hdepth ?_
    simp only [List.forall_mem_cons]
    exact ⟨.num trivial, .num trivial, nofun⟩
  | point x y =>
    refine .obj hdepth ?_
    simp only [List.forall_mem_cons]
    exact ⟨.num (h x (by simp [Payload.numbers])), .num (h y (by simp [Payload.numbers])), nofun⟩
  | number n => exact .num (h n (by simp [Payload.numbers]))
  | text s => exact .str

end Payloads

namespace Event

section Presentations

/-- What an event has in its fields, in the order of the array form: the key of each with its value,
which is `null` where the field is absent. -/
def written (e : Event) : List (String × Json) :=
  [("action", .str e.action.tag), ("selector", orNull .str e.selector),
    ("value", orNull Payload.toJson e.value), ("href", orNull .str e.href),
    ("key", orNull .str e.key), ("keyCode", orNull Json.ofUInt32 e.keyCode),
    ("tagName", orNull .str e.tagName), ("frameId", orNull Json.ofUInt64 e.frameId),
    ("frameUrl", orNull .str e.frameUrl)]

/-- The event with the fields of some keys only. -/
def partOf (e : Event) (keys : List String) : Event where
  action := if "action" ∈ keys then e.action else .other ""
  selector := if "selector" ∈ keys then e.selector else none
  value := if "value" ∈ keys then e.value else none
  href := if "href" ∈ keys then e.href else none
  key := if "key" ∈ keys then e.key else none
  keyCode := if "keyCode" ∈ keys then e.keyCode else none
  tagName := if "tagName" ∈ keys then e.tagName else none
  frameId := if "frameId" ∈ keys then e.frameId else none
  frameUrl := if "frameUrl" ∈ keys then e.frameUrl else none

/-- What an event has in its fields enters them, whichever have been entered before. -/
theorem writes_written {e : Event} (h : e.action.IsTagged) : shape.Writes e.partOf e.written where
  blank := by simp [partOf, shape]
  fields := by
    simp only [shape, written, List.forall₂_cons, List.forall₂_nil_left_iff, and_true]
    refine ⟨writes_needed nofun rfl ?_, writes_optional Json.string_undoes ?_,
      writes_optional Payload.decoder_undoes ?_, writes_optional Json.string_undoes ?_,
      writes_optional Json.string_undoes ?_, writes_optional Json.uint32_undoes ?_,
      writes_optional Json.string_undoes ?_, writes_optional Json.uint64_undoes ?_,
      writes_optional Json.string_undoes ?_⟩
    all_goals
      intro keys
      simp [partOf, Action.ofTag_tag h]

/-- Nothing is missing of an event once all fields that it has have been met. -/
theorem partOf_eq_self {e : Event} {keys : List String}
    (h : ∀ m ∈ e.written, m.2 ≠ .null → m.1 ∈ keys) : e.partOf keys = e := by
  simp only [written, List.forall_mem_cons] at h
  obtain ⟨haction, hselector, hvalue, hhref, hkey, hkeyCode, htagName, hframeId, hframeUrl, -⟩ := h
  cases e
  simp only [partOf, if_pos (haction nofun), Json.kept_of_met Json.string_undoes hselector,
    Json.kept_of_met Payload.decoder_undoes hvalue, Json.kept_of_met Json.string_undoes hhref,
    Json.kept_of_met Json.string_undoes hkey, Json.kept_of_met Json.uint32_undoes hkeyCode,
    Json.kept_of_met Json.string_undoes htagName, Json.kept_of_met Json.uint64_undoes hframeId,
    Json.kept_of_met Json.string_undoes hframeUrl]

/-- The document that is written for an event presents it. -/
theorem presents_toJson (e : Event) : Presents e.written e.toJson := by
  have hoptional := trims_member "selector" .str e.selector
    |>.append (trims_member "value" Payload.toJson e.value)
    |>.append (trims_member "href" .str e.href)
    |>.append (trims_member "key" .str e.key)
    |>.append (trims_member "keyCode" Json.ofUInt32 e.keyCode)
    |>.append (trims_member "tagName" .str e.tagName)
    |>.append (trims_member "frameId" Json.ofUInt64 e.frameId)
    |>.append (trims_member "frameUrl" .str e.frameUrl)
  have hwritten := (trims_needed ("action", .str e.action.tag)).append hoptional
  exact hwritten.presents (by simp)

/-- An event is decoded from every document that presents it. -/
theorem ofJson_of_presents {e : Event} (h : e.action.IsTagged) {v : Json}
    (hv : Presents e.written v) : Event.ofJson v = .ok e := by
  obtain ⟨keys, hkeys, hpart⟩ := Shape.ofJson_presents (writes_written h) hv
  rw [partOf_eq_self hkeys] at hpart
  exact hpart

/-- An event is decoded from its own document. -/
theorem ofJson_toJson {e : Event} (h : e.action.IsTagged) : Event.ofJson e.toJson = .ok e :=
  ofJson_of_presents h (presents_toJson e)

end Presentations

section Texts

/-- The numbers of an event come back when their texts are read. -/
def IsLegible (e : Event) : Prop := ∀ p ∈ e.value, ∀ n ∈ p.numbers, n.IsLegible

/-- Fields of an event are decoded lawfully, and so are events. -/
theorem lawfulFields : shape.LawfulFields := by
  have hstring : Decoder.string.Lawful := Decoder.lawful_text _
  have hpayload : Payload.decoder.Lawful := Decoder.lawful_buffered _
  have hcode : Decoder.uint32.Lawful := (Decoder.lawful_natural _ _).map _
  have hframe : Decoder.uint64.Lawful := (Decoder.lawful_natural _ _).map _
  simp only [Shape.LawfulFields, shape, List.forall_mem_cons]
  exact ⟨hstring.map _, hstring.option.map _, hpayload.option.map _, hstring.option.map _,
    hstring.option.map _, hcode.option.map _, hstring.option.map _, hframe.option.map _,
    hstring.option.map _, nofun⟩

/-- The action of an event that is decoded is one that a tag names. -/
theorem yields_tagged : Event.decoder.Yields fun e => e.action.IsTagged := by
  refine Shape.yields ⟨"", rfl⟩ ?_
  simp only [shape, List.forall_mem_cons]
  refine ⟨Decoder.keeps_of_set _ fun tag _ _ => ⟨tag, rfl⟩, ?_, ?_, ?_, ?_, ?_, ?_, ?_, ?_, nofun⟩
  all_goals exact Decoder.keeps_of_set _ fun _ _ h => h

/-- The document of an event can be read back from its text. -/
theorem legible_toJson {e : Event} (h : e.IsLegible) {depth : Nat} (hdepth : 2 < depth) :
    Legible depth e.toJson := by
  have hpayload : ∀ p ∈ e.value, Legible (depth - 1) p.toJson :=
    fun p hp => Payload.legible_toJson (h p hp) (by omega)
  refine .obj (by omega) ?_
  simp only [List.forall_mem_cons, List.forall_mem_append, Json.forall_mem_member]
  exact ⟨.str, ⟨⟨⟨⟨⟨⟨⟨fun _ _ => .str, hpayload⟩, fun _ _ => .str⟩, fun _ _ => .str⟩,
    fun _ _ => .num trivial⟩, fun _ _ => .str⟩, fun _ _ => .num trivial⟩, fun _ _ => .str⟩⟩

/-- An event is read from its own text, of which nothing is left. -/
theorem ofText_text {e : Event} (htag : e.action.IsTagged) (h : e.IsLegible) :
    Event.decoder.ofText Json.depthLimit e.text.toList = .ok (e, []) := by
  have hlegible := legible_toJson h (by decide : 2 < Json.depthLimit)
  exact (Shape.lawful lawfulFields).agrees (Json.Layout.tight.reads_ofList hlegible 0)
    (Event.ofJson_toJson htag)

/-- An event is decoded from its own text. -/
theorem parse_text {e : Event} (htag : e.action.IsTagged) (h : e.IsLegible) :
    Event.parse e.text = .ok e :=
  Decoder.decodeText_of_ofText (ofText_text htag h) rfl

/-- An event whose action has been named by a tag is decoded from every document that presents it,
and from every text of such a document. The values of members that mean nothing may be anything; a
text is decoded even if they are nested too deeply to be read, or too large. -/
theorem decoded_from_any_presentation {e : Event} (h : e.action.IsTagged) {v : Json}
    (hv : Presents e.written v) :
    Event.ofJson v = .ok e ∧ ∀ text, shape.Spells text v → Event.parse text = .ok e := by
  have hdecoded := ofJson_of_presents h hv
  exact ⟨hdecoded, fun text htext => htext.decodeText lawfulFields hdecoded⟩

/-- An event that has a size for its value. -/
def resizing : Event := { action := .viewport, value := some (.size 8 6) }

/-- A document with its fields in another order, one of the absent ones `null`, and with two members
under an unknown key. -/
def resizingShuffled : Json :=
  .obj [("x", .arr []), ("value", .obj [("width", Json.ofUInt32 8), ("height", Json.ofUInt32 6)]),
    ("href", .null), ("x", .bool true), ("action", .str "VIEWPORT")]

/-- The event is decoded from that document and from its text. -/
theorem resizingShuffled_decoded :
    resizing.action.IsTagged ∧ Presents resizing.written resizingShuffled ∧
      Event.ofJson resizingShuffled = .ok resizing ∧
      Event.parse resizingShuffled.compact = .ok resizing := by
  have htagged : resizing.action.IsTagged := ⟨"VIEWPORT", rfl⟩
  have hpresents : Presents resizing.written resizingShuffled := by
    refine .object ?_ ?_ (by decide)
    all_goals simp [written, resizing, orNull, Payload.toJson, Action.tag]
  have hsize : Legible (Json.depthLimit - 1) (Payload.size 8 6).toJson :=
    Payload.legible_toJson (fun _ hn => absurd hn List.not_mem_nil) (by decide)
  have hlegible : Legible Json.depthLimit resizingShuffled := by
    refine .obj (by decide) ?_
    simp only [List.forall_mem_cons]
    exact ⟨.arr (by decide) nofun, hsize, .null, .bool, .str, nofun⟩
  obtain ⟨hdocument, htext⟩ := decoded_from_any_presentation htagged hpresents
  exact ⟨htagged, hpresents, hdocument, htext _ (.whole (Json.parse_compact hlegible))⟩

end Texts

end Event

end SessionScript
