import SessionScript.Proofs.Recording.Encoding
import SessionScript.Proofs.Text.Lines
import SessionScript.Store.Lines

/-!
# Reading a stored recording back

The header and the events of a stored recording are lines without control characters, so the line
feeds between them are the only ones. Each line is decoded as what was written on it, and a stored
recording is therefore read back as it was, the time of storing standing in for a time it lacks.
-/

namespace SessionScript

open Json (Decoder Shape Fills Legible fills_present bind_eq_ok map_eq_ok)

section Origins

/-- Events that are built up from a tag and one recorded thing after the other. -/
inductive Event.Built : Event → Prop where
  /-- An event with an action that a tag names. -/
  | new (tag : String) : Built { action := Action.ofTag tag }
  /-- The element is recorded. -/
  | withSelector {e : Event} (selector : String) : Built e → Built (e.withSelector selector)
  /-- What the event carries is recorded. -/
  | withValue {e : Event} (value : Payload) : Built e → Built (e.withValue value)
  /-- An address is recorded. -/
  | withHref {e : Event} (href : String) : Built e → Built (e.withHref href)
  /-- The name of a key is recorded. -/
  | withKey {e : Event} (key : String) : Built e → Built (e.withKey key)
  /-- The code of a key is recorded. -/
  | withKeyCode {e : Event} (code : UInt32) : Built e → Built (e.withKeyCode code)
  /-- The tag of the element is recorded. -/
  | withTagName {e : Event} (tagName : String) : Built e → Built (e.withTagName tagName)
  /-- The frame and its address are recorded. -/
  | withFrame {e : Event} (id : UInt64) (url : String) : Built e → Built (e.withFrame id url)

/-- Recordings that are read from a text, or made of events that were built. -/
inductive Recording.Obtained : Recording → Prop where
  /-- The recording is read from a text. -/
  | read {fallback text : String} {r : Recording} : Recording.parse fallback text = .ok r →
      Obtained r
  /-- The events were built. -/
  | built {r : Recording} : (∀ e ∈ r.events, e.Built) → Obtained r

/-- The action of an event that was built is one that a tag names. -/
theorem Event.Built.isTagged {e : Event} (h : e.Built) : e.action.IsTagged := by
  induction h with
  | new tag => exact ⟨tag, rfl⟩
  | withSelector _ _ ih => exact ih
  | withValue _ _ ih => exact ih
  | withHref _ _ ih => exact ih
  | withKey _ _ ih => exact ih
  | withKeyCode _ _ ih => exact ih
  | withTagName _ _ ih => exact ih
  | withFrame _ _ _ ih => exact ih

/-- Recordings of either origin have events with actions that tags name. -/
theorem Recording.Obtained.isTagged {r : Recording} (h : r.Obtained) :
    ∀ e ∈ r.events, e.action.IsTagged := by
  cases h with
  | read hread => exact (Recording.parse_yields hread).1
  | built hbuilt => exact fun e he => (hbuilt e he).isTagged

end Origins

namespace Store

section Headers

/-- The time in a header, if there is one, comes back when its text is read. -/
def Header.HasLegibleTime (h : Header) : Prop := ∀ t ∈ h.recordedAt, Instant.parse t.text = .ok t

/-- A header is decoded from its own document. -/
theorem Header.ofJson_toJson {h : Header} (htime : h.HasLegibleTime) :
    Header.shape.ofJson h.toJson = .ok h := by
  obtain ⟨time, htime, hdocument⟩ : ∃ v, Instant.decoder.option.ofJson v = .ok h.recordedAt ∧
      h.toJson = .obj ([("name", .str h.name)] ++
        ([("recordedAt", v)] ++ [("events", Json.ofUInt64 h.events)])) := by
    unfold Header.HasLegibleTime at htime
    cases hat : h.recordedAt with
    | none => exact ⟨.null, rfl, by rw [Header.toJson, hat]; rfl⟩
    | some t =>
      have hinstant := Recording.instant_ofJson (htime t hat)
      refine ⟨.str t.text, Decoder.option_ofJson (fun hnull => by cases hnull) hinstant, ?_⟩
      rw [Header.toJson, hat]
      rfl
  have hname : Fills Header.shape [("name", .str h.name)] Header.shape.blank ⟨h.name, none, 0⟩
      ["name"] ["name"] := fills_present rfl rfl rfl
  have hat : Fills Header.shape [("recordedAt", time)] ⟨h.name, none, 0⟩ ⟨h.name, h.recordedAt, 0⟩
      ["recordedAt"] ["recordedAt"] := fills_present rfl htime rfl
  have hevents : Fills Header.shape [("events", Json.ofUInt64 h.events)] ⟨h.name, h.recordedAt, 0⟩ h
      ["events"] ["events"] := fills_present rfl (Json.uint64_ofJson "usize" h.events) rfl
  rw [hdocument]
  exact (hname.append (hat.append hevents (by decide)) (by decide)).ofJson (by decide)

/-- Fields of a header are decoded lawfully. -/
theorem Header.lawfulFields : Header.shape.LawfulFields := by
  have hinstant : Instant.decoder.Lawful := (Decoder.lawful_text _).refine _
  have hcount : Decoder.count.Lawful := (Decoder.lawful_natural _ _).map _
  simp only [Shape.LawfulFields, Header.shape, List.forall_mem_cons]
  exact ⟨(Decoder.lawful_text _).map _, hinstant.option.map _, hcount.map _, List.forall_mem_nil _⟩

/-- A header is read from its own text, of which nothing is left. -/
theorem Header.ofText_text {h : Header} (htime : h.HasLegibleTime) :
    Header.shape.decoder.ofText Json.depthLimit h.toJson.compact.toList = .ok (h, []) := by
  have hlegible : Legible Json.depthLimit h.toJson := by
    refine .obj (by decide) ?_
    simp only [List.forall_mem_cons]
    refine ⟨.str, ?_, .num trivial, List.forall_mem_nil _⟩
    split
    · exact .str
    · exact .null
  exact (Shape.lawful Header.lawfulFields).agrees (Json.Layout.tight.reads_ofList hlegible 0)
    (Header.ofJson_toJson htime)

/-- A header is decoded from its own text. -/
theorem Header.parse_text {h : Header} (htime : h.HasLegibleTime) :
    Header.parse h.toJson.compact = .ok h :=
  Decoder.decodeText_of_ofText (Header.ofText_text htime) rfl

end Headers

section Lines

/-- The lines of a header and of events. -/
def linesOf (h : Header) (events : List Event) : List Text.Bytes :=
  Text.encode h.toJson.compact :: events.map fun e => Text.encode e.text

/-- The text of a document without any space is a line. -/
theorem isLine_compact (v : Json) : Text.IsLine (Text.encode v.compact) :=
  Text.isLine_encode (Json.isPrintable_compact v)

/-- The header and the events of a recording have no control characters on their lines. -/
theorem isLine_linesOf (h : Header) (events : List Event) :
    ∀ l ∈ linesOf h events, Text.IsLine l := by
  refine List.forall_mem_cons.mpr ⟨isLine_compact _, fun l hl => ?_⟩
  obtain ⟨e, -, rfl⟩ := List.mem_map.mp hl
  exact isLine_compact e.toJson

/-- The bytes of texts that each have an end of line are the file of the lines. -/
theorem encode_join (texts : List String) :
    Text.encode (String.join (texts.map (· ++ "\n"))) = Text.fileOf (texts.map Text.encode) := by
  induction texts with
  | nil => exact Text.encode_eq_flatMap ""
  | cons s texts ih =>
    have hfeed : Text.encode "\n" = [Text.lineFeed] := Text.encode_eq_flatMap "\n"
    rw [List.map_cons, List.map_cons, String.join_cons, Text.encode_append, Text.encode_append, ih,
      Text.fileOf_cons, hfeed, List.append_assoc]
    rfl

/-- The bytes of a stored recording are the file of its lines. -/
theorem encode_recordingText (now : Instant) (r : Recording) :
    Text.encode (recordingText now r) = Text.fileOf (linesOf (headerOf now r) r.events) := by
  rw [recordingText, encode_join, List.map_cons, List.map_map]
  rfl

/-- Something is written for each event. -/
theorem text_ne_empty (e : Event) : e.text.isEmpty = false := by
  have hlist : e.text.toList ≠ [] := by
    rw [Event.text, Json.compact, String.toList_ofList, Event.toJson, Json.Layout.chars]
    exact List.cons_ne_nil _ _
  rw [← Bool.not_eq_true, String.isEmpty_iff]
  rintro hempty
  exact hlist (by rw [hempty, String.toList_empty])

/-- The events on lines are read back. -/
theorem readEvents_lines {events : List Event} (h : ∀ e ∈ events, Event.parse e.text = .ok e)
    (number : Nat) :
    readEvents number (events.map fun e => Text.encode e.text) = .ok events := by
  induction events generalizing number with
  | nil => rfl
  | cons e events ih =>
    obtain ⟨he, hevents⟩ := List.forall_mem_cons.mp h
    simp only [List.map_cons, readEvents, Text.decode?_encode, text_ne_empty, he, ih hevents]
    rfl

/-- The file of a header and of events is read as they are. -/
theorem readRecordingBytes_fileOf {h : Header} (htime : h.HasLegibleTime) {events : List Event}
    (hevents : ∀ e ∈ events, Event.parse e.text = .ok e) :
    readRecordingBytes (Text.fileOf (linesOf h events)) =
      .ok { name := h.name, recordedAt := h.recordedAt, events } := by
  rw [readRecordingBytes, Text.lines_fileOf (isLine_linesOf h events), linesOf]
  simp only [Text.decode?_encode, Header.parse_text htime, readEvents_lines hevents]
  rfl

/-- The time in the header of a recording is its own or that of storing. -/
theorem headerOf_recordedAt (now : Instant) (r : Recording) :
    (headerOf now r).recordedAt = some (r.recordedAt.getD now) := by
  unfold headerOf
  cases r.recordedAt with
  | none => rfl
  | some t => rfl

/-- If that time comes back from its text, the header has it. -/
theorem headerOf_hasLegibleTime {now : Instant} {r : Recording}
    (h : Instant.parse (r.recordedAt.getD now).text = .ok (r.recordedAt.getD now)) :
    (headerOf now r).HasLegibleTime := by
  intro t ht
  rw [headerOf_recordedAt] at ht
  cases ht
  exact h

/-- Saving then loading loses nothing: a recording of either origin is read back from the bytes that
are stored for it, with its name, its events in order, and its time or, if it has none, the time of
storing. Floating-point numbers that occur and that time must come back from their own texts. -/
theorem saved_recording_loads (now : Instant) {r : Recording} (horigin : r.Obtained)
    (hnumbers : ∀ e ∈ r.events, e.IsLegible)
    (htime : Instant.parse (r.recordedAt.getD now).text = .ok (r.recordedAt.getD now)) :
    readRecordingBytes (Text.encode (recordingText now r)) =
      .ok { name := r.name, recordedAt := some (r.recordedAt.getD now), events := r.events } := by
  have hevents : ∀ e ∈ r.events, Event.parse e.text = .ok e :=
    fun e he => Event.parse_text (horigin.isTagged e he) (hnumbers e he)
  rw [encode_recordingText,
    readRecordingBytes_fileOf (headerOf_hasLegibleTime htime) hevents, headerOf_recordedAt]
  rfl

/-- A click in a frame, on an element whose selector holds a quote, a line feed and a character
beyond the basic plane, and a move of the pointer to a point between two pixels. -/
def framedClick : List Event :=
  let click : Event := { action := Action.ofTag "click" }
  let move : Event := { action := Action.ofTag "mousemove" }
  [ (click.withSelector "a[title=\"\n😀\"]").withFrame 3 "https://x.y/é",
    move.withValue (.point (.float ⟨4626463454704697344⟩) (.whole (Json.Whole.ofUInt32 9))) ]

/-- The click and the move are built up from tags. -/
theorem framedClick_built : ∀ e ∈ framedClick, e.Built :=
  List.forall_mem_cons.mpr ⟨.withFrame _ _ (.withSelector _ (.new "click")),
    List.forall_mem_singleton.mpr (.withValue _ (.new "mousemove"))⟩

/-- The numbers of the click and the move come back from their texts. -/
theorem framedClick_isLegible : ∀ e ∈ framedClick, e.IsLegible := by
  have hfloat : Json.Number.IsLegible (.float ⟨4626463454704697344⟩) := rfl
  refine List.forall_mem_cons.mpr ⟨fun p hp => ?_, List.forall_mem_singleton.mpr fun p hp => ?_⟩
  · cases hp
  · cases hp
    exact List.forall_mem_cons.mpr ⟨hfloat, List.forall_mem_singleton.mpr trivial⟩

/-- A recording without a name and a time is read back after it was stored. -/
theorem framedClick_loads :
    readRecordingBytes (Text.encode (recordingText ⟨20000, 3661, 500⟩ ⟨"", none, framedClick⟩)) =
      .ok ⟨"", some ⟨20000, 3661, 500⟩, framedClick⟩ :=
  saved_recording_loads ⟨20000, 3661, 500⟩ (.built framedClick_built) framedClick_isLegible
    (by decide)

end Lines

end Store

end SessionScript
