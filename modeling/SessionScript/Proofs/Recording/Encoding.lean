import SessionScript.CommandLine.Run
import SessionScript.Proofs.Event.Encoding

/-!
# Recordings and their documents

A recording, or only its events, is decoded from its own document in whichever layout this is
written. Decoding loses what the document says besides: unknown keys, the alias of a tag, the order
of members. Encoding the result and decoding it again therefore changes nothing any more.
-/

namespace SessionScript

open Json (Decoder Shape Fills Legible fills_present fills_member map_eq_ok bind_eq_ok)

section Documents

/-- The texts in which a document is written: without any space, with one item or member a line,
and the latter with an end of line behind it. -/
def Json.texts (v : Json) : List String := [v.compact, v.pretty, CommandLine.documentText v]

/-- Each text of a legible document is read as the document, and nothing but blanks is left. -/
theorem Json.reads_texts {v : Json} (h : Legible Json.depthLimit v) {text : String}
    (htext : text ∈ v.texts) : ∃ rest, Json.Reads Json.depthLimit text.toList v rest ∧
      Json.skipBlanks rest = [] := by
  simp only [Json.texts, List.mem_cons, List.not_mem_nil, or_false] at htext
  rcases htext with rfl | rfl | rfl
  · exact ⟨[], Json.Layout.tight.reads_ofList h 0, rfl⟩
  · exact ⟨[], Json.Layout.indented.reads_ofList h 0, rfl⟩
  · have hend : Json.endsNumber ['\n'] = true := rfl
    refine ⟨['\n'], ?_, rfl⟩
    simpa [CommandLine.documentText, Json.pretty] using Json.Layout.indented.reads 0 hend v h

end Documents

namespace Recording

/-- The instant of a recording comes back when its text is read. -/
def HasLegibleTime (r : Recording) : Prop := ∀ t ∈ r.recordedAt, Instant.parse t.text = .ok t

/-- An instant is decoded from its own document. -/
theorem instant_ofJson {t : Instant} (h : Instant.parse t.text = .ok t) :
    Instant.decoder.ofJson (.str t.text) = .ok t :=
  bind_eq_ok.mpr ⟨t.text, rfl, by simp only [h]⟩

/-- A recording is decoded from its own document. -/
theorem ofJson_toJson {r : Recording} (hactions : ∀ e ∈ r.events, e.action.IsTagged)
    (htime : r.HasLegibleTime) : Recording.ofJson r.toJson = .ok r := by
  have hinstant : ∀ t ∈ r.recordedAt,
      Json.str t.text ≠ .null ∧ Instant.decoder.ofJson (.str t.text) = .ok t :=
    fun t ht => ⟨nofun, instant_ofJson (htime t ht)⟩
  have hevents : Event.listDecoder.ofJson (.arr (r.events.map Event.toJson)) = .ok r.events :=
    Decoder.list_ofJson fun e he => Event.ofJson_toJson (hactions e he)
  have hname : Fills Recording.shape [("name", .str r.name)] Recording.shape.blank
      { name := r.name } ["name"] ["name"] := fills_present rfl rfl rfl
  have hfields : Fills Recording.shape
      (Json.member "recordedAt" (fun t => .str (Instant.text t)) r.recordedAt
        ++ [("events", .arr (r.events.map Event.toJson))]) { name := r.name } r
      ["recordedAt", "events"] ["events"] :=
    (fills_member rfl hinstant rfl rfl).append (fills_present rfl hevents rfl) (by decide)
  exact (hname.append hfields (by decide)).ofJson (by decide)

/-- The document of a list of events is a recording with the fallback name. -/
theorem ofDocument_events (fallback : String) {events : List Event}
    (hactions : ∀ e ∈ events, e.action.IsTagged) :
    Recording.ofDocument fallback (.arr (events.map Event.toJson)) =
      .ok { name := fallback, events } := by
  have hevents : Event.listDecoder.ofJson (.arr (events.map Event.toJson)) = .ok events :=
    Decoder.list_ofJson fun e he => Event.ofJson_toJson (hactions e he)
  simp only [Recording.ofDocument, hevents]

/-- The document of a recording is that recording, unless its name has to be replaced. -/
theorem ofDocument_toJson (fallback : String) {r : Recording}
    (hactions : ∀ e ∈ r.events, e.action.IsTagged) (htime : r.HasLegibleTime) :
    Recording.ofDocument fallback r.toJson =
      .ok { r with name := if r.name = "" then fallback else r.name } := by
  have hlist : ∃ cause, Event.listDecoder.ofJson r.toJson = .error cause := ⟨_, rfl⟩
  have hrecord : Recording.shape.ofJson r.toJson = .ok r := ofJson_toJson hactions htime
  obtain ⟨cause, hlist⟩ := hlist
  simp only [Recording.ofDocument, hlist, hrecord, String.isEmpty_iff]
  split
  · rfl
  · rfl

/-- The document of a list of events can be read back from its texts. -/
theorem legible_events {events : List Event} (h : ∀ e ∈ events, e.IsLegible) {depth : Nat}
    (hdepth : 3 < depth) : Legible depth (.arr (events.map Event.toJson)) := by
  refine .arr (by omega) fun v hv => ?_
  obtain ⟨e, he, rfl⟩ := List.mem_map.mp hv
  exact Event.legible_toJson (h e he) (by omega)

/-- The document of a recording can be read back from its texts. -/
theorem legible_toJson {r : Recording} (h : ∀ e ∈ r.events, e.IsLegible) {depth : Nat}
    (hdepth : 4 < depth) : Legible depth r.toJson := by
  have hevents := legible_events h (by omega : 3 < depth - 1)
  refine .obj (by omega) ?_
  simp only [List.forall_mem_cons, List.forall_mem_append, Json.forall_mem_member]
  exact ⟨.str, fun _ _ => .str, hevents, nofun⟩

/-- A recording is read from each text of a document that holds it. -/
theorem parse_texts {fallback : String} {v : Json} {r : Recording}
    (hlegible : Legible Json.depthLimit v) (hv : Recording.ofDocument fallback v = .ok r)
    {text : String} (htext : text ∈ v.texts) : Recording.parse fallback text = .ok r := by
  obtain ⟨rest, hread, hrest⟩ := Json.reads_texts hlegible htext
  exact (Decoder.lawful_buffered _).decodeText hread hrest hv

/-- Recordings that are decoded have events with actions that tags name. -/
theorem yields_tagged : Recording.shape.decoder.Yields
    fun r => ∀ e ∈ r.events, e.action.IsTagged := by
  refine Shape.yields (fun e he => absurd he List.not_mem_nil) ?_
  simp only [Recording.shape, List.forall_mem_cons]
  refine ⟨Decoder.keeps_of_set _ fun _ _ h => h, Decoder.keeps_of_set _ fun _ _ h => h, ?_, nofun⟩
  exact Event.yields_tagged.list.map fun events hevents _ _ => hevents

/-- What is read from a text has events with actions that tags name, and a name if the fallback is
one. -/
theorem parse_yields {fallback text : String} {r : Recording}
    (h : Recording.parse fallback text = .ok r) :
    (∀ e ∈ r.events, e.action.IsTagged) ∧ (r.name = "" → fallback = "") := by
  have hyields : (Decoder.buffered (Recording.ofDocument fallback)).Yields fun r =>
      (∀ e ∈ r.events, e.action.IsTagged) ∧ (r.name = "" → fallback = "") := by
    refine Decoder.yields_buffered fun {v r} hv => ?_
    unfold Recording.ofDocument at hv
    split at hv
    · rename_i events hevents
      cases hv
      exact ⟨Event.yields_tagged.list.ofJson hevents, id⟩
    · rename_i r' _ hrecord
      have htagged := yields_tagged.ofJson hrecord
      split at hv
      · cases hv
        exact ⟨htagged, id⟩
      · rename_i hname
        cases hv
        exact ⟨htagged, fun hempty => absurd (String.isEmpty_iff.mpr hempty) hname⟩
    · cases hv
  exact hyields.decodeText h

/-- Decoding undoes encoding. An event with an action that a tag names comes back from its own text;
a list of such events comes back from each text of its document, under the fallback name and without
a time; a recording with such events comes back from each text of its own document, under the
fallback name if it has none. All events that are read from any text have such actions, so what was
read once is read again from what is written for it. Floating-point numbers and times that occur
must come back from their own texts. -/
theorem decoding_undoes_encoding (fallback : String) :
    (∀ events : List Event, (∀ e ∈ events, e.action.IsTagged) → (∀ e ∈ events, e.IsLegible) →
      (∀ e ∈ events, Event.parse e.text = .ok e) ∧
      (∀ text ∈ (Json.arr (events.map Event.toJson)).texts,
        Recording.parse fallback text = .ok { name := fallback, recordedAt := none, events }) ∧
      ∀ r : Recording, r.events = events → r.HasLegibleTime → ∀ text ∈ r.toJson.texts,
        Recording.parse fallback text =
          .ok { r with name := if r.name = "" then fallback else r.name }) ∧
    (∀ text e, Event.parse text = .ok e →
      e.action.IsTagged ∧ (e.IsLegible → Event.parse e.text = .ok e)) ∧
    ∀ text r, Recording.parse fallback text = .ok r →
      (∀ e ∈ r.events, e.action.IsTagged) ∧
      ((∀ e ∈ r.events, e.IsLegible) → r.HasLegibleTime → ∀ text' ∈ r.toJson.texts,
        Recording.parse fallback text' = .ok r) := by
  have hrecording : ∀ r : Recording, (∀ e ∈ r.events, e.action.IsTagged) →
      (∀ e ∈ r.events, e.IsLegible) → r.HasLegibleTime → ∀ text ∈ r.toJson.texts,
      Recording.parse fallback text =
        .ok { r with name := if r.name = "" then fallback else r.name } := by
    intro r hactions hnumbers htime text htext
    exact parse_texts (legible_toJson hnumbers (by decide))
      (ofDocument_toJson fallback hactions htime) htext
  refine ⟨fun events hactions hnumbers => ⟨fun e he => ?_, fun text htext => ?_, ?_⟩,
    fun text e h => ?_, fun text r h => ?_⟩
  · exact Event.parse_text (hactions e he) (hnumbers e he)
  · exact parse_texts (legible_events hnumbers (by decide)) (ofDocument_events fallback hactions)
      htext
  · rintro r rfl htime
    exact hrecording r hactions hnumbers htime
  · have htagged := Event.yields_tagged.decodeText h
    exact ⟨htagged, Event.parse_text htagged⟩
  · obtain ⟨hactions, hname⟩ := parse_yields h
    refine ⟨hactions, fun hnumbers htime text' htext => ?_⟩
    rw [hrecording r hactions hnumbers htime text' htext]
    -- a name that is still empty is the fallback name
    by_cases hempty : r.name = ""
    · rw [if_pos hempty, hname hempty, ← hempty]
    · rw [if_neg hempty]

/-- A pointer that moved to a point between two pixels, over an element with an odd name. -/
def pointerMove : Event where
  action := .mouseMove
  selector := some "#\"é\n😀"
  value := some (.point (.float ⟨4626463454704697344⟩) (.whole ⟨-3, by decide, by decide⟩))

/-- The move comes back from its own text, from the list of just this move as it is printed, and
from the recording of it. -/
theorem pointerMove_comes_back :
    Event.parse pointerMove.text = .ok pointerMove ∧
      Recording.parse "tour" (CommandLine.documentText (.arr [pointerMove.toJson])) =
        .ok { name := "tour", events := [pointerMove] } ∧
      Recording.parse "tour" (Recording.toJson ⟨"", some ⟨20000, 3661, 500⟩, [pointerMove]⟩).compact =
        .ok ⟨"tour", some ⟨20000, 3661, 500⟩, [pointerMove]⟩ := by
  have hfloat : Json.Number.IsLegible (.float ⟨4626463454704697344⟩) := rfl
  have hnumbers : pointerMove.IsLegible := by
    intro p hp n hn
    cases hp
    simp only [Payload.numbers, List.mem_cons, List.not_mem_nil, or_false] at hn
    rcases hn with rfl | rfl
    · exact hfloat
    · trivial
  have htime : Recording.HasLegibleTime ⟨"", some ⟨20000, 3661, 500⟩, [pointerMove]⟩ := by
    intro t ht
    cases ht
    decide
  have hback := (decoding_undoes_encoding "tour").1 [pointerMove]
    (List.forall_mem_singleton.mpr ⟨"mousemove", by decide⟩) (List.forall_mem_singleton.mpr hnumbers)
  refine ⟨hback.1 pointerMove List.mem_cons_self, ?_, ?_⟩
  · exact hback.2.1 _ (by simp [Json.texts])
  · exact hback.2.2 ⟨"", some ⟨20000, 3661, 500⟩, [pointerMove]⟩ rfl htime _ (by simp [Json.texts])

end Recording

end SessionScript
