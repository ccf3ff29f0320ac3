import SessionScript.Proofs.Store.Saving

/-!
# Stored recordings that were cut off

A file is written in place, so any beginning of it may be all that is there. Whole lines are read as
before. The last line may have been cut off; what is left of it need not even be a text, and if it
is one then it is refused, since no record is written by a text that another record's text begins
with. So what is read, if anything, is the beginning of what was written.
-/

namespace SessionScript.Store

open Json (Shape)

/-- A record that is decoded from the first bytes of the text of a record is that record. -/
theorem eq_of_cut {σ : Type} {shape : Shape σ} (hfields : shape.LawfulFields) {text : String}
    {record : σ} (hwhole : shape.decoder.ofText Json.depthLimit text.toList = .ok (record, []))
    {bytes : Text.Bytes} (hbytes : bytes <+: Text.encode text) {start : String}
    (hstart : Text.decode? bytes = some start) {record' : σ}
    (hrecord : shape.decoder.decodeText start = .ok record') : record' = record := by
  obtain ⟨more, hmore⟩ := Text.isPrefix_of_decode? hstart hbytes
  rw [← hmore] at hwhole
  -- nothing was cut off, because the text of a record does not go on behind that of another
  have hnil := Shape.eq_nil_of_decodeText hfields hrecord hwhole
  subst hnil
  rw [List.append_nil] at hwhole
  obtain ⟨rest, hread, -⟩ := Json.finish_eq_ok.mp hrecord
  exact (Prod.mk.inj (Except.ok.inj (hread.symm.trans hwhole))).1

/-- What the events on lines are when there is another line. -/
theorem readEvents_cons {number : Nat} {line : Text.Bytes} {rest : List Text.Bytes}
    {found : List Event} (h : readEvents number (line :: rest) = .ok found) :
    ∃ text, Text.decode? line = some text ∧
      ((text.isEmpty = true ∧ readEvents (number + 1) rest = .ok found) ∨
        ∃ e events, Event.parse text = .ok e ∧ readEvents (number + 1) rest = .ok events ∧
          found = e :: events) := by
  unfold readEvents at h
  split at h
  · cases h
  · rename_i text htext
    refine ⟨text, htext, ?_⟩
    split at h
    · rename_i hempty
      exact .inl ⟨hempty, h⟩
    · split at h
      · cases h
      · rename_i e he
        obtain ⟨events, hevents, h⟩ := Json.bind_eq_ok.mp h
        cases h
        exact .inr ⟨e, events, he, hevents, rfl⟩

/-- The events on what is left of lines are the first of the events. -/
theorem readEvents_cut {events : List Event}
    (h : ∀ e ∈ events, Event.decoder.ofText Json.depthLimit e.text.toList = .ok (e, []))
    {cut : List Text.Bytes} (hcut : Text.Cut (events.map fun e => Text.encode e.text) cut)
    {number : Nat} {found : List Event} (hfound : readEvents number cut = .ok found) :
    found <+: events := by
  induction events generalizing cut number found with
  | nil =>
    cases hcut
    cases hfound
    exact List.nil_prefix
  | cons e events ih =>
    obtain ⟨he, hevents⟩ := List.forall_mem_cons.mp h
    cases hcut with
    | none =>
      cases hfound
      exact List.nil_prefix
    | last hq hne =>
      obtain ⟨text, htext, hfound⟩ := readEvents_cons hfound
      rcases hfound with ⟨-, hnil⟩ | ⟨e', events', he', hnil, rfl⟩
      · cases hnil
        exact List.nil_prefix
      · cases hnil
        have heq : e' = e := eq_of_cut Event.lawfulFields he hq htext he'
        rw [heq]
        exact ⟨events, rfl⟩
    | line hcut =>
      obtain ⟨text, htext, hfound⟩ := readEvents_cons hfound
      rw [Text.decode?_encode] at htext
      cases htext
      rcases hfound with ⟨hempty, -⟩ | ⟨e', events', he', hrest, rfl⟩
      · rw [text_ne_empty] at hempty
        cases hempty
      · have heq : e' = e :=
          eq_of_cut Event.lawfulFields he (List.prefix_refl _) (Text.decode?_encode _) he'
        rw [heq]
        exact List.cons_prefix_cons.mpr ⟨rfl, ih hevents hcut hrest⟩

/-- What is read from the beginning of a file has what the header says and the first of the events. -/
theorem readRecordingBytes_cut {h : Header} (htime : h.HasLegibleTime) {events : List Event}
    (hevents : ∀ e ∈ events, Event.decoder.ofText Json.depthLimit e.text.toList = .ok (e, []))
    {bytes : Text.Bytes} (hbytes : bytes <+: Text.fileOf (linesOf h events)) {found : Recording}
    (hfound : readRecordingBytes bytes = .ok found) :
    found.name = h.name ∧ found.recordedAt = h.recordedAt ∧ found.events <+: events := by
  have hcut := Text.cut_lines (isLine_linesOf h events) hbytes
  have hheader := Header.ofText_text htime
  unfold readRecordingBytes at hfound
  split at hfound
  · cases hfound
  · rename_i first rest hlines
    rw [hlines] at hcut
    split at hfound
    · cases hfound
    · rename_i text htext
      split at hfound
      · cases hfound
      · rename_i h' hparse
        obtain ⟨found', hread, hfound⟩ := Json.bind_eq_ok.mp hfound
        cases hfound
        cases hcut with
        | last hq hne =>
          have heq : h' = h := eq_of_cut Header.lawfulFields hheader hq htext hparse
          cases hread
          exact ⟨congrArg Header.name heq, congrArg Header.recordedAt heq, List.nil_prefix⟩
        | line hcut =>
          have heq : h' = h :=
            eq_of_cut Header.lawfulFields hheader (List.prefix_refl _) htext hparse
          have hprefix := readEvents_cut hevents hcut hread
          exact ⟨congrArg Header.name heq, congrArg Header.recordedAt heq, hprefix⟩

/-- A stored recording that was cut off never gives wrong data: what is read from any beginning of
its bytes, if it is read at all, has the name of the recording, the time that was stored, and the
first of its events, none of them altered. Every number of events can be what is left. Floating-point
numbers that occur and the stored time must come back from their own texts. -/
theorem cut_recording_loads_beginning (now : Instant) {r : Recording} (horigin : r.Obtained)
    (hnumbers : ∀ e ∈ r.events, e.IsLegible)
    (htime : Instant.parse (r.recordedAt.getD now).text = .ok (r.recordedAt.getD now)) :
    (∀ bytes, bytes <+: Text.encode (recordingText now r) → ∀ found,
      readRecordingBytes bytes = .ok found →
        found.name = r.name ∧ found.recordedAt = some (r.recordedAt.getD now) ∧
          found.events <+: r.events) ∧
    ∀ k, ∃ bytes, bytes <+: Text.encode (recordingText now r) ∧
      readRecordingBytes bytes = .ok
        { name := r.name, recordedAt := some (r.recordedAt.getD now), events := r.events.take k } := by
  have hheader := headerOf_hasLegibleTime htime
  have hread : ∀ e ∈ r.events,
      Event.decoder.ofText Json.depthLimit e.text.toList = .ok (e, []) :=
    fun e he => Event.ofText_text (horigin.isTagged e he) (hnumbers e he)
  rw [encode_recordingText, ← headerOf_recordedAt]
  constructor
  · intro bytes hbytes found hfound
    exact readRecordingBytes_cut hheader hread hbytes hfound
  · intro k
    refine ⟨Text.fileOf (linesOf (headerOf now r) (r.events.take k)), ?_, ?_⟩
    · have hevents := (List.take_prefix k r.events).map fun e => Text.encode e.text
      exact Text.fileOf_prefix (List.cons_prefix_cons.mpr ⟨rfl, hevents⟩)
    · refine readRecordingBytes_fileOf hheader fun e he => ?_
      exact Json.Decoder.decodeText_of_ofText (hread e (List.mem_of_mem_take he)) rfl

/-- The file of a click and a move can be cut off so that the click is left. -/
theorem framedClick_loads_beginning :
    (∀ bytes, bytes <+: Text.encode (recordingText ⟨20000, 3661, 500⟩ ⟨"", none, framedClick⟩) →
      ∀ found, readRecordingBytes bytes = .ok found →
        found.name = "" ∧ found.recordedAt = some ⟨20000, 3661, 500⟩ ∧
          found.events <+: framedClick) ∧
    ∃ bytes, bytes <+: Text.encode (recordingText ⟨20000, 3661, 500⟩ ⟨"", none, framedClick⟩) ∧
      readRecordingBytes bytes = .ok ⟨"", some ⟨20000, 3661, 500⟩, framedClick.take 1⟩ := by
  have horigin : Recording.Obtained ⟨"", none, framedClick⟩ := .built framedClick_built
  have hcut := cut_recording_loads_beginning ⟨20000, 3661, 500⟩ horigin framedClick_isLegible
    (by decide)
  exact ⟨hcut.1, hcut.2 1⟩

end SessionScript.Store
