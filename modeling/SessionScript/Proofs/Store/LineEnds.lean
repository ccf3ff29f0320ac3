import SessionScript.Proofs.Store.Saving
import SessionScript.Store.Basic
import Mathlib.Data.List.Forall2

/-!
# Stored recordings that were edited by hand

A stored file need not look as it was written. Its lines may end in a line feed or in a carriage
return and a line feed, and empty lines may have come in between. Neither makes a difference to the
recording that is read, which is made of the events on the lines that are not empty. Empty lines do
count in the number of a line that is refused: it is the number that an editor shows.
-/

namespace SessionScript

namespace Text

/-- A line of a file with its end. -/
structure EndedLine where
  /-- What stands on the line. -/
  text : String
  /-- Whether a carriage return stands in front of the line feed. -/
  withReturn : Bool

namespace EndedLine

/-- The line as it stands in the file. -/
def whole (l : EndedLine) : String := l.text ++ if l.withReturn then "\r\n" else "\n"

/-- Neither character of a line end stands on the line. -/
def IsPlain (l : EndedLine) : Prop := '\n' ∉ l.text.toList ∧ '\r' ∉ l.text.toList

end EndedLine

/-- The text of a file. -/
def fileText (ls : List EndedLine) : String := String.join (ls.map EndedLine.whole)

/-- Put a carriage return in front of every line feed. -/
def withReturns (s : String) : String :=
  String.ofList (s.toList.flatMap fun c => if c = '\n' then ['\r', '\n'] else [c])

/-- The second lines are the first ones with other ends, and with empty lines among them. -/
inductive Relaid : List EndedLine → List EndedLine → Prop where
  /-- There are no more lines. -/
  | nil : Relaid [] []
  /-- A line may end in another way. -/
  | line {text : String} {withReturn withReturn' : Bool} {ls ls' : List EndedLine} :
      Relaid ls ls' → Relaid (⟨text, withReturn⟩ :: ls) (⟨text, withReturn'⟩ :: ls')
  /-- An empty line may be put in. -/
  | empty {withReturn : Bool} {ls ls' : List EndedLine} :
      Relaid ls ls' → Relaid ls (⟨"", withReturn⟩ :: ls')

/-- What stands on the lines that are not empty. -/
def filledTexts (ls : List EndedLine) : List String := (ls.map EndedLine.text).filter (· ≠ "")

/-- An empty line does not count. -/
theorem filledTexts_empty {l : EndedLine} (h : l.text = "") (ls : List EndedLine) :
    filledTexts (l :: ls) = filledTexts ls := by
  rw [filledTexts, List.map_cons, h]
  rfl

/-- Any other line does. -/
theorem filledTexts_filled {l : EndedLine} (h : l.text ≠ "") (ls : List EndedLine) :
    filledTexts (l :: ls) = l.text :: filledTexts ls :=
  List.filter_cons_of_pos (decide_eq_true h)

/-- What holds of these texts holds of the lines that are not empty. -/
theorem forall_mem_filledTexts {ls : List EndedLine} {P : String → Prop} :
    (∀ text ∈ filledTexts ls, P text) ↔ ∀ l ∈ ls, l.text ≠ "" → P l.text := by
  simp only [filledTexts, List.forall_mem_filter, List.forall_mem_map, decide_eq_true_eq]

/-- Other ends and empty lines leave alone what stands on the lines that are not empty. -/
theorem Relaid.filledTexts_eq {ls ls' : List EndedLine} (h : Relaid ls ls') :
    filledTexts ls' = filledTexts ls := by
  induction h with
  | nil => rfl
  | line _ ih =>
    unfold filledTexts at ih ⊢
    rw [List.map_cons, List.map_cons, List.filter_cons, List.filter_cons, ih]
  | empty _ ih => exact ih

/-- Lines that were put in are plain, and all others stay so. -/
theorem Relaid.isPlain {ls ls' : List EndedLine} (h : Relaid ls ls') (hls : ∀ l ∈ ls, l.IsPlain) :
    ∀ l ∈ ls', l.IsPlain := by
  induction h with
  | nil => exact hls
  | line _ ih =>
    obtain ⟨hl, hls⟩ := List.forall_mem_cons.mp hls
    exact List.forall_mem_cons.mpr ⟨hl, ih hls⟩
  | empty _ ih => exact List.forall_mem_cons.mpr ⟨⟨nofun, nofun⟩, ih hls⟩

/-- The first line of a file is what stands on it, whichever end it has. -/
theorem lines_whole {l : EndedLine} (h : l.IsPlain) (rest : Bytes) :
    lines (encode l.whole ++ rest) = encode l.text :: lines rest := by
  have hfeed : lineFeed ∉ encode l.text := not_mem_encode (by decide) h.1
  have hreturn : carriageReturn ∉ encode l.text := not_mem_encode (by decide) h.2
  obtain ⟨text, withReturn⟩ := l
  rw [EndedLine.whole, encode_append, List.append_assoc]
  cases withReturn with
  | true =>
    have hend : encode "\r\n" = [carriageReturn, lineFeed] := encode_eq_flatMap "\r\n"
    have hline : lineFeed ∉ encode text ++ [carriageReturn] := by
      rw [List.mem_append, not_or]
      exact ⟨hfeed, by decide⟩
    have hstrip : stripReturn (encode text ++ [carriageReturn]) = encode text := by
      rw [stripReturn, if_pos List.getLast?_concat, List.dropLast_concat]
    have hfirst := lines_append_feed hline rest
    rw [hstrip, List.append_assoc] at hfirst
    rw [if_pos rfl, hend]
    exact hfirst
  | false =>
    have hend : encode "\n" = [lineFeed] := encode_eq_flatMap "\n"
    have hstrip : stripReturn (encode text) = encode text :=
      if_neg fun hlast => hreturn (List.mem_of_getLast? hlast)
    have hfirst := lines_append_feed hfeed rest
    rw [hstrip] at hfirst
    rw [if_neg Bool.false_ne_true, hend]
    exact hfirst

/-- The lines of a file are what stands on them, whichever ends they have. -/
theorem lines_fileText {ls : List EndedLine} (h : ∀ l ∈ ls, l.IsPlain) :
    lines (encode (fileText ls)) = ls.map fun l => encode l.text := by
  induction ls with
  | nil =>
    have hnone : encode (fileText []) = [] := encode_eq_flatMap ""
    rw [hnone]
    rfl
  | cons l ls ih =>
    obtain ⟨hl, hls⟩ := List.forall_mem_cons.mp h
    rw [fileText, List.map_cons, String.join_cons, encode_append, lines_whole hl, List.map_cons]
    exact congrArg _ (ih hls)

/-- Carriage returns are put into appended texts one by one. -/
theorem withReturns_append (s t : String) :
    withReturns (s ++ t) = withReturns s ++ withReturns t := by
  rw [withReturns, String.toList_append, List.flatMap_append, String.ofList_append]
  rfl

/-- A text without line feeds stays as it is. -/
theorem withReturns_plain {s : String} (h : '\n' ∉ s.toList) : withReturns s = s := by
  have hchars : (s.toList.flatMap fun c => if c = '\n' then ['\r', '\n'] else [c]) = s.toList := by
    have hkeep : ∀ c ∈ s.toList, (if c = '\n' then ['\r', '\n'] else [c]) = [c] := by
      rintro c hc
      refine if_neg ?_
      rintro rfl
      exact h hc
    rw [List.flatMap_congr hkeep]
    exact List.flatMap_singleton' s.toList
  rw [withReturns, hchars, String.ofList_toList]

/-- What carriage returns are put into are the ends of the lines. -/
theorem withReturns_fileText {ls : List EndedLine}
    (h : ∀ l ∈ ls, l.IsPlain ∧ l.withReturn = false) :
    withReturns (fileText ls) = fileText (ls.map fun l => ⟨l.text, true⟩) := by
  induction ls with
  | nil => rfl
  | cons l ls ih =>
    obtain ⟨⟨hplain, hend⟩, hls⟩ := List.forall_mem_cons.mp h
    have hwhole : withReturns l.whole = EndedLine.whole ⟨l.text, true⟩ := by
      rw [EndedLine.whole, hend, withReturns_append, withReturns_plain hplain.1]
      rfl
    rw [fileText, List.map_cons, String.join_cons, withReturns_append, hwhole, List.map_cons,
      fileText, List.map_cons, String.join_cons]
    exact congrArg _ (ih hls)

end Text

namespace Store

open Text (EndedLine Relaid fileText withReturns filledTexts)

/-- Read a stored recording from the text of its file. -/
def readText (text : String) : Except LineError Recording := readRecordingBytes (Text.encode text)

/-- The text is one event. -/
def Decodes (text : String) : Prop := ∃ e, Event.parse text = .ok e

section Events

variable {text : String} (number : Nat) (rest : List Text.Bytes)

/-- An empty line is passed over. -/
theorem readEvents_empty (h : text = "") :
    readEvents number (Text.encode text :: rest) = readEvents (number + 1) rest := by
  rw [readEvents, Text.decode?_encode]
  exact if_pos (String.isEmpty_iff.mpr h)

/-- An event on a line is the first of the events. -/
theorem readEvents_event {e : Event} (h : text ≠ "") (he : Event.parse text = .ok e) :
    readEvents number (Text.encode text :: rest) =
      (readEvents (number + 1) rest).map (e :: ·) := by
  have hfilled : ¬text.isEmpty = true := mt String.isEmpty_iff.mp h
  simp only [readEvents, Text.decode?_encode, if_neg hfilled, he]
  cases readEvents (number + 1) rest <;> rfl

/-- A line that is refused is reported with its number. -/
theorem readEvents_refused {refusal : Json.Refusal} (h : text ≠ "")
    (he : Event.parse text = .error refusal) :
    readEvents number (Text.encode text :: rest) = .error (.event number text refusal) := by
  have hfilled : ¬text.isEmpty = true := mt String.isEmpty_iff.mp h
  simp only [readEvents, Text.decode?_encode, if_neg hfilled, he]

end Events

/-- The events that are read are those on the lines that are not empty, in order. -/
theorem readEvents_eq_ok_iff {ls : List EndedLine} {number : Nat} {events : List Event} :
    readEvents number (ls.map fun l => Text.encode l.text) = .ok events ↔
      List.Forall₂ (fun text e => Event.parse text = .ok e) (filledTexts ls) events := by
  induction ls generalizing number events with
  | nil =>
    have hnone : filledTexts [] = [] := rfl
    rw [hnone, List.forall₂_nil_left_iff]
    exact ⟨fun h => (Except.ok.inj h).symm, fun h => congrArg _ h.symm⟩
  | cons l ls ih =>
    rw [List.map_cons]
    by_cases hempty : l.text = ""
    · rw [readEvents_empty _ _ hempty, Text.filledTexts_empty hempty, ih]
    · rw [Text.filledTexts_filled hempty, List.forall₂_cons_left_iff]
      cases he : Event.parse l.text with
      | ok e =>
        rw [readEvents_event _ _ hempty he, Json.map_eq_ok]
        constructor
        · rintro ⟨events, hrest, rfl⟩
          exact ⟨e, events, rfl, ih.mp hrest, rfl⟩
        · rintro ⟨e', events, he', hrest, rfl⟩
          cases he'
          exact ⟨events, ih.mpr hrest, rfl⟩
      | error refusal =>
        rw [readEvents_refused _ _ hempty he]
        constructor
        · nofun
        · rintro ⟨e, events, he', -, -⟩
          cases he'

/-- Texts give events when each of them does. -/
theorem exists_forall₂_parse_iff {texts : List String} :
    (∃ events, List.Forall₂ (fun text e => Event.parse text = .ok e) texts events) ↔
      ∀ text ∈ texts, Decodes text := by
  constructor
  · rintro ⟨events, h⟩
    induction h with
    | nil => nofun
    | cons he _ ih => exact List.forall_mem_cons.mpr ⟨⟨_, he⟩, ih⟩
  · intro h
    induction texts with
    | nil => exact ⟨[], .nil⟩
    | cons text texts ih =>
      obtain ⟨⟨e, he⟩, htexts⟩ := List.forall_mem_cons.mp h
      obtain ⟨events, hevents⟩ := ih htexts
      exact ⟨e :: events, .cons he hevents⟩

/-- The first line that is refused is reported with its number, in which empty lines count. -/
theorem readEvents_first_refused {before after : List EndedLine} {bad : EndedLine}
    (hbefore : ∀ l ∈ before, l.text ≠ "" → Decodes l.text) (hbad : bad.text ≠ "")
    {refusal : Json.Refusal} (hrefused : Event.parse bad.text = .error refusal) (number : Nat) :
    readEvents number ((before ++ bad :: after).map fun l => Text.encode l.text) =
      .error (.event (number + before.length) bad.text refusal) := by
  induction before generalizing number with
  | nil => exact readEvents_refused _ _ hbad hrefused
  | cons l before ih =>
    obtain ⟨hl, hrest⟩ := List.forall_mem_cons.mp hbefore
    have hnumber : number + (l :: before).length = number + 1 + before.length := by
      rw [List.length_cons]
      omega
    rw [List.cons_append, List.map_cons, hnumber]
    by_cases hempty : l.text = ""
    · rw [readEvents_empty _ _ hempty]
      exact ih hrest (number + 1)
    · obtain ⟨e, he⟩ := hl hempty
      rw [readEvents_event _ _ hempty he, ih hrest (number + 1)]
      rfl

/-- Behind a header, what is read are the events on the other lines. -/
theorem readText_fileText {header : EndedLine} {h : Header}
    (hheader : Header.parse header.text = .ok h) {ls : List EndedLine}
    (hplain : ∀ l ∈ header :: ls, l.IsPlain) :
    readText (fileText (header :: ls)) =
      (readEvents 2 (ls.map fun l => Text.encode l.text)).map fun events =>
        { name := h.name, recordedAt := h.recordedAt, events } := by
  rw [readText, readRecordingBytes, Text.lines_fileText hplain, List.map_cons]
  simp only [Text.decode?_encode, hheader]
  cases readEvents 2 (ls.map fun l => Text.encode l.text) <;> rfl

/-- The recording that is read has the name and the time of the header, and the events on the lines
that are not empty. -/
theorem readText_eq_ok_iff {header : EndedLine} {h : Header}
    (hheader : Header.parse header.text = .ok h) {ls : List EndedLine}
    (hplain : ∀ l ∈ header :: ls, l.IsPlain) {r : Recording} :
    readText (fileText (header :: ls)) = .ok r ↔
      r.name = h.name ∧ r.recordedAt = h.recordedAt ∧
        List.Forall₂ (fun text e => Event.parse text = .ok e) (filledTexts ls) r.events := by
  rw [readText_fileText hheader hplain, Json.map_eq_ok]
  constructor
  · rintro ⟨events, hevents, rfl⟩
    exact ⟨rfl, rfl, readEvents_eq_ok_iff.mp hevents⟩
  · rintro ⟨hname, hat, hevents⟩
    exact ⟨r.events, readEvents_eq_ok_iff.mpr hevents, by rw [← hname, ← hat]⟩

/-- Reading a stored file does not depend on its layout and is exact about its errors. Let its first
line be a header and all its lines be ended. Putting a carriage return in front of every line feed
makes no difference at all, and a recording that is read stays the same when the lines end otherwise
and empty lines are put in behind the header. There is a recording exactly when every line behind
the header that is not empty is an event, and these are then its events, whichever number of them
the header states. Otherwise the first line that is not an event is reported, with the number that
it has in the whole file. -/
theorem stored_file_read_in_any_layout {header : EndedLine} {h : Header}
    (hheader : Header.parse header.text = .ok h) {ls : List EndedLine}
    (hplain : ∀ l ∈ header :: ls, l.IsPlain) :
    ((∀ l ∈ header :: ls, l.withReturn = false) →
      readText (withReturns (fileText (header :: ls))) = readText (fileText (header :: ls))) ∧
    (∀ withReturn ls', Relaid ls ls' → ∀ r,
      readText (fileText (header :: ls)) = .ok r ↔
        readText (fileText (⟨header.text, withReturn⟩ :: ls')) = .ok r) ∧
    ((∃ r, readText (fileText (header :: ls)) = .ok r) ↔
      ∀ l ∈ ls, l.text ≠ "" → Decodes l.text) ∧
    (∀ r, readText (fileText (header :: ls)) = .ok r →
      r.name = h.name ∧ r.recordedAt = h.recordedAt ∧
        List.Forall₂ (fun text e => Event.parse text = .ok e) (filledTexts ls) r.events) ∧
    ∀ before bad after, ls = before ++ bad :: after →
      (∀ l ∈ before, l.text ≠ "" → Decodes l.text) → bad.text ≠ "" → ¬Decodes bad.text →
      ∃ refusal, Event.parse bad.text = .error refusal ∧
        readText (fileText (header :: ls)) =
          .error (.event ((header :: before).length + 1) bad.text refusal) ∧
        (StoreError.lines (.event ((header :: before).length + 1) bad.text refusal)).chain =
          ["invalid event on line " ++ toString ((header :: before).length + 1),
            refusal.message bad.text.toList] := by
  refine ⟨fun hends => ?_, fun withReturn ls' hrelaid r => ?_, ?_, fun r hr => ?_, ?_⟩
  · rw [Text.withReturns_fileText fun l hl => ⟨hplain l hl, hends l hl⟩, List.map_cons]
    have hplain' : ∀ l ∈ (⟨header.text, true⟩ : EndedLine) :: ls.map fun l => ⟨l.text, true⟩,
        l.IsPlain := by
      refine List.forall_mem_cons.mpr ⟨hplain header List.mem_cons_self, ?_⟩
      exact List.forall_mem_map.mpr fun l hl => hplain l (List.mem_cons_of_mem header hl)
    have hheader' : Header.parse (EndedLine.text ⟨header.text, true⟩) = .ok h := hheader
    rw [readText_fileText hheader' hplain', readText_fileText hheader hplain, List.map_map]
    rfl
  · obtain ⟨hfirst, hls⟩ := List.forall_mem_cons.mp hplain
    have hplain' : ∀ l ∈ (⟨header.text, withReturn⟩ : EndedLine) :: ls', l.IsPlain :=
      List.forall_mem_cons.mpr ⟨hfirst, hrelaid.isPlain hls⟩
    have hheader' : Header.parse (EndedLine.text ⟨header.text, withReturn⟩) = .ok h := hheader
    rw [readText_eq_ok_iff hheader hplain, readText_eq_ok_iff hheader' hplain',
      hrelaid.filledTexts_eq]
  · rw [← Text.forall_mem_filledTexts, ← exists_forall₂_parse_iff]
    constructor
    · rintro ⟨r, hr⟩
      exact ⟨r.events, ((readText_eq_ok_iff hheader hplain).mp hr).2.2⟩
    · rintro ⟨events, hevents⟩
      exact ⟨⟨h.name, h.recordedAt, events⟩,
        (readText_eq_ok_iff hheader hplain).mpr ⟨rfl, rfl, hevents⟩⟩
  · exact (readText_eq_ok_iff hheader hplain).mp hr
  · rintro before bad after rfl hbefore hfilled hbad
    cases hrefused : Event.parse bad.text with
    | ok e => exact absurd ⟨e, hrefused⟩ hbad
    | error refusal =>
      refine ⟨refusal, rfl, ?_, rfl⟩
      have hnumber : (header :: before).length + 1 = 2 + before.length := by
        rw [List.length_cons]
        omega
      rw [readText_fileText hheader hplain,
        readEvents_first_refused hbefore hfilled hrefused 2, hnumber]
      rfl

/-- A header that states seven events, an empty line, a click, and a last line. They end in
different ways. -/
def editedFile (last : String) : List EndedLine :=
  [ ⟨(Header.toJson ⟨"log", none, 7⟩).compact, true⟩, ⟨"", false⟩,
    ⟨Event.text { action := .click }, true⟩, ⟨last, false⟩ ]

/-- The file is read when its last line is empty too, and a last line without an event is reported
by its number. -/
theorem editedFile_read :
    readText (fileText (editedFile "")) = .ok ⟨"log", none, [{ action := .click }]⟩ ∧
      ∃ refusal, readText (fileText (editedFile "x")) = .error (.event 4 "x" refusal) := by
  have hheader : Header.parse (Header.toJson ⟨"log", none, 7⟩).compact = .ok ⟨"log", none, 7⟩ :=
    Header.parse_text nofun
  have hlegible : Event.IsLegible { action := .click } := fun p hp => by cases hp
  have hclick : Event.parse (Event.text { action := .click }) = .ok { action := .click } :=
    Event.parse_text ⟨"click", rfl⟩ hlegible
  have hfilled : Event.text { action := .click } ≠ "" :=
    mt String.isEmpty_iff.mpr (Bool.eq_false_iff.mp (text_ne_empty _))
  have hplain : ∀ last, EndedLine.IsPlain ⟨last, false⟩ → ∀ l ∈ editedFile last, l.IsPlain := by
    have hcompact : ∀ (v : Json) withReturn, EndedLine.IsPlain ⟨v.compact, withReturn⟩ :=
      fun v _ => ⟨fun h => absurd (Json.isPrintable_compact v _ h) (by decide),
        fun h => absurd (Json.isPrintable_compact v _ h) (by decide)⟩
    intro last hlast
    simp only [editedFile, List.forall_mem_cons]
    exact ⟨hcompact _ _, ⟨nofun, nofun⟩, hcompact _ _, hlast, List.forall_mem_nil _⟩
  have hbad : ¬Decodes "x" := by
    have hstart : Json.skipBlanks "x".toList = ['x'] := rfl
    rintro ⟨e, he⟩
    have hfinish : Json.finish (Event.shape.ofText Json.depthLimit "x".toList) = .ok e := he
    obtain ⟨rest, hread, -⟩ := Json.finish_eq_ok.mp hfinish
    -- the text of an event starts with a bracket
    cases Json.readsRecord_of_ofText hread with
    | object _ hopen _ _ _ => cases hstart.symm.trans hopen
    | array _ hopen _ _ => cases hstart.symm.trans hopen
  unfold editedFile at hplain ⊢
  -- the texts are of no importance beyond what has been said of them
  generalize (Header.toJson ⟨"log", none, 7⟩).compact = header at hheader hplain ⊢
  generalize Event.text { action := .click } = click at hclick hfilled hplain ⊢
  have hfirst : Header.parse (EndedLine.text ⟨header, true⟩) = .ok ⟨"log", none, 7⟩ := hheader
  constructor
  · obtain ⟨-, -, hsuccess, hread, -⟩ :=
      stored_file_read_in_any_layout hfirst (hplain "" ⟨nofun, nofun⟩)
    have htexts : filledTexts [⟨"", false⟩, ⟨click, true⟩, ⟨"", false⟩] = [click] := by
      rw [Text.filledTexts_empty rfl, Text.filledTexts_filled hfilled]
      rfl
    obtain ⟨⟨name, recordedAt, events⟩, hr⟩ := hsuccess.mpr (by
      rw [← Text.forall_mem_filledTexts, htexts]
      exact List.forall_mem_singleton.mpr ⟨_, hclick⟩)
    obtain ⟨rfl, rfl, hevents⟩ := hread _ hr
    rw [htexts] at hevents
    cases hevents with
    | cons he hnone =>
      cases hnone
      rw [hclick] at he
      cases he
      exact hr
  · obtain ⟨-, -, -, -, herror⟩ :=
      stored_file_read_in_any_layout hfirst (hplain "x" ⟨by decide, by decide⟩)
    have hbefore : ∀ l ∈ ([⟨"", false⟩, ⟨click, true⟩] : List EndedLine),
        l.text ≠ "" → Decodes l.text := by
      simp only [List.forall_mem_cons]
      exact ⟨fun h => absurd rfl h, fun _ => ⟨_, hclick⟩, List.forall_mem_nil _⟩
    obtain ⟨refusal, -, hreported, -⟩ := herror _ _ [] rfl hbefore (by decide) hbad
    exact ⟨refusal, hreported⟩

end Store

end SessionScript
