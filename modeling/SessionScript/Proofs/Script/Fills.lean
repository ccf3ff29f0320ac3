import SessionScript.Proofs.Optimizer.Runs
import SessionScript.Proofs.Script.Lines
import SessionScript.Proofs.Script.Literals
import SessionScript.Proofs.Script.Recorded

/-!
# What was typed is what the script fills

The lines that fill fields are read back from their text: the receiver before the first point, and
two literals as arguments. Over a whole session they are the runs of typing in order, each with the
frame and the selector that were recorded with its first event, and the text that it leaves.
-/

namespace SessionScript.Script

open Optimizer (optimize typingRuns TypingRun Types writtenText? writtenText?_fill optimize_fills
  lone_of_not_types fill_element fill_text)

/-- What follows a given start, if a text begins so. -/
def after? : List Char → List Char → Option (List Char)
  | [], cs => some cs
  | _ :: _, [] => none
  | c :: start, c' :: cs => if c = c' then after? start cs else none

/-- Read a line of the form `await F.fill('S', 'T')`: the receiver and both texts. -/
def readFill? (value : String) : Option (String × String × String) := do
  let cs ← after? "await ".toList value.toList
  let receiver := cs.takeWhile (· ≠ '.')
  let cs ← after? ".fill('".toList (cs.dropWhile (· ≠ '.'))
  let (selector, cs) ← readLiteral cs
  let cs ← after? ", '".toList cs
  let (text, cs) ← readLiteral cs
  if cs = [')'] then some (.ofList receiver, .ofList selector, .ofList text) else none

/-- The texts of the lines that fill a field, in order. -/
def fillValues (blocks : List Block) : List String :=
  ((linesOf blocks).filter (·.kind = some (.action .fill))).map Line.value

/-- A start that is there is found. -/
theorem after?_append (start cs : List Char) : after? start (start ++ cs) = some cs := by
  induction start with
  | nil => rfl
  | cons c start ih => rw [List.cons_append, after?, if_pos rfl, ih]

/-- The text of a line that fills a field. -/
def fillValue (e : Event) : String :=
  "await " ++ receiver e ++ ".fill('" ++ selectorText e ++ "', '" ++ escape e.typedValue ++ "')"

/-- A line that fills a field reads back as its receiver, its selector and its text. -/
theorem readFill?_fillValue (e : Event) :
    readFill? (fillValue e) = some (receiver e, e.target, e.typedValue) := by
  have hvalue : (fillValue e).toList =
      "await ".toList ++ ((receiver e).toList ++ (".fill('".toList ++ ((escape e.target).toList ++
        '\'' :: (", '".toList ++ ((escape e.typedValue).toList ++ '\'' :: [')']))))) := by
    simp [fillValue, selectorText]
  have hname : ∀ c ∈ (receiver e).toList, decide (c ≠ '.') = true := by
    intro c hc
    have hdot := (receiver_isName e).not_mem (show isNameChar '.' = false by decide)
    exact decide_eq_true fun h => hdot (h ▸ hc)
  have hfill : ∀ cs, (".fill('".toList ++ cs).takeWhile (fun c => decide (c ≠ '.')) = [] ∧
      (".fill('".toList ++ cs).dropWhile (fun c => decide (c ≠ '.')) = ".fill('".toList ++ cs :=
    fun cs => ⟨rfl, rfl⟩
  unfold readFill?
  simp only [hvalue, after?_append, Option.bind_eq_bind, Option.bind_some,
    List.takeWhile_append_of_pos hname, List.dropWhile_append_of_pos hname, hfill,
    readLiteral_escaped, if_true, List.append_nil, String.ofList_toList]

/-- An event gives a line that fills a field exactly when it is a fill. -/
theorem blockOf_fillValues (d : Dialect) (o : Options) (p : Progress) (e : Event)
    (next : Option Event) :
    fillValues (blockOf d o p e next).toList = if e.action = .fill then [fillValue e] else [] := by
  split
  · rename_i ha
    rw [blockOf, ha]
    rfl
  · rename_i ha
    cases hb : blockOf d o p e next with
    | none => rfl
    | some b =>
      obtain ⟨values, rfl⟩ := blockOf_eq_eventBlock hb
      have hnone : (eventBlock e values).lines.filter (·.kind = some (.action .fill)) = [] := by
        apply List.filter_eq_nil_iff.mpr
        intro line hl
        obtain ⟨value, -, rfl⟩ := List.mem_map.mp hl
        simpa using ha
      rw [fillValues, Option.toList_some, linesOf_cons, linesOf_nil, List.append_nil, hnone,
        List.map_nil]

/-- The lines of a walk that fill a field are those of its fills, in order. -/
theorem walk_fillValues (d : Dialect) (o : Options) (p : Progress) (events : List Event) :
    fillValues (walk d o p events).2 = (events.filter (·.action = .fill)).map fillValue := by
  induction events generalizing p with
  | nil => rfl
  | cons e rest ih =>
    have happend : ∀ xs ys, fillValues (xs ++ ys) = fillValues xs ++ fillValues ys := by
      intro xs ys
      rw [fillValues, linesOf_append, List.filter_append, List.map_append]
      rfl
    rw [walk]
    dsimp only
    rw [happend, blockOf_fillValues, ih, List.filter_cons]
    split <;> simp_all

/-- The lines of a session that fill a field are those of its fills, in order. -/
theorem blocks_fillValues (d : Dialect) (o : Options) (events : List Event) :
    fillValues (blocks d o events) = (events.filter (·.action = .fill)).map fillValue := by
  have hkind : ∀ lines : List Line, lines.filter (·.kind = some (.action .fill)) =
      (lines.filter Line.isOfEvent).filter (·.kind = some (.action .fill)) := by
    intro lines
    rw [List.filter_filter]
    apply List.filter_congr
    intro line _
    by_cases hk : line.kind = some (.action .fill) <;> simp [hk, Line.isOfEvent]
  rw [fillValues, hkind, blocks_isOfEvent, ← walk_fillValues d o {}, fillValues]

/-- What a key writes: its name, if that is a single character. -/
def writtenKey (key : Option String) : String := (key.filter (·.length = 1)).getD ""

/-- The text that a run of typing leaves: the value recorded with its last event and what the key of
that event writes, or the value alone when the run is a lone fill. -/
def leftText (r : TypingRun) : String :=
  recordedText r.last.value ++ if r.last.action = .fill then "" else writtenKey r.last.key

/-- A key writes its name if its kind is printable, and nothing otherwise. -/
theorem writtenKey_eq (key : Option String) (code : Option UInt32) :
    writtenKey key = if KeyKind.of key code = .printable then key.getD "" else "" := by
  cases key with
  | none => cases code <;> simp [writtenKey]
  | some key =>
    have hcomposing : Keyboard.isComposing key = true → key.length ≠ 1 := by
      intro hk
      rw [of_decide_eq_true hk]
      decide
    by_cases hone : key.length = 1
    · have hkind : KeyKind.of (some key) code = .printable := by
        simp [KeyKind.of, KeyKind.ofKey, mt hcomposing (not_not.mpr hone), Keyboard.isPrintable,
          hone]
      rw [if_pos hkind]
      simp [writtenKey, Option.filter, hone]
    · have hkind : KeyKind.of (some key) code ≠ .printable := by
        simp only [KeyKind.of, KeyKind.ofKey, Keyboard.isPrintable, hone]
        split <;> simp
      rw [if_neg hkind]
      simp [writtenKey, Option.filter, hone]

/-- A run of typing leaves what its last event writes. -/
theorem text_eq_leftText {events : List Event} {r : TypingRun} (hr : r ∈ typingRuns events) :
    r.text = leftText r := by
  unfold TypingRun.text leftText
  rw [← typedValue_eq_recordedText]
  by_cases ht : Types r.last
  · have hfill : r.last.action ≠ .fill := by
      intro ha
      simp [Types, ha] at ht
    rw [if_neg hfill, writtenKey_eq r.last.key r.last.keyCode, writtenText?, if_pos ht]
    split <;> simp
  · obtain ⟨hlast, hfill⟩ := lone_of_not_types hr ht
    rw [hlast, writtenText?_fill hfill, if_pos hfill, String.append_empty]
    rfl

/-- What was typed is what the script fills, for either library and all options: read back, the
lines of a shrunk session that fill a field are the runs of typing of the session, in order, each
with the object of the frame and the selector of the run's first event and the text that the run
leaves. -/
theorem filled_texts_are_typed_texts (d : Dialect) (o : Options) (events : List Event) :
    (fillValues (blocks d o (optimize events))).map readFill? =
      (typingRuns events).map fun r =>
        some (frameObject r.first, r.first.selector.getD "", leftText r) := by
  rw [blocks_fillValues, optimize_fills, List.map_map, List.map_map]
  apply List.map_congr_left
  intro r hr
  obtain ⟨hframe, htarget⟩ := fill_element r
  have hobject : receiver r.fill = frameObject r.first := by
    rw [← receiver_eq_frameObject, receiver, receiver, hframe]
  rw [Function.comp_apply, Function.comp_apply, readFill?_fillValue, hobject, fill_text hr,
    text_eq_leftText hr, htarget]
  rfl

end SessionScript.Script
