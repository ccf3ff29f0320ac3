import SessionScript.Proofs.Script.Names
import SessionScript.Proofs.Script.Progress

/-!
# Line breaks in the code of a session

Every template writes its code on one physical line, except the one that waits for a page to open,
which has six line feeds of its own. Texts that go into literals are escaped and bring no line
breaks with them. The remark behind a move of the pointer is the one text that is not escaped: the
line keeps its structure exactly when the selector has no line break, and otherwise what follows the
break is code.
-/

namespace SessionScript.Script

/-- Does the character end a physical line? -/
def isBreak (c : Char) : Bool := c = '\n' || c = '\r'

/-- The line breaks of a text, in order. -/
def breaks (s : String) : List Char := s.toList.filter isBreak

@[simp]
theorem breaks_append (s t : String) : breaks (s ++ t) = breaks s ++ breaks t := by
  rw [breaks, String.toList_append, List.filter_append]
  rfl

/-- A text has no line breaks if none of its characters is one. -/
theorem breaks_eq_nil {s : String} (hs : ∀ c ∈ s.toList, isBreak c = false) : breaks s = [] :=
  List.filter_eq_nil_iff.mpr fun c hc => Bool.eq_false_iff.mp (hs c hc)

/-- One escaped character has no line breaks. -/
theorem isBreak_of_mem_escapeChar {c c' : Char} (hc : c' ∈ escapeChar c) : isBreak c' = false := by
  have hall : ∀ cs : List Char, (cs.all fun x => !isBreak x) = true → c' ∈ cs →
      isBreak c' = false := by
    intro cs hcs hmem
    simpa using List.all_eq_true.mp hcs c' hmem
  unfold escapeChar at hc
  by_cases hback : c = '\\'
  · rw [if_pos hback] at hc
    exact hall _ (by decide) hc
  rw [if_neg hback] at hc
  by_cases hquote : c = '\''
  · rw [if_pos hquote] at hc
    exact hall _ (by decide) hc
  rw [if_neg hquote] at hc
  by_cases hfeed : c = '\n'
  · rw [if_pos hfeed] at hc
    exact hall _ (by decide) hc
  rw [if_neg hfeed] at hc
  by_cases hreturn : c = '\r'
  · rw [if_pos hreturn] at hc
    exact hall _ (by decide) hc
  rw [if_neg hreturn, List.mem_singleton] at hc
  simp [isBreak, hc, hfeed, hreturn]

/-- Escaped text has no line breaks. -/
@[simp]
theorem breaks_escape (s : String) : breaks (escape s) = [] := by
  apply breaks_eq_nil
  intro c hc
  rw [escape, String.toList_ofList] at hc
  obtain ⟨c', -, hc'⟩ := List.mem_flatMap.mp hc
  exact isBreak_of_mem_escapeChar hc'

/-- A name has no line breaks. -/
theorem breaks_name {s : String} (hs : IsName s) : breaks s = [] := by
  apply breaks_eq_nil
  intro c hc
  have hfeed : c ≠ '\n' := fun h => hs.not_mem (by decide) (h ▸ hc)
  have hreturn : c ≠ '\r' := fun h => hs.not_mem (by decide) (h ▸ hc)
  simp [isBreak, hfeed, hreturn]

/-- A text made of the characters of numbers has no line breaks. -/
theorem breaks_numeric {s : String} (hs : Json.IsNumeric s) : breaks s = [] := by
  apply breaks_eq_nil
  intro c hc
  have hchar : Json.isNumberChar c = true := hs c hc
  have hfeed : c ≠ '\n' := by
    rintro rfl
    exact absurd hchar (by decide)
  have hreturn : c ≠ '\r' := by
    rintro rfl
    exact absurd hchar (by decide)
  simp [isBreak, hfeed, hreturn]

@[simp]
theorem breaks_receiver (e : Event) : breaks (receiver e) = [] := breaks_name (receiver_isName e)

@[simp]
theorem breaks_number (n : Json.Number) : breaks n.text = [] :=
  breaks_numeric (Json.isNumeric_text n)

@[simp]
theorem breaks_repr (n : Nat) : breaks n.repr = [] :=
  breaks_numeric (Json.isNumeric_toString n)

@[simp]
theorem breaks_selectorText (e : Event) : breaks (selectorText e) = [] := breaks_escape e.target

/-- Code keeps its line structure when it is one physical line, or the template that waits for a
page to open, with no line break but its own six line feeds. -/
def KeepsLines (value : String) : Prop :=
  breaks value = [] ∨ (∃ call, value = popup call) ∧ breaks value = List.replicate 6 '\n'

/-- The template that waits for a page to open has three line feeds before the call, and three
behind it. -/
theorem breaks_popup (call : String) :
    breaks (popup call) = List.replicate 3 '\n' ++ breaks call ++ List.replicate 3 '\n' := by
  have hlead : breaks "\x7b\n  const [newPage] = await Promise.all([\n    page.waitForEvent('popup'),\n    "
      = ['\n', '\n', '\n'] := by decide
  have htail : breaks ",\n  ])\n  page = newPage\n\x7d" = ['\n', '\n', '\n'] := by decide
  delta popup
  simp only [breaks_append, hlead, htail]
  rfl

/-- Awaiting a call keeps the line structure, with the page that it opens if it does. -/
theorem keepsLines_awaited (opens : Bool) {call : String} (hc : breaks call = []) :
    KeepsLines (awaited opens call) := by
  cases opens with
  | false =>
    have hone : breaks (awaited false call) = [] := by simp +decide [awaited, hc]
    exact Or.inl hone
  | true =>
    have hsix : breaks (popup call) = List.replicate 6 '\n' := by
      rw [breaks_popup, hc]
      rfl
    exact Or.inr ⟨⟨call, rfl⟩, hsix⟩

/-- The spellings of both libraries have no line breaks. -/
theorem dialect_breaks {d : Dialect} (hd : d ∈ [puppeteer, playwright]) (o : Options) :
    breaks d.viewportMethod = [] ∧ breaks d.selectMethod = [] ∧
      ∀ value ∈ d.afterClick o, breaks value = [] := by
  simp only [List.mem_cons, List.not_mem_nil, or_false] at hd
  rcases hd with rfl | rfl
  · exact ⟨by decide, by decide, fun _ h => nomatch h⟩
  · refine ⟨by decide, by decide, fun value h => ?_⟩
    simp only [playwright, Option.mem_def, Option.ite_none_right_eq_some, Option.some.injEq] at h
    rw [← h.2]
    decide

/-- Waiting for an element and clicking it keeps the line structure. -/
theorem keepsLines_click {d : Dialect} (hd : d ∈ [puppeteer, playwright]) (o : Options)
    (opens : Bool) {e : Event} (ha : e.action = .click) {line : Line}
    (hl : line ∈ (clickBlock d o opens e).lines) : KeepsLines line.value := by
  rw [clickBlock_eq ha] at hl
  obtain ⟨value, hv, rfl⟩ := List.mem_map.mp hl
  simp only [List.mem_append, List.mem_singleton, Option.mem_toList] at hv
  rcases hv with (hwait | rfl) | hafter
  · split at hwait
    · rw [List.mem_singleton] at hwait
      subst hwait
      exact Or.inl (by simp +decide)
    · exact absurd hwait List.not_mem_nil
  · exact keepsLines_awaited opens (by simp +decide)
  · exact Or.inl ((dialect_breaks hd o).2.2 value hafter)

/-- Taking a picture keeps the line structure. -/
theorem keepsLines_screenshot (n : Nat) (e : Event) {line : Line}
    (hl : line ∈ (screenshotBlock n e).lines) : KeepsLines line.value := by
  have hfile : breaks (pictureFile n) = [] := by
    delta pictureFile
    simp +decide
  unfold screenshotBlock at hl
  split at hl
  · simp only [push_lines, single_lines, List.mem_append, List.mem_singleton] at hl
    rcases hl with rfl | rfl <;> exact Or.inl (by simp +decide [hfile])
  · simp only [single_lines, List.mem_singleton] at hl
    subst hl
    exact Or.inl (by simp +decide [hfile])

/-- The lines of an event are the lines of its block. -/
theorem linesOf_some (block : Block) : linesOf (some block).toList = block.lines := by
  rw [Option.toList_some, linesOf_cons, linesOf_nil, List.append_nil]

/-- Apart from moves of the pointer, the lines of an event keep their structure. -/
theorem keepsLines_blockOf {d : Dialect} (hd : d ∈ [puppeteer, playwright]) {o : Options}
    {p : Progress} {e : Event} {next : Option Event} (hm : e.action ≠ .mouseMove) {line : Line}
    (hl : line ∈ linesOf (blockOf d o p e next).toList) : KeepsLines line.value := by
  obtain ⟨hviewport, hselect, -⟩ := dialect_breaks hd o
  unfold blockOf at hl
  cases ha : e.action with
  | mouseMove => exact absurd ha hm
  | keydown =>
    simp only [ha, linesOf_some, keydownBlock, single_lines, List.mem_singleton] at hl
    subst hl
    exact keepsLines_awaited _ (by simp +decide)
  | hover | fill =>
    simp only [ha, linesOf_some, hoverBlock, fillBlock, single_lines, List.mem_singleton] at hl
    subst hl
    exact Or.inl (by simp +decide)
  | click =>
    simp only [ha, linesOf_some] at hl
    exact keepsLines_click hd o _ ha hl
  | change =>
    simp only [ha] at hl
    split at hl
    · simp only [linesOf_some, changeBlock, single_lines, List.mem_singleton] at hl
      subst hl
      have hone : breaks (d.selectOption (receiver e) (selectorText e) (escape e.typedValue)) = [] := by
        delta Dialect.selectOption
        simp +decide [hselect]
      exact Or.inl hone
    · exact absurd hl List.not_mem_nil
  | goto =>
    simp only [ha] at hl
    cases hh : e.href with
    | none => simp [hh] at hl
    | some href =>
      simp only [hh, Option.map_some, linesOf_some, gotoBlock, single_lines,
        List.mem_singleton] at hl
      subst hl
      exact Or.inl (by simp +decide)
  | viewport =>
    simp only [ha] at hl
    cases hsize : e.value.bind Payload.size? with
    | none => simp [hsize] at hl
    | some size =>
      simp only [hsize, Option.map_some, linesOf_some, viewportBlock, single_lines,
        List.mem_singleton] at hl
      subst hl
      have hone : breaks (d.viewport (receiver e) size.1 size.2) = [] := by
        delta Dialect.viewport
        simp +decide [hviewport]
      exact Or.inl hone
  | navigation =>
    simp only [ha, linesOf_some, navigationBlock] at hl
    split at hl
    · rw [single_lines, List.mem_singleton] at hl
      subst hl
      exact Or.inl (by simp +decide)
    · exact absurd hl List.not_mem_nil
  | tabChange =>
    simp only [ha, linesOf_some, tabChangeBlock] at hl
    split at hl
    · exact absurd hl List.not_mem_nil
    · simp only [push_lines, single_lines, List.mem_append, List.mem_singleton] at hl
      rcases hl with rfl | rfl <;> exact Or.inl (by simp +decide)
  | screenshot =>
    simp only [ha, linesOf_some] at hl
    exact keepsLines_screenshot _ e hl
  | tabCreate | dblClick | select | submit | load | unload | other tag =>
    simp [ha, tabCreateBlock] at hl

/-- A text has a line feed exactly if one of its line breaks is one. -/
theorem feed_mem_breaks_iff (s : String) : '\n' ∈ breaks s ↔ '\n' ∈ s.toList :=
  List.mem_filter.trans (and_iff_left rfl)

/-- The line breaks in a move of the pointer are those of the remark. -/
theorem breaks_mouseMove (e : Event) (x y : Json.Number) :
    ∀ line ∈ (mouseMoveBlock e x y).lines, breaks line.value = breaks e.target := by
  have hcode : breaks ("await " ++ receiver e ++ ".mouse.move(" ++ x.text ++ ", " ++ y.text
      ++ ", \x7b steps: 100 \x7d) // ") = [] := by
    simp +decide
  intro line hl
  rw [mouseMoveBlock, single_lines, List.mem_singleton] at hl
  rw [hl, breaks_append, hcode, List.nil_append]

/-- The remark behind a move of the pointer is the one place where a recorded text brings its line
breaks with it. -/
theorem keepsLines_mouseMove_iff (e : Event) (x y : Json.Number) :
    (∀ line ∈ (mouseMoveBlock e x y).lines, KeepsLines line.value) ↔ breaks e.target = [] := by
  have hone : ∀ call, "await " ++ receiver e ++ ".mouse.move(" ++ x.text ++ ", " ++ y.text
      ++ ", \x7b steps: 100 \x7d) // " ++ e.target ≠ popup call := by
    intro call h
    delta popup at h
    have hfirst := congrArg (·.toList.head?) h
    simp at hfirst
  have hvalue := breaks_mouseMove e x y
  simp only [mouseMoveBlock, single_lines, List.mem_singleton, forall_eq] at hvalue ⊢
  rw [KeepsLines, hvalue]
  constructor
  · rintro (h | ⟨⟨call, h⟩, -⟩)
    · exact h
    · exact absurd h (hone call)
  · exact Or.inl

/-- The lines of an event keep their structure unless the event is a move of the pointer whose
remark has a line break. -/
theorem keepsLines_blockOf_iff {d : Dialect} (hd : d ∈ [puppeteer, playwright]) (o : Options)
    (p : Progress) (e : Event) (next : Option Event) :
    (∀ line ∈ linesOf (blockOf d o p e next).toList, KeepsLines line.value) ↔
      (e.action = .mouseMove → (e.value.bind Payload.point?).isSome = true →
        breaks e.target = []) := by
  by_cases hm : e.action = .mouseMove
  · simp only [blockOf, hm, forall_const]
    cases hpoint : e.value.bind Payload.point? with
    | none => simp
    | some point =>
      have hmove := keepsLines_mouseMove_iff e point.1 point.2
      simpa using hmove
  · exact iff_of_true (fun line hl => keepsLines_blockOf hd hm hl) fun ha => absurd ha hm

/-- The lines of a walk keep their structure exactly when no remark has a line break. -/
theorem keepsLines_walk_iff {d : Dialect} (hd : d ∈ [puppeteer, playwright]) (o : Options)
    (p : Progress) (events : List Event) :
    (∀ line ∈ linesOf (walk d o p events).2, KeepsLines line.value) ↔
      ∀ e ∈ events, e.action = .mouseMove → (e.value.bind Payload.point?).isSome = true →
        breaks e.target = [] := by
  induction events generalizing p with
  | nil => simp [walk]
  | cons e rest ih =>
    rw [walk]
    dsimp only
    rw [linesOf_append, List.forall_mem_append, List.forall_mem_cons, ih,
      keepsLines_blockOf_iff hd]

/-- Listing the frames of the page takes one line. -/
theorem breaks_listFrames (bound : Bool) : breaks (listFrames bound) = [] := by
  cases bound <;> decide

/-- Finding a frame takes one line, whatever its address. -/
theorem breaks_findFrame (id : UInt64) (url : String) : breaks (findFrame id url) = [] := by
  have hname : breaks (frameVariable id) = [] := breaks_name (frameVariable_isName id)
  delta findFrame
  simp +decide [hname]

/-- The lines that complete the blocks of events are single physical lines. -/
theorem keepsLines_completing {events : List Event} {line : Line}
    (hl : line ∈ Block.spacer.lines ∨ line ∈ promiseBlock.lines ∨
      ∃ bound id, line ∈ lookupLines bound id ((lastAddress? events id).getD "")) :
    KeepsLines line.value := by
  rcases hl with hl | hl | ⟨bound, id, hl⟩
  · obtain rfl := List.mem_singleton.mp hl
    exact Or.inl (by decide)
  · obtain rfl := List.mem_singleton.mp hl
    exact Or.inl (by decide)
  · simp only [lookupLines, List.mem_cons, List.not_mem_nil, or_false] at hl
    rcases hl with rfl | rfl
    · exact Or.inl (breaks_listFrames bound)
    · exact Or.inl (breaks_findFrame id _)

/-- The lines of a session keep their structure exactly when those of its walk do. -/
theorem keepsLines_blocks_iff (d : Dialect) (o : Options) (events : List Event) :
    (∀ line ∈ linesOf (blocks d o events), KeepsLines line.value) ↔
      ∀ line ∈ linesOf (walk d o {} events).2, KeepsLines line.value := by
  constructor
  · intro h line hl
    rw [← blocks_isOfEvent] at hl
    exact h line (List.mem_filter.mp hl).1
  · intro h line hl
    rcases mem_blocks hl with hl | hl
    · exact keepsLines_completing hl
    · exact h line hl

/-- Whatever was recorded, in both libraries and under all options, every line that is not a move of
the pointer is one physical line, or the template that waits for a page with its six line feeds. All
lines are so exactly when no move of the pointer has a remark with a line break. -/
theorem lines_kept_iff_remarks_unbroken {d : Dialect} (hd : d ∈ [puppeteer, playwright])
    (o : Options) (events : List Event) :
    (∀ line ∈ linesOf (blocks d o events), line.kind ≠ some (.action .mouseMove) →
        KeepsLines line.value) ∧
      ((∀ line ∈ linesOf (blocks d o events), KeepsLines line.value) ↔
        ∀ e ∈ events, e.action = .mouseMove → (e.value.bind Payload.point?).isSome = true →
          breaks e.target = []) := by
  constructor
  · intro line hl hm
    rcases mem_blocks hl with hl | hl
    · exact keepsLines_completing hl
    · obtain ⟨p, e, next, hl⟩ := mem_walk hl
      have ha : e.action ≠ .mouseMove := fun ha => hm (by rw [blockOf_kind hl, ha])
      exact keepsLines_blockOf hd ha hl
  · rw [keepsLines_blocks_iff, keepsLines_walk_iff hd]

/-- A move of the pointer to the origin, over an element with a given selector. -/
def moveOver (selector : String) : Event :=
  { action := .mouseMove, selector := some selector,
    value := some (.point (.whole (.ofUInt32 0)) (.whole (.ofUInt32 0))) }

/-- Over an element with an ordinary selector, all lines keep their structure. -/
theorem moveOver_menu_keeps_lines :
    playwright ∈ [puppeteer, playwright] ∧
      ∀ line ∈ linesOf (blocks playwright {} [moveOver "#menu"]), KeepsLines line.value := by
  have hplaywright : playwright ∈ [puppeteer, playwright] :=
    List.mem_cons_of_mem _ List.mem_cons_self
  refine ⟨hplaywright, (lines_kept_iff_remarks_unbroken hplaywright {} _).2.mpr ?_⟩
  intro e he _ _
  rw [List.mem_singleton.mp he]
  decide

/-- A selector with a line feed puts what follows it into the script as code. -/
theorem moveOver_feed_breaks_line :
    ¬ ∀ line ∈ linesOf (blocks puppeteer {} [moveOver "#a\nsteal()"]), KeepsLines line.value := by
  rw [keepsLines_blocks_iff, keepsLines_walk_iff List.mem_cons_self]
  intro h
  have hbreaks := h _ List.mem_cons_self rfl rfl
  exact absurd hbreaks (by decide)

end SessionScript.Script
