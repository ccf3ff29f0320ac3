import Mathlib.Data.List.Chain
import SessionScript.Proofs.Script.LineBreaks
import SessionScript.Proofs.Script.PhysicalLines
import SessionScript.Proofs.Script.Templates

/-!
# Empty lines between statements

Spacers are put behind the blocks of a session, and nothing else about a script depends on them: its
lines that are not empty are the same with spacers and without. No block has an empty line of its
own unless a selector brings one in, so there is one empty line behind the lines of each block.
Spacers are put behind blocks without lines as well, though. The statements are spaced evenly
exactly if no event gives such a block.
-/

namespace SessionScript.Script

/-- Spacers add no lines to blocks but empty ones. -/
theorem filter_spacedLines (spacers wrap : Bool) (bs : List Block) :
    ((spacedLines spacers bs).map (indented wrap)).filter (· ≠ "") =
      ((bs.flatMap Block.physicalLines).map (indented wrap)).filter (· ≠ "") := by
  have hspacer : ((if spacers then [""] else []).map (indented wrap)).filter (· ≠ "") = [] := by
    have hempty : indented wrap "" = "" := (indented_eq_empty_iff wrap "").mpr rfl
    split <;> simp [hempty]
  simp only [spacedLines, List.map_flatMap, List.filter_flatMap, List.map_append,
    List.filter_append, hspacer, List.append_nil]

/-- Empty lines between the blocks of a session change nothing about its script but the empty lines,
in both libraries and under all other options. -/
theorem spacing_changes_only_empty_lines {d : Dialect} (hd : d ∈ [puppeteer, playwright])
    (o : Options) (events : List Event) :
    (physicalLines (script d { o with blankLinesBetweenBlocks := true } events)).filter (· ≠ "") =
      (physicalLines (script d { o with blankLinesBetweenBlocks := false } events)).filter
        (· ≠ "") := by
  have hblocks : ∀ spacers,
      unspaced d { o with blankLinesBetweenBlocks := spacers } events = unspaced d o events :=
    fun spacers => unspaced_laidOut hd o o.wrapAsync o.headless spacers events
  have hlines : ∀ spacers, (physicalLines
      (script d { o with blankLinesBetweenBlocks := spacers } events)).filter (· ≠ "") =
        (headLines d o).filter (· ≠ "") ++
          (((unspaced d o events).flatMap Block.physicalLines).map
            (indented o.wrapAsync)).filter (· ≠ "") ++
          (footLines d o).filter (· ≠ "") := by
    intro spacers
    have hend : [""].filter (· ≠ "") = [] := rfl
    have hhead : headLines d { o with blankLinesBetweenBlocks := spacers } = headLines d o := rfl
    have hfoot : footLines d { o with blankLinesBetweenBlocks := spacers } = footLines d o := rfl
    rw [physicalLines_script hd, scriptLines_eq, hblocks, hhead, hfoot, List.filter_append,
      List.filter_append, List.filter_append, filter_spacedLines, hend, List.append_nil]
  rw [hlines, hlines]

/-- A link is clicked, and the tab that it opens is brought to the front. -/
def linkedTab : List Event :=
  [ { action := .click, selector := some "a" },
    { action := .tabCreate, value := some (.text "7") },
    { action := .tabChange, value := some (.text "7") } ]

/-- The lines of the script that are not empty, with or without spacers. -/
def linkedTabLines : List String :=
  [ "const puppeteer = require('puppeteer');",
    "const browser = await puppeteer.launch()",
    "const context = browser.defaultBrowserContext()",
    "let page = await context.newPage()",
    "await page.waitForSelector('a')",
    "\x7b",
    "  const [newPage] = await Promise.all([",
    "    page.waitForEvent('popup'),",
    "    page.click('a'),",
    "  ])",
    "  page = newPage",
    "\x7d",
    "page = context.pages()[1]",
    "await page.bringToFront()",
    "await browser.close()" ]

/-- Spacers add only empty lines to the script, also behind the opening of the tab, which has no
code of its own. -/
theorem linkedTab_spacing :
    puppeteer ∈ [puppeteer, playwright] ∧
      (physicalLines (script puppeteer { blankLinesBetweenBlocks := true } linkedTab)).filter
        (· ≠ "") = linkedTabLines := by
  have hd : puppeteer ∈ [puppeteer, playwright] := List.mem_cons_self
  have hplain : physicalLines (script puppeteer { blankLinesBetweenBlocks := false } linkedTab) =
      linkedTabLines ++ [""] := by
    rw [physicalLines_script hd]
    decide +kernel
  have hfull : (linkedTabLines ++ [""]).filter (· ≠ "") = linkedTabLines := by
    decide
  have hspacing := spacing_changes_only_empty_lines hd {} linkedTab
  exact ⟨hd, hspacing.trans ((congrArg (List.filter (· ≠ "")) hplain).trans hfull)⟩

/-- Does an event give a block without lines? The opening of a tab is an effect of the event before
it, a tab without an id cannot be brought to the front, and a navigation is waited for only if the
options say so. -/
def GivesNoLines (o : Options) (e : Event) : Prop :=
  match e.action with
  | .tabCreate => True
  | .tabChange => e.tabId? = none
  | .navigation => o.waitForNavigation = false
  | .keydown | .hover | .mouseMove | .click | .change | .fill | .goto | .viewport | .screenshot
  | .dblClick | .select | .submit | .load | .unload | .other _ => False

/-- The events whose blocks have no lines. -/
theorem blockOf_bare_iff (d : Dialect) (o : Options) (p : Progress) (e : Event)
    (next : Option Event) :
    (∃ b ∈ blockOf d o p e next, b.lines = []) ↔ GivesNoLines o e := by
  unfold blockOf GivesNoLines
  cases ha : e.action with
  | click => simp [clickBlock_eq ha, eventBlock]
  | keydown | hover | fill | change | goto =>
    simp [keydownBlock, hoverBlock, fillBlock, changeBlock, gotoBlock]
  | mouseMove =>
    dsimp only
    cases e.value.bind Payload.point? <;> simp [mouseMoveBlock]
  | viewport =>
    dsimp only
    cases e.value.bind Payload.size? <;> simp [viewportBlock]
  | navigation =>
    dsimp only [navigationBlock]
    cases o.waitForNavigation <;> simp
  | tabChange =>
    dsimp only [tabChangeBlock]
    cases e.tabId? <;> simp
  | screenshot =>
    dsimp only [screenshotBlock]
    split <;> simp
  | tabCreate => simp [tabCreateBlock]
  | dblClick | select | submit | load | unload | other tag => simp

/-- Looking frames up neither gives lines to a block without lines nor takes the lines of a
block. -/
theorem declareFrames_bare_iff (table : FrameTable) (bound : Bool) (bs : List Block) :
    (∃ b ∈ declareFrames table bound bs, b.lines = []) ↔ ∃ b ∈ bs, b.lines = [] := by
  induction bs generalizing table bound with
  | nil => rfl
  | cons b bs ih =>
    rw [declareFrames]
    cases hfirst : table.firstIn? b.lines with
    | none => simp only [List.exists_mem_cons_iff, ih]
    | some entry =>
      have hlines : b.lines ≠ [] := by
        intro h
        rw [h] at hfirst
        cases hfirst
      simp [ih, hlines]

/-- A session has blocks without lines exactly if one of its events gives such a block. -/
theorem unspaced_bare_iff (d : Dialect) (o : Options) (events : List Event) :
    (∃ b ∈ unspaced d o events, b.lines = []) ↔ ∃ e ∈ events, GivesNoLines o e := by
  have hwalk : ∀ p, (∃ b ∈ (walk d o p events).2, b.lines = []) ↔
      ∃ e ∈ events, GivesNoLines o e := by
    induction events with
    | nil => exact fun p => by simp [walk]
    | cons e rest ih =>
      intro p
      rw [walk]
      dsimp only
      rw [List.exists_mem_cons_iff, ← ih ((p.noteFrame e).advance e),
        ← blockOf_bare_iff d o (p.noteFrame e) e rest.head?]
      simp only [List.mem_append, Option.mem_toList, Option.mem_def, or_and_right, exists_or]
  have hpromise : promiseBlock.lines ≠ [] := List.cons_ne_nil _ _
  rw [unspaced, declareFrames_bare_iff, withPromise]
  split
  · rw [List.exists_mem_cons_iff, hwalk]
    exact or_iff_right hpromise
  · exact hwalk {}

/-- Is no physical line of a piece of code empty? -/
def IsFull (value : String) : Prop := ∀ line ∈ physicalLines value, line ≠ ""

/-- Code on one line has no empty lines if it is not empty. -/
theorem isFull_of_unbroken {value : String} (hfeed : '\n' ∉ value.toList) (hne : value ≠ "") :
    IsFull value := by
  rw [IsFull, physicalLines_of_unbroken hfeed]
  simpa using hne

/-- Code without line breaks has no line feeds. -/
theorem feed_not_mem_of_breaks {s : String} (hs : breaks s = []) : '\n' ∉ s.toList := by
  rw [← feed_mem_breaks_iff, hs]
  exact List.not_mem_nil

/-- The template that waits for a page to open, line by line. -/
theorem popup_lines (call : String) :
    popup call = "\n".intercalate ["\x7b", "  const [newPage] = await Promise.all([",
      "    page.waitForEvent('popup'),", "    " ++ call ++ ",", "  ])", "  page = newPage",
      "\x7d"] := by
  delta popup
  rw [← String.toList_inj]
  simp only [String.intercalate_cons_cons, String.intercalate_singleton, String.toList_append,
    String.reduceToList, List.append_assoc, List.cons_append, List.nil_append]

/-- Code that keeps its line structure has no empty lines if it is not empty. -/
theorem isFull_of_keepsLines {value : String} (h : KeepsLines value) (hne : value ≠ "") :
    IsFull value := by
  rcases h with hnone | ⟨⟨call, rfl⟩, hsix⟩
  · exact isFull_of_unbroken (feed_not_mem_of_breaks hnone) hne
  · have hcall : breaks call = [] := by
      have hlength := congrArg List.length (breaks_popup call ▸ hsix)
      simpa using hlength
    have hfeed := feed_not_mem_of_breaks hcall
    rw [popup_lines, IsFull, physicalLines_intercalate _ (List.cons_ne_nil _ _)]
    · simp
    · simp [hfeed]

/-- No line of an event is without pieces. -/
theorem nil_not_mem_eventPieces (d : Dialect) (o : Options) (p : Progress) (e : Event)
    (next : Option Event) : [] ∉ eventPieces d o p e next := by
  have hawait : ∀ receiver method arguments, awaitPieces receiver method arguments ≠ [] := by
    intro receiver method arguments
    simp [awaitPieces, plain]
  have hawaited : ∀ opens call, awaitedPieces opens call ≠ [] := by
    intro opens call
    cases opens <;> simp [awaitedPieces, plain]
  unfold eventPieces
  cases e.action with
  | screenshot =>
    dsimp only [screenshotPieces]
    split <;> simp [hawait, plain]
  | navigation =>
    dsimp only
    split <;> simp [plain]
  | click | keydown => simp [hawait, hawaited]
  | mouseMove => simp [movePieces, hawait]
  | hover | change | fill | goto | viewport => simp [hawait]
  | tabChange => simp [plain]
  | tabCreate | dblClick | select | submit | load | unload | other tag => exact List.not_mem_nil

/-- No line of an event is empty. -/
theorem value_ne_empty {d : Dialect} (hd : d ∈ [puppeteer, playwright]) {o : Options}
    {p : Progress} {e : Event} {next : Option Event} {line : Line}
    (hl : line ∈ linesOf (blockOf d o p e next).toList) : line.value ≠ "" := by
  intro hempty
  have hpieces : pieces line.value ∈ piecesOf (blockOf d o p e next).toList :=
    List.mem_map_of_mem hl
  have hnone : pieces "" = [] := scan_nil
  rw [blockOf_pieces hd, hempty, hnone] at hpieces
  exact nil_not_mem_eventPieces d o p e next hpieces

/-- The lines of an event have no empty physical lines if the selector has no line feed. -/
theorem isFull_blockOf {d : Dialect} (hd : d ∈ [puppeteer, playwright]) {o : Options}
    {p : Progress} {e : Event} {next : Option Event} (he : '\n' ∉ e.target.toList) {line : Line}
    (hl : line ∈ linesOf (blockOf d o p e next).toList) : IsFull line.value := by
  have hne := value_ne_empty hd hl
  by_cases hm : e.action = .mouseMove
  · rw [blockOf, hm] at hl
    dsimp only at hl
    cases hpoint : e.value.bind Payload.point? with
    | none =>
      rw [hpoint] at hl
      exact absurd hl List.not_mem_nil
    | some point =>
      rw [hpoint, Option.map_some, linesOf_some] at hl
      rw [← feed_mem_breaks_iff, ← breaks_mouseMove e _ _ line hl, feed_mem_breaks_iff] at he
      exact isFull_of_unbroken he hne
  · exact isFull_of_keepsLines (keepsLines_blockOf hd hm hl) hne

/-- The lines of blocks have no empty physical lines if no selector has a line feed. -/
theorem isFull_unspaced {d : Dialect} (hd : d ∈ [puppeteer, playwright]) (o : Options)
    {events : List Event} (hfeed : ∀ e ∈ events, '\n' ∉ e.target.toList) {line : Line}
    (hl : line ∈ linesOf (unspaced d o events)) : IsFull line.value := by
  rcases mem_unspaced hl with hcompleting | hwalk
  · have hne : line.value ≠ "" := by
      rcases hcompleting with hpromise | ⟨bound, id, hlookup⟩
      · rw [List.mem_singleton.mp hpromise]
        decide
      · simp only [lookupLines, List.mem_cons, List.not_mem_nil, or_false] at hlookup
        rcases hlookup with rfl | rfl
        · cases bound <;> simp [listFrames]
        · simp [findFrame]
    exact isFull_of_keepsLines (keepsLines_completing (Or.inr hcompleting)) hne
  · obtain ⟨b, hb, hline⟩ := List.mem_flatMap.mp hwalk
    obtain ⟨p, next, e, he, -, hblock, -⟩ := mem_walk_blocks hb
    have hevent : line ∈ linesOf (blockOf d o p e next).toList := by
      rw [hblock, linesOf_some]
      exact hline
    exact isFull_blockOf hd (hfeed e he) hevent

/-- Is one of two lines in a row not empty? -/
def Apart (line next : String) : Prop := line ≠ "" ∨ next ≠ ""

/-- Behind lines that are not empty, lines are apart exactly if they are so on their own. -/
theorem isChain_append_iff {lines rest : List String} (h : ∀ line ∈ lines, line ≠ "") :
    (lines ++ rest).IsChain Apart ↔ rest.IsChain Apart := by
  induction lines with
  | nil => rfl
  | cons line lines ih =>
    obtain ⟨hline, hlines⟩ := List.forall_mem_cons.mp h
    rw [List.cons_append, List.isChain_cons, ih hlines]
    exact and_iff_right fun next _ => Or.inl hline

/-- Lines that are not empty may stand behind an empty one, if there are any. -/
theorem isChain_empty_cons_iff {lines rest : List String} (hne : lines ≠ [])
    (h : ∀ line ∈ lines, line ≠ "") :
    ("" :: (lines ++ rest)).IsChain Apart ↔ rest.IsChain Apart := by
  obtain ⟨first, more, rfl⟩ := List.exists_cons_of_ne_nil hne
  have hfirst : Apart "" first := Or.inr (h first List.mem_cons_self)
  rw [List.cons_append, List.isChain_cons_cons, and_iff_right hfirst, ← List.cons_append,
    isChain_append_iff h]

/-- Spacers are apart exactly if all blocks have lines. -/
theorem isChain_spacedLines_iff {bs : List Block}
    (hfull : ∀ b ∈ bs, ∀ line ∈ b.physicalLines, line ≠ "") (wrap : Bool) {rest : List String}
    (hrest : ("" :: rest).IsChain Apart) :
    ("" :: ((spacedLines true bs).map (indented wrap) ++ rest)).IsChain Apart ↔
      ∀ b ∈ bs, b.lines ≠ [] := by
  induction bs with
  | nil => exact iff_of_true hrest fun b hb => absurd hb List.not_mem_nil
  | cons b bs ih =>
    obtain ⟨hb, hbs⟩ := List.forall_mem_cons.mp hfull
    have hempty : indented wrap "" = "" := (indented_eq_empty_iff wrap "").mpr rfl
    have hsplit : (spacedLines true (b :: bs)).map (indented wrap) ++ rest =
        b.physicalLines.map (indented wrap) ++
          "" :: ((spacedLines true bs).map (indented wrap) ++ rest) := by
      simp [spacedLines, hempty]
    rw [hsplit, List.forall_mem_cons, ← ih hbs]
    by_cases hlines : b.lines = []
    · have hclash : ¬Apart "" "" := not_or.mpr ⟨not_not.mpr rfl, not_not.mpr rfl⟩
      rw [b.physicalLines_eq_nil_iff.mpr hlines, List.map_nil, List.nil_append,
        List.isChain_cons_cons]
      exact iff_of_false (fun h => hclash h.1) fun h => h.1 hlines
    · have hne : b.physicalLines.map (indented wrap) ≠ [] :=
        List.map_eq_nil_iff.not.mpr (b.physicalLines_eq_nil_iff.not.mpr hlines)
      rw [isChain_empty_cons_iff hne, and_iff_right hlines]
      intro line hline
      obtain ⟨code, hcode, rfl⟩ := List.mem_map.mp hline
      exact (indented_eq_empty_iff wrap code).not.mpr (hb code hcode)

/-- Is there one empty line at most between statements, and none behind the head of the script? -/
structure EvenlySpaced (d : Dialect) (o : Options) (events : List Event) : Prop where
  /-- No two lines in a row are empty. -/
  apart : (physicalLines (script d o events)).IsChain Apart
  /-- The line after the head is not empty. -/
  start : ∃ line rest,
    physicalLines (script d o events) = headLines d o ++ line :: rest ∧ line ≠ ""

/-- A script is evenly spaced exactly if an empty line might stand between its head and the rest. -/
theorem evenlySpaced_iff {d : Dialect} (hd : d ∈ [puppeteer, playwright]) {o : Options}
    {events : List Event} (rest : List String) (hne : rest ≠ [])
    (hscript : physicalLines (script d o events) = headLines d o ++ rest) :
    EvenlySpaced d o events ↔ ("" :: rest).IsChain Apart := by
  have hhead : ∀ line ∈ headLines d o, line ≠ "" :=
    fun line hline => (isSolid_frame hd o line (List.mem_append_left _ hline)).2
  obtain ⟨first, more, rfl⟩ := List.exists_cons_of_ne_nil hne
  rw [List.isChain_cons_cons]
  constructor
  · rintro ⟨hapart, line, rest, hstart, hline⟩
    rw [hscript, isChain_append_iff hhead] at hapart
    rw [hscript, List.append_cancel_left_eq] at hstart
    cases hstart
    exact ⟨Or.inr hline, hapart⟩
  · rintro ⟨hfirst, hrest⟩
    refine ⟨?_, first, more, hscript, hfirst.resolve_left (not_not.mpr rfl)⟩
    rw [hscript, isChain_append_iff hhead]
    exact hrest

/-- No block has an empty physical line of its own, if no selector has a line feed. -/
theorem ne_empty_of_mem_unspaced {d : Dialect} (hd : d ∈ [puppeteer, playwright]) (o : Options)
    {events : List Event} (hfeed : ∀ e ∈ events, '\n' ∉ e.target.toList) :
    ∀ b ∈ unspaced d o events, ∀ line ∈ b.physicalLines, line ≠ "" := by
  intro b hb line hline
  obtain ⟨code, hcode, hline⟩ := List.mem_flatMap.mp hline
  exact isFull_unspaced hd o hfeed (List.mem_flatMap.mpr ⟨b, hb, hcode⟩) line hline

/-- The physical lines of a script with spacers: one empty line is behind the lines of each
block. -/
theorem physicalLines_spaced {d : Dialect} (hd : d ∈ [puppeteer, playwright]) {o : Options}
    (ho : o.blankLinesBetweenBlocks = true) (events : List Event) :
    physicalLines (script d o events) =
      headLines d o ++
        ((unspaced d o events).flatMap fun b => b.physicalLines ++ [""]).map
          (indented o.wrapAsync) ++
        footLines d o ++ [""] := by
  rw [physicalLines_script hd, scriptLines_eq, ho]
  rfl

/-- A script with spacers is evenly spaced exactly if all its blocks have lines. -/
theorem evenlySpaced_iff_lines {d : Dialect} (hd : d ∈ [puppeteer, playwright]) {o : Options}
    (ho : o.blankLinesBetweenBlocks = true) {events : List Event}
    (hfeed : ∀ e ∈ events, '\n' ∉ e.target.toList) :
    EvenlySpaced d o events ↔ ∀ b ∈ unspaced d o events, b.lines ≠ [] := by
  have hfoot : ("" :: (footLines d o ++ [""])).IsChain Apart := by
    have hne : footLines d o ≠ [] := by
      unfold footLines
      cases o.wrapAsync <;> simp [Dialect.closing]
    rw [isChain_empty_cons_iff hne fun line hline =>
      (isSolid_frame hd o line (List.mem_append_right _ hline)).2]
    exact List.isChain_singleton ""
  rw [evenlySpaced_iff hd (_ ++ (footLines d o ++ [""])) (by simp)]
  · exact isChain_spacedLines_iff (ne_empty_of_mem_unspaced hd o hfeed) o.wrapAsync hfoot
  · rw [physicalLines_spaced hd ho, List.append_assoc, List.append_assoc]
    rfl

/-- With spacers and without line feeds in selectors, the lines of a block, none of which is empty,
have one empty line behind them, in both libraries and under all other options. So empty lines are
single, and the head of the script has none behind it, exactly if no event gives a block without
lines. -/
theorem evenly_spaced_iff_all_give_lines {d : Dialect} (hd : d ∈ [puppeteer, playwright])
    {o : Options} (ho : o.blankLinesBetweenBlocks = true) {events : List Event}
    (hfeed : ∀ e ∈ events, '\n' ∉ e.target.toList) :
    (physicalLines (script d o events) =
        headLines d o ++
          ((unspaced d o events).flatMap fun b => b.physicalLines ++ [""]).map
            (indented o.wrapAsync) ++
          footLines d o ++ [""] ∧
      ∀ b ∈ unspaced d o events, ∀ line ∈ b.physicalLines, line ≠ "") ∧
      (EvenlySpaced d o events ↔ ∀ e ∈ events, ¬GivesNoLines o e) := by
  refine ⟨⟨physicalLines_spaced hd ho events, ne_empty_of_mem_unspaced hd o hfeed⟩, ?_⟩
  have hbare := (unspaced_bare_iff d o events).not
  rw [evenlySpaced_iff_lines hd ho hfeed]
  simpa only [not_exists, not_and] using hbare

/-- A link is clicked, and the page that it leads to is waited for and pictured. -/
def followedLink : List Event :=
  [ { action := .click, selector := some "a" },
    { action := .navigation },
    { action := .screenshot } ]

/-- The link is followed in evenly spaced statements. -/
theorem followedLink_evenly_spaced :
    playwright ∈ [puppeteer, playwright] ∧
      ({} : Options).blankLinesBetweenBlocks = true ∧
      (∀ e ∈ followedLink, '\n' ∉ e.target.toList) ∧
      EvenlySpaced playwright {} followedLink := by
  have hd : playwright ∈ [puppeteer, playwright] := List.mem_cons_of_mem _ List.mem_cons_self
  have hfeed : ∀ e ∈ followedLink, '\n' ∉ e.target.toList := by decide
  refine ⟨hd, rfl, hfeed, (evenly_spaced_iff_all_give_lines hd rfl hfeed).2.mpr ?_⟩
  simp [followedLink, GivesNoLines]

/-- The opening of the tab gives a block without lines, and there are two empty lines in its
place. -/
theorem linkedTab_not_evenly_spaced :
    puppeteer ∈ [puppeteer, playwright] ∧
      ({} : Options).blankLinesBetweenBlocks = true ∧
      (∀ e ∈ linkedTab, '\n' ∉ e.target.toList) ∧
      ¬EvenlySpaced puppeteer {} linkedTab := by
  have hd : puppeteer ∈ [puppeteer, playwright] := List.mem_cons_self
  have hfeed : ∀ e ∈ linkedTab, '\n' ∉ e.target.toList := by decide
  refine ⟨hd, rfl, hfeed, fun hspaced => ?_⟩
  have hlines := (evenlySpaced_iff_lines hd rfl hfeed).mp hspaced
  have hbare : ∃ b ∈ unspaced puppeteer {} linkedTab, b.lines = [] :=
    (unspaced_bare_iff puppeteer {} linkedTab).mpr
      ⟨_, List.mem_cons_of_mem _ List.mem_cons_self, trivial⟩
  obtain ⟨b, hb, hnil⟩ := hbare
  exact hlines b hb hnil

end SessionScript.Script
