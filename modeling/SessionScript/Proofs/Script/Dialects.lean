import Mathlib.Data.List.Forall2
import SessionScript.Proofs.Script.Progress

/-!
# The two libraries side by side

The scripts of a session for the two libraries are built in lockstep. Their blocks correspond one to
one, and so do their lines, except that one of the libraries may wait behind a click until the
network is idle. Corresponding lines have the same code, unless they set the viewport or choose from
a drop-down list: then they are the two spellings of one statement about the same event.
-/

namespace SessionScript.Script

/-- Lines of the two libraries that correspond to each other in the script of a session. -/
structure LinesAgree (events : List Event) (line line' : Line) : Prop where
  /-- They come from the same kind of event. -/
  kind : line.kind = line'.kind
  /-- They act in the same frame. -/
  frame : line.frame = line'.frame
  /-- Setting the viewport is spelled by both for the same frame and size. -/
  viewport : line.kind = some (.action .viewport) → ∃ e ∈ events, ∃ width height,
    e.frame = line.frame ∧ e.value = some (.size width height) ∧
      line.value = puppeteer.viewport (receiver e) width height ∧
      line'.value = playwright.viewport (receiver e) width height
  /-- Choosing from a list is spelled by both for the same frame, selector and value. -/
  change : line.kind = some (.action .change) → ∃ e ∈ events, e.frame = line.frame ∧
    line.value = puppeteer.selectOption (receiver e) (escape e.target) (escape e.typedValue) ∧
    line'.value = playwright.selectOption (receiver e) (escape e.target) (escape e.typedValue)
  /-- All other code is the same. -/
  code : line.kind ≠ some (.action .viewport) → line.kind ≠ some (.action .change) →
    line.value = line'.value

/-- Does a block hold a line of a click? -/
def Block.holdsClick (b : Block) : Bool := b.lines.any (·.kind = some (.action .click))

/-- A block without the wait behind its click, when the options ask for one. -/
def Block.withoutIdle (o : Options) (b : Block) : Block :=
  if o.waitForNetworkIdleAfterClick && b.holdsClick then { b with lines := b.lines.dropLast } else b

/-- The line that waits behind a click until the network is idle. -/
def idleLine (frame : UInt64) : Line :=
  ⟨some (.action .click), "await page.waitForLoadState('networkidle')", frame⟩

/-- Blocks of the two libraries that correspond to each other in the script of a session. -/
structure BlocksAgree (o : Options) (events : List Event) (b b' : Block) : Prop where
  /-- Both are spacers, or none is. -/
  spacer : b.isSpacer = b'.isSpacer
  /-- They are of the same frame. -/
  frame : b.frame = b'.frame
  /-- What the second library has more is the wait behind a click. -/
  idle : o.waitForNetworkIdleAfterClick = true → b'.holdsClick = true →
    b'.lines.getLast? = some (idleLine b'.frame)
  /-- Without it, the lines correspond. -/
  lines : List.Forall₂ (LinesAgree events) b.lines (b'.withoutIdle o).lines

/-- A line that neither sets the viewport nor chooses from a list corresponds to itself. -/
theorem LinesAgree.same {events : List Event} {line : Line}
    (hv : line.kind ≠ some (.action .viewport)) (hc : line.kind ≠ some (.action .change)) :
    LinesAgree events line line where
  kind := rfl
  frame := rfl
  viewport h := absurd h hv
  change h := absurd h hc
  code _ _ := rfl

/-- A block without clicks is not cut. -/
theorem withoutIdle_of_clickless {o : Options} {b : Block} (hb : b.holdsClick = false) :
    b.withoutIdle o = b := by
  rw [Block.withoutIdle, hb, Bool.and_false]
  rfl

/-- A block in which no library has its own spelling corresponds to itself. -/
theorem BlocksAgree.same {o : Options} {events : List Event} {b : Block}
    (hkinds : ∀ line ∈ b.lines, line.kind ≠ some (.action .viewport) ∧
      line.kind ≠ some (.action .change) ∧ line.kind ≠ some (.action .click)) :
    BlocksAgree o events b b := by
  have hclick : b.holdsClick = false := by
    rw [Block.holdsClick, List.any_eq_false]
    intro line hl
    simpa using (hkinds line hl).2.2
  refine ⟨rfl, rfl, fun _ h => ?_, ?_⟩
  · rw [hclick] at h
    cases h
  · rw [withoutIdle_of_clickless hclick]
    exact List.forall₂_same.mpr fun line hl => .same (hkinds line hl).1 (hkinds line hl).2.1

/-- The block of an event is never a spacer. -/
theorem isSpacer_eventBlock (e : Event) (values : List String) :
    (eventBlock e values).isSpacer = false := by
  match values with
  | [] => rfl
  | [_] => rfl
  | _ :: _ :: _ => rfl

/-- The block of an event holds a click only if the event is one. -/
theorem holdsClick_eventBlock {e : Event} (ha : e.action ≠ .click) (values : List String) :
    (eventBlock e values).holdsClick = false := by
  simp [Block.holdsClick, eventBlock, ha]

section Events

variable {o : Options} {events : List Event} {e : Event}

/-- Blocks of one event other than a click correspond when their lines do. -/
theorem eventBlock_agrees (hclick : e.action ≠ .click) {values values' : List String}
    (hlines : List.Forall₂ (LinesAgree events) (eventBlock e values).lines
      (eventBlock e values').lines) :
    BlocksAgree o events (eventBlock e values) (eventBlock e values') := by
  have hholds := holdsClick_eventBlock hclick values'
  refine ⟨?_, rfl, fun _ h => ?_, ?_⟩
  · rw [isSpacer_eventBlock, isSpacer_eventBlock]
  · rw [hholds] at h
    cases h
  · rwa [withoutIdle_of_clickless hholds]

/-- A click corresponds to the same click with a wait behind it. -/
theorem eventBlock_agrees_click (ha : e.action = .click) {values : List String}
    (hv : values ≠ []) :
    BlocksAgree o events (eventBlock e (values ++ (puppeteer.afterClick o).toList))
      (eventBlock e (values ++ (playwright.afterClick o).toList)) := by
  have hholds : ∀ more, (eventBlock e (values ++ more)).holdsClick = true := by
    intro more
    obtain ⟨value, rest, rfl⟩ := List.exists_cons_of_ne_nil hv
    simp [Block.holdsClick, eventBlock, ha]
  have hsame : List.Forall₂ (LinesAgree events) (eventBlock e values).lines
      (eventBlock e values).lines := by
    refine List.forall₂_same.mpr fun line hl => ?_
    obtain ⟨value, -, rfl⟩ := List.mem_map.mp hl
    exact .same (by simp [ha]) (by simp [ha])
  have hplain : (puppeteer.afterClick o).toList = [] := rfl
  cases hidle : o.waitForNetworkIdleAfterClick with
  | false =>
    have hnone : (playwright.afterClick o).toList = [] := by simp [playwright, hidle]
    rw [hplain, hnone, List.append_nil]
    have hwhole : (eventBlock e values).withoutIdle o = eventBlock e values := by
      rw [Block.withoutIdle, hidle, Bool.false_and]
      rfl
    refine ⟨rfl, rfl, fun h => ?_, ?_⟩
    · rw [hidle] at h
      cases h
    · rwa [hwhole]
  | true =>
    have hwait : (playwright.afterClick o).toList =
        ["await page.waitForLoadState('networkidle')"] := by simp [playwright, hidle]
    have hlines : (eventBlock e (values ++ ["await page.waitForLoadState('networkidle')"])).lines =
        (eventBlock e values).lines ++ [idleLine e.frame] := by
      simp [eventBlock, idleLine, ha]
    rw [hplain, hwait, List.append_nil]
    refine ⟨by rw [isSpacer_eventBlock, isSpacer_eventBlock], rfl, fun _ _ => ?_, ?_⟩
    · rw [hlines, List.getLast?_append_of_ne_nil _ (List.cons_ne_nil _ _)]
      rfl
    · rw [Block.withoutIdle, hidle, hholds, Bool.and_self, if_pos rfl]
      dsimp only
      rw [hlines, List.dropLast_concat]
      exact hsame

/-- Both libraries set the viewport to the same size. -/
theorem eventBlock_agrees_viewport (ha : e.action = .viewport) (he : e ∈ events)
    {width height : UInt32} (hsize : e.value = some (.size width height)) {value value' : String}
    (hv : value = puppeteer.viewport (receiver e) width height)
    (hv' : value' = playwright.viewport (receiver e) width height) :
    BlocksAgree o events (eventBlock e [value]) (eventBlock e [value']) := by
  have hline : LinesAgree events ⟨some (.action e.action), value, e.frame⟩
      ⟨some (.action e.action), value', e.frame⟩ :=
    { kind := rfl
      frame := rfl
      viewport := fun _ => ⟨e, he, width, height, rfl, hsize, hv, hv'⟩
      change := fun h => by simp [ha] at h
      code := fun h => by simp [ha] at h }
  exact eventBlock_agrees (by simp [ha]) (.cons hline .nil)

/-- Both libraries choose the same value from the same list. -/
theorem eventBlock_agrees_change (ha : e.action = .change) (he : e ∈ events)
    {value value' : String}
    (hv : value = puppeteer.selectOption (receiver e) (selectorText e) (escape e.typedValue))
    (hv' : value' = playwright.selectOption (receiver e) (selectorText e) (escape e.typedValue)) :
    BlocksAgree o events (eventBlock e [value]) (eventBlock e [value']) := by
  have hline : LinesAgree events ⟨some (.action e.action), value, e.frame⟩
      ⟨some (.action e.action), value', e.frame⟩ :=
    { kind := rfl
      frame := rfl
      viewport := fun h => by simp [ha] at h
      change := fun _ => ⟨e, he, rfl, hv, hv'⟩
      code := fun _ h => by simp [ha] at h }
  exact eventBlock_agrees (by simp [ha]) (.cons hline .nil)

end Events

/-- A click gives the same lines in every library, apart from what may follow it. -/
theorem blockOf_click (o : Options) (p : Progress) {e : Event} (ha : e.action = .click)
    (next : Option Event) :
    ∃ values ≠ [], ∀ d, blockOf d o p e next =
      some (eventBlock e (values ++ (d.afterClick o).toList)) := by
  have hblock : ∀ d, blockOf d o p e next = some (clickBlock d o (opensTab next) e) := by
    intro d
    rw [blockOf, ha]
  refine ⟨_, ?_, fun d => (hblock d).trans (congrArg some (clickBlock_eq ha))⟩
  simp

/-- What one event gives in the two libraries: no block in either, or corresponding blocks that are
both empty or both not. -/
theorem blockOf_agrees (o : Options) (p : Progress) {events : List Event} {e : Event}
    (he : e ∈ events) (next : Option Event) :
    (blockOf puppeteer o p e next = none ∧ blockOf playwright o p e next = none) ∨
      ∃ values values', blockOf puppeteer o p e next = some (eventBlock e values) ∧
        blockOf playwright o p e next = some (eventBlock e values') ∧
        (values = [] ↔ values' = []) ∧
        BlocksAgree o events (eventBlock e values) (eventBlock e values') := by
  by_cases hclick : e.action = .click
  · obtain ⟨values, hv, hblock⟩ := blockOf_click o p hclick next
    refine Or.inr ⟨_, _, hblock puppeteer, hblock playwright, ?_,
      eventBlock_agrees_click hclick hv⟩
    simp [hv]
  by_cases hviewport : e.action = .viewport
  · cases hsize : e.value.bind Payload.size? with
    | none => exact Or.inl (by simp [blockOf, hviewport, hsize])
    | some size =>
      have hvalue : e.value = some (.size size.1 size.2) := by
        cases hv : e.value with
        | none => simp [hv] at hsize
        | some payload =>
          rw [hv, Option.bind_some] at hsize
          cases payload with
          | size width height =>
            cases hsize
            rfl
          | point | number | text => cases hsize
      have hblock : ∀ d, blockOf d o p e next =
          some (eventBlock e [d.viewport (receiver e) size.1 size.2]) := by
        intro d
        simp only [blockOf, hviewport, hsize, Option.map_some]
        exact congrArg some (single_eq_eventBlock hviewport _)
      exact Or.inr ⟨_, _, hblock puppeteer, hblock playwright, by simp,
        eventBlock_agrees_viewport hviewport he hvalue rfl rfl⟩
  by_cases hchange : e.action = .change
  · by_cases hselect : e.isSelect
    · have hblock : ∀ d, blockOf d o p e next = some (eventBlock e
          [d.selectOption (receiver e) (selectorText e) (escape e.typedValue)]) := by
        intro d
        simp only [blockOf, hchange, if_pos hselect]
        exact congrArg some (single_eq_eventBlock hchange _)
      exact Or.inr ⟨_, _, hblock puppeteer, hblock playwright, by simp,
        eventBlock_agrees_change hchange he rfl rfl⟩
    · exact Or.inl (by simp [blockOf, hchange, hselect])
  · have hshared : blockOf puppeteer o p e next = blockOf playwright o p e next := by
      unfold blockOf
      cases ha : e.action with
      | click => exact absurd ha hclick
      | viewport => exact absurd ha hviewport
      | change => exact absurd ha hchange
      | keydown | hover | mouseMove | fill | goto | navigation | tabCreate | tabChange | screenshot
      | dblClick | select | submit | load | unload | other tag => rfl
    cases hb : blockOf playwright o p e next with
    | none => exact Or.inl ⟨hshared.trans hb, rfl⟩
    | some b =>
      obtain ⟨values, rfl⟩ := blockOf_eq_eventBlock hb
      have hkinds : ∀ line ∈ (eventBlock e values).lines,
          line.kind ≠ some (.action .viewport) ∧ line.kind ≠ some (.action .change) ∧
            line.kind ≠ some (.action .click) := by
        intro line hl
        obtain ⟨value, -, rfl⟩ := List.mem_map.mp hl
        simp [hclick, hviewport, hchange]
      exact Or.inr ⟨values, values, hshared.trans hb, rfl, Iff.rfl, .same hkinds⟩

/-- A block of a frame with the lookup of the frame in front. -/
def Block.withLookup (bound : Bool) (url : String) (b : Block) : Block :=
  ⟨b.frame, lookupLines bound b.frame url ++ b.lines⟩

/-- A lookup is not a click. -/
theorem holdsClick_withLookup (bound : Bool) (url : String) (b : Block) :
    (b.withLookup bound url).holdsClick = b.holdsClick := by
  simp [Block.withLookup, Block.holdsClick, lookupLines]

/-- A lookup is in front of what may be cut off at the end. -/
theorem withoutIdle_withLookup (o : Options) (bound : Bool) (url : String) {b : Block}
    (hb : b.lines ≠ []) :
    ((b.withLookup bound url).withoutIdle o).lines =
      lookupLines bound b.frame url ++ (b.withoutIdle o).lines := by
  unfold Block.withoutIdle
  rw [holdsClick_withLookup]
  split
  · exact List.dropLast_append_of_ne_nil hb
  · rfl

/-- Looking a frame up in front of corresponding blocks keeps them corresponding. -/
theorem BlocksAgree.withLookup {o : Options} {events : List Event} {b b' : Block}
    (h : BlocksAgree o events b b') (hb' : b'.lines ≠ []) (bound : Bool)
    (url : String) : BlocksAgree o events (b.withLookup bound url) (b'.withLookup bound url) := by
  have hlookup : List.Forall₂ (LinesAgree events) (lookupLines bound b.frame url)
      (lookupLines bound b'.frame url) := by
    rw [h.frame]
    exact .cons (.same (by simp) (by simp)) (.cons (.same (by simp) (by simp)) .nil)
  refine ⟨rfl, h.frame, fun ho hc => ?_, ?_⟩
  · rw [holdsClick_withLookup] at hc
    have hlast := h.idle ho hc
    rw [Block.withLookup, List.getLast?_append_of_ne_nil _ hb']
    exact hlast
  · rw [withoutIdle_withLookup o bound url hb']
    exact List.rel_append hlookup h.lines

/-- Once frames are looked up, the blocks of the two walks correspond. -/
theorem walk_agrees (o : Options) (p : Progress) {events rest : List Event} (hrest : rest ⊆ events)
    (table : FrameTable) (bound : Bool) :
    List.Forall₂ (BlocksAgree o events) (declareFrames table bound (walk puppeteer o p rest).2)
      (declareFrames table bound (walk playwright o p rest).2) := by
  induction rest generalizing p table bound with
  | nil => exact .nil
  | cons e rest ih =>
    obtain ⟨he, hrest⟩ := List.cons_subset.mp hrest
    rw [walk, walk]
    dsimp only
    rcases blockOf_agrees o (p.noteFrame e) he rest.head? with
      ⟨hb, hb'⟩ | ⟨values, values', hb, hb', hempty, hblock⟩ <;> rw [hb, hb']
    · exact ih _ hrest table bound
    · rw [Option.toList_some, List.singleton_append, Option.toList_some, List.singleton_append]
      by_cases hskip : values = [] ∨ e.frame = 0 ∨ table.url? e.frame = none
      · have hskip' : values' = [] ∨ e.frame = 0 ∨ table.url? e.frame = none :=
          hskip.imp_left hempty.mp
        rw [declareFrames_known hskip, declareFrames_known hskip']
        exact .cons hblock (ih _ hrest table bound)
      · obtain ⟨hvalues, hpage, hsome⟩ := not_or.mp hskip |>.imp_right not_or.mp
        obtain ⟨url, hurl⟩ := Option.ne_none_iff_exists'.mp hsome
        have hvalues' : values' ≠ [] := mt hempty.mpr hvalues
        have hlines : (eventBlock e values').lines ≠ [] := by
          simpa [eventBlock] using hvalues'
        rw [declareFrames_lookup hvalues hpage hurl, declareFrames_lookup hvalues' hpage hurl]
        exact .cons (hblock.withLookup hlines bound url)
          (ih _ hrest (table.erase e.frame) true)

/-- What the walk remembers does not depend on the library. -/
theorem walk_progress (d d' : Dialect) (o : Options) (p : Progress) (events : List Event) :
    (walk d o p events).1 = (walk d' o p events).1 := by
  induction events generalizing p with
  | nil => rfl
  | cons e rest ih => exact ih _

/-- A spacer corresponds to a spacer. -/
theorem spacer_agrees (o : Options) (events : List Event) :
    BlocksAgree o events Block.spacer Block.spacer :=
  .same fun line hl => by
    rw [List.mem_singleton.mp hl]
    decide

/-- The promises of a navigation correspond. -/
theorem promiseBlock_agrees (o : Options) (events : List Event) :
    BlocksAgree o events promiseBlock promiseBlock :=
  .same fun line hl => by
    rw [List.mem_singleton.mp hl]
    decide

/-- Before spacers are put between them, the blocks of the two libraries correspond. -/
theorem unspaced_agrees (o : Options) (events : List Event) :
    List.Forall₂ (BlocksAgree o events) (unspaced puppeteer o events)
      (unspaced playwright o events) := by
  have hwalk := walk_agrees o {} (List.Subset.refl events) (walk puppeteer o {} events).1.frames
    false
  rw [unspaced_eq, unspaced_eq, walk_progress playwright puppeteer]
  split
  · exact .cons (promiseBlock_agrees o events) hwalk
  · exact hwalk

/-- Spacers between corresponding blocks correspond. -/
theorem spaced_agrees {o : Options} {events : List Event} {bs bs' : List Block}
    (h : List.Forall₂ (BlocksAgree o events) bs bs') :
    List.Forall₂ (BlocksAgree o events) (spaced bs) (spaced bs') := by
  have hspacer := spacer_agrees o events
  refine .cons hspacer (List.rel_flatMap h fun b b' hb => ?_)
  exact .cons hb (.cons hspacer .nil)

/-- The scripts of a session for the two libraries differ only where the libraries do. There are as
many blocks in both, with spacers in the same places; when the options ask for a wait behind clicks,
it is the last line of each block with a click in one of them; and all other lines correspond, with
the same code unless both spell the same viewport or the same choice in their own way. -/
theorem libraries_differ_only_in_spelling (o : Options) (events : List Event) :
    List.Forall₂ (BlocksAgree o events) (blocks puppeteer o events) (blocks playwright o events) := by
  have hunspaced := unspaced_agrees o events
  have hempty : (unspaced puppeteer o events).isEmpty = (unspaced playwright o events).isEmpty := by
    rw [Bool.eq_iff_iff, List.isEmpty_iff_length_eq_zero, List.isEmpty_iff_length_eq_zero,
      hunspaced.length_eq]
  rw [blocks_eq, blocks_eq, hempty]
  split
  · exact spaced_agrees hunspaced
  · exact hunspaced

end SessionScript.Script
