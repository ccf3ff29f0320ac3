import SessionScript.Proofs.Script.Progress

/-!
# The block of each event by its position

The walk carries frames, tabs and a counter from event to event. What an event gives is nevertheless
decided by the event and three facts about its position: whether the next event opens a tab, where
the tab that it names stands among the tabs opened before it, and how many pictures were taken before
it. So the walk is the list of these blocks in the order of the events; no frame of an earlier event
shows in a later one. The lookups of frames and the promise of a navigation, which are put in
afterwards, are set aside here.
-/

namespace SessionScript.Script

/-- What an event's block may depend on besides the event. -/
structure Surroundings where
  /-- Does the next event open a tab? -/
  opensTab : Bool
  /-- Where the tab that the event names stands, if it names one. -/
  tab : Option Nat
  /-- The number of the picture that the event would take. -/
  picture : Nat
  deriving DecidableEq

/-- The ids of the tabs that events open. -/
def openedTabs (events : List Event) : List Int :=
  events.filterMap fun e => if e.action = .tabCreate then e.tabId? else none

/-- What surrounds an event at a position of a session. The first tab has the id zero, and a tab that
was never opened counts as the first. -/
def surroundingsAt (events : List Event) (i : Nat) (e : Event) : Surroundings where
  opensTab := events[i + 1]?.any (·.action = .tabCreate)
  tab := e.tabId?.map fun id => ((0 :: openedTabs (events.take i)).idxOf? id).getD 0
  picture := 1 + (events.take i).countP (·.action = .screenshot)

/-- The block of an event in its surroundings. Some events give none. -/
def blockIn (d : Dialect) (o : Options) (around : Surroundings) (e : Event) : Option Block :=
  match e.action with
  | .keydown => some (keydownBlock o around.opensTab e)
  | .hover => some (hoverBlock e)
  | .mouseMove => (e.value.bind Payload.point?).map fun (x, y) => mouseMoveBlock e x y
  | .click => some (clickBlock d o around.opensTab e)
  | .change => if e.isSelect then some (changeBlock d e) else none
  | .fill => some (fillBlock e)
  | .goto => e.href.map (gotoBlock e)
  | .viewport =>
    (e.value.bind Payload.size?).map fun (width, height) => viewportBlock d e width height
  | .navigation => some (navigationBlock o e)
  | .tabCreate => some (tabCreateBlock e)
  | .tabChange => some (tabChangeBlock e around.tab)
  | .screenshot => some (screenshotBlock around.picture e)
  | .dblClick | .select | .submit | .load | .unload | .other _ => none

/-- Of the progress of the walk, an event reads at most the position of its tab and the number of
pictures. -/
theorem blockOf_eq_blockIn {d : Dialect} {o : Options} {p : Progress} {e : Event}
    {next : Option Event} {around : Surroundings} (hopens : around.opensTab = opensTab next)
    (htab : around.tab = e.tabId?.map p.tabPosition)
    (hpicture : e.action = .screenshot → around.picture = (p.pictures + 1).toNat) :
    blockOf d o p e next = blockIn d o around e := by
  unfold blockOf blockIn
  cases ha : e.action with
  | keydown | click => rw [hopens]
  | tabChange => rw [htab]
  | screenshot => rw [hpicture ha]
  | hover | mouseMove | change | fill | goto | viewport | navigation | tabCreate | dblClick | select
  | submit | load | unload | other tag => rfl

/-- A progress that was reached by walking some events: it has the tabs they opened and counts the
pictures they took. -/
structure Progress.Follows (p : Progress) (before : List Event) : Prop where
  /-- The tabs are the first one and those that were opened. -/
  tabs : p.tabs = 0 :: openedTabs before
  /-- The counter is the number of pictures that were taken. -/
  pictures : p.pictures.toNat = before.countP (·.action = .screenshot)

/-- The walk starts behind no events. -/
theorem follows_start : ({} : Progress).Follows [] := ⟨rfl, rfl⟩

/-- The counter of pictures does not overflow below its width. -/
theorem pictures_succ {p : Progress} {before : List Event} (hp : p.Follows before)
    (hroom : before.countP (·.action = .screenshot) + 1 < 0x100000000) :
    (p.pictures + 1).toNat = 1 + before.countP (·.action = .screenshot) := by
  have hcount : p.pictures.toNat = before.countP (·.action = .screenshot) := hp.pictures
  have hone : (1 : UInt32).toNat = 1 := rfl
  rw [UInt32.toNat_add, hcount, hone, Nat.mod_eq_of_lt hroom, Nat.add_comm]

/-- An event takes the progress one event further. -/
theorem Progress.Follows.advance {p : Progress} {before : List Event} (hp : p.Follows before)
    (e : Event) (hroom : (before ++ [e]).countP (·.action = .screenshot) < 0x100000000) :
    ((p.noteFrame e).advance e).Follows (before ++ [e]) := by
  constructor
  · rw [advance_tabs, noteFrame_tabs, hp.tabs, List.cons_append]
    unfold openedTabs
    rw [List.filterMap_append]
    congr 2
    split
    · rename_i ha
      cases hid : e.tabId? <;> simp [ha, hid]
    · rename_i ha
      simp [ha]
  · rw [advance_pictures, noteFrame_pictures]
    by_cases ha : e.action = .screenshot
    · have hlast : (before ++ [e]).countP (·.action = .screenshot) =
          before.countP (·.action = .screenshot) + 1 := by simp [ha]
      rw [hlast] at hroom
      rw [if_pos ha, pictures_succ hp hroom, hlast, Nat.add_comm]
    · have hlast : (before ++ [e]).countP (·.action = .screenshot) =
          before.countP (·.action = .screenshot) := by simp [ha]
      rw [if_neg ha, hlast]
      exact hp.pictures

/-- Behind some events, the walk gives the block of the next event in its surroundings. -/
theorem blockOf_eq_surroundingsAt {d : Dialect} {o : Options} {p : Progress} {before rest : List Event}
    {e : Event} (hp : p.Follows before)
    (hroom : (before ++ [e]).countP (·.action = .screenshot) < 0x100000000) :
    blockOf d o (p.noteFrame e) e rest.head? =
      blockIn d o (surroundingsAt (before ++ e :: rest) before.length e) e := by
  have htake : (before ++ e :: rest).take before.length = before := List.take_left
  have hnext : (before ++ e :: rest)[before.length + 1]? = rest.head? := by
    rw [List.getElem?_append_right (Nat.le_add_right _ _), Nat.add_sub_cancel_left,
      List.getElem?_cons_succ, List.head?_eq_getElem?]
  apply blockOf_eq_blockIn
  · rw [surroundingsAt, hnext]
    rfl
  · have hposition : (p.noteFrame e).tabPosition =
        fun id => ((0 :: openedTabs before).idxOf? id).getD 0 := by
      funext id
      rw [Progress.tabPosition, noteFrame_tabs, hp.tabs]
    rw [surroundingsAt, htake, hposition]
  · intro ha
    have hlast : (before ++ [e]).countP (·.action = .screenshot) =
        before.countP (·.action = .screenshot) + 1 := by simp [ha]
    rw [hlast] at hroom
    rw [surroundingsAt, htake, noteFrame_pictures, pictures_succ hp hroom]

/-- The walk from behind some events gives the blocks of the remaining events in their
surroundings. -/
theorem walk_eq_blocksIn {d : Dialect} {o : Options} {p : Progress} {before events : List Event}
    (hp : p.Follows before)
    (hroom : (before ++ events).countP (·.action = .screenshot) < 0x100000000) :
    (walk d o p events).2 = (events.zipIdx before.length).filterMap fun (e, i) =>
      blockIn d o (surroundingsAt (before ++ events) i e) e := by
  induction events generalizing p before with
  | nil => rfl
  | cons e rest ih =>
    have hsplit : before ++ e :: rest = (before ++ [e]) ++ rest := by simp
    have hlength : (before ++ [e]).length = before.length + 1 := by simp
    have hhere : (before ++ [e]).countP (·.action = .screenshot) < 0x100000000 := by
      rw [hsplit, List.countP_append] at hroom
      omega
    have hblock : blockOf d o (p.noteFrame e) e rest.head? =
        blockIn d o (surroundingsAt (before ++ e :: rest) before.length e) e :=
      blockOf_eq_surroundingsAt hp hhere
    have hrest := ih (hp.advance e hhere) (hsplit ▸ hroom)
    rw [hlength, ← hsplit] at hrest
    rw [walk]
    dsimp only
    rw [hrest, hblock, List.zipIdx_cons, List.filterMap_cons]
    dsimp only
    cases blockIn d o (surroundingsAt (before ++ e :: rest) before.length e) e <;> rfl

/-- Does a block declare the promise of a navigation? -/
def Block.declaresPromise (b : Block) : Bool :=
  b.lines.any (·.kind = some .navigationPromise)

/-- A block without the lines that look frames up. -/
def Block.withoutLookups (b : Block) : Block :=
  { b with lines := b.lines.filter (·.kind ≠ some .frameSet) }

/-- Blocks without the promise of a navigation and without the lookups of frames. -/
def bareBlocks (blocks : List Block) : List Block :=
  (blocks.filter (!·.declaresPromise)).map Block.withoutLookups

/-- The block of an event does not declare the promise of a navigation. -/
theorem declaresPromise_eventBlock (e : Event) (values : List String) :
    (eventBlock e values).declaresPromise = false := by
  simp [Block.declaresPromise, eventBlock]

/-- The block of an event looks no frame up. -/
theorem withoutLookups_eventBlock (e : Event) (values : List String) :
    (eventBlock e values).withoutLookups = eventBlock e values := by
  simp [Block.withoutLookups, eventBlock]

/-- The lookup of a frame in front of the block of an event can be taken off again. -/
theorem withoutLookups_lookup (bound : Bool) (url : String) (e : Event) (values : List String) :
    (⟨e.frame, lookupLines bound e.frame url ++ (eventBlock e values).lines⟩ :
      Block).withoutLookups = eventBlock e values := by
  have hframe : (eventBlock e values).frame = e.frame := rfl
  have hbare := withoutLookups_eventBlock e values
  simpa [Block.withoutLookups, lookupLines, hframe] using hbare

/-- Without lookups and the promise, the first block is that of its event. -/
theorem bareBlocks_declareFrames_cons (table : FrameTable) (bound : Bool) (e : Event)
    (values : List String) (rest : List Block) :
    ∃ table' bound', bareBlocks (declareFrames table bound (eventBlock e values :: rest)) =
      eventBlock e values :: bareBlocks (declareFrames table' bound' rest) := by
  by_cases hskip : values = [] ∨ e.frame = 0 ∨ table.url? e.frame = none
  · refine ⟨table, bound, ?_⟩
    rw [declareFrames_known hskip, bareBlocks,
      List.filter_cons_of_pos (by rw [declaresPromise_eventBlock]; rfl), List.map_cons,
      withoutLookups_eventBlock]
    rfl
  · obtain ⟨hvalues, hpage, hsome⟩ := not_or.mp hskip |>.imp_right not_or.mp
    obtain ⟨url, hurl⟩ := Option.ne_none_iff_exists'.mp hsome
    refine ⟨table.erase e.frame, true, ?_⟩
    have hpromise : (⟨e.frame, lookupLines bound e.frame url ++ (eventBlock e values).lines⟩ :
        Block).declaresPromise = false := by
      simpa [Block.declaresPromise, lookupLines] using declaresPromise_eventBlock e values
    rw [declareFrames_lookup hvalues hpage hurl, bareBlocks,
      List.filter_cons_of_pos (by rw [hpromise]; rfl), List.map_cons, withoutLookups_lookup]
    rfl

/-- Without lookups of frames, the blocks are those of the walk. -/
theorem bareBlocks_declareFrames_walk (d : Dialect) (o : Options) (p : Progress)
    (events : List Event) (table : FrameTable) (bound : Bool) :
    bareBlocks (declareFrames table bound (walk d o p events).2) = (walk d o p events).2 := by
  induction events generalizing p table bound with
  | nil => rfl
  | cons e rest ih =>
    rw [walk]
    dsimp only
    cases hb : blockOf d o (p.noteFrame e) e rest.head? with
    | none => exact ih _ _ _
    | some b =>
      obtain ⟨values, rfl⟩ := blockOf_eq_eventBlock hb
      rw [Option.toList_some, List.singleton_append]
      obtain ⟨table', bound', hcons⟩ := bareBlocks_declareFrames_cons table bound e values
        (walk d o ((p.noteFrame e).advance e) rest).2
      rw [hcons, ih]

/-- Without the promise of a navigation and the lookups of frames, the blocks of a session are those
of its walk. -/
theorem bareBlocks_unspaced (d : Dialect) (o : Options) (events : List Event) :
    bareBlocks (unspaced d o events) = (walk d o {} events).2 := by
  have hpromise : bareBlocks [promiseBlock] = [] := rfl
  have hwalk := bareBlocks_declareFrames_walk d o {} events (walk d o {} events).1.frames false
  rw [unspaced_eq, bareBlocks, List.filter_append, List.map_append]
  rw [bareBlocks] at hwalk
  rw [hwalk]
  split
  · exact congrArg (· ++ (walk d o {} events).2) hpromise
  · rfl

/-- For every session with fewer than `2 ^ 32` pictures, in both libraries and under all options,
the stateful walk is a stateless definition: without spacers, the promise of a navigation and the
lookups of frames, the blocks are the blocks of the events in their surroundings, in the order of
the events. -/
theorem blocks_are_blocks_in_surroundings (d : Dialect) (o : Options) {events : List Event}
    (hs : events.countP (·.action = .screenshot) < 0x100000000) :
    bareBlocks (blocks d { o with blankLinesBetweenBlocks := false } events) =
      events.zipIdx.filterMap fun (e, i) =>
        blockIn d { o with blankLinesBetweenBlocks := false } (surroundingsAt events i e) e := by
  have hunspaced : blocks d { o with blankLinesBetweenBlocks := false } events =
      unspaced d { o with blankLinesBetweenBlocks := false } events := by
    rw [blocks_eq]
    rfl
  rw [hunspaced, bareBlocks_unspaced]
  exact walk_eq_blocksIn follows_start hs

/-- Two tabs are opened and changed between, with a navigation and pictures in between. -/
def tabSession : List Event :=
  [ { action := .navigation, frameId := some 7 },
    { action := .tabCreate, value := some (.text "12") },
    { action := .screenshot, frameId := some 3 },
    { action := .tabChange, value := some (.text "12") },
    { action := .tabChange, value := some (.text "99") },
    { action := .screenshot } ]

/-- The second tab is at position one, an unknown tab counts as the first, and the pictures are
numbered; the frame of one event does not show in the next. -/
theorem tabSession_blocks_in_surroundings :
    bareBlocks (blocks puppeteer { ({} : Options) with blankLinesBetweenBlocks := false }
        tabSession) =
      [ navigationBlock {} { action := .navigation, frameId := some 7 },
        { frame := 0 },
        screenshotBlock 1 { action := .screenshot, frameId := some 3 },
        tabChangeBlock { action := .tabChange } (some 1),
        tabChangeBlock { action := .tabChange } (some 0),
        screenshotBlock 2 { action := .screenshot } ] := by
  have hs : tabSession.countP (·.action = .screenshot) < 0x100000000 := by decide
  exact (blocks_are_blocks_in_surroundings puppeteer {} hs).trans rfl

end SessionScript.Script
