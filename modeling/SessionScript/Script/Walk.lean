import SessionScript.Script.Statement

/-!
# Walking the events of a session

The walk turns each event into a block, if it gives one, and keeps what later events need: the
frames, the tabs in the order in which they were opened, the number of pictures, and whether there
was a navigation. Two passes then complete the blocks: frames are looked up before their first use,
and empty lines are put between the blocks.
-/

namespace SessionScript.Script

/-- What the walk remembers. -/
structure Progress where
  /-- The frames seen so far. -/
  frames : FrameTable := []
  /-- The ids of the tabs in the order in which they were opened; the first tab has the id zero. -/
  tabs : List Int := [0]
  /-- How many pictures have been taken, counted in 32 bits. -/
  pictures : UInt32 := 0
  /-- Has there been a navigation? -/
  navigated : Bool := false
  deriving DecidableEq

namespace Progress

/-- Enter the frame of an event; the page itself is not entered. -/
def noteFrame (p : Progress) (e : Event) : Progress :=
  if e.frame = 0 then p else { p with frames := p.frames.note e.frame e.frameUrl }

/-- The position of a tab; a tab that was never opened counts as the first. -/
def tabPosition (p : Progress) (id : Int) : Nat := (p.tabs.idxOf? id).getD 0

/-- What an event changes besides the frames. -/
def advance (p : Progress) (e : Event) : Progress :=
  match e.action with
  | .navigation => { p with navigated := true }
  | .tabCreate => { p with tabs := p.tabs ++ e.tabId?.toList }
  | .screenshot => { p with pictures := p.pictures + 1 }
  | _ => p

end Progress

/-- Does the next event open a tab? -/
def opensTab (next : Option Event) : Bool := next.any (·.action = .tabCreate)

/-- The block of an event, before its effect on the progress. Some events give none. -/
def blockOf (d : Dialect) (o : Options) (p : Progress) (e : Event) (next : Option Event) :
    Option Block :=
  match e.action with
  | .keydown => some (keydownBlock o (opensTab next) e)
  | .hover => some (hoverBlock e)
  | .mouseMove => (e.value.bind Payload.point?).map fun (x, y) => mouseMoveBlock e x y
  | .click => some (clickBlock d o (opensTab next) e)
  | .change => if e.isSelect then some (changeBlock d e) else none
  | .fill => some (fillBlock e)
  | .goto => e.href.map (gotoBlock e)
  | .viewport =>
    (e.value.bind Payload.size?).map fun (width, height) => viewportBlock d e width height
  | .navigation => some (navigationBlock o e)
  | .tabCreate => some (tabCreateBlock e)
  | .tabChange => some (tabChangeBlock e (e.tabId?.map p.tabPosition))
  | .screenshot => some (screenshotBlock (p.pictures + 1).toNat e)
  | .dblClick | .select | .submit | .load | .unload | .other _ => none

/-- Walk the events from a progress on: the final progress and the blocks in order. -/
def walk (d : Dialect) (o : Options) : Progress → List Event → Progress × List Block
  | p, [] => (p, [])
  | p, e :: rest =>
    let here := p.noteFrame e
    let (last, blocks) := walk d o (here.advance e) rest
    (last, (blockOf d o here e rest.head?).toList ++ blocks)

/-- The block that declares the promise of the next navigation. -/
def promiseBlock : Block :=
  .single 0 .navigationPromise "const navigationPromise = page.waitForNavigation()"

/-- The blocks with the promise in front, if it is awaited anywhere. -/
def withPromise (o : Options) (p : Progress) (blocks : List Block) : List Block :=
  if p.navigated && o.waitForNavigation then promiseBlock :: blocks else blocks

/-- Put a spacer in front of the first block and behind each block. -/
def spaced (blocks : List Block) : List Block :=
  Block.spacer :: blocks.flatMap fun b => [b, Block.spacer]

/-- The blocks of a session, complete. -/
def blocks (d : Dialect) (o : Options) (events : List Event) : List Block :=
  let (p, walked) := walk d o {} events
  let declared := declareFrames p.frames false (withPromise o p walked)
  if o.blankLinesBetweenBlocks && !declared.isEmpty then spaced declared else declared

/-- What a walk amounted to, for the log. -/
structure Summary where
  /-- The number of events. -/
  events : Nat
  /-- The number of blocks, spacers not counted. -/
  blocks : Nat
  /-- The number of frames other than the page itself. -/
  frames : Nat
  /-- The number of tabs. -/
  tabs : Nat

/-- Count what a walk amounts to. -/
def summary (d : Dialect) (o : Options) (events : List Event) : Summary :=
  let (p, walked) := walk d o {} events
  ⟨events.length, (withPromise o p walked).length, p.frames.length, p.tabs.length⟩

end SessionScript.Script
