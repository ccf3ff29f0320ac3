import Mathlib.Data.Finset.Card
import SessionScript.Proofs.Script.FirstUse
import SessionScript.Proofs.Script.LineBreaks

/-!
# The height of a script

The line breaks of a script are counted from the blocks of its walk. Each line of a block takes up
one physical line more than it has breaks of its own. What completes the blocks adds the promise of
a navigation, a spacer for each block if the options ask for spacers, and two lines for each frame
that blocks hold lines in, whatever the address that the frame is looked up by.
-/

namespace SessionScript.Script

/-- The number of physical lines that a piece of code takes up. -/
def height (value : String) : Nat := (breaks value).length + 1

/-- The height of pieces of code below each other. -/
def heightOf (values : List String) : Nat := (values.map height).sum

/-- The height of the lines of blocks. -/
def blocksHeight (bs : List Block) : Nat := heightOf ((linesOf bs).map Line.value)

/-- The height of code below other code. -/
theorem heightOf_append (xs ys : List String) :
    heightOf (xs ++ ys) = heightOf xs + heightOf ys := by
  rw [heightOf, List.map_append, List.sum_append]
  rfl

/-- The height of blocks below others. -/
theorem blocksHeight_append (xs ys : List Block) :
    blocksHeight (xs ++ ys) = blocksHeight xs + blocksHeight ys := by
  rw [blocksHeight, linesOf_append, List.map_append, heightOf_append]
  rfl

/-- The height of blocks below a block. -/
theorem blocksHeight_cons (b : Block) (bs : List Block) :
    blocksHeight (b :: bs) = blocksHeight [b] + blocksHeight bs := blocksHeight_append [b] bs

/-- A block that holds a line takes up a physical line. -/
theorem blocksHeight_pos {b : Block} (hb : b.lines ≠ []) : 0 < blocksHeight [b] := by
  obtain ⟨line, lines, hlines⟩ := List.exists_cons_of_ne_nil hb
  simp only [blocksHeight, linesOf_cons, linesOf_nil, List.append_nil, hlines, List.map_cons,
    heightOf, List.sum_cons, height]
  omega

/-- Lines that are each ended by a line feed have as many breaks as they are high. -/
theorem length_breaks_join (lines : List String) :
    (breaks (String.join (lines.map (· ++ "\n")))).length = heightOf lines := by
  have hfeed : breaks "\n" = ['\n'] := by decide
  rw [breaks, String.toList_join]
  induction lines with
  | nil => rfl
  | cons line lines ih =>
    have hline : (line ++ "\n").toList.filter isBreak = breaks line ++ ['\n'] := by
      rw [← hfeed, ← breaks_append]
      rfl
    rw [List.map_cons, List.flatMap_cons, List.filter_append, List.length_append, ih, hline,
      List.length_append]
    rfl

/-- Dividing code into physical lines keeps its height, at any indentation. -/
theorem heightOf_physicalLines (wrap : Bool) (value : String) :
    heightOf ((physicalLines value).map (indented wrap)) = height value := by
  have hindent : ∀ line, height (indented wrap line) = height line := by
    intro line
    have hspaces : breaks "  " = [] := by decide
    unfold indented
    split
    · rw [height, breaks_append, hspaces]
      rfl
    · rfl
  have hsplit : ∀ cs : List Char,
      ((splitLines cs).map fun line => (line.filter isBreak).length + 1).sum =
        (cs.filter isBreak).length + 1 := by
    intro cs
    induction cs with
    | nil => rfl
    | cons c cs ih =>
      obtain ⟨line, rest, hcs, hcons⟩ := splitLines_cons c cs
      rw [hcs, List.map_cons, List.sum_cons] at ih
      rw [hcons]
      by_cases hc : c = '\n'
      · have hbreak : isBreak c = true := by simp [isBreak, hc]
        rw [if_pos hc, List.filter_cons_of_pos hbreak, List.map_cons, List.map_cons,
          List.sum_cons, List.sum_cons, ih]
        simp only [List.filter_nil, List.length_nil, List.length_cons]
        omega
      · rw [if_neg hc, List.map_cons, List.sum_cons, List.filter_cons, List.filter_cons]
        split
        · simp only [List.length_cons]
          omega
        · exact ih
  have hlines : (physicalLines value).map (height ∘ indented wrap) =
      (splitLines value.toList).map fun line => (line.filter isBreak).length + 1 := by
    rw [physicalLines, List.map_map]
    refine List.map_congr_left fun line _ => ?_
    rw [Function.comp_apply, Function.comp_apply, hindent, height, breaks, String.toList_ofList]
  rw [heightOf, List.map_map, hlines, hsplit]
  rfl

/-- The height of the lines of a script between head and foot is that of its blocks. -/
theorem heightOf_bodyLines (o : Options) (bs : List Block) :
    heightOf (bodyLines o bs) = blocksHeight bs := by
  have hlines : ∀ lines : List Line,
      heightOf (lines.flatMap fun line => (physicalLines line.value).map (indented o.wrapAsync)) =
        heightOf (lines.map Line.value) := by
    intro lines
    induction lines with
    | nil => rfl
    | cons line lines ih =>
      rw [List.flatMap_cons, heightOf_append, ih, heightOf_physicalLines]
      rfl
  rw [blocksHeight, ← hlines, linesOf, List.flatMap_assoc]
  rfl

/-- The line breaks of a script, from its blocks before spacers are put between them. -/
theorem length_breaks_script (d : Dialect) (o : Options) (events : List Event) :
    (breaks (script d o events)).length =
      heightOf (headLines d o) +
        (blocksHeight (unspaced d o events) +
          (if o.blankLinesBetweenBlocks then 1 else 0) * (unspaced d o events).length) +
        heightOf (footLines d o) := by
  have hspacers : ∀ bs : List Block,
      blocksHeight (bs.flatMap fun b =>
          if o.blankLinesBetweenBlocks then [b, Block.spacer] else [b]) =
        blocksHeight bs + (if o.blankLinesBetweenBlocks then 1 else 0) * bs.length := by
    intro bs
    induction bs with
    | nil => rfl
    | cons b bs ih =>
      have hspacer : blocksHeight [b, Block.spacer] = blocksHeight [b] + 1 :=
        blocksHeight_append [b] [Block.spacer]
      rw [List.flatMap_cons, blocksHeight_append, ih, blocksHeight_cons b bs, List.length_cons]
      split
      · rw [hspacer]
        omega
      · omega
  rw [script, length_breaks_join, scriptLines, heightOf_append, heightOf_append, heightOf_bodyLines,
    dropLeadingSpacer_blocks, hspacers]

/-- The frames that blocks hold lines in. -/
def actedIn (bs : List Block) : Finset UInt64 :=
  ((bs.filter (·.lines ≠ [])).map Block.frame).toFinset

/-- A block that holds lines adds its frame. -/
theorem actedIn_cons (b : Block) (bs : List Block) :
    actedIn (b :: bs) = if b.lines = [] then actedIn bs else insert b.frame (actedIn bs) := by
  unfold actedIn
  by_cases hb : b.lines = [] <;> simp [hb]

/-- The frames that blocks hold lines in, block by block. -/
theorem mem_actedIn {bs : List Block} {id : UInt64} :
    id ∈ actedIn bs ↔ ∃ b ∈ bs, b.ActsIn id := by
  simp [actedIn, Block.ActsIn, and_assoc, and_comm]

/-- Looking a frame up takes two physical lines. -/
theorem blocksHeight_lookup (bound : Bool) (id : UInt64) (url : String) (frame : UInt64)
    (lines : List Line) :
    blocksHeight [⟨frame, lookupLines bound id url ++ lines⟩] =
      2 + blocksHeight [⟨frame, lines⟩] := by
  simp only [blocksHeight, heightOf, lookupLines, height, breaks_listFrames, breaks_findFrame,
    linesOf_cons, linesOf_nil, List.append_nil, List.cons_append, List.nil_append, List.map_cons,
    List.sum_cons, List.length_nil]
  omega

/-- The frames of a table that blocks hold lines in, but for the page itself. -/
def lookedUp (table : FrameTable) (bs : List Block) : Finset UInt64 :=
  (actedIn bs).filter fun id => id ≠ 0 ∧ table.url? id ≠ none

/-- Two lines are added for each frame that is looked up. -/
theorem blocksHeight_declareFrames {bs : List Block}
    (hbs : ∀ b ∈ bs, ∃ e values, b = eventBlock e values) (table : FrameTable) (bound : Bool) :
    blocksHeight (declareFrames table bound bs) =
      blocksHeight bs + 2 * (lookedUp table bs).card := by
  induction bs generalizing table bound with
  | nil => rfl
  | cons b bs ih =>
    obtain ⟨⟨e, values, rfl⟩, hrest⟩ := List.forall_mem_cons.mp hbs
    have hlines : (eventBlock e values).lines = [] ↔ values = [] := by simp [eventBlock]
    by_cases hskip : values = [] ∨ e.frame = 0 ∨ table.url? e.frame = none
    · have hsame : lookedUp table (eventBlock e values :: bs) = lookedUp table bs := by
        rw [lookedUp, actedIn_cons]
        split
        · rfl
        · rename_i hvalues
          rw [Finset.filter_insert, if_neg]
          · rfl
          · exact fun h => hskip.elim (fun hv => hvalues (hlines.mpr hv)) fun hs => hs.elim h.1 h.2
      rw [declareFrames_known hskip, blocksHeight_cons, ih hrest, hsame, blocksHeight_cons _ bs]
      omega
    · obtain ⟨hvalues, hpage, hsome⟩ := not_or.mp hskip |>.imp_right not_or.mp
      obtain ⟨url, hurl⟩ := Option.ne_none_iff_exists'.mp hsome
      have hmore : (lookedUp table (eventBlock e values :: bs)).card =
          (lookedUp (table.erase e.frame) bs).card + 1 := by
        have hinsert : lookedUp table (eventBlock e values :: bs) =
            insert e.frame (lookedUp (table.erase e.frame) bs) := by
          ext id
          rw [lookedUp, lookedUp, actedIn_cons, if_neg (mt hlines.mp hvalues)]
          by_cases hid : id = e.frame
          · simp [hid, eventBlock, hpage, hsome]
          · simp [hid, eventBlock, erase_url?]
        rw [hinsert, Finset.card_insert_of_notMem]
        simp [lookedUp, erase_url?]
      rw [declareFrames_lookup hvalues hpage hurl, blocksHeight_cons, blocksHeight_lookup, ih hrest,
        hmore, blocksHeight_cons _ bs]
      have hblock : (⟨e.frame, (eventBlock e values).lines⟩ : Block) = eventBlock e values := rfl
      rw [hblock]
      omega

/-- How the blocks of a session and their height are made up: of the promise of a navigation if it
is awaited, the blocks of the walk, and two lines for each frame that these hold lines in. -/
theorem unspaced_height (d : Dialect) (o : Options) (events : List Event) :
    let promised := (∃ e ∈ events, e.action = .navigation) ∧ o.waitForNavigation = true
    let walked := (walk d o {} events).2
    (unspaced d o events).length = (if promised then 1 else 0) + walked.length ∧
      blocksHeight (unspaced d o events) =
        (if promised then 1 else 0) + blocksHeight walked +
          2 * ((actedIn walked).erase 0).card := by
  have hbs := walk_eventBlocks d o events
  have hlookups := blocksHeight_declareFrames hbs (walk d o {} events).1.frames false
  have hlength := congrArg List.length
    (declareFrames_completes hbs (walk d o {} events).1.frames false).1
  have hlooked : lookedUp (walk d o {} events).1.frames (walk d o {} events).2 =
      (actedIn (walk d o {} events).2).erase 0 := by
    ext id
    simp only [lookedUp, Finset.mem_filter, Finset.mem_erase]
    constructor
    · exact fun h => ⟨h.2.1, h.1⟩
    · rintro ⟨hid, hmem⟩
      obtain ⟨b, hb, hframe, -⟩ := mem_actedIn.mp hmem
      obtain ⟨-, -, e, he, values, -, rfl⟩ := mem_walk_blocks hb
      change e.frame = id at hframe
      subst hframe
      refine ⟨hmem, hid, ?_⟩
      rw [walk_url?_of_mem d o he hid]
      exact Option.some_ne_none _
  rw [List.length_map] at hlength
  rw [hlooked] at hlookups
  dsimp only
  rw [unspaced_eq, List.length_append, blocksHeight_append, hlength, hlookups]
  split
  · exact ⟨rfl, (Nat.add_assoc _ _ _).symm⟩
  · exact ⟨rfl, (Nat.add_assoc _ _ _).symm⟩

end SessionScript.Script
