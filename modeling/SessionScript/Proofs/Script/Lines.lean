import SessionScript.Script.Walk

/-!
# The lines of a session

The blocks of a session are the blocks of its events, with the promise of a navigation in front,
lookups of frames put in, and spacers between them. Lines keep the order of the events, and a line
tells by its kind and its frame from which event it comes.
-/

namespace SessionScript.Script

/-- All lines of blocks in order. -/
def linesOf (blocks : List Block) : List Line := blocks.flatMap Block.lines

@[simp]
theorem linesOf_nil : linesOf [] = [] := rfl

@[simp]
theorem linesOf_cons (b : Block) (blocks : List Block) :
    linesOf (b :: blocks) = b.lines ++ linesOf blocks := rfl

@[simp]
theorem linesOf_append (xs ys : List Block) : linesOf (xs ++ ys) = linesOf xs ++ linesOf ys :=
  List.flatMap_append

@[simp]
theorem single_lines (frame : UInt64) (kind : LineKind) (value : String) :
    (Block.single frame kind value).lines = [⟨some kind, value, frame⟩] := rfl

@[simp]
theorem push_lines (b : Block) (kind : LineKind) (value : String) :
    (b.push kind value).lines = b.lines ++ [⟨some kind, value, b.frame⟩] := rfl

@[simp]
theorem prepend_lines (b : Block) (kind : LineKind) (value : String) :
    (b.prepend kind value).lines = ⟨some kind, value, b.frame⟩ :: b.lines := rfl

/-- A block of an event with given texts: all lines have the frame of the event, and are of the kind
of its action. -/
def eventBlock (e : Event) (values : List String) : Block :=
  ⟨e.frame, values.map fun value => ⟨some (.action e.action), value, e.frame⟩⟩

/-- Pushing lines onto a block of the event adds their texts behind the others. -/
theorem foldl_push_eventBlock (e : Event) (values more : List String) :
    more.foldl (fun b value => b.push (.action e.action) value) (eventBlock e values) =
      eventBlock e (values ++ more) := by
  induction more generalizing values with
  | nil => rw [List.foldl_nil, List.append_nil]
  | cons value more ih =>
    have hpush : (eventBlock e values).push (.action e.action) value =
        eventBlock e (values ++ [value]) := by
      simp [eventBlock, Block.push]
    rw [List.foldl_cons, hpush, ih, List.append_assoc]
    rfl

/-- The lines that wait for an element and click it. -/
theorem clickBlock_eq {d : Dialect} {o : Options} {opens : Bool} {e : Event}
    (ha : e.action = .click) :
    clickBlock d o opens e =
      eventBlock e
        ((if o.waitForSelectorOnClick then
          ["await " ++ receiver e ++ ".waitForSelector('" ++ selectorText e ++ "')"] else [])
        ++ [awaited opens (receiver e ++ ".click('" ++ selectorText e ++ "')")]
        ++ (d.afterClick o).toList) := by
  rw [clickBlock, ← ha]
  exact foldl_push_eventBlock e [] _

/-- A block of one line of the event's kind. -/
theorem single_eq_eventBlock {e : Event} {a : Action} (ha : e.action = a) (value : String) :
    Block.single e.frame (.action a) value = eventBlock e [value] := by
  subst ha
  rfl

/-- A block of two lines of the event's kind. -/
theorem pair_eq_eventBlock {e : Event} {a : Action} (ha : e.action = a) (first second : String) :
    (Block.single e.frame (.action a) first).push (.action a) second =
      eventBlock e [first, second] := by
  subst ha
  rfl

/-- The block that an event gives is a block of the event. -/
theorem blockOf_eq_eventBlock {d : Dialect} {o : Options} {p : Progress} {e : Event}
    {next : Option Event} {b : Block} (hb : blockOf d o p e next = some b) :
    ∃ values, b = eventBlock e values := by
  cases ha : e.action with
  | keydown | hover | fill =>
    simp only [blockOf, ha, Option.some.injEq] at hb
    exact ⟨_, hb.symm.trans (single_eq_eventBlock ha _)⟩
  | click =>
    simp only [blockOf, ha, Option.some.injEq] at hb
    exact ⟨_, hb.symm.trans (clickBlock_eq ha)⟩
  | change =>
    simp only [blockOf, ha, Option.ite_none_right_eq_some, Option.some.injEq] at hb
    exact ⟨_, hb.2.symm.trans (single_eq_eventBlock ha _)⟩
  | mouseMove | goto | viewport =>
    simp only [blockOf, ha, Option.map_eq_some_iff] at hb
    obtain ⟨_, -, hb⟩ := hb
    exact ⟨_, hb.symm.trans (single_eq_eventBlock ha _)⟩
  | navigation =>
    simp only [blockOf, ha, Option.some.injEq, navigationBlock] at hb
    split at hb
    · exact ⟨_, hb.symm.trans (single_eq_eventBlock ha _)⟩
    · exact ⟨[], hb.symm⟩
  | tabCreate =>
    simp only [blockOf, ha, Option.some.injEq] at hb
    exact ⟨[], hb.symm⟩
  | tabChange =>
    simp only [blockOf, ha, Option.some.injEq, tabChangeBlock] at hb
    split at hb
    · exact ⟨[], hb.symm⟩
    · exact ⟨_, hb.symm.trans (pair_eq_eventBlock ha _ _)⟩
  | screenshot =>
    simp only [blockOf, ha, Option.some.injEq, screenshotBlock] at hb
    split at hb
    · exact ⟨_, hb.symm.trans (pair_eq_eventBlock ha _ _)⟩
    · exact ⟨_, hb.symm.trans (single_eq_eventBlock ha _)⟩
  | dblClick | select | submit | load | unload | other tag =>
    simp [blockOf, ha] at hb

/-- The lines of an event are of the kind of its action. -/
theorem blockOf_kind {d : Dialect} {o : Options} {p : Progress} {e : Event} {next : Option Event}
    {line : Line} (hl : line ∈ linesOf (blockOf d o p e next).toList) :
    line.kind = some (.action e.action) := by
  cases hb : blockOf d o p e next with
  | none =>
    rw [hb] at hl
    exact absurd hl List.not_mem_nil
  | some b =>
    obtain ⟨values, rfl⟩ := blockOf_eq_eventBlock hb
    rw [hb, Option.toList_some, linesOf_cons, linesOf_nil, List.append_nil] at hl
    obtain ⟨value, -, rfl⟩ := List.mem_map.mp hl
    rfl

/-- Does a line come from an event? -/
def Line.isOfEvent (line : Line) : Bool :=
  match line.kind with
  | some (.action _) => true
  | _ => false

/-- Looking frames up adds only lines that list frames and lines that find one. -/
theorem declareFrames_filter {f : Line → Bool}
    (hlist : ∀ bound frame, f ⟨some .frameSet, listFrames bound, frame⟩ = false)
    (hfind : ∀ id url frame, f ⟨some .frameSet, findFrame id url, frame⟩ = false)
    (table : FrameTable) (bound : Bool) (blocks : List Block) :
    (linesOf (declareFrames table bound blocks)).filter f = (linesOf blocks).filter f := by
  induction blocks generalizing table bound with
  | nil => rfl
  | cons b blocks ih =>
    rw [declareFrames]
    split
    · rw [linesOf_cons, linesOf_cons, List.filter_append, List.filter_append, ih]
    · rw [linesOf_cons, linesOf_cons, List.filter_append, List.filter_append, ih, prepend_lines,
        prepend_lines, List.filter_cons_of_neg (Bool.eq_false_iff.mp (hlist _ _)),
        List.filter_cons_of_neg (Bool.eq_false_iff.mp (hfind _ _ _))]

/-- Spacers add only empty lines. -/
theorem spaced_filter {f : Line → Bool} (hblank : f ⟨none, "", 0⟩ = false) (blocks : List Block) :
    (linesOf (spaced blocks)).filter f = (linesOf blocks).filter f := by
  have hspacer : Block.spacer.lines.filter f = [] :=
    List.filter_cons_of_neg (Bool.eq_false_iff.mp hblank)
  rw [spaced, linesOf_cons, List.filter_append, hspacer, List.nil_append]
  induction blocks with
  | nil => rfl
  | cons b blocks ih =>
    rw [List.flatMap_cons, linesOf_append, List.filter_append, ih, linesOf_cons, linesOf_cons,
      linesOf_nil, List.append_nil, linesOf_cons, List.filter_append, hspacer, List.append_nil,
      List.filter_append]

/-- The blocks of a session before spacers are put between them. -/
def unspaced (d : Dialect) (o : Options) (events : List Event) : List Block :=
  declareFrames (walk d o {} events).1.frames false
    (withPromise o (walk d o {} events).1 (walk d o {} events).2)

/-- The blocks of a session are these blocks, with spacers if the options ask for them. -/
theorem blocks_eq (d : Dialect) (o : Options) (events : List Event) :
    blocks d o events =
      if o.blankLinesBetweenBlocks && !(unspaced d o events).isEmpty then
        spaced (unspaced d o events)
      else unspaced d o events := rfl

/-- What completes the blocks of a walk are empty lines, the promise of a navigation, lines that
list frames and lines that find one. -/
theorem blocks_filter {f : Line → Bool} (hblank : f ⟨none, "", 0⟩ = false)
    (hpromise : promiseBlock.lines.filter f = [])
    (hlist : ∀ bound frame, f ⟨some .frameSet, listFrames bound, frame⟩ = false)
    (hfind : ∀ id url frame, f ⟨some .frameSet, findFrame id url, frame⟩ = false)
    (d : Dialect) (o : Options) (events : List Event) :
    (linesOf (blocks d o events)).filter f = (linesOf (walk d o {} events).2).filter f := by
  have hunspaced : (linesOf (unspaced d o events)).filter f =
      (linesOf (walk d o {} events).2).filter f := by
    rw [unspaced, declareFrames_filter hlist hfind]
    unfold withPromise
    split
    · rw [linesOf_cons, List.filter_append, hpromise, List.nil_append]
    · rfl
  rw [blocks_eq]
  split
  · rw [spaced_filter hblank, hunspaced]
  · exact hunspaced

/-- What is read off the lines of a session is read off the lines of the walk, if it is not in the
lines that complete these. -/
theorem blocks_flatMap {α : Type} {f : Line → List α} (hblank : f ⟨none, "", 0⟩ = [])
    (hpromise : ∀ line ∈ promiseBlock.lines, f line = [])
    (hlist : ∀ bound frame, f ⟨some .frameSet, listFrames bound, frame⟩ = [])
    (hfind : ∀ id url frame, f ⟨some .frameSet, findFrame id url, frame⟩ = [])
    (d : Dialect) (o : Options) (events : List Event) :
    (linesOf (blocks d o events)).flatMap f = (linesOf (walk d o {} events).2).flatMap f := by
  have hkept : ∀ lines : List Line,
      lines.flatMap f = (lines.filter fun line => !(f line).isEmpty).flatMap f := by
    intro lines
    induction lines with
    | nil => rfl
    | cons line lines ih =>
      rw [List.flatMap_cons, List.filter_cons, ih]
      cases hline : f line with
      | nil => simp
      | cons => simp [hline]
  have hfilter := blocks_filter (f := fun line => !(f line).isEmpty) (by simp [hblank])
    (List.filter_eq_nil_iff.mpr fun line hl => by simp [hpromise line hl])
    (fun bound frame => by simp [hlist bound frame])
    (fun id url frame => by simp [hfind id url frame]) d o events
  rw [hkept, hfilter, ← hkept]

/-- All lines of the walk come from events. -/
theorem walk_isOfEvent (d : Dialect) (o : Options) (p : Progress) (events : List Event) :
    (linesOf (walk d o p events).2).filter Line.isOfEvent = linesOf (walk d o p events).2 := by
  induction events generalizing p with
  | nil => rfl
  | cons e rest ih =>
    rw [walk]
    dsimp only
    rw [linesOf_append, List.filter_append, ih]
    congr 1
    refine List.filter_eq_self.mpr fun line hl => ?_
    rw [Line.isOfEvent, blockOf_kind hl]

/-- Every block of a walk is the block of one of its events. -/
theorem mem_walk_blocks {d : Dialect} {o : Options} {p : Progress} {events : List Event} {b : Block}
    (hb : b ∈ (walk d o p events).2) :
    ∃ p next, ∃ e ∈ events, ∃ values, blockOf d o p e next = some b ∧ b = eventBlock e values := by
  induction events generalizing p with
  | nil => exact absurd hb List.not_mem_nil
  | cons e rest ih =>
    rw [walk] at hb
    rcases List.mem_append.mp hb with hb | hb
    · have hblock := Option.mem_toList.mp hb
      obtain ⟨values, hvalues⟩ := blockOf_eq_eventBlock hblock
      exact ⟨_, _, e, List.mem_cons_self, values, hblock, hvalues⟩
    · obtain ⟨p', next, e', he', hblock⟩ := ih hb
      exact ⟨p', next, e', List.mem_cons_of_mem e he', hblock⟩

/-- Every line of the walk is one of the lines of an event. -/
theorem mem_walk {d : Dialect} {o : Options} {p : Progress} {events : List Event} {line : Line}
    (hl : line ∈ linesOf (walk d o p events).2) :
    ∃ p e next, line ∈ linesOf (blockOf d o p e next).toList := by
  obtain ⟨b, hb, hline⟩ := List.mem_flatMap.mp hl
  obtain ⟨p, next, e, -, -, hblock, -⟩ := mem_walk_blocks hb
  exact ⟨p, e, next, List.mem_flatMap.mpr ⟨b, Option.mem_toList.mpr hblock, hline⟩⟩

/-- The lines of a session that come from events are those of the walk, in order. -/
theorem blocks_isOfEvent (d : Dialect) (o : Options) (events : List Event) :
    (linesOf (blocks d o events)).filter Line.isOfEvent = linesOf (walk d o {} events).2 := by
  rw [blocks_filter rfl rfl (fun _ _ => rfl) (fun _ _ _ => rfl), walk_isOfEvent]

end SessionScript.Script
