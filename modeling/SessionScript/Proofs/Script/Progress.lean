import SessionScript.Proofs.Script.Lines

/-!
# The progress of a walk

What the walk remembers is described once, for all events: the tabs, the number of pictures, whether
there was a navigation, and the frames. After the walk, the table of frames holds every frame of the
events but the page itself, with the last address that was recorded for it anywhere in the session.
Looking frames up takes the blocks in turn: a block of an event either stays as it is, or gets the
two lines that look its frame up.
-/

namespace SessionScript.Script

/-- The last address recorded for a frame. -/
def lastAddress? (events : List Event) (id : UInt64) : Option String :=
  ((events.filter (·.frame = id)).filterMap (·.frameUrl)).getLast?

/-- An event in front gives the address only if no later event does. -/
theorem lastAddress?_cons (e : Event) (events : List Event) (id : UInt64) :
    lastAddress? (e :: events) id =
      (lastAddress? events id).or (if e.frame = id then e.frameUrl else none) := by
  unfold lastAddress?
  by_cases hid : e.frame = id
  · cases hurl : e.frameUrl with
    | none => simp [hid, hurl]
    | some url =>
      cases hlast : ((events.filter (·.frame = id)).filterMap (·.frameUrl)).getLast? <;>
        simp [hid, hurl, List.getLast?_cons, hlast]
  · simp [hid]

/-- The first entry of a table answers for its frame. -/
theorem url?_cons (entry : UInt64 × String) (table : FrameTable) (id : UInt64) :
    FrameTable.url? (entry :: table) id =
      if id = entry.1 then some entry.2 else table.url? id := by
  unfold FrameTable.url?
  rw [List.lookup_cons]
  by_cases hid : id = entry.1
  · rw [if_pos hid, beq_iff_eq.mpr hid]
  · rw [if_neg hid, beq_eq_false_iff_ne.mpr hid]

/-- The address of a frame after a frame has been entered. -/
theorem note_url? (table : FrameTable) (id other : UInt64) (url : Option String) :
    (table.note id url).url? other =
      if other = id then some (url.getD ((table.url? id).getD "")) else table.url? other := by
  induction table with
  | nil => exact url?_cons _ [] other
  | cons entry table ih =>
    obtain ⟨i, u⟩ := entry
    rw [FrameTable.note, url?_cons, url?_cons]
    by_cases hi : i = id
    · subst hi
      simp only [if_true, Option.getD_some, url?_cons]
      split <;> rfl
    · have hne : id ≠ i := fun h => hi h.symm
      rw [if_neg hi, url?_cons, ih]
      dsimp only
      by_cases ho : other = id
      · subst ho
        rw [if_neg hne, if_neg hne]
      · rw [if_neg ho, if_neg ho]

/-- The addresses that are left after a frame has been removed. -/
theorem erase_url? (table : FrameTable) (id other : UInt64) :
    (table.erase id).url? other = if other = id then none else table.url? other := by
  unfold FrameTable.erase
  induction table with
  | nil => exact (ite_self none).symm
  | cons entry table ih =>
    rw [List.filter_cons, url?_cons]
    by_cases hi : entry.1 = id
    · rw [if_neg (by simpa using hi), ih]
      by_cases ho : other = id
      · rw [if_pos ho, if_pos ho]
      · rw [if_neg ho, if_neg ho, if_neg fun h => ho (h.trans hi)]
    · rw [if_pos (by simpa using hi), url?_cons, ih]
      by_cases ho : other = entry.1
      · rw [if_pos ho, if_pos ho, if_neg fun h => hi (ho.symm.trans h)]
      · rw [if_neg ho, if_neg ho]

/-- Only the frame of an event changes the frames. -/
@[simp]
theorem advance_frames (p : Progress) (e : Event) : (p.advance e).frames = p.frames := by
  unfold Progress.advance
  split <;> rfl

/-- Only opening a tab changes the tabs. -/
theorem advance_tabs (p : Progress) (e : Event) :
    (p.advance e).tabs = p.tabs ++ if e.action = .tabCreate then e.tabId?.toList else [] := by
  unfold Progress.advance
  split <;> simp_all

/-- Only pictures are counted. -/
theorem advance_pictures (p : Progress) (e : Event) :
    (p.advance e).pictures = if e.action = .screenshot then p.pictures + 1 else p.pictures := by
  unfold Progress.advance
  split <;> simp_all

/-- Entering a frame leaves the counter of pictures alone. -/
@[simp]
theorem noteFrame_pictures (p : Progress) (e : Event) :
    (p.noteFrame e).pictures = p.pictures := by
  unfold Progress.noteFrame
  split <;> rfl

/-- Entering a frame leaves the tabs alone. -/
@[simp]
theorem noteFrame_tabs (p : Progress) (e : Event) : (p.noteFrame e).tabs = p.tabs := by
  unfold Progress.noteFrame
  split <;> rfl

/-- The addresses after the frame of an event has been entered. -/
theorem noteFrame_url? (p : Progress) (e : Event) {id : UInt64} (hid : id ≠ 0) :
    (p.noteFrame e).frames.url? id =
      if e.frame = id then some (e.frameUrl.getD ((p.frames.url? id).getD ""))
      else p.frames.url? id := by
  unfold Progress.noteFrame
  by_cases hpage : e.frame = 0
  · have hne : e.frame ≠ id := fun h => hid (h.symm.trans hpage)
    rw [if_pos hpage, if_neg hne]
  · rw [if_neg hpage]
    dsimp only
    rw [note_url?]
    by_cases he : e.frame = id
    · rw [if_pos he.symm, if_pos he, he]
    · rw [if_neg fun h => he h.symm, if_neg he]

/-- The blocks of a walk depend on the tabs and the number of pictures, and not on the frames. -/
theorem walk_blocks_congr {p q : Progress} (htabs : p.tabs = q.tabs)
    (hpictures : p.pictures = q.pictures) (d : Dialect) (o : Options) (events : List Event) :
    (walk d o p events).2 = (walk d o q events).2 := by
  induction events generalizing p q with
  | nil => rfl
  | cons e rest ih =>
    have hblock : blockOf d o (p.noteFrame e) e rest.head? =
        blockOf d o (q.noteFrame e) e rest.head? := by
      unfold blockOf Progress.tabPosition
      rw [noteFrame_tabs, noteFrame_tabs, noteFrame_pictures, noteFrame_pictures, htabs, hpictures]
    rw [walk, walk]
    dsimp only
    rw [hblock, ih]
    · rw [advance_tabs, advance_tabs, noteFrame_tabs, noteFrame_tabs, htabs]
    · rw [advance_pictures, advance_pictures, noteFrame_pictures, noteFrame_pictures, hpictures]

/-- After the walk it is known whether there was a navigation. -/
theorem walk_navigated (d : Dialect) (o : Options) (p : Progress) (events : List Event) :
    (walk d o p events).1.navigated = (p.navigated || events.any (·.action = .navigation)) := by
  induction events generalizing p with
  | nil => simp [walk]
  | cons e rest ih =>
    have hnote : (p.noteFrame e).navigated = p.navigated := by
      unfold Progress.noteFrame
      split <;> rfl
    have hadvance : ((p.noteFrame e).advance e).navigated =
        (p.navigated || decide (e.action = .navigation)) := by
      rw [← hnote]
      unfold Progress.advance
      split <;> simp_all
    rw [walk]
    dsimp only
    rw [ih, hadvance, List.any_cons, Bool.or_assoc]

/-- After the walk, a frame has the last address recorded for it. -/
theorem walk_url? (d : Dialect) (o : Options) (p : Progress) (events : List Event) {id : UInt64}
    (hid : id ≠ 0) :
    (walk d o p events).1.frames.url? id =
      if ∃ e ∈ events, e.frame = id then
        some ((lastAddress? events id).getD ((p.frames.url? id).getD ""))
      else p.frames.url? id := by
  induction events generalizing p with
  | nil => simp [walk]
  | cons e rest ih =>
    rw [walk]
    dsimp only
    rw [ih, advance_frames, noteFrame_url? p e hid, lastAddress?_cons]
    by_cases he : e.frame = id
    · by_cases hrest : ∃ e ∈ rest, e.frame = id
      · cases lastAddress? rest id <;> simp [he, hrest]
      · have hnone : lastAddress? rest id = none := by
          have hfilter : rest.filter (·.frame = id) = [] := by
            simpa using hrest
          rw [lastAddress?, hfilter]
          rfl
        simp [he, hrest, hnone]
    · simp [he]

/-- After a walk from the start, every frame of the events but the page is in the table. -/
theorem walk_url?_of_mem (d : Dialect) (o : Options) {events : List Event} {e : Event}
    (he : e ∈ events) (hframe : e.frame ≠ 0) :
    (walk d o {} events).1.frames.url? e.frame =
      some ((lastAddress? events e.frame).getD "") := by
  rw [walk_url? d o {} events hframe, if_pos ⟨e, he, rfl⟩]
  rfl

/-- The lines that look a frame up. -/
def lookupLines (bound : Bool) (id : UInt64) (url : String) : List Line :=
  [⟨some .frameSet, listFrames bound, id⟩, ⟨some .frameSet, findFrame id url, id⟩]

/-- The first frame among the lines of an event's block can only be that of the event. -/
theorem firstIn?_eventBlock (table : FrameTable) (e : Event) (values : List String) :
    table.firstIn? (eventBlock e values).lines =
      if values = [] ∨ e.frame = 0 then none
      else (table.url? e.frame).map fun url => (e.frame, url) := by
  unfold FrameTable.firstIn? eventBlock
  dsimp only
  induction values with
  | nil => rfl
  | cons value values ih =>
    rw [List.map_cons, List.findSome?_cons]
    by_cases hpage : e.frame = 0
    · simp [hpage]
    · cases hurl : table.url? e.frame with
      | none => simp [hpage, hurl]
      | some url => simp [hpage]

/-- The block of an event stays as it is if it has no lines, is of the page, or is of a frame that
has been looked up before. -/
theorem declareFrames_known {table : FrameTable} {e : Event} {values : List String}
    (h : values = [] ∨ e.frame = 0 ∨ table.url? e.frame = none) (bound : Bool)
    (rest : List Block) :
    declareFrames table bound (eventBlock e values :: rest) =
      eventBlock e values :: declareFrames table bound rest := by
  have hfirst : table.firstIn? (eventBlock e values).lines = none := by
    rw [firstIn?_eventBlock]
    rcases h with h | h | h <;> simp [h]
  rw [declareFrames, hfirst]

/-- In front of the first lines of an event in a frame, the frame is looked up. -/
theorem declareFrames_lookup {table : FrameTable} {e : Event} {values : List String} {url : String}
    (hv : values ≠ []) (hpage : e.frame ≠ 0) (hurl : table.url? e.frame = some url) (bound : Bool)
    (rest : List Block) :
    declareFrames table bound (eventBlock e values :: rest) =
      ⟨e.frame, lookupLines bound e.frame url ++ (eventBlock e values).lines⟩ ::
        declareFrames (table.erase e.frame) true rest := by
  have hfirst : table.firstIn? (eventBlock e values).lines = some (e.frame, url) := by
    rw [firstIn?_eventBlock, if_neg (not_or.mpr ⟨hv, hpage⟩), hurl]
    rfl
  rw [declareFrames, hfirst]
  rfl

/-- Before spacers are put between them, the blocks of a session are those of the walk with frames
looked up, behind the promise of a navigation if there is one to await. -/
theorem unspaced_eq (d : Dialect) (o : Options) (events : List Event) :
    unspaced d o events =
      (if (∃ e ∈ events, e.action = .navigation) ∧ o.waitForNavigation = true then
        [promiseBlock] else []) ++
      declareFrames (walk d o {} events).1.frames false (walk d o {} events).2 := by
  have hnavigated : (walk d o {} events).1.navigated = true ↔
      ∃ e ∈ events, e.action = .navigation := by
    rw [walk_navigated]
    simp
  unfold unspaced withPromise
  simp only [Bool.and_eq_true, hnavigated]
  split <;> rfl

/-- Looking frames up adds to the lines of the walk only lookups of frames, by the addresses of the
table. -/
theorem mem_declareFrames_walk {d : Dialect} {o : Options} {p : Progress} {events : List Event}
    {table : FrameTable} {bound : Bool} {line : Line}
    (hl : line ∈ linesOf (declareFrames table bound (walk d o p events).2)) :
    line ∈ linesOf (walk d o p events).2 ∨
      ∃ bound id url, id ≠ 0 ∧ table.url? id = some url ∧ line ∈ lookupLines bound id url := by
  induction events generalizing p table bound with
  | nil => exact Or.inl hl
  | cons e rest ih =>
    rw [walk] at hl ⊢
    dsimp only at hl ⊢
    cases hb : blockOf d o (p.noteFrame e) e rest.head? with
    | none =>
      rw [hb] at hl
      exact ih hl
    | some b =>
      obtain ⟨values, rfl⟩ := blockOf_eq_eventBlock hb
      rw [hb, Option.toList_some, List.singleton_append] at hl
      rw [Option.toList_some, List.singleton_append, linesOf_cons]
      by_cases hskip : values = [] ∨ e.frame = 0 ∨ table.url? e.frame = none
      · rw [declareFrames_known hskip, linesOf_cons] at hl
        rcases List.mem_append.mp hl with hl | hl
        · exact Or.inl (List.mem_append_left _ hl)
        · exact (ih hl).imp_left (List.mem_append_right _)
      · obtain ⟨hvalues, hpage, hsome⟩ := not_or.mp hskip |>.imp_right not_or.mp
        obtain ⟨url, hurl⟩ := Option.ne_none_iff_exists'.mp hsome
        rw [declareFrames_lookup hvalues hpage hurl, linesOf_cons] at hl
        rcases List.mem_append.mp hl with hl | hl
        · rcases List.mem_append.mp hl with hl | hl
          · exact Or.inr ⟨bound, e.frame, url, hpage, hurl, hl⟩
          · exact Or.inl (List.mem_append_left _ hl)
        · rcases ih hl with hl | ⟨bound', id, url', hid, hurl', hl⟩
          · exact Or.inl (List.mem_append_right _ hl)
          · rw [erase_url?] at hurl'
            split at hurl'
            · cases hurl'
            · exact Or.inr ⟨bound', id, url', hid, hurl', hl⟩

/-- Spacers between blocks add nothing but spacers. -/
theorem mem_spaced (bs : List Block) (b : Block) : b ∈ spaced bs ↔ b = Block.spacer ∨ b ∈ bs := by
  simp only [spaced, List.mem_cons, List.mem_flatMap, List.not_mem_nil, or_false]
  constructor
  · rintro (h | ⟨b', hb', rfl | rfl⟩)
    · exact Or.inl h
    · exact Or.inr hb'
    · exact Or.inl rfl
  · exact Or.imp_right fun hb => ⟨b, hb, Or.inl rfl⟩

/-- The lines of blocks with spacers between them are empty lines and the lines of the blocks. -/
theorem mem_linesOf_spaced (bs : List Block) (line : Line) :
    line ∈ linesOf (spaced bs) ↔ line ∈ Block.spacer.lines ∨ line ∈ linesOf bs := by
  simp only [linesOf, List.mem_flatMap, mem_spaced, or_and_right, exists_or, exists_eq_left]

/-- Before spacers are put between the blocks, every line of a session declares the promise of a
navigation, looks a frame up by the last address recorded for it, or comes from an event. -/
theorem mem_unspaced {d : Dialect} {o : Options} {events : List Event} {line : Line}
    (hl : line ∈ linesOf (unspaced d o events)) :
    (line ∈ promiseBlock.lines ∨
        ∃ bound id, line ∈ lookupLines bound id ((lastAddress? events id).getD "")) ∨
      line ∈ linesOf (walk d o {} events).2 := by
  rw [unspaced_eq, linesOf_append, List.mem_append] at hl
  rcases hl with hl | hl
  · split at hl
    · exact Or.inl (Or.inl (by simpa using hl))
    · exact absurd hl List.not_mem_nil
  · rcases mem_declareFrames_walk hl with hl | ⟨bound, id, url, hid, hurl, hl⟩
    · exact Or.inr hl
    · rw [walk_url? d o {} events hid] at hurl
      split at hurl
      · rw [Option.some.inj hurl.symm] at hl
        exact Or.inl (Or.inr ⟨bound, id, hl⟩)
      · cases hurl

/-- Every line of a session is empty, declares the promise of a navigation, looks a frame up by the
last address recorded for it, or comes from an event. -/
theorem mem_blocks {d : Dialect} {o : Options} {events : List Event} {line : Line}
    (hl : line ∈ linesOf (blocks d o events)) :
    (line ∈ Block.spacer.lines ∨ line ∈ promiseBlock.lines ∨
        ∃ bound id, line ∈ lookupLines bound id ((lastAddress? events id).getD "")) ∨
      line ∈ linesOf (walk d o {} events).2 := by
  rw [or_assoc]
  rw [blocks_eq] at hl
  split at hl
  · exact ((mem_linesOf_spaced _ line).mp hl).imp_right mem_unspaced
  · exact Or.inr (mem_unspaced hl)

end SessionScript.Script
