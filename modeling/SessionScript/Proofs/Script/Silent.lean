import SessionScript.Proofs.Script.FirstUse
import SessionScript.Proofs.Script.Popups

/-!
# Events without code

Some events give no block: no code is written for their action, or they lack what their code would
need. The walk still enters their frame, and they still stand between their neighbours. A frame
that no other event is of is looked up nowhere, so entering it changes nothing as long as no address
comes with it. What shows is the place between two neighbours: a click or a stroke of a key that
opens a tab is recognised only when the opening of the tab is directly behind it.
-/

namespace SessionScript.Script

/-- Does an event give no code? Either no code is written for its action, or the event lacks what
the code would need. -/
def IsSilent (e : Event) : Prop :=
  match e.action with
  | .dblClick | .select | .submit | .load | .unload | .other _ => True
  | .change => e.isSelect = false
  | .goto => e.href = none
  | .viewport => e.value.bind Payload.size? = none
  | .mouseMove => e.value.bind Payload.point? = none
  | .click | .keydown | .fill | .navigation | .tabCreate | .tabChange | .screenshot
  | .hover => False

/-- Does an event run code that may open a tab? -/
def Triggers (e : Event) : Prop := e.action = .click ∨ e.action = .keydown

/-- Would an event between two parts of a session part the opening of a tab from what opens it? -/
def Parts (xs ys : List Event) : Prop :=
  (∃ x ∈ xs.getLast?, Triggers x) ∧ ∃ y ∈ ys.head?, y.action = .tabCreate

/-- Silent events are those that the walk gives no block for. -/
theorem blockOf_eq_none_iff (d : Dialect) (o : Options) (p : Progress) (e : Event)
    (next : Option Event) : blockOf d o p e next = none ↔ IsSilent e := by
  unfold blockOf IsSilent
  cases e.action <;> simp

/-- A silent event changes nothing but the frames. -/
theorem IsSilent.advance {e : Event} (h : IsSilent e) (p : Progress) : p.advance e = p := by
  unfold IsSilent at h
  unfold Progress.advance
  cases ha : e.action <;> simp_all

/-- Blocks of an event are the same only with the same texts. -/
theorem eventBlock_inj {e : Event} {values values' : List String} :
    eventBlock e values = eventBlock e values' ↔ values = values' := by
  constructor
  · intro h
    have hlines := congrArg (fun b => b.lines.map Line.value) h
    simpa [eventBlock, Function.comp_def] using hlines
  · exact congrArg _

/-- The code of a call shows whether it waits for a page to open. -/
theorem awaited_inj {opens opens' : Bool} {call : String} :
    awaited opens call = awaited opens' call ↔ opens = opens' := by
  constructor
  · intro h
    have hcalls := congrArg popupCall? h
    rw [popupCall?_awaited, popupCall?_awaited] at hcalls
    cases opens <;> cases opens' <;> simp_all
  · exact congrArg (awaited · call)

/-- The next event shows in the code of an event exactly if the event may open a tab and the next
one is the opening of a tab. -/
theorem blockOf_eq_blockOf_iff (d : Dialect) (o : Options) (p : Progress) (e : Event)
    (next next' : Option Event) :
    blockOf d o p e next = blockOf d o p e next' ↔
      (Triggers e → opensTab next = opensTab next') := by
  cases ha : e.action with
  | click =>
    have hclick : ∀ next, blockOf d o p e next = some (clickBlock d o (opensTab next) e) := by
      intro next
      rw [blockOf, ha]
    rw [hclick, hclick, Option.some.injEq, clickBlock_eq ha, clickBlock_eq ha, eventBlock_inj,
      List.append_cancel_right_eq, List.append_cancel_left_eq, List.singleton_inj, awaited_inj]
    exact ⟨fun h _ => h, fun h => h (Or.inl ha)⟩
  | keydown =>
    have hpress : ∀ next, blockOf d o p e next = some (eventBlock e
        [awaited (opensTab next) (receiver e ++ ".keyboard.press('" ++
          escape (pressedKey o e) ++ "')")]) := by
      intro next
      rw [blockOf, ha]
      exact congrArg some (single_eq_eventBlock ha _)
    rw [hpress, hpress, Option.some.injEq, eventBlock_inj, List.singleton_inj, awaited_inj]
    exact ⟨fun h _ => h, fun h => h (Or.inr ha)⟩
  | hover | mouseMove | change | fill | goto | viewport | navigation | tabCreate | tabChange
  | screenshot | dblClick | select | submit | load | unload | other tag =>
    have hsame : blockOf d o p e next = blockOf d o p e next' := by
      unfold blockOf
      rw [ha]
    refine iff_of_true hsame fun ht => ?_
    rcases ht with ht | ht <;> simp [ha] at ht

/-- A silent event is no opening of a tab. -/
theorem IsSilent.not_opensTab {e : Event} (h : IsSilent e) : opensTab (some e) = false := by
  unfold IsSilent at h
  unfold opensTab
  cases ha : e.action <;> simp_all

/-- In the walk, a silent event shows exactly if it parts the opening of a tab from what opens
it. -/
theorem walk_insert_iff {e : Event} (he : IsSilent e) (d : Dialect) (o : Options) (p : Progress)
    (xs ys : List Event) :
    (walk d o p (xs ++ e :: ys)).2 = (walk d o p (xs ++ ys)).2 ↔ ¬Parts xs ys := by
  have hnext : ∀ p ys, (walk d o p (e :: ys)).2 = (walk d o p ys).2 := by
    intro p ys
    rw [walk, (blockOf_eq_none_iff d o _ e _).mpr he, he.advance]
    exact walk_blocks_congr (noteFrame_tabs p e) (noteFrame_pictures p e) d o ys
  induction xs generalizing p with
  | nil => exact iff_of_true (hnext p ys) fun h => by simp [Parts] at h
  | cons x xs ih =>
    rw [List.cons_append, List.cons_append, walk, walk]
    dsimp only
    cases xs with
    | nil =>
      have hopens : opensTab ys.head? = true ↔ ∃ y ∈ ys.head?, y.action = .tabCreate := by
        simp [opensTab, Option.any_eq_true]
      have hlast : (∃ x' ∈ [x].getLast?, Triggers x') ↔ Triggers x := by simp
      have hblocks : Function.Injective (Option.toList (α := Block)) :=
        Function.LeftInverse.injective (g := List.head?) fun _ => Option.head?_toList
      rw [List.nil_append, List.nil_append, hnext, List.append_cancel_right_eq,
        hblocks.eq_iff, blockOf_eq_blockOf_iff, List.head?_cons, he.not_opensTab, Parts, hlast,
        ← hopens, not_and, Bool.not_eq_true]
      exact forall_congr' fun _ => eq_comm
    | cons x' xs =>
      have hlast : (x :: x' :: xs).getLast? = (x' :: xs).getLast? := List.getLast?_cons_cons
      have hhead : ∀ zs, (x' :: xs ++ zs).head? = some x' := fun _ => rfl
      rw [hhead, hhead, List.append_cancel_left_eq, Parts, hlast]
      exact ih _

/-- The addresses that frames are looked up by are the same with a silent event and without, if no
address of a frame comes with it. -/
theorem lastAddress?_insert {e : Event} (he : e.frameUrl = none ∨ e.frame = 0) {id : UInt64}
    (hid : id ≠ 0) (xs ys : List Event) :
    lastAddress? (xs ++ e :: ys) id = lastAddress? (xs ++ ys) id := by
  have hnone : ([e].filter (·.frame = id)).filterMap (·.frameUrl) = [] := by
    rcases he with hurl | hpage
    · by_cases hframe : e.frame = id <;> simp [hframe, hurl]
    · simp [hpage, Ne.symm hid]
  rw [List.append_cons]
  simp only [lastAddress?, List.filter_append, List.filterMap_append, hnone, List.append_nil]

/-- Which frame is the first one among lines depends on the table only at the frames of the
lines. -/
theorem firstIn?_congr {table table' : FrameTable} {lines : List Line}
    (h : ∀ line ∈ lines, line.frame ≠ 0 → table.url? line.frame = table'.url? line.frame) :
    table.firstIn? lines = table'.firstIn? lines := by
  unfold FrameTable.firstIn?
  induction lines with
  | nil => rfl
  | cons line lines ih =>
    obtain ⟨hline, hrest⟩ := List.forall_mem_cons.mp h
    rw [List.findSome?_cons, List.findSome?_cons, ih hrest]
    by_cases hpage : line.frame = 0
    · rw [if_pos hpage, if_pos hpage]
    · rw [hline hpage]

/-- Looking frames up depends on the table only at the frames that blocks hold lines in. -/
theorem declareFrames_congr {table table' : FrameTable} {bs : List Block}
    (h : ∀ line ∈ linesOf bs, line.frame ≠ 0 → table.url? line.frame = table'.url? line.frame)
    (bound : Bool) : declareFrames table bound bs = declareFrames table' bound bs := by
  induction bs generalizing table table' bound with
  | nil => rfl
  | cons b bs ih =>
    rw [linesOf_cons, List.forall_mem_append] at h
    obtain ⟨hb, hrest⟩ := h
    rw [declareFrames, declareFrames, firstIn?_congr hb]
    cases table'.firstIn? b.lines with
    | none => rw [ih hrest]
    | some entry =>
      have herased : ∀ line ∈ linesOf bs, line.frame ≠ 0 →
          (table.erase entry.1).url? line.frame = (table'.erase entry.1).url? line.frame := by
        intro line hl hid
        rw [erase_url?, erase_url?, hrest line hl hid]
      dsimp only
      rw [ih herased]

/-- The blocks of a walk with frames looked up are the same with a silent event in the session and
without, when the walks give the same blocks. -/
theorem unspaced_insert {e : Event} (he : IsSilent e) (hurl : e.frameUrl = none ∨ e.frame = 0)
    {d : Dialect} {o : Options} {xs ys : List Event}
    (hwalk : (walk d o {} (xs ++ e :: ys)).2 = (walk d o {} (xs ++ ys)).2) :
    unspaced d o (xs ++ e :: ys) = unspaced d o (xs ++ ys) := by
  have hnavigates : (∃ x ∈ xs ++ e :: ys, x.action = .navigation) ↔
      ∃ x ∈ xs ++ ys, x.action = .navigation := by
    have hno : e.action ≠ .navigation := by
      intro ha
      simp [IsSilent, ha] at he
    simp [or_and_right, exists_or, hno]
  rw [unspaced_eq, unspaced_eq, hwalk]
  simp only [hnavigates]
  congr 1
  refine declareFrames_congr (fun line hl hid => ?_) false
  obtain ⟨b, hb, hline⟩ := List.mem_flatMap.mp hl
  obtain ⟨-, -, x, hx, values, -, rfl⟩ := mem_walk_blocks hb
  obtain ⟨value, -, rfl⟩ := List.mem_map.mp hline
  have hx' : x ∈ xs ++ e :: ys := by
    rw [List.mem_append] at hx ⊢
    exact hx.imp_right (List.mem_cons_of_mem e)
  rw [walk_url?_of_mem d o hx' hid, walk_url?_of_mem d o hx hid, lastAddress?_insert hurl hid]

/-- The blocks of a session tell the blocks of its walk. -/
theorem bareBlocks_blocks (d : Dialect) (o : Options) (events : List Event) :
    bareBlocks ((blocks d o events).filter (!·.isSpacer)) = (walk d o {} events).2 := by
  rw [← bareBlocks_unspaced, blocks_eq]
  split
  · rw [filter_spaced (isSpacer_unspaced d o events)]
  · rw [filter_isSpacer (isSpacer_unspaced d o events)]

/-- An event that gives no code, and brings no address of a frame with it, leaves no trace in the
blocks of a session, in both libraries and under all options, exactly if it does not stand between
the opening of a tab and the click or the stroke of a key that opens the tab. -/
theorem silent_event_shows_iff_it_parts (d : Dialect) (o : Options) {e : Event} (he : IsSilent e)
    (hurl : e.frameUrl = none ∨ e.frame = 0) (xs ys : List Event) :
    blocks d o (xs ++ [e] ++ ys) = blocks d o (xs ++ ys) ↔ ¬Parts xs ys := by
  rw [List.append_assoc, List.singleton_append, ← walk_insert_iff he d o {} xs ys]
  constructor
  · intro h
    rw [← bareBlocks_blocks, h, bareBlocks_blocks]
  · intro h
    rw [blocks_eq, blocks_eq, unspaced_insert he hurl h]

/-- A form is sent inside a frame whose address was not recorded. -/
def formSent : Event := { action := .submit, selector := some "form", frameId := some 4 }

/-- A click in that frame, with the address. -/
def framedLink : Event :=
  { action := .click, selector := some "a", frameId := some 4,
    frameUrl := some "https://example.com/embed" }

/-- A tab is opened. -/
def tabOpened : Event := { action := .tabCreate, value := some (.number (.whole (.ofUInt32 7))) }

/-- Behind the opening of a tab, the sent form leaves no trace; between the click and the opening it
does. -/
theorem formSent_shows_iff_it_parts :
    IsSilent formSent ∧ (formSent.frameUrl = none ∨ formSent.frame = 0) ∧
      blocks playwright {} ([framedLink, tabOpened] ++ [formSent] ++ [framedLink]) =
        blocks playwright {} ([framedLink, tabOpened] ++ [framedLink]) ∧
      blocks playwright {} ([framedLink] ++ [formSent] ++ [tabOpened]) ≠
        blocks playwright {} ([framedLink] ++ [tabOpened]) := by
  have hsilent : IsSilent formSent := trivial
  have hurl : formSent.frameUrl = none ∨ formSent.frame = 0 := Or.inl rfl
  have htogether : ¬Parts [framedLink, tabOpened] [framedLink] := by
    rintro ⟨-, y, hy, ha⟩
    cases hy
    cases ha
  have hparted : Parts [framedLink] [tabOpened] :=
    ⟨⟨framedLink, rfl, Or.inl rfl⟩, tabOpened, rfl, rfl⟩
  exact ⟨hsilent, hurl,
    (silent_event_shows_iff_it_parts playwright {} hsilent hurl _ _).mpr htogether,
    fun h => (silent_event_shows_iff_it_parts playwright {} hsilent hurl _ _).mp h hparted⟩

end SessionScript.Script
