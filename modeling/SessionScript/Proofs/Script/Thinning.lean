import SessionScript.Proofs.Script.Layout
import SessionScript.Proofs.Script.Progress

/-!
# Scripts of thinned sessions

The walk reads only some of an event, depending on its action. A fill or a stroke of a key on the
page itself gives one line, and nothing after it depends on it, so a session without some of these
events gives the same script without their lines: a shorter script if any is left out, and the same
one if none is.
-/

namespace SessionScript.Script

/-- Events that give the same code and the same progress: they agree on all that is read of an event
with their action. -/
structure Alike (a b : Event) : Prop where
  /-- They have the same action. -/
  action : a.action = b.action
  /-- They are of the same frame. -/
  frame : a.frame = b.frame
  /-- The address of a frame is read, that of the page is not. -/
  frameUrl : a.frame ≠ 0 → a.frameUrl = b.frameUrl
  /-- Of a stroke only the key is read. -/
  pressed : a.action = .keydown → ∀ o, pressedKey o a = pressedKey o b
  /-- Of other events the element and what they carry are read. -/
  carried : a.action ≠ .keydown → a.selector = b.selector ∧ a.value = b.value
  /-- Of a fill nothing more is read. -/
  others : a.action ≠ .keydown → a.action ≠ .fill → a.href = b.href ∧ a.tagName = b.tagName

namespace Alike

variable {a b c : Event}

theorem refl (a : Event) : Alike a a :=
  ⟨rfl, rfl, fun _ => rfl, fun _ _ => rfl, fun _ => ⟨rfl, rfl⟩, fun _ _ => ⟨rfl, rfl⟩⟩

theorem trans (h : Alike a b) (h' : Alike b c) : Alike a c where
  action := h.action.trans h'.action
  frame := h.frame.trans h'.frame
  frameUrl hf := (h.frameUrl hf).trans (h'.frameUrl (h.frame ▸ hf))
  pressed ha o := (h.pressed ha o).trans (h'.pressed (h.action ▸ ha) o)
  carried ha :=
    have hb := h'.carried (h.action ▸ ha)
    ⟨(h.carried ha).1.trans hb.1, (h.carried ha).2.trans hb.2⟩
  others ha hf :=
    have hb := h'.others (h.action ▸ ha) (h.action ▸ hf)
    ⟨(h.others ha hf).1.trans hb.1, (h.others ha hf).2.trans hb.2⟩

/-- The code of alike events is the same. -/
theorem blockOf_eq (h : Alike a b) {next next' : Option Event} (hn : opensTab next = opensTab next')
    (d : Dialect) (o : Options) (p : Progress) : blockOf d o p a next = blockOf d o p b next' := by
  have hreceiver : receiver a = receiver b := by rw [receiver, receiver, h.frame]
  unfold blockOf
  by_cases hk : a.action = .keydown
  · simp only [← h.action, hk, keydownBlock, h.frame, hreceiver, h.pressed hk, hn]
  obtain ⟨hselector, hvalue⟩ := h.carried hk
  have htarget : selectorText a = selectorText b := by
    rw [selectorText, Event.target, hselector]
    rfl
  have htext : a.typedValue = b.typedValue := by rw [Event.typedValue, Event.typedValue, hvalue]
  by_cases hf : a.action = .fill
  · simp only [← h.action, hf, fillBlock, h.frame, hreceiver, htarget, htext]
  obtain ⟨hhref, htag⟩ := h.others hk hf
  rw [← h.action]
  cases ha : a.action with
  | keydown => exact absurd ha hk
  | fill => exact absurd ha hf
  | hover => simp only [hoverBlock, h.frame, hreceiver, htarget]
  | mouseMove => simp only [mouseMoveBlock, h.frame, hreceiver, Event.target, hselector, hvalue]
  | click => simp only [clickBlock, h.frame, hreceiver, htarget, hn]
  | change =>
    have hselect : a.isSelect = b.isSelect := by rw [Event.isSelect, Event.isSelect, htag]
    simp only [changeBlock, hselect, h.frame, hreceiver, htarget, htext]
  | goto =>
    have hgoto : gotoBlock a = gotoBlock b := by
      funext href
      rw [gotoBlock, gotoBlock, h.frame, hreceiver]
    simp only [hhref, hgoto]
  | viewport => simp only [viewportBlock, h.frame, hreceiver, hvalue]
  | navigation => simp only [navigationBlock, h.frame]
  | tabCreate => simp only [tabCreateBlock, h.frame]
  | tabChange => simp only [tabChangeBlock, Event.tabId?, h.frame, hvalue]
  | screenshot => simp only [screenshotBlock, h.frame, hreceiver, hvalue]
  | dblClick | select | submit | load | unload | other tag => rfl

/-- Alike events are entered with the same frame and address. -/
theorem noteFrame_eq (h : Alike a b) (p : Progress) : p.noteFrame a = p.noteFrame b := by
  unfold Progress.noteFrame
  by_cases hpage : a.frame = 0
  · rw [if_pos hpage, if_pos (h.frame ▸ hpage)]
  · rw [if_neg hpage, if_neg (h.frame ▸ hpage), h.frame, h.frameUrl hpage]

/-- Alike events change the progress in the same way. -/
theorem advance_eq (h : Alike a b) (p : Progress) : p.advance a = p.advance b := by
  unfold Progress.advance
  rw [← h.action]
  by_cases hk : a.action = .keydown
  · rw [hk]
  · rw [Event.tabId?, (h.carried hk).2]
    rfl

end Alike

/-- May an event be left out in front of another one? Both fill a field of the page, or both press a
key on it. -/
structure Spare (x y : Event) : Prop where
  /-- The event is of the page itself. -/
  page : x.frame = 0
  /-- Both events have the same action. -/
  action : x.action = y.action
  /-- The event is a fill or a stroke of a key. -/
  kind : x.action = .fill ∨ x.action = .keydown

/-- Whether an event may be left out can be told from alike ones. -/
theorem Spare.congr {x y x' y' : Event} (h : Spare x y) (hx : Alike x x') (hy : Alike y y') :
    Spare x' y' where
  page := hx.frame ▸ h.page
  action := hx.action.symm.trans (h.action.trans hy.action)
  kind := hx.action ▸ h.kind

/-- An event that may be left out gives one line of the page and leaves the progress as it is. -/
theorem Spare.walk_cons {x y : Event} (h : Spare x y) (d : Dialect) (o : Options) (p : Progress)
    (rest : List Event) :
    ∃ value, walk d o p (x :: rest) =
      ((walk d o p rest).1, eventBlock x [value] :: (walk d o p rest).2) := by
  have hnote : p.noteFrame x = p := if_pos h.page
  have hadvance : p.advance x = p := by
    rcases h.kind with ha | ha <;> rw [Progress.advance, ha]
  rw [walk, hnote, hadvance, blockOf]
  rcases h.kind with ha | ha
  all_goals
    rw [ha]
    exact ⟨_, congrArg (fun b => (_, b :: _)) (single_eq_eventBlock ha _)⟩

/-- A session is another one without some of its events, up to alike events. Each event left out may
be, in front of the one that is kept behind it. -/
inductive Thins : Nat → List Event → List Event → Prop where
  /-- Nothing is left out of no events. -/
  | nil : Thins 0 [] []
  /-- An event is kept. -/
  | keep {n : Nat} {x y : Event} {xs ys : List Event} :
    Alike x y → Thins n xs ys → Thins n (x :: xs) (y :: ys)
  /-- An event is left out. -/
  | drop {n : Nat} {x y : Event} {xs ys : List Event} :
    Spare x y → Thins n xs (y :: ys) → Thins (n + 1) (x :: xs) (y :: ys)

namespace Thins

variable {n : Nat} {xs ys : List Event}

/-- What is left out opens no tab, and neither does what is kept behind it. -/
theorem opensTab_head (h : Thins n xs ys) : opensTab xs.head? = opensTab ys.head? := by
  cases h with
  | nil => rfl
  | keep halike _ => simp [opensTab, halike.action]
  | drop hspare _ => simp [opensTab, hspare.action]

/-- The first event that is kept may be replaced by an alike one. -/
theorem replace {y y' : Event} (h : Thins n xs (y :: ys)) (hy : Alike y y') :
    Thins n xs (y' :: ys) := by
  generalize hz : y :: ys = zs at h
  induction h with
  | nil => cases hz
  | keep halike hrest =>
    cases hz
    exact .keep (halike.trans hy) hrest
  | drop hspare _ ih =>
    cases hz
    exact .drop (hspare.congr (.refl _) hy) (ih rfl)

/-- If nothing is left out, the walks are the same. -/
theorem walk_eq (h : Thins 0 xs ys) (d : Dialect) (o : Options) (p : Progress) :
    walk d o p xs = walk d o p ys := by
  generalize hn : 0 = n at h
  induction h generalizing p with
  | nil => rfl
  | keep halike hrest ih =>
    subst hn
    rw [walk, walk, ih _ rfl, halike.noteFrame_eq, halike.advance_eq,
      halike.blockOf_eq hrest.opensTab_head]
  | drop => cases hn

/-- Whatever is left out, the walks come to the same progress. -/
theorem walk_progress (h : Thins n xs ys) (d : Dialect) (o : Options) (p : Progress) :
    (walk d o p xs).1 = (walk d o p ys).1 := by
  induction h generalizing p with
  | nil => rfl
  | keep halike _ ih =>
    rw [walk, walk, halike.noteFrame_eq, halike.advance_eq]
    exact ih _
  | drop hspare _ ih =>
    obtain ⟨value, hwalk⟩ := hspare.walk_cons d o p _
    rw [hwalk, ih]

/-- With frames looked up, the blocks of a thinned session are some of those of the session, and
there is a line less for each event that is left out. -/
theorem declareFrames_sublist (h : Thins n xs ys) (d : Dialect) (o : Options) (p : Progress)
    (table : FrameTable) (bound : Bool) :
    (declareFrames table bound (walk d o p ys).2).Sublist
        (declareFrames table bound (walk d o p xs).2) ∧
      (linesOf (declareFrames table bound (walk d o p ys).2)).length + n ≤
        (linesOf (declareFrames table bound (walk d o p xs).2)).length := by
  induction h generalizing p table bound with
  | nil => exact ⟨.slnil, Nat.le_refl _⟩
  | @keep n x y xs ys halike hrest ih =>
    rw [walk, walk, halike.noteFrame_eq, halike.advance_eq,
      halike.blockOf_eq hrest.opensTab_head]
    dsimp only
    cases blockOf d o (p.noteFrame y) y ys.head? with
    | none => exact ih _ table bound
    | some b =>
      rw [Option.toList_some, List.singleton_append, List.singleton_append, declareFrames,
        declareFrames]
      cases table.firstIn? b.lines with
      | none =>
        obtain ⟨hsub, hlines⟩ := ih ((p.noteFrame y).advance y) table bound
        refine ⟨hsub.cons_cons b, ?_⟩
        simp only [linesOf_cons, List.length_append]
        omega
      | some entry =>
        obtain ⟨hsub, hlines⟩ := ih ((p.noteFrame y).advance y) (table.erase entry.1) true
        refine ⟨hsub.cons_cons _, ?_⟩
        simp only [linesOf_cons, List.length_append]
        omega
  | @drop n x y xs ys hspare hrest ih =>
    obtain ⟨value, hwalk⟩ := hspare.walk_cons d o p xs
    obtain ⟨hsub, hlines⟩ := ih p table bound
    rw [hwalk, declareFrames_known (Or.inr (Or.inl hspare.page))]
    refine ⟨hsub.cons _, ?_⟩
    simp only [linesOf_cons, List.length_append, eventBlock, List.length_map,
      List.length_singleton]
    omega

/-- The blocks of a thinned session, before spacers are put between them. -/
theorem unspaced_sublist (h : Thins n xs ys) (d : Dialect) (o : Options) :
    (unspaced d o ys).Sublist (unspaced d o xs) ∧
      (linesOf (unspaced d o ys)).length + n ≤ (linesOf (unspaced d o xs)).length := by
  have hpromise : ∀ table bound bs, declareFrames table bound (promiseBlock :: bs) =
      promiseBlock :: declareFrames table bound bs := fun _ _ _ => rfl
  rw [unspaced, unspaced, h.walk_progress d o {}]
  obtain ⟨hsub, hlines⟩ := h.declareFrames_sublist d o {} (walk d o {} ys).1.frames false
  unfold withPromise
  split
  · rw [hpromise, hpromise]
    refine ⟨hsub.cons_cons _, ?_⟩
    simp only [linesOf_cons, List.length_append]
    omega
  · exact ⟨hsub, hlines⟩

/-- A thinned session has the script of the session exactly if nothing is left out. -/
theorem script_eq_iff (h : Thins n xs ys) (d : Dialect) (o : Options) :
    script d o xs = script d o ys ↔ n = 0 := by
  obtain ⟨hsub, hlines⟩ := h.unspaced_sublist d o
  constructor
  · intro hs
    rw [linesOf_eq_of_script_eq hsub hs] at hlines
    omega
  · rintro rfl
    have hblocks : blocks d o xs = blocks d o ys := by rw [blocks, blocks, h.walk_eq]
    rw [script, script, scriptLines, scriptLines, hblocks]

end Thins

end SessionScript.Script
