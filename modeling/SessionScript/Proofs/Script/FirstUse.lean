import SessionScript.Proofs.Script.Layout
import SessionScript.Proofs.Script.Positions
import SessionScript.Proofs.Script.Scopes
import SessionScript.Proofs.Script.Sealing

/-!
# Frames are looked up at their first use

The table of frames is filled by all events, also by those that give no code, and is used up
afterwards, block by block. In the end each frame that has lines is looked up exactly once, in front
of the first block of the frame that holds a line, by the last address recorded for it anywhere in
the session. The list of frames is declared with the first lookup and assigned by the others. Apart
from the lookups and the spacers, the blocks are as they were. Declarations are sought in what lines
have of their own, so not in what a selector may have behind the remark that it stands in.
-/

namespace SessionScript.Script

/-- The blocks of a session before frames are looked up. -/
def draft (d : Dialect) (o : Options) (events : List Event) : List Block :=
  withPromise o (walk d o {} events).1 (walk d o {} events).2

/-- Does a block hold a line, in a given frame? -/
def Block.ActsIn (b : Block) (id : UInt64) : Prop := b.frame = id ∧ b.lines ≠ []

instance (b : Block) (id : UInt64) : Decidable (b.ActsIn id) := inferInstanceAs (Decidable (_ ∧ _))

/-- Does a line belong to the lookup of a frame? -/
def Line.isLookup (line : Line) : Bool := line.kind = some .frameSet

/-- What looking frames up makes of a block: it stays as it is, or the frame that it holds lines in
is looked up in front of them. -/
def Completes (table : FrameTable) (b b' : Block) : Prop :=
  b' = b ∨ b.ActsIn b.frame ∧ b.frame ≠ 0 ∧
    ∃ bound url, table.url? b.frame = some url ∧
      b' = ⟨b.frame, lookupLines bound b.frame url ++ b.lines⟩

section Pass

variable {bs : List Block} (hbs : ∀ b ∈ bs, ∃ e values, b = eventBlock e values)

include hbs

/-- Blocks of events are completed one by one, and without the lookups they are as before. -/
theorem declareFrames_completes (table : FrameTable) (bound : Bool) :
    (declareFrames table bound bs).map Block.withoutLookups = bs ∧
      ∀ b ∈ declareFrames table bound bs, Completes table b.withoutLookups b := by
  induction bs generalizing table bound with
  | nil => exact ⟨rfl, fun _ h => absurd h List.not_mem_nil⟩
  | cons b bs ih =>
    obtain ⟨⟨e, values, rfl⟩, hrest⟩ := List.forall_mem_cons.mp hbs
    by_cases hskip : values = [] ∨ e.frame = 0 ∨ table.url? e.frame = none
    · obtain ⟨hmap, hcompletes⟩ := ih hrest table bound
      rw [declareFrames_known hskip, List.map_cons, hmap, withoutLookups_eventBlock]
      refine ⟨rfl, List.forall_mem_cons.mpr ⟨?_, hcompletes⟩⟩
      rw [withoutLookups_eventBlock]
      exact Or.inl rfl
    · obtain ⟨hvalues, hpage, hsome⟩ := not_or.mp hskip |>.imp_right not_or.mp
      obtain ⟨url, hurl⟩ := Option.ne_none_iff_exists'.mp hsome
      obtain ⟨hmap, hcompletes⟩ := ih hrest (table.erase e.frame) true
      have hlines : (eventBlock e values).lines ≠ [] := by simpa [eventBlock] using hvalues
      rw [declareFrames_lookup hvalues hpage hurl, List.map_cons, hmap, withoutLookups_lookup]
      refine ⟨rfl, List.forall_mem_cons.mpr ⟨?_, fun b hb => ?_⟩⟩
      · rw [withoutLookups_lookup]
        exact Or.inr ⟨⟨rfl, hlines⟩, hpage, bound, url, hurl, rfl⟩
      · rcases hcompletes b hb with heq | ⟨hacts, hframe, bound', url', hurl', heq⟩
        · exact Or.inl heq
        · rw [erase_url?] at hurl'
          split at hurl'
          · cases hurl'
          · exact Or.inr ⟨hacts, hframe, bound', url', hurl', heq⟩

/-- Blocks in a row are gone through in a row: behind some blocks, the frames that hold lines in
them are used up, and the list of frames is bound if any of them has been looked up. -/
theorem declareFrames_append (table : FrameTable) (bound : Bool) (later : List Block) :
    ∃ table', declareFrames table bound (bs ++ later) = declareFrames table bound bs ++
        declareFrames table' (bound || (linesOf (declareFrames table bound bs)).any Line.isLookup)
          later ∧
      ∀ id ≠ 0, table'.url? id = if ∃ b ∈ bs, b.ActsIn id then none else table.url? id := by
  induction bs generalizing table bound with
  | nil => exact ⟨table, by simp [declareFrames], fun id _ => by simp⟩
  | cons b bs ih =>
    obtain ⟨⟨e, values, rfl⟩, hrest⟩ := List.forall_mem_cons.mp hbs
    have hplain : (eventBlock e values).lines.any Line.isLookup = false := by
      simp [eventBlock, Line.isLookup]
    have hacts : ∀ id, (eventBlock e values).ActsIn id ↔ e.frame = id ∧ values ≠ [] := by
      intro id
      simp [Block.ActsIn, eventBlock]
    rw [List.cons_append]
    by_cases hskip : values = [] ∨ e.frame = 0 ∨ table.url? e.frame = none
    · obtain ⟨table', heq, hurl⟩ := ih hrest table bound
      refine ⟨table', ?_, fun id hid => ?_⟩
      · rw [declareFrames_known hskip, declareFrames_known hskip, heq, linesOf_cons,
          List.any_append, hplain, Bool.false_or]
        rfl
      · rw [hurl id hid]
        by_cases hb : e.frame = id ∧ values ≠ []
        · obtain ⟨rfl, hvalues⟩ := hb
          have hnone := (hskip.resolve_left hvalues).resolve_left hid
          rw [hnone, ite_self, ite_self]
        · simp only [List.exists_mem_cons_iff, hacts, hb, false_or]
    · obtain ⟨hvalues, hpage, hsome⟩ := not_or.mp hskip |>.imp_right not_or.mp
      obtain ⟨url, hurl⟩ := Option.ne_none_iff_exists'.mp hsome
      obtain ⟨table', heq, hurls⟩ := ih hrest (table.erase e.frame) true
      refine ⟨table', ?_, fun id hid => ?_⟩
      · rw [declareFrames_lookup hvalues hpage hurl, declareFrames_lookup hvalues hpage hurl, heq]
        simp [lookupLines, Line.isLookup]
      · rw [hurls id hid, erase_url?]
        by_cases hb : e.frame = id
        · simp [hacts, hb, hvalues]
        · simp [hacts, hb, Ne.symm hb]

end Pass

/-- Listing the frames declares no frame. -/
theorem list_declared (bound : Bool) (id frame : UInt64) :
    frameVariable id ∉ Line.declared ⟨some .frameSet, listFrames bound, frame⟩ := by
  have hlist := declared_used (l := ⟨some .frameSet, listFrames bound, frame⟩)
    (listFrames_mentions bound)
  have hframes : frameVariable id ≠ "frames" := numbered_ne (by decide) _
  rw [hlist.1]
  cases bound <;> simp [List.filterMap_cons, Mention.declared?, hframes]

/-- Finding a frame declares it. -/
theorem find_declared (id frame : UInt64) (url : String) :
    Line.declared ⟨some .frameSet, findFrame id url, frame⟩ = [frameVariable id] :=
  (declared_used (l := ⟨some .frameSet, findFrame id url, frame⟩) (findFrame_mentions id url)).1

/-- Only the lookup of a frame declares its variable. -/
theorem eq_of_lookup_declares {bound : Bool} {id other : UInt64} {url : String} {line : Line}
    (hl : line ∈ lookupLines bound other url) (hdeclared : frameVariable id ∈ line.own.declared) :
    other = id := by
  simp only [lookupLines, List.mem_cons, List.not_mem_nil, or_false] at hl
  rcases hl with rfl | rfl
  · exact absurd hdeclared (list_declared bound id other)
  · rw [own_of_ne (by simp), find_declared, List.mem_singleton] at hdeclared
    exact (frameVariable_injective hdeclared).symm

/-- The lines of events declare no frames. -/
theorem declared_blockOf {d : Dialect} (hd : d ∈ [puppeteer, playwright]) {o : Options}
    {p : Progress} {e : Event} {next : Option Event} {b : Block}
    (hb : blockOf d o p e next = some b) (id : UInt64) :
    ∀ line ∈ b.lines, frameVariable id ∉ line.own.declared := by
  by_cases hm : e.action = .mouseMove
  · intro line hl
    simp only [blockOf, hm, Option.map_eq_some_iff] at hb
    obtain ⟨⟨x, y⟩, -, rfl⟩ := hb
    have hmention : mentions (codeOf line.own.value) ⊆ receiverMentions e := by
      rw [own_mouseMove hl, move_mentions]
      exact List.Subset.refl _
    rw [(used_of_receiver hmention).1]
    exact List.not_mem_nil
  obtain ⟨values, rfl⟩ := blockOf_eq_eventBlock hb
  have hown : ∀ line ∈ (eventBlock e values).lines, line.own = line := by
    intro line hl
    obtain ⟨value, -, rfl⟩ := List.mem_map.mp hl
    exact own_of_ne fun h => hm (LineKind.action.inj (Option.some.inj h))
  have helement : ∀ n : Nat,
      "element" ++ toString n ∉ [frameVariable e.frame, "navigationPromise"] := by
    intro n
    have hpromise : "element" ++ toString n ≠ "navigationPromise" := numbered_ne (by decide) n
    simp only [List.mem_cons, List.not_mem_nil, or_false, not_or]
    exact ⟨element_ne_frameVariable n e.frame, hpromise⟩
  obtain ⟨-, hdeclared⟩ := eventBlock_scoped hd hb (fun h => absurd h hm)
    (Or.inr (Or.inr List.mem_cons_self))
    (fun _ _ => List.mem_cons_of_mem _ (List.mem_singleton_self _)) fun _ => helement _
  intro line hl hframe
  rw [hown line hl] at hframe
  have hmem := List.mem_flatMap_of_mem hl hframe
  rcases hdeclared with hnone | ⟨-, hone⟩
  · rw [hnone] at hmem
    exact absurd hmem List.not_mem_nil
  · rw [hone] at hmem
    exact element_ne_frameVariable _ _ (List.mem_singleton.mp hmem).symm

/-- A line that declares a frame is there only if a block holds lines in the frame, and the frame
is in the table. -/
theorem actsIn_of_declares {bs : List Block} (hbs : ∀ b ∈ bs, ∃ e values, b = eventBlock e values)
    {id : UInt64} (hplain : ∀ b ∈ bs, ∀ line ∈ b.lines, frameVariable id ∉ line.own.declared)
    {table : FrameTable} {bound : Bool} {line : Line}
    (hl : line ∈ linesOf (declareFrames table bound bs))
    (hdeclared : frameVariable id ∈ line.own.declared) :
    (∃ b ∈ bs, b.ActsIn id) ∧ table.url? id ≠ none := by
  obtain ⟨hmap, hcompletes⟩ := declareFrames_completes hbs table bound
  obtain ⟨b, hb, hl⟩ := List.mem_flatMap.mp hl
  have hmem : b.withoutLookups ∈ bs := hmap ▸ List.mem_map_of_mem hb
  rcases hcompletes b hb with heq | ⟨hacts, -, bound', url, hurl, heq⟩
  · rw [heq] at hl
    exact absurd hdeclared (hplain _ hmem line hl)
  · rw [heq] at hl
    rcases List.mem_append.mp hl with hl | hl
    · rw [eq_of_lookup_declares hl hdeclared] at hacts hurl
      exact ⟨⟨_, hmem, hacts⟩, by rw [hurl]; exact Option.some_ne_none url⟩
    · exact absurd hdeclared (hplain _ hmem line hl)

/-- The declaration of a frame in two lines, at the head of a block that stands between others. -/
structure DeclaredAt (id : UInt64) (url : String) (earlier : List Block) (list find : Line)
    (lines : List Line) (later : List Block) : Prop where
  /-- No earlier block holds a line in the frame. -/
  first : ∀ b ∈ earlier, ¬b.ActsIn id
  /-- The block holds lines besides the declaration, and none of them looks a frame up. -/
  used : lines ≠ [] ∧ ∀ line ∈ lines, line.isLookup = false
  /-- Both lines are marked as the lookup of a frame. -/
  kinds : list.isLookup = true ∧ find.isLookup = true
  /-- The first declaration of all declares the list of frames. -/
  opening : (∀ line ∈ linesOf earlier, line.isLookup = false) →
    list.value = "let frames = await page.frames()"
  /-- Any other declaration assigns it. -/
  assigning : (∃ line ∈ linesOf earlier, line.isLookup = true) →
    list.value = "frames = await page.frames()"
  /-- The frame is found by its address, which is the literal of the line. -/
  finding : find.value = findFrame id url ∧ find.declared = [frameVariable id] ∧
    find.literals = [url]
  /-- No other line has a declaration of the frame of its own. -/
  once : ∀ line ∈ linesOf earlier ++ list :: lines ++ linesOf later,
    frameVariable id ∉ line.own.declared

/-- A frame of the table that blocks of events hold lines in is declared at the first of them. -/
theorem declareFrames_declaredAt {bs : List Block}
    (hbs : ∀ b ∈ bs, ∃ e values, b = eventBlock e values) {id : UInt64}
    (hplain : ∀ b ∈ bs, ∀ line ∈ b.lines, frameVariable id ∉ line.own.declared) (hid : id ≠ 0)
    (hacts : ∃ b ∈ bs, b.ActsIn id) {table : FrameTable} {url : String}
    (hurl : table.url? id = some url) :
    ∃ earlier list find lines later,
      declareFrames table false bs = earlier ++ ⟨id, list :: find :: lines⟩ :: later ∧
        DeclaredAt id url earlier list find lines later := by
  have hsome : (bs.find? fun b => decide (b.ActsIn id)).isSome = true :=
    List.find?_isSome.mpr (by simpa using hacts)
  obtain ⟨b, hfirst⟩ := Option.isSome_iff_exists.mp hsome
  obtain ⟨hb, before, after, rfl, hbefore⟩ := List.find?_eq_some_iff_append.mp hfirst
  simp only [decide_eq_true_eq, Bool.not_eq_true', decide_eq_false_iff_not] at hb hbefore
  obtain ⟨hbsBefore, hbsRest⟩ := List.forall_mem_append.mp hbs
  obtain ⟨⟨e, values, rfl⟩, hbsAfter⟩ := List.forall_mem_cons.mp hbsRest
  obtain ⟨hplainBefore, hplainRest⟩ := List.forall_mem_append.mp hplain
  obtain ⟨hplainHere, hplainAfter⟩ := List.forall_mem_cons.mp hplainRest
  obtain ⟨hframe, hlines⟩ := hb
  change e.frame = id at hframe
  subst hframe
  obtain ⟨table', hsplit, htable⟩ := declareFrames_append hbsBefore table false
    (eventBlock e values :: after)
  have hunused : ¬∃ b ∈ before, b.ActsIn e.frame := by
    rintro ⟨b, hb, hacts⟩
    exact hbefore b hb hacts
  have hurl' : table'.url? e.frame = some url := by
    rw [htable e.frame hid, if_neg hunused, hurl]
  have hvalues : values ≠ [] := fun h => hlines (by rw [h]; rfl)
  rw [declareFrames_lookup hvalues hid hurl', Bool.false_or] at hsplit
  refine ⟨_, _, _, _, _, hsplit, ?_⟩
  constructor
  case first =>
    intro b hb ⟨hframe, hlines⟩
    obtain ⟨hmap, hcompletes⟩ := declareFrames_completes hbsBefore table false
    refine hbefore b.withoutLookups (hmap ▸ List.mem_map_of_mem hb) ?_
    rcases hcompletes b hb with heq | ⟨hacts, -⟩
    · exact ⟨hframe, heq ▸ hlines⟩
    · exact ⟨hframe, hacts.2⟩
  case used =>
    refine ⟨hlines, fun line hl => ?_⟩
    obtain ⟨value, -, rfl⟩ := List.mem_map.mp hl
    rfl
  case kinds => exact ⟨rfl, rfl⟩
  case opening =>
    intro hnone
    rw [List.any_eq_false.mpr fun line hl => Bool.eq_false_iff.mp (hnone line hl)]
    rfl
  case assigning =>
    intro hsome
    rw [List.any_eq_true.mpr hsome]
    rfl
  case finding =>
    refine ⟨rfl, find_declared _ _ _, ?_⟩
    rw [Line.literals, findFrame_pieces, findFramePieces]
    simp
  case once =>
    simp only [List.mem_append, List.mem_cons]
    rintro line ((hl | rfl | hl) | hl)
    · intro hdeclared
      obtain ⟨b, hb, hacts⟩ := (actsIn_of_declares hbsBefore hplainBefore hl hdeclared).1
      exact hbefore b hb hacts
    · exact list_declared _ _ _
    · exact hplainHere line hl
    · intro hdeclared
      have hleft := (actsIn_of_declares hbsAfter hplainAfter hl hdeclared).2
      rw [erase_url?, if_pos rfl] at hleft
      exact hleft rfl

/-- A block that has nothing to do with a frame: it is of another one, and its lines neither look
frames up nor declare this one. -/
def Block.Foreign (b : Block) (id : UInt64) : Prop :=
  b.frame ≠ id ∧ ∀ line ∈ b.lines, line.isLookup = false ∧ frameVariable id ∉ line.own.declared

/-- Spacers have nothing to do with frames. -/
theorem spacer_foreign {id : UInt64} (hid : id ≠ 0) : Block.spacer.Foreign id := by
  refine ⟨hid.symm, fun line hl => ?_⟩
  rw [List.mem_singleton.mp hl, own_of_ne (by decide), blank_declared.1]
  exact ⟨rfl, List.not_mem_nil⟩

/-- The promise of a navigation has nothing to do with frames. -/
theorem promiseBlock_foreign {id : UInt64} (hid : id ≠ 0) : promiseBlock.Foreign id := by
  have hpromise : frameVariable id ≠ "navigationPromise" := numbered_ne (by decide) _
  refine ⟨hid.symm, fun line hl => ?_⟩
  obtain rfl : line = promiseLine := List.mem_singleton.mp hl
  rw [own_of_ne (by decide), promiseLine_declared.1, List.mem_singleton]
  exact ⟨rfl, hpromise⟩

/-- Blocks that have nothing to do with a frame may be put among the others. -/
theorem DeclaredAt.among {id : UInt64} {url : String} {earlier earlier' later later' : List Block}
    {list find : Line} {lines : List Line} (h : DeclaredAt id url earlier list find lines later)
    (hkept : earlier ⊆ earlier') (hearlier : ∀ b ∈ earlier', b.Foreign id ∨ b ∈ earlier)
    (hlater : ∀ b ∈ later', b.Foreign id ∨ b ∈ later) :
    DeclaredAt id url earlier' list find lines later' := by
  constructor
  case first =>
    intro b hb hacts
    rcases hearlier b hb with hforeign | hb
    · exact hforeign.1 hacts.1
    · exact h.first b hb hacts
  case used => exact h.used
  case kinds => exact h.kinds
  case opening =>
    intro hnone
    refine h.opening fun line hl => ?_
    obtain ⟨b, hb, hl⟩ := List.mem_flatMap.mp hl
    exact hnone line (List.mem_flatMap.mpr ⟨b, hkept hb, hl⟩)
  case assigning =>
    rintro ⟨line, hl, hlookup⟩
    obtain ⟨b, hb, hl⟩ := List.mem_flatMap.mp hl
    rcases hearlier b hb with hforeign | hb
    · rw [(hforeign.2 line hl).1] at hlookup
      cases hlookup
    · exact h.assigning ⟨line, List.mem_flatMap.mpr ⟨b, hb, hl⟩, hlookup⟩
  case finding => exact h.finding
  case once =>
    have honce := h.once
    simp only [List.forall_mem_append, linesOf, List.forall_mem_flatMap] at honce ⊢
    refine ⟨⟨fun b hb line hl => ?_, honce.1.2⟩, fun b hb line hl => ?_⟩
    · rcases hearlier b hb with hforeign | hb
      · exact (hforeign.2 line hl).2
      · exact honce.1.1 b hb line hl
    · rcases hlater b hb with hforeign | hb
      · exact (hforeign.2 line hl).2
      · exact honce.2 b hb line hl

/-- Spacers around a block that stands between others. -/
theorem spaced_append_cons (earlier : List Block) (b : Block) (later : List Block) :
    spaced (earlier ++ b :: later) = spaced earlier ++ b :: spaced later := by
  simp [spaced]

/-- Spacers can be taken out of blocks that are none. -/
theorem filter_isSpacer {bs : List Block} (hbs : ∀ b ∈ bs, b.isSpacer = false) :
    bs.filter (!·.isSpacer) = bs :=
  List.filter_eq_self.mpr fun b hb => by rw [hbs b hb]; rfl

/-- Spacers can be taken out from between blocks that are none. -/
theorem filter_spaced {bs : List Block} (hbs : ∀ b ∈ bs, b.isSpacer = false) :
    (spaced bs).filter (!·.isSpacer) = bs := by
  have hspacer : Block.spacer.isSpacer = true := rfl
  induction bs with
  | nil => rfl
  | cons b bs ih =>
    obtain ⟨hb, hrest⟩ := List.forall_mem_cons.mp hbs
    have hih := ih hrest
    simp only [spaced, List.filter_cons, hspacer, Bool.not_true] at hih ⊢
    simpa [hb, hspacer] using hih

section Session

variable {d : Dialect} {o : Options} {events : List Event} {id : UInt64}

/-- Only blocks of the walk can hold lines in a frame. -/
theorem exists_actsIn_draft (hid : id ≠ 0) :
    (∃ b ∈ draft d o events, b.ActsIn id) ↔ ∃ b ∈ (walk d o {} events).2, b.ActsIn id := by
  unfold draft withPromise
  split
  · have hpromise : ¬promiseBlock.ActsIn id := fun hacts => hid hacts.1.symm
    rw [List.exists_mem_cons_iff, or_iff_right hpromise]
  · rfl

/-- The blocks of the walk are blocks of events. -/
theorem walk_eventBlocks (d : Dialect) (o : Options) (events : List Event) :
    ∀ b ∈ (walk d o {} events).2, ∃ e values, b = eventBlock e values := by
  intro b hb
  obtain ⟨-, -, e, -, values, -, heq⟩ := mem_walk_blocks hb
  exact ⟨e, values, heq⟩

/-- The blocks of the walk declare no frames. -/
theorem walk_declared (hd : d ∈ [puppeteer, playwright]) :
    ∀ b ∈ (walk d o {} events).2, ∀ line ∈ b.lines, frameVariable id ∉ line.own.declared := by
  intro b hb
  obtain ⟨p, next, e, -, -, hblock, -⟩ := mem_walk_blocks hb
  exact declared_blockOf hd hblock id

/-- Without lookups, the blocks of a session are those before frames are looked up. -/
theorem unspaced_withoutLookups (d : Dialect) (o : Options) (events : List Event) :
    (unspaced d o events).map Block.withoutLookups = draft d o events := by
  have hwalk := (declareFrames_completes (walk_eventBlocks d o events)
    (walk d o {} events).1.frames false).1
  unfold unspaced draft withPromise
  split
  · exact congrArg (promiseBlock :: ·) hwalk
  · exact hwalk

/-- A frame that blocks hold lines in is declared at the first of them, by its last address. -/
theorem unspaced_declaredAt (hd : d ∈ [puppeteer, playwright]) (hid : id ≠ 0)
    (hacts : ∃ b ∈ draft d o events, b.ActsIn id) :
    ∃ earlier list find lines later,
      unspaced d o events = earlier ++ ⟨id, list :: find :: lines⟩ :: later ∧
        DeclaredAt id ((lastAddress? events id).getD "") earlier list find lines later := by
  have hwalk := (exists_actsIn_draft hid).mp hacts
  have hurl : (walk d o {} events).1.frames.url? id = some ((lastAddress? events id).getD "") := by
    obtain ⟨b, hb, hframe, -⟩ := hwalk
    obtain ⟨-, -, e, he, values, -, rfl⟩ := mem_walk_blocks hb
    change e.frame = id at hframe
    subst hframe
    exact walk_url?_of_mem d o he hid
  obtain ⟨earlier, list, find, lines, later, hblocks, hat⟩ :=
    declareFrames_declaredAt (walk_eventBlocks d o events) (walk_declared hd) hid hwalk hurl
  rw [unspaced_eq, hblocks]
  split
  · refine ⟨promiseBlock :: earlier, list, find, lines, later, rfl, hat.among ?_ ?_ ?_⟩
    · exact List.subset_cons_self _ _
    · exact List.forall_mem_cons.mpr ⟨Or.inl (promiseBlock_foreign hid), fun b hb => Or.inr hb⟩
    · exact fun b hb => Or.inr hb
  · exact ⟨earlier, list, find, lines, later, rfl, hat⟩

/-- A frame that no block holds a line in is not declared. -/
theorem unspaced_declared (hd : d ∈ [puppeteer, playwright]) (hid : id ≠ 0)
    (hacts : ∀ b ∈ draft d o events, ¬b.ActsIn id) :
    ∀ line ∈ linesOf (unspaced d o events), frameVariable id ∉ line.own.declared := by
  have hwalk : ∀ line ∈ linesOf (declareFrames (walk d o {} events).1.frames false
      (walk d o {} events).2), frameVariable id ∉ line.own.declared := by
    intro line hl hdeclared
    have hsome := actsIn_of_declares (walk_eventBlocks d o events) (walk_declared hd) hl hdeclared
    obtain ⟨b, hb, hb'⟩ := (exists_actsIn_draft hid).mpr hsome.1
    exact hacts b hb hb'
  rw [unspaced_eq]
  split
  · exact List.forall_mem_append.mpr
      ⟨fun line hl => ((promiseBlock_foreign hid).2 line hl).2, hwalk⟩
  · exact hwalk

end Session

/-- Frames are declared exactly where they belong, in every session, in both libraries and under all
options. Without spacers and lookups, the blocks are those before frames are looked up. A frame that
none of these holds a line in is not declared; any other frame is declared once, in two lines at the
head of the first of its blocks that holds a line, by the last address recorded for it. -/
theorem frames_declared_at_first_use {d : Dialect} (hd : d ∈ [puppeteer, playwright]) (o : Options)
    (events : List Event) :
    ((blocks d o events).filter (!·.isSpacer)).map Block.withoutLookups = draft d o events ∧
      ∀ id ≠ 0,
        ((∀ b ∈ draft d o events, ¬b.ActsIn id) →
          ∀ line ∈ linesOf (blocks d o events), frameVariable id ∉ line.own.declared) ∧
        ((∃ b ∈ draft d o events, b.ActsIn id) →
          ∃ earlier list find lines later,
            blocks d o events = earlier ++ ⟨id, list :: find :: lines⟩ :: later ∧
              DeclaredAt id ((lastAddress? events id).getD "") earlier list find lines later) := by
  rw [blocks_eq]
  split
  · refine ⟨?_, fun id hid => ⟨fun hacts line hl => ?_, fun hacts => ?_⟩⟩
    · rw [filter_spaced (isSpacer_unspaced d o events), unspaced_withoutLookups]
    · rcases (mem_linesOf_spaced _ line).mp hl with hl | hl
      · exact ((spacer_foreign hid).2 line hl).2
      · exact unspaced_declared hd hid hacts line hl
    · obtain ⟨earlier, list, find, lines, later, hblocks, hat⟩ := unspaced_declaredAt hd hid hacts
      have hforeign : ∀ bs, ∀ b ∈ spaced bs, b.Foreign id ∨ b ∈ bs := by
        intro bs b hb
        refine ((mem_spaced bs b).mp hb).imp_left fun hspacer => ?_
        rw [hspacer]
        exact spacer_foreign hid
      refine ⟨spaced earlier, list, find, lines, spaced later, ?_, ?_⟩
      · rw [hblocks, spaced_append_cons]
      · exact hat.among (fun b hb => (mem_spaced _ b).mpr (Or.inr hb)) (hforeign earlier)
          (hforeign later)
  · refine ⟨?_, fun id hid => ⟨unspaced_declared hd hid, unspaced_declaredAt hd hid⟩⟩
    rw [filter_isSpacer (isSpacer_unspaced d o events), unspaced_withoutLookups]

/-- Two frames and a page that interleave: the first block of frame 4 is empty, and its address
changes in an event that gives no code. Frame 9 is only seen. -/
def embeddedSession : List Event :=
  [ { action := .navigation },
    { action := .tabCreate, frameId := some 4, frameUrl := some "https://a" },
    { action := .click, selector := some "#play", frameId := some 7 },
    { action := .hover, selector := some "#x", frameId := some 4 },
    { action := .unload, frameId := some 4, frameUrl := some "https://b" },
    { action := .load, frameId := some 9, frameUrl := some "https://c" } ]

/-- In its script, frame 4 is declared once, by its last address, and frame 9 not at all. -/
theorem embeddedSession_declared_at_first_use :
    (∀ line ∈ linesOf (blocks playwright {} embeddedSession),
        frameVariable 9 ∉ line.own.declared) ∧
      ∃ earlier list find lines later,
        blocks playwright {} embeddedSession =
            earlier ++ ⟨4, list :: find :: lines⟩ :: later ∧
          DeclaredAt 4 "https://b" earlier list find lines later := by
  have hd : playwright ∈ [puppeteer, playwright] := List.mem_cons_of_mem _ List.mem_cons_self
  have h := (frames_declared_at_first_use hd {} embeddedSession).2
  exact ⟨(h 9 (by decide)).1 (by decide), (h 4 (by decide)).2 (by decide)⟩

end SessionScript.Script
