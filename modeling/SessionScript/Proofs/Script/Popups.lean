import SessionScript.Proofs.Optimizer.NormalForm
import SessionScript.Proofs.Script.Templates

/-!
# Pages that a session opens

The code that waits for a page to open is written for a click or a keystroke with the opening of a
tab directly behind. The walk looks for such neighbours in the shrunk session, where typing has
become fills and repeated strokes are gone. It still finds all of them in order: typing opens no
tab, and a dropped stroke stands behind one that presses the same key in the same frame, and hands
its place over to that one.
-/

namespace SessionScript.Script

open Optimizer

/-- The pairs of an event and the next one, in order. -/
def neighbours (events : List Event) : List (Event × Event) := events.zip events.tail

/-- May the event make the browser open a tab? A click may, and so may a keystroke that is not taken
into a fill. -/
def MayOpen (e : Event) : Prop :=
  e.action = .click ∨ e.action = .keydown ∧ (KeyKind.of e.key e.keyCode).isMergeable = false

instance (e : Event) : Decidable (MayOpen e) := inferInstanceAs (Decidable (_ ∨ _ ∧ _))

/-- The events that open a tab, in the order of the tabs: those that may, with the opening of a tab
directly behind. -/
def openings (events : List Event) : List Event :=
  ((neighbours events).filter fun (e, next) => MayOpen e ∧ next.action = .tabCreate).map Prod.fst

/-- The call by which an event opens a tab. -/
def openingCall (o : Options) (e : Event) : String :=
  if e.action = .click then receiver e ++ ".click('" ++ selectorText e ++ "')"
  else receiver e ++ ".keyboard.press('" ++ escape (pressedKey o e) ++ "')"

/-- The template that waits for a page to open, up to the call. -/
def popupLead : String :=
  "\x7b\n  const [newPage] = await Promise.all([\n    page.waitForEvent('popup'),\n    "

/-- The template that waits for a page to open, from the call on. -/
def popupTrail : String := ",\n  ])\n  page = newPage\n\x7d"

/-- The call in a piece of code that waits for a page to open. Other code gives none. -/
def popupCall? (value : String) : Option String :=
  (popupLead.toList.isPrefixOf? value.toList).bind fun rest =>
    (popupTrail.toList.isSuffixOf? rest).map String.ofList

/-- The calls in the lines that wait for a page to open, in order. -/
def popupCalls (blocks : List Block) : List String :=
  (linesOf blocks).filterMap fun line => popupCall? line.value

/-- Exactly the template that waits for a page to open is read back, and gives its call. -/
theorem popupCall?_eq_some_iff {value call : String} :
    popupCall? value = some call ↔ value = popup call := by
  have hpopup : popup call = popupLead ++ call ++ popupTrail := by
    delta popup popupLead popupTrail
    rfl
  rw [hpopup, ← String.toList_inj, String.toList_append, String.toList_append, List.append_assoc]
  simp only [popupCall?, Option.bind_eq_some_iff, Option.map_eq_some_iff,
    List.isPrefixOf?_eq_some_iff_append_eq, List.isSuffixOf?_eq_some_iff_append_eq]
  constructor
  · rintro ⟨rest, hrest, cs, hcs, rfl⟩
    rw [String.toList_ofList, hcs, hrest]
  · intro h
    exact ⟨_, h.symm, call.toList, rfl, String.ofList_toList⟩

/-- Code that does not start as the template does waits for no page. -/
theorem popupCall?_of_head {value : String} (h : value.toList.head? ≠ some '\x7b') :
    popupCall? value = none := by
  by_contra hp
  obtain ⟨call, hp⟩ := Option.ne_none_iff_exists'.mp hp
  rw [popupCall?_eq_some_iff] at hp
  refine h ?_
  rw [hp]
  delta popup
  simp

/-- The code that awaits a call waits for a page exactly when the call opens one. -/
theorem popupCall?_awaited (opens : Bool) (call : String) :
    popupCall? (awaited opens call) = if opens then some call else none := by
  cases opens with
  | true => exact popupCall?_eq_some_iff.mpr rfl
  | false => exact popupCall?_of_head (by simp [awaited])

/-- The calls of a block of an event with given texts. -/
theorem popupCalls_eventBlock (e : Event) (values : List String) :
    popupCalls [eventBlock e values] = values.filterMap popupCall? := by
  rw [popupCalls, linesOf_cons, linesOf_nil, List.append_nil, eventBlock, List.filterMap_map]
  rfl

/-- The calls of blocks in a row. -/
theorem popupCalls_append (xs ys : List Block) :
    popupCalls (xs ++ ys) = popupCalls xs ++ popupCalls ys := by
  rw [popupCalls, linesOf_append, List.filterMap_append]
  rfl

/-- Waiting for an element and clicking it waits for a page when the click opens one. -/
theorem popupCalls_click {d : Dialect} (hd : d ∈ [puppeteer, playwright]) (o : Options)
    (opens : Bool) {e : Event} (ha : e.action = .click) :
    popupCalls [clickBlock d o opens e] = if opens then [openingCall o e] else [] := by
  have hwait : popupCall?
      ("await " ++ receiver e ++ ".waitForSelector('" ++ selectorText e ++ "')") = none :=
    popupCall?_of_head (by simp)
  have hidle : (d.afterClick o).toList.filterMap popupCall? = [] := by
    refine List.filterMap_eq_nil_iff.mpr fun value hv => ?_
    rw [(dialect_spells hd o).2.2 value (Option.mem_toList.mp hv)]
    exact popupCall?_of_head (by decide)
  have hbefore : (if o.waitForSelectorOnClick then
      ["await " ++ receiver e ++ ".waitForSelector('" ++ selectorText e ++ "')"]
      else []).filterMap popupCall? = [] := by
    split
    · rw [List.filterMap_cons_none hwait, List.filterMap_nil]
    · rfl
  have hcall : openingCall o e = receiver e ++ ".click('" ++ selectorText e ++ "')" := if_pos ha
  rw [clickBlock_eq ha, popupCalls_eventBlock, List.filterMap_append, List.filterMap_append,
    hbefore, hidle, List.nil_append, List.append_nil, hcall]
  cases opens with
  | true => rw [List.filterMap_cons_some (popupCall?_awaited true _)]; rfl
  | false => rw [List.filterMap_cons_none (popupCall?_awaited false _)]; rfl

/-- Apart from strokes and clicks, no line of an event starts as the template that waits for a
page. -/
theorem eventPieces_start (d : Dialect) (o : Options) (p : Progress) {e : Event}
    (next : Option Event) (hstroke : e.action ≠ .keydown) (hclick : e.action ≠ .click) :
    ∀ ps ∈ eventPieces d o p e next, ps.head? ≠ some (.code '\x7b') := by
  have hawait : ∀ receiver method arguments,
      (awaitPieces receiver method arguments).head? = some (.code 'a') := fun _ _ _ => rfl
  unfold eventPieces
  cases ha : e.action with
  | keydown => exact absurd ha hstroke
  | click => exact absurd ha hclick
  | hover | fill => simp [hawait]
  | mouseMove =>
    dsimp only
    cases e.value.bind Payload.point? <;> simp [movePieces, hawait]
  | change =>
    dsimp only
    split <;> simp [hawait]
  | goto =>
    dsimp only
    cases e.href <;> simp [hawait]
  | viewport =>
    dsimp only
    cases e.value.bind Payload.size? <;> simp [hawait]
  | navigation =>
    dsimp only
    split <;> simp [plain]
  | tabChange =>
    dsimp only
    cases e.tabId? <;> simp [plain]
  | screenshot =>
    dsimp only [screenshotPieces]
    split <;> simp [hawait, plain]
  | tabCreate | dblClick | select | submit | load | unload | other tag => simp

/-- Apart from strokes and clicks, no event waits for a page. -/
theorem popupCalls_of_other {d : Dialect} (hd : d ∈ [puppeteer, playwright]) (o : Options)
    (p : Progress) {e : Event} (next : Option Event) (hstroke : e.action ≠ .keydown)
    (hclick : e.action ≠ .click) : popupCalls (blockOf d o p e next).toList = [] := by
  refine List.filterMap_eq_nil_iff.mpr fun line hl => popupCall?_of_head fun hstart => ?_
  have hps : pieces line.value ∈ eventPieces d o p e next :=
    blockOf_pieces hd o p e next ▸ List.mem_map_of_mem hl
  refine eventPieces_start d o p next hstroke hclick _ hps ?_
  obtain ⟨cs, hcs⟩ := List.head?_eq_some_iff.mp hstart
  rw [pieces, hcs, scan_code (by decide)]
  rfl

/-- An event that is no typing waits for a page exactly when it may open one and the next event
opens a tab. -/
theorem popupCalls_blockOf {d : Dialect} (hd : d ∈ [puppeteer, playwright]) (o : Options)
    (p : Progress) {e : Event} (ht : ¬Types e) (next : Option Event) :
    popupCalls (blockOf d o p e next).toList =
      if MayOpen e ∧ opensTab next = true then [openingCall o e] else [] := by
  by_cases hclick : e.action = .click
  · have hblock : blockOf d o p e next = some (clickBlock d o (opensTab next) e) := by
      rw [blockOf, hclick]
    have hmay : MayOpen e := Or.inl hclick
    rw [hblock, Option.toList_some, popupCalls_click hd o _ hclick]
    simp only [hmay, true_and]
  by_cases hstroke : e.action = .keydown
  · have hblock : blockOf d o p e next = some (eventBlock e [awaited (opensTab next)
        (receiver e ++ ".keyboard.press('" ++ escape (pressedKey o e) ++ "')")]) := by
      rw [blockOf, hstroke]
      exact congrArg some (single_eq_eventBlock hstroke _)
    have hmay : MayOpen e := by
      have hkind : KeyKind.of e.key e.keyCode = .other := by
        by_contra hkind
        exact ht ⟨Or.inl hstroke, hkind⟩
      exact Or.inr ⟨hstroke, by rw [hkind]; rfl⟩
    have hcall : openingCall o e =
        receiver e ++ ".keyboard.press('" ++ escape (pressedKey o e) ++ "')" := if_neg hclick
    rw [hblock, Option.toList_some, popupCalls_eventBlock, ← hcall]
    simp only [hmay, true_and]
    cases opensTab next with
    | true => rw [List.filterMap_cons_some (popupCall?_awaited true _)]; rfl
    | false => rw [List.filterMap_cons_none (popupCall?_awaited false _)]; rfl
  · have hmay : ¬MayOpen e := not_or.mpr ⟨hclick, fun h => hstroke h.1⟩
    rw [popupCalls_of_other hd o p next hstroke hclick, if_neg fun h => hmay h.1]

/-- The pairs of a session with one more event in front. -/
theorem neighbours_cons (e : Event) (events : List Event) :
    neighbours (e :: events) =
      (events.head?.map fun next => (e, next)).toList ++ neighbours events := by
  cases events <;> rfl

/-- The pairs of a session with one more event behind. -/
theorem neighbours_concat (events : List Event) (e : Event) :
    neighbours (events ++ [e]) =
      neighbours events ++ (events.getLast?.map fun last => (last, e)).toList := by
  induction events with
  | nil => rfl
  | cons x events ih =>
    rw [List.cons_append, neighbours_cons, ih, neighbours_cons]
    cases events with
    | nil => rfl
    | cons y events => simp

/-- An event in front opens a tab if it may and the first event behind opens one. -/
theorem openings_cons (e : Event) (events : List Event) :
    openings (e :: events) =
      (if MayOpen e ∧ opensTab events.head? = true then [e] else []) ++ openings events := by
  rw [openings, neighbours_cons]
  cases events with
  | nil => simp [opensTab, neighbours, openings]
  | cons next events =>
    by_cases h : MayOpen e ∧ next.action = .tabCreate <;> simp [opensTab, openings, h]

/-- The opening of a tab behind a session is due to its last event, if that may open one. -/
theorem openings_concat (events : List Event) (e : Event) :
    openings (events ++ [e]) =
      openings events ++
        if e.action = .tabCreate then (events.getLast?.filter (MayOpen ·)).toList else [] := by
  rw [openings, neighbours_concat, List.filter_append, List.map_append]
  congr 1
  cases hl : events.getLast? with
  | none => simp
  | some last =>
    by_cases hm : MayOpen last <;> by_cases ha : e.action = .tabCreate <;>
      simp [hm, ha, Option.filter]

/-- In a session without typing, the walk waits for a page at the events that open a tab, in
order. -/
theorem popupCalls_walk {d : Dialect} (hd : d ∈ [puppeteer, playwright]) (o : Options)
    (p : Progress) {events : List Event} (ht : ∀ e ∈ events, ¬Types e) :
    popupCalls (walk d o p events).2 = (openings events).map (openingCall o) := by
  induction events generalizing p with
  | nil => rfl
  | cons e events ih =>
    obtain ⟨he, hrest⟩ := List.forall_mem_cons.mp ht
    rw [walk]
    dsimp only
    rw [popupCalls_append, popupCalls_blockOf hd o _ he, ih _ hrest, openings_cons, List.map_append]
    split <;> rfl

/-- The lines that complete the blocks of a walk wait for no page. -/
theorem popupCalls_blocks (d : Dialect) (o : Options) (events : List Event) :
    popupCalls (blocks d o events) = popupCalls (walk d o {} events).2 := by
  have hnone : ∀ {value : String}, value.toList.head? ≠ some '\x7b' →
      (popupCall? value).isSome = false :=
    fun h => Option.isSome_eq_false_iff.mpr (Option.isNone_iff_eq_none.mpr (popupCall?_of_head h))
  have hlist : ∀ bound, (popupCall? (listFrames bound)).isSome = false :=
    fun bound => hnone (by cases bound <;> decide)
  have hfind : ∀ id url, (popupCall? (findFrame id url)).isSome = false := by
    intro id url
    refine hnone ?_
    delta findFrame
    simp
  have hpromise : (popupCall? promiseLine.value).isSome = false := hnone (by decide)
  have hfilter := blocks_filter (f := fun line => (popupCall? line.value).isSome)
    (hnone (by decide)) (List.filter_cons_of_neg (Bool.eq_false_iff.mp hpromise))
    (fun bound _ => hlist bound) (fun id url _ => hfind id url) d o events
  have hcalls : ∀ lines : List Line, lines.filterMap (fun line => popupCall? line.value) =
      (lines.filter fun line => (popupCall? line.value).isSome).filterMap fun line =>
        popupCall? line.value := by
    intro lines
    rw [List.filterMap_filter]
    congr 1
    funext line
    cases popupCall? line.value <;> rfl
  rw [popupCalls, popupCalls, hcalls, hfilter, ← hcalls]

/-- What a session has opened so far, by its calls, and the call that opens a tab if the next event
is the opening of one. -/
def opened (o : Options) (events : List Event) : List String × Option String :=
  ((openings events).map (openingCall o),
    (events.getLast?.filter (MayOpen ·)).map (openingCall o))

/-- What one more event opens is decided by what was opened before. -/
theorem opened_concat (o : Options) (events : List Event) (e : Event) :
    opened o (events ++ [e]) =
      ((opened o events).1 ++ (if e.action = .tabCreate then (opened o events).2.toList else []),
        if MayOpen e then some (openingCall o e) else none) := by
  have hlast : (events ++ [e]).getLast? = some e := List.getLast?_concat
  simp only [opened, openings_concat, hlast, List.map_append]
  congr 1
  · split
    · cases events.getLast?.filter (MayOpen ·) <;> rfl
    · rfl
  · by_cases hm : MayOpen e <;> simp [hm, Option.filter]

/-- An event that opens no tab and is no opening of one changes nothing. -/
theorem opened_concat_inert {e : Event} (ha : e.action ≠ .tabCreate) (hm : ¬MayOpen e)
    (o : Options) (events : List Event) :
    opened o (events ++ [e]) = ((opened o events).1, none) := by
  rw [opened_concat, if_neg ha, if_neg hm, List.append_nil]

/-- Typing opens no tab. -/
theorem inert_of_types {e : Event} (ht : Types e) : e.action ≠ .tabCreate ∧ ¬MayOpen e := by
  obtain ⟨ha, hk⟩ := ht
  have hmergeable : (KeyKind.of e.key e.keyCode).isMergeable = true := by
    cases hkind : KeyKind.of e.key e.keyCode with
    | other => exact absurd hkind hk
    | unrecorded | printable | composing => rfl
  constructor
  · rcases ha with ha | ⟨ha, -⟩ <;> simp [ha]
  · rcases ha with ha | ⟨ha, -⟩ <;> simp [MayOpen, ha, hmergeable]

/-- Fills and waits open no tab. -/
theorem inert_of_action {e : Event} (ha : e.action = .fill ∨ e.action = .navigation) :
    e.action ≠ .tabCreate ∧ ¬MayOpen e := by
  rcases ha with ha | ha <;> simp [MayOpen, ha]

/-- Taking typing together keeps what is opened. -/
theorem squashStep_opened (o : Options) (kept : List Event) (e : Event) :
    opened o (squashStep kept e).reverse = opened o (kept.reverse ++ [e]) := by
  unfold squashStep
  split
  · rename_i hi
    obtain ⟨ha, hm⟩ := inert_of_types ((isTyping_iff e).mp hi)
    have hfill : ∀ xs (fill : Event), fill.action = .fill →
        opened o (xs ++ [fill]) = ((opened o xs).1, none) := by
      intro xs fill hf
      obtain ⟨ha, hm⟩ := inert_of_action (Or.inl hf)
      exact opened_concat_inert ha hm o xs
    rw [opened_concat_inert ha hm]
    split
    · split
      · rename_i last rest hb
        have hl := of_decide_eq_true ((Bool.and_eq_true _ _).mp hb).1
        rw [List.reverse_cons, List.reverse_cons, hfill _ last hl]
        exact hfill _ _ hl
      · rw [List.reverse_cons, hfill _ _ rfl]
    · exact hfill [] _ rfl
  · rw [List.reverse_cons]

/-- A stroke that repeats another presses the same key in the same frame. -/
theorem openingCall_of_repeats (o : Options) {last e : Event} (h : repeatsModifier last e = true) :
    openingCall o last = openingCall o e := by
  obtain ⟨⟨hl, he⟩, ⟨key, -, hlkey, hekey⟩, hframe⟩ := (repeatsModifier_iff last e).mp h
  have hl' : last.action ≠ .click := by simp [hl]
  have he' : e.action ≠ .click := by simp [he]
  have hreceiver : receiver last = receiver e := by
    rw [receiver, receiver, Event.frame, Event.frame, hframe]
  have hpressed : pressedKey o last = pressedKey o e := by
    rw [pressedKey, pressedKey, hlkey, hekey]
    rfl
  rw [openingCall, openingCall, if_neg hl', if_neg he', hreceiver, hpressed]

/-- A stroke that repeats another may open a tab in its place. -/
theorem opened_of_repeats (o : Options) {last e : Event} (h : repeatsModifier last e = true)
    (events : List Event) :
    opened o (events ++ [last] ++ [e]) = opened o (events ++ [last]) := by
  obtain ⟨⟨hl, he⟩, ⟨key, hmod, hlkey, hekey⟩, -⟩ := (repeatsModifier_iff last e).mp h
  have hmay : ∀ {x : Event}, x.action = .keydown → x.key = some key → MayOpen x := by
    intro x hx hk
    refine Or.inr ⟨hx, ?_⟩
    have hkind : KeyKind.of x.key x.keyCode = KeyKind.ofKey (some key) := by rw [hk]; rfl
    rw [hkind, ofKey_modifier hmod]
    rfl
  have hopens : ∀ {x : Event}, x.action = .keydown → x.action ≠ .tabCreate := by
    intro x hx
    simp [hx]
  rw [opened_concat, opened_concat o events last, if_neg (hopens he), if_neg (hopens hl),
    if_pos (hmay he hekey), if_pos (hmay hl hlkey), openingCall_of_repeats o h, List.append_nil]

/-- Dropping repeats keeps what is opened, if a repeat changes nothing behind the event that it
repeats. -/
theorem dropRepeats_opened (o : Options) {repeats : Event → Event → Bool}
    (hr : ∀ last e, repeats last e = true → ∀ events,
      opened o (events ++ [last] ++ [e]) = opened o (events ++ [last]))
    (events : List Event) : opened o (dropRepeats repeats events) = opened o events := by
  refine foldl_view (fun {xs ys} h e => ?_) (fun kept e => ?_) [] events
  · rw [opened_concat, opened_concat, h]
  · unfold dropStep
    split
    · split
      · rename_i last rest hrep
        rw [List.reverse_cons, hr last e hrep]
      · rw [List.reverse_cons]
    · rfl

/-- Shrinking keeps the calls that open tabs, and their order. -/
theorem optimize_openings (o : Options) (events : List Event) :
    (openings (optimize events)).map (openingCall o) = (openings events).map (openingCall o) := by
  have hwait : ∀ last e, repeatsNavigation last e = true → ∀ events,
      opened o (events ++ [last] ++ [e]) = opened o (events ++ [last]) := by
    intro last e h events
    obtain ⟨hl, he⟩ := (repeatsNavigation_iff last e).mp h
    obtain ⟨hl, hml⟩ := inert_of_action (Or.inr hl)
    obtain ⟨he, hme⟩ := inert_of_action (Or.inr he)
    rw [opened_concat_inert he hme, opened_concat_inert hl hml]
  have hsquash : opened o (squash events) = opened o events :=
    foldl_view (fun {xs ys} h e => by rw [opened_concat, opened_concat, h]) (squashStep_opened o) []
      events
  have h : opened o (optimize events) = opened o events := by
    rw [optimize, dropModifiers,
      dropRepeats_opened o fun last e h events => opened_of_repeats o h events, dropNavigations,
      dropRepeats_opened o hwait, hsquash]
  exact (Prod.mk.inj h).1

/-- Opening pages survives shrinking, in both libraries and under all options. The code of a shrunk
session waits for a page once for each event of the session that may open one and stands directly
in front of the opening of a tab, in the order of the tabs, and awaits the call of that event. -/
theorem popups_survive_shrinking {d : Dialect} (hd : d ∈ [puppeteer, playwright]) (o : Options)
    (events : List Event) :
    (linesOf (blocks d o (optimize events))).countP (fun line => (popupCall? line.value).isSome) =
        (openings events).length ∧
      popupCalls (blocks d o (optimize events)) = (openings events).map (openingCall o) := by
  have hcalls : popupCalls (blocks d o (optimize events)) =
      (openings events).map (openingCall o) := by
    rw [popupCalls_blocks, popupCalls_walk hd o {} (isNormal_optimize events).noTyping,
      optimize_openings]
  refine ⟨?_, hcalls⟩
  rw [← List.length_filterMap_eq_countP, ← popupCalls, hcalls, List.length_map]

/-- Shift is held down over a link, which opens a tab; then typing stands in front of another. -/
def shiftSession : List Event :=
  [ { action := .keydown, key := some "Shift", keyCode := some 16 },
    { action := .keydown, key := some "Shift", selector := some "a" },
    { action := .tabCreate, value := some (.text "2") },
    { action := .keydown, key := some "a", selector := some "#q" },
    { action := .tabCreate, value := some (.text "3") },
    { action := .click, selector := some "it's" },
    { action := .tabCreate, value := some (.text "4") } ]

/-- The stroke that is kept opens the first tab in place of its repeat, and typing opens none. -/
theorem shiftSession_popups :
    playwright ∈ [puppeteer, playwright] ∧
      popupCalls (blocks playwright {} (optimize shiftSession)) =
        ["page.keyboard.press('Shift')", "page.click('it\\'s')"] := by
  have hplaywright : playwright ∈ [puppeteer, playwright] :=
    List.mem_cons_of_mem _ List.mem_cons_self
  exact ⟨hplaywright, (popups_survive_shrinking hplaywright {} shiftSession).2.trans (by decide)⟩

end SessionScript.Script
