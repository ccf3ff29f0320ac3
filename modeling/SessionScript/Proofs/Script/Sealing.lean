import Mathlib.Data.List.Forall2
import SessionScript.Proofs.Script.Progress
import SessionScript.Proofs.Script.Recorded
import SessionScript.Proofs.Script.Remarks

/-!
# Recorded texts stay inside their literals

Scanning any line but a move of the pointer meets only literals that are closed on their line. The
literals of a line stand for exactly the recorded texts that its template takes, in the order of the
template, and the code around them does not depend on these texts. The remark behind a move of the
pointer is recorded text outside of literals, and nothing is said about it.
-/

namespace SessionScript.Script

/-- The text of a literal. -/
def Piece.literal? : Piece → Option String
  | .literal text => some text
  | _ => none

/-- The character of code; literals have none. -/
def Piece.code? : Piece → Option Char
  | .code c => some c
  | _ => none

/-- The texts of the literals of a line. -/
def literals (ps : List Piece) : List String := ps.filterMap Piece.literal?

/-- The code of a line, with a gap for each literal. -/
def outline (ps : List Piece) : List (Option Char) := ps.map Piece.code?

@[simp]
theorem literals_append (ps qs : List Piece) : literals (ps ++ qs) = literals ps ++ literals qs :=
  List.filterMap_append

@[simp]
theorem literals_literal (text : String) (ps : List Piece) :
    literals (.literal text :: ps) = text :: literals ps := rfl

@[simp]
theorem literals_nil : literals [] = [] := rfl

@[simp]
theorem literals_plain (s : String) : literals (plain s) = [] := by
  simp [literals, plain, Piece.literal?]

@[simp]
theorem outline_append (ps qs : List Piece) : outline (ps ++ qs) = outline ps ++ outline qs :=
  List.map_append

@[simp]
theorem outline_literal (text : String) (ps : List Piece) :
    outline (.literal text :: ps) = none :: outline ps := rfl

/-- Plain code holds no broken literal. -/
@[simp]
theorem broken_not_mem_plain (s : String) : Piece.broken ∉ plain s := by
  simp [plain]

/-- The texts in front of the call when the event behind it opens a page. -/
def popupTexts : Option Event → List String
  | some next => if next.action = .tabCreate then ["popup"] else []
  | none => []

/-- The literals of the lines of an event, line by line, as they were recorded; `n` is the number of
the picture that the event takes. Moves of the pointer are left out. -/
def eventTexts (d : Dialect) (o : Options) (n : Nat) (e : Event) (next : Option Event) :
    List (List String) :=
  let element := e.selector.getD ""
  match e.action with
  | .keydown => [popupTexts next ++ [recordedKey o e]]
  | .hover => [[element]]
  | .click =>
    (if o.waitForSelectorOnClick then [[element]] else [])
    ++ [popupTexts next ++ [element]]
    ++ (d.afterClick o).toList.map fun _ => ["networkidle"]
  | .change => if e.tagName = some "SELECT" then [[element, recordedText e.value]] else []
  | .fill => [[element, recordedText e.value]]
  | .goto => e.href.toList.map fun href => [href]
  | .viewport =>
    match e.value with
    | some (.size ..) => [[]]
    | _ => []
  | .navigation => if o.waitForNavigation then [[]] else []
  | .tabChange => e.tabId?.toList.flatMap fun _ => [[], []]
  | .screenshot =>
    match e.value with
    | some (.text target) => if target = "" then [[pictureName n]] else [[target], [pictureName n]]
    | _ => [[pictureName n]]
  | _ => []

/-- The literals of the lines of events, when `taken` pictures have been taken before. -/
def sessionTexts (d : Dialect) (o : Options) : UInt32 → List Event → List (List String)
  | _, [] => []
  | taken, e :: rest =>
    eventTexts d o (taken + 1).toNat e rest.head?
      ++ sessionTexts d o (if e.action = .screenshot then taken + 1 else taken) rest

@[simp]
theorem literals_callPieces (receiver method : String) (arguments : List Piece) :
    literals (callPieces receiver method arguments) = literals arguments := by
  simp [callPieces]

@[simp]
theorem literals_awaitPieces (receiver method : String) (arguments : List Piece) :
    literals (awaitPieces receiver method arguments) = literals arguments := by
  simp [awaitPieces]

@[simp]
theorem literals_awaitedPieces (opens : Bool) (call : List Piece) :
    literals (awaitedPieces opens call) = (if opens then ["popup"] else []) ++ literals call := by
  cases opens <;> simp [awaitedPieces]

/-- Whether a page opens is seen from the next event. -/
theorem popupTexts_eq (next : Option Event) :
    popupTexts next = if opensTab next then ["popup"] else [] := by
  cases next with
  | none => rfl
  | some next => simp [popupTexts, opensTab]

/-- The literals of the lines that take a picture. -/
theorem screenshotPieces_literals (n : Nat) (e : Event) :
    (screenshotPieces n e).map literals =
      match e.value with
      | some (.text target) =>
        if target = "" then [[pictureName n]] else [[target], [pictureName n]]
      | _ => [[pictureName n]] := by
  have hwhole : ∀ receiver, literals (awaitPieces receiver "screenshot" (plain "\x7b path: "
      ++ .literal (pictureName n) :: plain ", fullPage: true \x7d")) = [pictureName n] := by
    simp
  unfold screenshotPieces
  cases e.value with
  | none => exact congrArg (fun a => [a]) (hwhole _)
  | some value =>
    cases value with
    | text target => by_cases ht : target = "" <;> simp [Payload.text?, Option.filter, ht]
    | number | size | point => exact congrArg (fun a => [a]) (hwhole _)

/-- Apart from moves of the pointer, the literals of the templates are the texts of the event. -/
theorem eventPieces_literals (d : Dialect) (o : Options) (p : Progress) {e : Event}
    (next : Option Event) (hm : e.action ≠ .mouseMove) :
    (eventPieces d o p e next).map literals = eventTexts d o (p.pictures + 1).toNat e next := by
  unfold eventPieces eventTexts
  cases ha : e.action with
  | mouseMove => exact absurd ha hm
  | keydown => simp [popupTexts_eq, pressedKey_eq_recordedKey]
  | hover => simp [Event.target]
  | click =>
    dsimp only
    cases d.afterClick o <;> split <;> simp [popupTexts_eq, Event.target]
  | change =>
    by_cases hs : e.tagName = some "SELECT" <;>
      simp [Event.isSelect, hs, bothPieces, Event.target, typedValue_eq_recordedText]
  | fill => simp [bothPieces, Event.target, typedValue_eq_recordedText]
  | goto =>
    dsimp only
    cases e.href <;> simp
  | viewport =>
    dsimp only
    cases e.value with
    | none => rfl
    | some value => cases value <;> simp [Payload.size?]
  | navigation =>
    dsimp only
    split <;> simp
  | tabChange =>
    dsimp only
    cases e.tabId? <;> simp
  | screenshot => exact screenshotPieces_literals _ e
  | tabCreate | dblClick | select | submit | load | unload | other tag => rfl

/-- Two fields that are present alike are both absent or both present. -/
theorem both_or_none {α : Type} {a b : Option α} (h : a.isSome = b.isSome) :
    a = none ∧ b = none ∨ ∃ x y, a = some x ∧ b = some y := by
  cases a <;> cases b <;> simp_all

/-- Payloads of the same form are the same, or both texts. -/
def SameForm (value value' : Option Payload) : Prop :=
  value = value' ∨ ∃ s s', value = some (.text s) ∧ value' = some (.text s')

/-- Events that select the same templates: they differ at most in recorded texts. -/
structure SameTemplate (e e' : Event) : Prop where
  /-- The actions are the same. -/
  action : e.action = e'.action
  /-- The tags of the elements are the same. -/
  tagName : e.tagName = e'.tagName
  /-- The codes of the keys are the same. -/
  keyCode : e.keyCode = e'.keyCode
  /-- The frames are the same. -/
  frameId : e.frameId = e'.frameId
  /-- Both record an element, or none does. -/
  selector : e.selector.isSome = e'.selector.isSome
  /-- Both record an address, or none does. -/
  href : e.href.isSome = e'.href.isSome
  /-- Both record the name of a key, or none does. -/
  key : e.key.isSome = e'.key.isSome
  /-- Both record the address of the frame, or none does. -/
  frameUrl : e.frameUrl.isSome = e'.frameUrl.isSome
  /-- The payloads have the same form, and the same numbers. -/
  value : SameForm e.value e'.value
  /-- Events about tabs are about the same tab. -/
  tab : e.action = .tabCreate ∨ e.action = .tabChange → e.tabId? = e'.tabId?
  /-- Pictures are both of an element, or none is. -/
  picture : e.action = .screenshot → (e.value = some (.text "") ↔ e'.value = some (.text ""))

namespace SameTemplate

variable {e e' : Event}

/-- The frames are the same, the page itself being zero. -/
theorem frame (h : SameTemplate e e') : e.frame = e'.frame := by
  rw [Event.frame, Event.frame, h.frameId]

/-- The statements act on the same object. -/
theorem receiver (h : SameTemplate e e') : Script.receiver e = Script.receiver e' := by
  rw [Script.receiver, Script.receiver, h.frame]

/-- Both events choose from a drop-down list, or none does. -/
theorem isSelect (h : SameTemplate e e') : e.isSelect = e'.isSelect := by
  rw [Event.isSelect, Event.isSelect, h.tagName]

/-- The payloads have the same size. -/
theorem size (h : SameTemplate e e') :
    e.value.bind Payload.size? = e'.value.bind Payload.size? := by
  rcases h.value with hv | ⟨s, s', hv, hv'⟩
  · rw [hv]
  · rw [hv, hv']
    rfl

/-- The payloads have the same point. -/
theorem point (h : SameTemplate e e') :
    e.value.bind Payload.point? = e'.value.bind Payload.point? := by
  rcases h.value with hv | ⟨s, s', hv, hv'⟩
  · rw [hv]
  · rw [hv, hv']
    rfl

/-- Both pictures are of an element, or none is. -/
theorem pictured (h : SameTemplate e e') (hs : e.action = .screenshot) :
    ((e.value.bind Payload.text?).filter (!·.isEmpty)).isSome =
      ((e'.value.bind Payload.text?).filter (!·.isEmpty)).isSome := by
  rcases h.value with hv | ⟨s, s', hv, hv'⟩
  · rw [hv]
  · have hempty : s.isEmpty = s'.isEmpty := by
      rw [Bool.eq_iff_iff, String.isEmpty_iff, String.isEmpty_iff]
      simpa [hv, hv'] using h.picture hs
    rw [hv, hv']
    cases he : s'.isEmpty <;> simp [Payload.text?, Option.filter, hempty, he]

end SameTemplate

/-- What may follow a click does not depend on the key of keystrokes that recorded none. -/
theorem afterClick_key {d : Dialect} (hd : d ∈ [puppeteer, playwright]) (o : Options)
    (key : String) : d.afterClick { o with key := key } = d.afterClick o := by
  simp only [List.mem_cons, List.not_mem_nil, or_false] at hd
  rcases hd with rfl | rfl <;> rfl

/-- The code of a call does not depend on the texts of its arguments. -/
theorem outline_callPieces (receiver method : String) {arguments arguments' : List Piece}
    (h : outline arguments = outline arguments') :
    outline (callPieces receiver method arguments) =
      outline (callPieces receiver method arguments') := by
  simp only [callPieces, outline_append, h]

/-- The code that awaits a call does not depend on the texts of its arguments. -/
theorem outline_awaitPieces (receiver method : String) {arguments arguments' : List Piece}
    (h : outline arguments = outline arguments') :
    outline (awaitPieces receiver method arguments) =
      outline (awaitPieces receiver method arguments') := by
  simp only [awaitPieces, outline_append, outline_callPieces receiver method h]

/-- The code around a call does not depend on the texts in the call. -/
theorem outline_awaitedPieces (opens : Bool) {call call' : List Piece}
    (h : outline call = outline call') :
    outline (awaitedPieces opens call) = outline (awaitedPieces opens call') := by
  cases opens <;> simp [awaitedPieces, h]

/-- Apart from moves of the pointer, the code of the lines of an event does not depend on recorded
texts. -/
theorem eventPieces_outline {d : Dialect} (hd : d ∈ [puppeteer, playwright]) (o : Options)
    (key : String) {p p' : Progress} (htabs : p.tabs = p'.tabs)
    (hpictures : p.pictures = p'.pictures) {e e' : Event} (h : SameTemplate e e')
    {next next' : Option Event}
    (hnext : opensTab next = opensTab next') (hm : e.action ≠ .mouseMove) :
    (eventPieces d o p e next).map outline =
      (eventPieces d { o with key := key } p' e' next').map outline := by
  have hone : ∀ s t, outline [.literal s] = outline [.literal t] := fun s t => rfl
  have htwo : ∀ s t s' t', outline (bothPieces s t) = outline (bothPieces s' t') :=
    fun s t s' t' => by simp [bothPieces]
  unfold eventPieces
  rw [← h.action, ← hnext, ← h.receiver]
  cases ha : e.action with
  | mouseMove => exact absurd ha hm
  | keydown =>
    exact congrArg (fun a => [a])
      (outline_awaitedPieces _ (outline_callPieces _ _ (hone _ _)))
  | hover => exact congrArg (fun a => [a]) (outline_awaitPieces _ _ (hone _ _))
  | click =>
    have hwait := outline_awaitPieces (receiver e) "waitForSelector"
      (hone e.target e'.target)
    have hclick := outline_awaitedPieces (opensTab next) (outline_callPieces
      (receiver e) "click" (hone e.target e'.target))
    dsimp only
    rw [afterClick_key hd o key]
    split <;> simp [hwait, hclick]
  | change =>
    dsimp only
    rw [← h.isSelect]
    split
    · exact congrArg (fun a => [a]) (outline_awaitPieces _ _ (htwo _ _ _ _))
    · rfl
  | fill => exact congrArg (fun a => [a]) (outline_awaitPieces _ _ (htwo _ _ _ _))
  | goto =>
    dsimp only
    rcases both_or_none h.href with ⟨he, he'⟩ | ⟨href, href', he, he'⟩ <;> rw [he, he']
    · exact congrArg (fun a => [a]) (outline_awaitPieces _ _ (hone _ _))
  | viewport =>
    dsimp only
    rw [h.size]
  | navigation => rfl
  | tabChange =>
    dsimp only
    rw [h.tab (Or.inr ha), show p.tabPosition = p'.tabPosition by
      funext id
      rw [Progress.tabPosition, Progress.tabPosition, htabs]]
  | screenshot =>
    dsimp only [screenshotPieces]
    rw [← hpictures, ← h.receiver]
    rcases both_or_none (h.pictured ha) with ⟨ht, ht'⟩ | ⟨target, target', ht, ht'⟩ <;>
      rw [ht, ht']
    simp
  | tabCreate | dblClick | select | submit | load | unload | other tag => rfl

/-- What a line is without its recorded texts: its kind, its frame, and its code with a gap for each
literal; of a move of the pointer, the code is left out. -/
def Line.skeleton (line : Line) : Option LineKind × UInt64 × Option (List (Option Char)) :=
  (line.kind, line.frame,
    if line.kind = some (.action .mouseMove) then none else some (outline (pieces line.value)))

/-- What a block is without its recorded texts. -/
def Block.skeleton (b : Block) : List (Option LineKind × UInt64 × Option (List (Option Char))) :=
  b.lines.map Line.skeleton

section Walk

variable {d : Dialect} {o : Options} {key : String} {p p' : Progress} {e e' : Event}
  {next next' : Option Event}

/-- Events with the same template both give a block, or none does. -/
theorem blockOf_isSome (h : SameTemplate e e') :
    (blockOf d o p e next).isSome = (blockOf d { o with key := key } p' e' next').isSome := by
  unfold blockOf
  rw [← h.action]
  cases ha : e.action with
  | mouseMove => simp only [h.point, Option.isSome_map]
  | change =>
    simp only [h.isSelect]
    split <;> rfl
  | goto => simp only [h.href, Option.isSome_map]
  | viewport => simp only [h.size, Option.isSome_map]
  | keydown | hover | click | fill | navigation | tabCreate | tabChange | screenshot | dblClick
  | select | submit | load | unload | other tag => rfl

/-- Blocks of events with the same template are the same without recorded texts. -/
theorem eventBlock_skeleton (hd : d ∈ [puppeteer, playwright]) (htabs : p.tabs = p'.tabs)
    (hpictures : p.pictures = p'.pictures) (h : SameTemplate e e')
    (hnext : opensTab next = opensTab next') {values values' : List String}
    (hb : blockOf d o p e next = some (eventBlock e values))
    (hb' : blockOf d { o with key := key } p' e' next' = some (eventBlock e' values')) :
    (eventBlock e values).skeleton = (eventBlock e' values').skeleton := by
  have hps := eventBlock_pieces hd hb
  have hps' := eventBlock_pieces hd hb'
  by_cases hm : e.action = .mouseMove
  · have hm' : e'.action = .mouseMove := h.action.symm.trans hm
    have hlines : ∀ (e : Event) values, e.action = .mouseMove → (eventBlock e values).skeleton =
        List.replicate values.length (some (.action .mouseMove), e.frame, none) := by
      intro e values hm
      simp only [Block.skeleton, eventBlock, List.map_map, ← List.map_const']
      exact List.map_congr_left fun value _ => by simp [Line.skeleton, hm]
    have hlength : values.length = values'.length := by
      have hl := congrArg List.length hps
      have hl' := congrArg List.length hps'
      simp only [eventPieces, hm, hm', List.length_map, h.point] at hl hl'
      rw [hl, hl']
    rw [hlines e values hm, hlines e' values' hm', hlength, h.frame]
  · have hm' : e'.action ≠ .mouseMove := fun hm' => hm (h.action.trans hm')
    have hlines : ∀ (e : Event) values, e.action ≠ .mouseMove → (eventBlock e values).skeleton =
        ((values.map pieces).map outline).map fun code =>
          (some (.action e.action), e.frame, some code) := by
      intro e values hm
      simp only [Block.skeleton, eventBlock, List.map_map]
      exact List.map_congr_left fun value _ => by simp [Line.skeleton, hm]
    rw [hlines e values hm, hlines e' values' hm', hps, hps',
      eventPieces_outline hd o key htabs hpictures h hnext hm, h.action, h.frame]

/-- The next events open tabs alike. -/
theorem opensTab_congr {events events' : List Event}
    (h : List.Forall₂ SameTemplate events events') :
    opensTab events.head? = opensTab events'.head? := by
  cases h with
  | nil => rfl
  | cons he _ => simp only [opensTab, List.head?_cons, Option.any_some, he.action]

/-- Events with the same template leave the same tabs and count the same pictures. -/
theorem advance_congr (htabs : p.tabs = p'.tabs) (hpictures : p.pictures = p'.pictures)
    (h : SameTemplate e e') :
    ((p.noteFrame e).advance e).tabs = ((p'.noteFrame e').advance e').tabs ∧
      ((p.noteFrame e).advance e).pictures = ((p'.noteFrame e').advance e').pictures := by
  constructor
  · rw [advance_tabs, advance_tabs, noteFrame_tabs, noteFrame_tabs, htabs, ← h.action]
    split
    · rename_i ha
      rw [h.tab (Or.inl ha)]
    · rfl
  · rw [advance_pictures, advance_pictures, noteFrame_pictures, noteFrame_pictures, hpictures,
      h.action]

/-- Looking a frame up takes the same code, whatever its address. -/
theorem lookupLines_skeleton (bound : Bool) (id : UInt64) (url url' : String) :
    (lookupLines bound id url).map Line.skeleton =
      (lookupLines bound id url').map Line.skeleton := by
  simp [lookupLines, Line.skeleton, findFrame_pieces, findFramePieces]

/-- The blocks of the walk, once frames are looked up, do not depend on recorded texts. -/
theorem walk_skeleton (hd : d ∈ [puppeteer, playwright]) {events events' : List Event}
    (h : List.Forall₂ SameTemplate events events') (htabs : p.tabs = p'.tabs)
    (hpictures : p.pictures = p'.pictures) {table table' : FrameTable}
    (hkeys : ∀ id ≠ 0, (table.url? id).isSome = (table'.url? id).isSome) (bound : Bool) :
    (declareFrames table bound (walk d o p events).2).map Block.skeleton =
      (declareFrames table' bound (walk d { o with key := key } p' events').2).map
        Block.skeleton := by
  induction h generalizing p p' table table' bound with
  | nil => rfl
  | @cons e e' rest rest' he hrest ih =>
    obtain ⟨ht, hp⟩ := advance_congr htabs hpictures he
    rw [walk, walk]
    dsimp only
    rcases both_or_none (blockOf_isSome he) with ⟨hb, hb'⟩ | ⟨b, b', hb, hb'⟩ <;> rw [hb, hb']
    · exact ih ht hp hkeys bound
    · obtain ⟨values, rfl⟩ := blockOf_eq_eventBlock hb
      obtain ⟨values', rfl⟩ := blockOf_eq_eventBlock hb'
      have hskeleton := eventBlock_skeleton hd (by simpa using htabs) (by simpa using hpictures) he
        (opensTab_congr hrest) hb hb'
      have hvalues : values = [] ↔ values' = [] := by
        have hlength := congrArg List.length hskeleton
        simp only [Block.skeleton, eventBlock, List.length_map] at hlength
        rw [← List.length_eq_zero_iff, hlength, List.length_eq_zero_iff]
      rw [Option.toList_some, List.singleton_append, Option.toList_some, List.singleton_append]
      by_cases hskip : values = [] ∨ e.frame = 0 ∨ table.url? e.frame = none
      · have hskip' : values' = [] ∨ e'.frame = 0 ∨ table'.url? e'.frame = none := by
          rw [← hvalues, ← he.frame]
          refine hskip.imp_right fun hskip => ?_
          by_cases hpage : e.frame = 0
          · exact Or.inl hpage
          · have hsome := hkeys e.frame hpage
            rw [hskip.resolve_left hpage] at hsome
            exact Or.inr (Option.isSome_eq_false_iff.mp hsome.symm |> Option.isNone_iff_eq_none.mp)
        rw [declareFrames_known hskip, declareFrames_known hskip', List.map_cons, List.map_cons,
          hskeleton, ih ht hp hkeys bound]
      · obtain ⟨hne, hpage, hsome⟩ := not_or.mp hskip |>.imp_right not_or.mp
        obtain ⟨url, hurl⟩ := Option.ne_none_iff_exists'.mp hsome
        have hframe := he.frame
        obtain ⟨url', hurl'⟩ : ∃ url', table'.url? e'.frame = some url' := by
          rw [← hframe, ← Option.isSome_iff_exists, ← hkeys e.frame hpage, hurl]
          rfl
        have herased : ∀ id ≠ 0, ((table.erase e.frame).url? id).isSome =
            ((table'.erase e'.frame).url? id).isSome := by
          intro id hid
          rw [erase_url?, erase_url?, ← hframe]
          split
          · rfl
          · exact hkeys id hid
        have hlookup := lookupLines_skeleton bound e.frame url url'
        rw [declareFrames_lookup hne hpage hurl,
          declareFrames_lookup (mt hvalues.mpr hne) (hframe ▸ hpage) hurl', List.map_cons,
          List.map_cons, ih ht hp herased true]
        congr 1
        simp only [Block.skeleton, List.map_append] at hskeleton ⊢
        rw [hlookup, hskeleton, hframe]

end Walk

/-- Spacers have no recorded texts. -/
theorem spaced_skeleton (blocks : List Block) :
    (spaced blocks).map Block.skeleton = Block.spacer.skeleton ::
      (blocks.map Block.skeleton).flatMap fun lines => [lines, Block.spacer.skeleton] := by
  rw [spaced, List.map_cons, List.map_flatMap, List.flatMap_map]
  rfl

/-- Sessions whose events have the same templates give the same blocks without recorded texts. -/
theorem blocks_skeleton {d : Dialect} (hd : d ∈ [puppeteer, playwright]) (o : Options)
    (key : String) {events events' : List Event}
    (h : List.Forall₂ SameTemplate events events') :
    (blocks d o events).map Block.skeleton =
      (blocks d { o with key := key } events').map Block.skeleton := by
  have hmaps : events.map Event.frame = events'.map Event.frame ∧
      events.map Event.action = events'.map Event.action := by
    induction h with
    | nil => exact ⟨rfl, rfl⟩
    | cons he _ ih => simp only [List.map_cons, he.frame, he.action, ih.1, ih.2, and_self]
  have hkeys : ∀ id ≠ 0, ((walk d o {} events).1.frames.url? id).isSome =
      ((walk d { o with key := key } {} events').1.frames.url? id).isSome := by
    intro id hid
    have hmem : (∃ e ∈ events, e.frame = id) ↔ ∃ e ∈ events', e.frame = id := by
      rw [← List.mem_map, ← List.mem_map, hmaps.1]
    rw [walk_url? _ _ _ _ hid, walk_url? _ _ _ _ hid]
    by_cases he : ∃ e ∈ events, e.frame = id
    · rw [if_pos he, if_pos (hmem.mp he)]
      rfl
    · rw [if_neg he, if_neg (mt hmem.mpr he)]
  have hnavigation : (∃ e ∈ events, e.action = .navigation) ↔
      ∃ e ∈ events', e.action = .navigation := by
    rw [← List.mem_map, ← List.mem_map, hmaps.2]
  have hwalk : (declareFrames (walk d o {} events).1.frames false (walk d o {} events).2).map
      Block.skeleton = (declareFrames (walk d { o with key := key } {} events').1.frames false
        (walk d { o with key := key } {} events').2).map Block.skeleton :=
    walk_skeleton hd h rfl rfl hkeys false
  have hunspaced : (unspaced d o events).map Block.skeleton =
      (unspaced d { o with key := key } events').map Block.skeleton := by
    rw [unspaced_eq, unspaced_eq, List.map_append, List.map_append, hwalk]
    simp only [hnavigation]
  have hempty := congrArg List.isEmpty hunspaced
  rw [List.isEmpty_map, List.isEmpty_map] at hempty
  rw [blocks_eq, blocks_eq, hempty]
  dsimp only
  split
  · rw [spaced_skeleton, spaced_skeleton, hunspaced]
  · exact hunspaced

/-- The texts of the literals of a line. -/
def Line.literals (line : Line) : List String := Script.literals (pieces line.value)

/-- Does a line come from an event other than a move of the pointer? -/
def Line.isStatement (line : Line) : Bool :=
  line.isOfEvent && line.kind ≠ some (.action .mouseMove)

/-- The literals of the lines of the walk are the texts of its events. -/
theorem walk_texts {d : Dialect} (hd : d ∈ [puppeteer, playwright]) (o : Options) (p : Progress)
    (events : List Event) :
    ((linesOf (walk d o p events).2).filter Line.isStatement).map Line.literals =
      sessionTexts d o p.pictures events := by
  induction events generalizing p with
  | nil => rfl
  | cons e rest ih =>
    have hblock : ((linesOf (blockOf d o (p.noteFrame e) e rest.head?).toList).filter
        Line.isStatement).map Line.literals =
        eventTexts d o (p.pictures + 1).toNat e rest.head? := by
      by_cases hm : e.action = .mouseMove
      · have hnone : (linesOf (blockOf d o (p.noteFrame e) e rest.head?).toList).filter
            Line.isStatement = [] := by
          refine List.filter_eq_nil_iff.mpr fun line hl => ?_
          simp [Line.isStatement, blockOf_kind hl, hm]
        rw [hnone, eventTexts, hm]
        rfl
      · have hall : (linesOf (blockOf d o (p.noteFrame e) e rest.head?).toList).filter
            Line.isStatement = linesOf (blockOf d o (p.noteFrame e) e rest.head?).toList := by
          refine List.filter_eq_self.mpr fun line hl => ?_
          simp [Line.isStatement, Line.isOfEvent, blockOf_kind hl, hm]
        rw [hall, ← noteFrame_pictures p e, ← eventPieces_literals d o _ _ hm, ← blockOf_pieces hd,
          piecesOf, List.map_map]
        rfl
    rw [walk, sessionTexts]
    dsimp only
    rw [linesOf_append, List.filter_append, List.map_append, ih, hblock, advance_pictures,
      noteFrame_pictures]

/-- A line of an event other than a move of the pointer holds no broken literal. -/
theorem statement_closed {d : Dialect} (hd : d ∈ [puppeteer, playwright]) {o : Options}
    {p : Progress} {e : Event} {next : Option Event} {line : Line}
    (hl : line ∈ linesOf (blockOf d o p e next).toList)
    (hm : line.kind ≠ some (.action .mouseMove)) : Piece.broken ∉ pieces line.value := by
  have ha : e.action ≠ .mouseMove := fun ha => hm (by rw [blockOf_kind hl, ha])
  have hps : pieces line.value ∈ eventPieces d o p e next :=
    blockOf_pieces hd o p e next ▸ List.mem_map_of_mem hl
  intro hbroken
  have htame := List.all_eq_true.mp (eventPieces_tame hd o p next ha _ hps) _ hbroken
  exact absurd htame (by decide)

/-- Among the lines that complete the blocks of events, empty lines, the promise of a navigation and
the list of frames hold no literal, and a frame is found by a literal that stands for its last
address. -/
theorem completing_literals {events : List Event} {line : Line}
    (hl : line ∈ Block.spacer.lines ∨ line ∈ promiseBlock.lines ∨
      ∃ bound id, line ∈ lookupLines bound id ((lastAddress? events id).getD "")) :
    Piece.broken ∉ pieces line.value ∧
      (line.value ∈ ["", promiseLine.value, listFrames false, listFrames true] ∧
          line.literals = [] ∨
        line.value = findFrame line.frame ((lastAddress? events line.frame).getD "") ∧
          line.literals = [(lastAddress? events line.frame).getD ""]) := by
  have hplain : ∀ {line : Line}, pieces line.value = plain line.value →
      line.value ∈ ["", promiseLine.value, listFrames false, listFrames true] →
      Piece.broken ∉ pieces line.value ∧
        (line.value ∈ ["", promiseLine.value, listFrames false, listFrames true] ∧
            line.literals = [] ∨
          line.value = findFrame line.frame ((lastAddress? events line.frame).getD "") ∧
            line.literals = [(lastAddress? events line.frame).getD ""]) := by
    intro line hp hv
    refine ⟨hp ▸ broken_not_mem_plain _, Or.inl ⟨hv, ?_⟩⟩
    rw [Line.literals, hp, literals_plain]
  rcases hl with hl | hl | ⟨bound, id, hl⟩
  · obtain rfl := List.mem_singleton.mp hl
    exact hplain (spells_plain (by decide)).pieces (by simp)
  · obtain rfl : line = promiseLine := List.mem_singleton.mp hl
    exact hplain promiseLine_pieces (by simp)
  · simp only [lookupLines, List.mem_cons, List.not_mem_nil, or_false] at hl
    rcases hl with rfl | rfl
    · exact hplain (listFrames_pieces bound) (by cases bound <;> simp)
    · have hp := findFrame_pieces id ((lastAddress? events id).getD "")
      refine ⟨?_, Or.inr ⟨rfl, ?_⟩⟩
      · rw [hp]
        simp [findFramePieces]
      · rw [Line.literals, hp]
        simp [findFramePieces]

/-- Recorded texts cannot leave their literals, in any session, in both libraries and under all
options. Apart from moves of the pointer, scanning a line meets no broken literal; the literals of
the lines of events are the recorded texts of these events in order, and those of other lines are
the addresses of frames; and the code outside of literals stays the same for any other choice of the
texts, including the key that the options give. -/
theorem recorded_texts_stay_in_literals {d : Dialect} (hd : d ∈ [puppeteer, playwright])
    (o : Options) (events : List Event) :
    (∀ line ∈ linesOf (blocks d o events), line.kind ≠ some (.action .mouseMove) →
        Piece.broken ∉ pieces line.value) ∧
      ((linesOf (blocks d o events)).filter Line.isStatement).map Line.literals =
        sessionTexts d o 0 events ∧
      (∀ line ∈ linesOf (blocks d o events), line.isOfEvent = false →
        line.value ∈ ["", promiseLine.value, listFrames false, listFrames true] ∧
            line.literals = [] ∨
          line.value = findFrame line.frame ((lastAddress? events line.frame).getD "") ∧
            line.literals = [(lastAddress? events line.frame).getD ""]) ∧
      ∀ events' key, List.Forall₂ SameTemplate events events' →
        (linesOf (blocks d o events)).map Line.skeleton =
          (linesOf (blocks d { o with key := key } events')).map Line.skeleton := by
  refine ⟨fun line hl hm => ?_, ?_, fun line hl ho => ?_, fun events' key h => ?_⟩
  · rcases mem_blocks hl with hl | hl
    · exact (completing_literals hl).1
    · obtain ⟨p, e, next, hl⟩ := mem_walk hl
      exact statement_closed hd hl hm
  · rw [blocks_filter rfl rfl (fun _ _ => rfl) (fun _ _ _ => rfl)]
    exact walk_texts hd o {} events
  · rcases mem_blocks hl with hl | hl
    · exact (completing_literals hl).2
    · obtain ⟨p, e, next, hl⟩ := mem_walk hl
      rw [Line.isOfEvent, blockOf_kind hl] at ho
      cases ho
  · have hlines : ∀ blocks : List Block,
        (linesOf blocks).map Line.skeleton = (blocks.map Block.skeleton).flatten := by
      intro blocks
      rw [linesOf, List.map_flatMap, List.flatMap_def]
      rfl
    rw [hlines, hlines, blocks_skeleton hd o key h]

/-- A click whose selector tries to end its literal. -/
def hostileClick : Event :=
  { action := .click, selector := some "'); steal('", frameId := some 5, frameUrl := some "it's" }

/-- A click with an ordinary selector, otherwise the same. -/
def ordinaryClick : Event :=
  { action := .click, selector := some "#send", frameId := some 5, frameUrl := some "about:blank" }

/-- The hostile selector stays in its literals, and the code around them is that of the ordinary
click. -/
theorem hostileClick_stays_in_literals :
    ((linesOf (blocks puppeteer {} [hostileClick])).filter Line.isStatement).map Line.literals =
        [["'); steal('"], ["'); steal('"]] ∧
      (linesOf (blocks puppeteer {} [hostileClick])).map Line.skeleton =
        (linesOf (blocks puppeteer { ({} : Options) with key := "Enter" } [ordinaryClick])).map
          Line.skeleton := by
  have hsame : SameTemplate hostileClick ordinaryClick :=
    { action := rfl, tagName := rfl, keyCode := rfl, frameId := rfl, selector := rfl, href := rfl,
      key := rfl, frameUrl := rfl, value := Or.inl rfl, tab := fun _ => rfl,
      picture := fun h => absurd h (by decide) }
  obtain ⟨-, htexts, -, houtline⟩ :=
    recorded_texts_stay_in_literals (d := puppeteer) List.mem_cons_self {} [hostileClick]
  exact ⟨htexts, houtline [ordinaryClick] "Enter" (.cons hsame .nil)⟩

end SessionScript.Script
