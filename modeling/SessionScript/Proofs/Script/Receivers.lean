import SessionScript.Proofs.Script.Recorded
import SessionScript.Proofs.Script.Remarks

/-!
# The objects that elements are looked up in

The code of a line is read for its calls that take a literal first. Those by which an element is
looked up are compared with what the session asks for: each element in the frame that its event was
recorded in. All of them are as asked for but the elements of pictures, which are looked up in the
page whatever their frame. So a session gets the lookups it asks for exactly if none of its events
takes a picture of an element inside a frame. Code that a selector has behind the remark it stands
in is read too, and is asked for as it was recorded.
-/

namespace SessionScript.Script

/-- A call whose first argument is a literal. -/
structure Call where
  /-- The object that is called. -/
  receiver : String
  /-- What is called of it. -/
  method : String
  /-- The text of the literal. -/
  argument : String
  deriving DecidableEq

/-- May the character stand in the path of a call, which is the names between its points? -/
def isPathChar (c : Char) : Bool := isNameChar c || c = '.'

/-- The call of a path: its first name is the receiver, and the rest is the method. -/
def Call.ofPath (path : List Char) (argument : String) : Call :=
  ⟨String.ofList (path.takeWhile (· ≠ '.')), String.ofList ((path.dropWhile (· ≠ '.')).drop 1),
    argument⟩

/-- How far a line has been read for calls. -/
structure Cursor where
  /-- The path that is being read. -/
  path : List Char := []
  /-- Has the bracket behind the path been read? -/
  opened : Bool := false

/-- Read a character of code. -/
def Cursor.next (r : Cursor) (c : Char) : Cursor :=
  let path := if r.opened then [] else r.path
  if isPathChar c then ⟨path ++ [c], false⟩ else if c = '(' then ⟨path, true⟩ else {}

/-- The calls in pieces of a line, read on from a cursor. -/
def callsFrom : Cursor → List Piece → List Call
  | _, [] => []
  | r, .code c :: rest => callsFrom (r.next c) rest
  | r, .literal text :: rest =>
    (if r.opened then [Call.ofPath r.path text] else []) ++ callsFrom {} rest
  | _, .broken :: _ => []

/-- The methods that look an element up. -/
def lookupMethods : List String :=
  ["waitForSelector", "click", "hover", "fill", "select", "selectOption", "$"]

/-- The calls in the pieces of a line that look an element up. -/
def lookups (ps : List Piece) : List Call :=
  (callsFrom {} ps).filter (·.method ∈ lookupMethods)

/-- The calls of a line that look an element up. -/
def Line.lookups (line : Line) : List Call := Script.lookups (codeOf line.value)

example :
    lookups (codeOf "await page.click('#a') // page.hover('#b')\npage.fill('#c', 'd')") =
      [⟨"page", "click", "#a"⟩, ⟨"page", "fill", "#c"⟩] := by decide +kernel

/-- The element that an event takes a picture of. -/
def pictured? (e : Event) : Option String :=
  if e.action = .screenshot then (e.value.bind Payload.text?).filter (!·.isEmpty) else none

/-- The lookups of an event, each in the event's frame, and the elements of pictures in a given
object. A move of the pointer looks nothing up, and what the selector has behind the remark is code
as it was recorded. -/
def eventLookups (d : Dialect) (o : Options) (album : Event → String) (e : Event) : List Call :=
  let element := e.selector.getD ""
  match e.action with
  | .hover => [⟨frameObject e, "hover", element⟩]
  | .mouseMove =>
    (e.value.bind Payload.point?).toList.flatMap fun _ =>
      lookups (scanCode (behindRemark element.toList))
  | .click =>
    (if o.waitForSelectorOnClick then [⟨frameObject e, "waitForSelector", element⟩] else [])
      ++ [⟨frameObject e, "click", element⟩]
  | .change =>
    if e.tagName = some "SELECT" then [⟨frameObject e, d.selectMethod, element⟩] else []
  | .fill => [⟨frameObject e, "fill", element⟩]
  | .screenshot => (pictured? e).toList.map fun target => ⟨album e, "$", target⟩
  | _ => []

/-- Reading pieces gives calls and leads to a cursor, whatever follows them. -/
def Collects (start : Cursor) (ps : List Piece) (calls : List Call) (last : Cursor) : Prop :=
  ∀ rest, callsFrom start (ps ++ rest) = calls ++ callsFrom last rest

/-- Pieces in a row are read in a row. -/
theorem Collects.append {r s t : Cursor} {ps qs : List Piece} {calls more : List Call}
    (hp : Collects r ps calls s) (hq : Collects s qs more t) :
    Collects r (ps ++ qs) (calls ++ more) t := by
  intro rest
  rw [List.append_assoc, hp, hq, List.append_assoc]

/-- Pieces that are read in full. -/
theorem Collects.lookups {ps : List Piece} {calls : List Call} {last : Cursor}
    (h : Collects {} ps calls last) :
    lookups ps = calls.filter (·.method ∈ lookupMethods) := by
  have hall := h []
  rw [List.append_nil, show callsFrom last [] = [] from rfl, List.append_nil] at hall
  rw [Script.lookups, hall]

/-- Plain code in a row is plain code. -/
theorem plain_append (s t : String) : plain (s ++ t) = plain s ++ plain t := by
  simp [plain]

/-- Code without literals makes no calls. -/
theorem collects_code (start : Cursor) (s : List Char) :
    Collects start (s.map .code) [] (s.foldl Cursor.next start) := by
  intro rest
  induction s generalizing start with
  | nil => rfl
  | cons c s ih => exact ih _

/-- Code without literals looks nothing up. -/
@[simp]
theorem lookups_plain (s : String) : lookups (plain s) = [] := (collects_code {} s.toList).lookups

/-- A path is read character by character. -/
theorem collects_path {s : List Char} (hs : s.all isPathChar = true) (path : List Char) :
    Collects ⟨path, false⟩ (s.map .code) [] ⟨path ++ s, false⟩ := by
  have hpath : s.foldl Cursor.next ⟨path, false⟩ = ⟨path ++ s, false⟩ := by
    induction s generalizing path with
    | nil => rw [List.append_nil]; rfl
    | cons c s ih =>
      obtain ⟨hc, hrest⟩ := (Bool.and_eq_true _ _).mp hs
      have hnext : Cursor.next ⟨path, false⟩ c = ⟨path ++ [c], false⟩ := by
        rw [Cursor.next, if_pos hc]
        rfl
      rw [List.foldl_cons, hnext, ih hrest, List.append_assoc]
      rfl
  exact hpath ▸ collects_code ⟨path, false⟩ s

/-- A name is a path. -/
theorem collects_name {name : String} (hn : IsName name) :
    Collects {} (plain name) [] ⟨name.toList, false⟩ := by
  refine collects_path (List.all_eq_true.mpr fun c hc => ?_) []
  rw [isPathChar, hn.chars c hc, Bool.true_or]

section Calls

variable {receiver : String} (hr : IsName receiver) (method argument : String)

include hr

/-- The path of a call is taken apart at its first point. -/
theorem ofPath_call :
    Call.ofPath (receiver.toList ++ '.' :: method.toList) argument =
      ⟨receiver, method, argument⟩ := by
  have hpoint : ∀ c ∈ receiver.toList, decide (c ≠ '.') = true := by
    intro c hc
    refine decide_eq_true fun h => hr.not_mem (c := '.') (by decide) (h ▸ hc)
  rw [Call.ofPath, List.takeWhile_append_of_pos hpoint, List.dropWhile_append_of_pos hpoint]
  simp

/-- A call is read up to its arguments. -/
theorem call_collects (hm : method.toList.all isPathChar = true) {arguments : List Piece}
    {calls : List Call}
    (ha : Collects ⟨receiver.toList ++ '.' :: method.toList, true⟩ arguments calls {}) :
    Collects {} (callPieces receiver method arguments) calls {} := by
  have hpoint : Collects ⟨receiver.toList, false⟩ (plain ".") []
      ⟨receiver.toList ++ ['.'], false⟩ := collects_path (by decide) _
  have hopen : Collects ⟨receiver.toList ++ ['.'] ++ method.toList, false⟩ (plain "(") []
      ⟨receiver.toList ++ '.' :: method.toList, true⟩ := by
    rw [List.append_assoc]
    exact fun _ => rfl
  have hclose : Collects {} (plain ")") [] {} := fun _ => rfl
  have h := (((collects_name hr).append hpoint).append (collects_path hm _)).append
    (hopen.append (ha.append hclose))
  simpa only [callPieces, plain, List.append_assoc, List.append_nil, List.nil_append] using h

/-- A call whose arguments start with a literal is read as a call. -/
theorem literalCall_collects (hm : method.toList.all isPathChar = true) {more : List Piece}
    (ha : Collects {} more [] {}) :
    Collects {} (callPieces receiver method (.literal argument :: more))
      [⟨receiver, method, argument⟩] {} := by
  refine call_collects hr method hm fun rest => ?_
  rw [List.cons_append, callsFrom, ha, if_pos rfl, ofPath_call hr]
  rfl

end Calls

/-- Awaiting makes no call of its own. -/
theorem await_collects {call : List Piece} {calls : List Call} (hc : Collects {} call calls {}) :
    Collects {} (plain "await " ++ call) calls {} := by
  have hawait : Collects {} (plain "await ") [] {} := fun _ => rfl
  exact hawait.append hc

set_option maxRecDepth 2000 in
/-- Awaiting a call with the page that it opens looks up what the call looks up. -/
theorem awaited_lookups (opens : Bool) {call : List Piece} {calls : List Call}
    (hc : Collects {} call calls {}) :
    lookups (awaitedPieces opens call) = calls.filter (·.method ∈ lookupMethods) := by
  unfold awaitedPieces
  split
  · have hlead : Collects {}
        (plain "\x7b\n  const [newPage] = await Promise.all([\n    page.waitForEvent("
          ++ .literal "popup" :: plain "),\n    ") [⟨"page", "waitForEvent", "popup"⟩] {} :=
      fun _ => rfl
    have htail : Collects {} (plain ",\n  ])\n  page = newPage\n\x7d") [] {} := fun _ => rfl
    have h := ((hlead.append hc).append htail).lookups
    have hpopup : ([⟨"page", "waitForEvent", "popup"⟩] : List Call).filter
        (·.method ∈ lookupMethods) = [] := by decide
    rw [List.append_nil, List.filter_append, hpopup] at h
    simpa only [List.append_assoc, List.nil_append] using h
  · exact (await_collects hc).lookups

/-- Awaiting a call whose arguments start with a literal looks it up, if its method does. -/
theorem await_lookups {receiver : String} (hr : IsName receiver) (method argument : String)
    (hm : method.toList.all isPathChar = true) {more : List Piece}
    (ha : Collects {} more [] {}) :
    lookups (awaitPieces receiver method (.literal argument :: more)) =
      if method ∈ lookupMethods then [⟨receiver, method, argument⟩] else [] := by
  have h := (await_collects (literalCall_collects hr method argument hm ha)).lookups
  rw [awaitPieces, h, List.filter_cons, List.filter_nil]
  simp only [decide_eq_true_eq]

/-- Declaring a name looks up what the code behind the name does. -/
theorem const_lookups {name : String} (hn : IsName name) {rest : List Piece} {calls : List Call}
    (hrest : Collects ⟨name.toList, false⟩ rest calls {}) :
    lookups (plain "const " ++ plain name ++ rest) =
      calls.filter (·.method ∈ lookupMethods) := by
  have hconst : Collects {} (plain "const ") [] {} := fun _ => rfl
  exact ((hconst.append (collects_name hn)).append hrest).lookups

/-- Looking up the element of a picture. -/
theorem elementLookup_lookups (n : Nat) (target : String) :
    lookups (plain "const " ++ plain ("element" ++ toString n) ++ plain " = await page.$("
      ++ .literal target :: plain ")") = [⟨"page", "$", target⟩] := by
  have hname : IsName ("element" ++ toString n) := isName_numbered (by decide) (by decide) n
  have hrest : Collects ⟨("element" ++ toString n).toList, false⟩
      (plain " = await page.$(" ++ .literal target :: plain ")") [⟨"page", "$", target⟩] {} :=
    fun _ => rfl
  rw [List.append_assoc, const_lookups hname hrest]
  rfl

/-- Taking a picture looks nothing up. -/
theorem picture_lookups {receiver : String} (hr : IsName receiver) (n : Nat) (rest : String)
    (hrest : Collects {} (plain rest) [] {}) :
    lookups (awaitPieces receiver "screenshot"
      (plain "\x7b path: " ++ .literal (pictureName n) :: plain rest)) = [] := by
  have hpath : ∀ start, Collects start (plain "\x7b path: ") [] {} := fun _ _ => rfl
  have hfile : Collects {} [.literal (pictureName n)] [] {} := fun _ => rfl
  have harguments := (hpath ⟨receiver.toList ++ '.' :: "screenshot".toList, true⟩).append
    (hfile.append hrest)
  exact (await_collects (call_collects hr _ (by decide) harguments)).lookups

/-- The lines that take a picture look its element up in the page. -/
theorem screenshotPieces_lookups (n : Nat) {e : Event} (ha : e.action = .screenshot) :
    (screenshotPieces n e).flatMap lookups =
      (pictured? e).toList.map fun target => ⟨"page", "$", target⟩ := by
  rw [pictured?, if_pos ha]
  unfold screenshotPieces
  cases (e.value.bind Payload.text?).filter (!·.isEmpty) with
  | none =>
    have hpicture := picture_lookups (receiver_isName e) n ", fullPage: true \x7d" fun _ => rfl
    simp only [List.flatMap_cons, hpicture]
    rfl
  | some target =>
    have hname : IsName ("element" ++ toString n) := isName_numbered (by decide) (by decide) n
    have hpicture := picture_lookups hname n " \x7d" fun _ => rfl
    simp only [List.flatMap_cons, hpicture, elementLookup_lookups]
    rfl

/-- Moving the pointer looks nothing up, so all lookups of such a line stand behind the remark. -/
theorem move_lookups (receiver : String) (x y : Json.Number) (rest : List Piece) :
    lookups (movePieces receiver x y ++ plain " " ++ rest) = lookups rest := by
  have hplain : ∃ s, movePieces receiver x y = plain s := by
    simp only [movePieces, awaitPieces, callPieces, ← plain_append]
    exact ⟨_, rfl⟩
  obtain ⟨s, hs⟩ := hplain
  have hspace : ∀ start, Collects start (plain " ") [] {} := fun _ _ => rfl
  have hmove := (collects_code {} s.toList).append (hspace _)
  rw [hs, lookups, lookups]
  exact congrArg (List.filter _) (hmove rest)

/-- The lines of an event look elements up in the event's frame, and the elements of pictures in
the page. -/
theorem eventCode_lookups {d : Dialect} (hd : d ∈ [puppeteer, playwright]) (o : Options)
    (p : Progress) (e : Event) (next : Option Event) :
    (eventCode d o p e next).flatMap lookups = eventLookups d o (fun _ => "page") e := by
  have hr := receiver_isName e
  have htarget : e.selector.getD "" = e.target := rfl
  have hliteral : Collects {} [] [] {} := fun _ => rfl
  have hboth : ∀ value, Collects {} (plain ", " ++ [.literal value]) [] {} := fun _ _ => rfl
  simp only [eventLookups, ← receiver_eq_frameObject, htarget]
  by_cases hm : e.action = .mouseMove
  · rw [eventCode, if_pos hm, hm]
    cases e.value.bind Payload.point? with
    | none => rfl
    | some point =>
      have hmove := move_lookups (receiver e) point.1 point.2
        (scanCode (behindRemark e.target.toList))
      simpa using hmove
  rw [eventCode_eq hm, eventPieces]
  cases ha : e.action with
  | mouseMove => exact absurd ha hm
  | keydown =>
    have hpress := awaited_lookups (opensTab next)
      (literalCall_collects hr "keyboard.press" (pressedKey o e) (by decide) hliteral)
    simp [hpress, lookupMethods]
  | hover =>
    have hhover := await_lookups hr "hover" e.target (by decide) hliteral
    simp [hhover, lookupMethods]
  | click =>
    have hwait := await_lookups hr "waitForSelector" e.target (by decide) hliteral
    have hclick := awaited_lookups (opensTab next)
      (literalCall_collects hr "click" e.target (by decide) hliteral)
    have hpage : IsName "page" := ⟨by decide, List.all_eq_true.mp (by decide)⟩
    have hidle := await_lookups hpage "waitForLoadState" "networkidle" (by decide) hliteral
    cases o.waitForSelectorOnClick <;> cases d.afterClick o <;>
      simp [hwait, hclick, hidle, lookupMethods]
  | change =>
    by_cases hs : e.tagName = some "SELECT"
    · have hselect : d.selectMethod.toList.all isPathChar = true := by
        simp only [List.mem_cons, List.not_mem_nil, or_false] at hd
        rcases hd with rfl | rfl <;> decide
      have hmethod : d.selectMethod ∈ lookupMethods := by
        simp only [List.mem_cons, List.not_mem_nil, or_false] at hd
        rcases hd with rfl | rfl <;> decide
      have hchange := await_lookups hr _ e.target hselect (hboth e.typedValue)
      rw [if_pos hmethod] at hchange
      simpa [bothPieces, Event.isSelect, hs] using hchange
    · simp [Event.isSelect, hs]
  | fill =>
    have hfill := await_lookups hr "fill" e.target (by decide) (hboth e.typedValue)
    simpa [bothPieces, lookupMethods] using hfill
  | goto =>
    dsimp only
    cases e.href with
    | none => rfl
    | some href =>
      have hgoto := await_lookups hr "goto" href (by decide) hliteral
      simp [hgoto, lookupMethods]
  | viewport =>
    dsimp only
    cases e.value.bind Payload.size? with
    | none => rfl
    | some size =>
      simp only [Option.toList_some, List.map_cons, List.map_nil, List.flatMap_singleton,
        awaitPieces, callPieces, ← plain_append, lookups_plain]
  | navigation =>
    dsimp only
    split <;> simp
  | tabChange =>
    dsimp only
    cases e.tabId?.map p.tabPosition with
    | none => rfl
    | some n =>
      simp only [Option.toList_some, List.flatMap_cons, List.flatMap_nil, ← plain_append,
        lookups_plain, List.append_nil]
  | screenshot => exact screenshotPieces_lookups _ ha
  | tabCreate | dblClick | select | submit | load | unload | other tag => rfl

/-- The lookups of the lines of blocks, in order. -/
def lookupsOf (blocks : List Block) : List Call := (linesOf blocks).flatMap Line.lookups

/-- The lookups of blocks in a row. -/
theorem lookupsOf_append (xs ys : List Block) :
    lookupsOf (xs ++ ys) = lookupsOf xs ++ lookupsOf ys := by
  rw [lookupsOf, linesOf_append, List.flatMap_append]
  rfl

/-- The walk looks elements up event by event. -/
theorem lookupsOf_walk {d : Dialect} (hd : d ∈ [puppeteer, playwright]) (o : Options) (p : Progress)
    (events : List Event) :
    lookupsOf (walk d o p events).2 = events.flatMap (eventLookups d o fun _ => "page") := by
  have hcode : ∀ bs, lookupsOf bs = ((linesOf bs).map (codeOf ·.value)).flatMap lookups := by
    intro bs
    rw [lookupsOf, List.flatMap_map]
    rfl
  induction events generalizing p with
  | nil => rfl
  | cons e rest ih =>
    rw [walk]
    dsimp only
    rw [lookupsOf_append, ih, hcode, blockOf_code hd, eventCode_lookups hd, List.flatMap_cons]

/-- The lines that complete the blocks of a walk look nothing up. -/
theorem lookupsOf_blocks (d : Dialect) (o : Options) (events : List Event) :
    lookupsOf (blocks d o events) = lookupsOf (walk d o {} events).2 := by
  have hfind : ∀ id url, lookups (codeOf (findFrame id url)) = [] := by
    intro id url
    have hrest : Collects ⟨(frameVariable id).toList, false⟩
        (plain " = frames.find(f => f.url() === " ++ .literal url :: plain ")") [] {} :=
      fun _ => rfl
    rw [findFrame_code, findFramePieces, List.append_assoc,
      const_lookups (frameVariable_isName id) hrest]
    rfl
  have hlist : ∀ bound, lookups (codeOf (listFrames bound)) = [] := by
    intro bound
    rw [listFrames_code, lookups_plain]
  have hpromise : ∀ line ∈ promiseBlock.lines, line.lookups = [] := by
    intro line hl
    obtain rfl : line = promiseLine := List.mem_singleton.mp hl
    rw [Line.lookups, promiseLine_code, lookups_plain]
  have hblank : lookups (codeOf "") = [] := by
    rw [codeOf_plain (by decide) (by decide), lookups_plain]
  exact blocks_flatMap hblank hpromise (fun bound _ => hlist bound)
    (fun id url _ => hfind id url) d o events

/-- Lists in a row are the same exactly if they are the same one by one, when their lengths are. -/
theorem flatMap_eq_iff {α β : Type} {f g : α → List β} (hlength : ∀ a, (f a).length = (g a).length)
    (xs : List α) : xs.flatMap f = xs.flatMap g ↔ ∀ a ∈ xs, f a = g a := by
  induction xs with
  | nil => simp
  | cons x xs ih =>
    rw [List.flatMap_cons, List.flatMap_cons, List.forall_mem_cons, ← ih]
    constructor
    · exact fun h => List.append_inj h (hlength x)
    · rintro ⟨hx, hxs⟩
      rw [hx, hxs]

/-- Where an element is looked up for a picture makes a difference only if there is one. -/
theorem eventLookups_eq_iff (d : Dialect) (o : Options) (album : Event → String) (e : Event) :
    eventLookups d o (fun _ => "page") e = eventLookups d o album e ↔
      (pictured? e ≠ none → album e = "page") := by
  unfold eventLookups
  cases ha : e.action with
  | screenshot => cases pictured? e <;> simp [eq_comm]
  | _ => simp [pictured?, ha]

/-- In every session, in both libraries and under all options, elements are looked up in the order
of the events, each in the frame that its event was recorded in, but the elements of pictures in the
page. So all of them are looked up in the recorded frames exactly if no event takes a picture of an
element inside a frame. -/
theorem lookups_in_recorded_frames_iff {d : Dialect} (hd : d ∈ [puppeteer, playwright])
    (o : Options) (events : List Event) :
    lookupsOf (blocks d o events) = events.flatMap (eventLookups d o fun _ => "page") ∧
      (lookupsOf (blocks d o events) = events.flatMap (eventLookups d o frameObject) ↔
        ∀ e ∈ events, pictured? e ≠ none → e.frame = 0) := by
  have hlength : ∀ e, (eventLookups d o (fun _ => "page") e).length =
      (eventLookups d o frameObject e).length := by
    intro e
    unfold eventLookups
    split <;> simp
  have hlookups : lookupsOf (blocks d o events) =
      events.flatMap (eventLookups d o fun _ => "page") := by
    rw [lookupsOf_blocks, lookupsOf_walk hd]
  refine ⟨hlookups, ?_⟩
  simp only [hlookups, flatMap_eq_iff hlength, eventLookups_eq_iff, frameObject_eq_page]

/-- A drop-down list, a button and a picture of an element, in the page and in a frame. -/
def galleryEvents (frame : UInt64) : List Event :=
  [ { action := .change, selector := some "#size", value := some (.text "L"),
      tagName := some "SELECT", frameId := some 4 },
    { action := .click, selector := some "#zoom", frameId := some 4 },
    { action := .screenshot, value := some (.text "#chart"), frameId := some frame } ]

/-- With the picture taken in the page, all elements are looked up in the recorded frames. -/
theorem galleryEvents_in_recorded_frames :
    playwright ∈ [puppeteer, playwright] ∧
      lookupsOf (blocks playwright {} (galleryEvents 0)) =
        [ ⟨"frame_4", "selectOption", "#size"⟩, ⟨"frame_4", "waitForSelector", "#zoom"⟩,
          ⟨"frame_4", "click", "#zoom"⟩, ⟨"page", "$", "#chart"⟩ ] := by
  have hd : playwright ∈ [puppeteer, playwright] := List.mem_cons_of_mem _ List.mem_cons_self
  have h := (lookups_in_recorded_frames_iff hd {} (galleryEvents 0)).2
  exact ⟨hd, (h.mpr (by decide)).trans (by decide)⟩

/-- A picture of an element in a frame. -/
def framedChart : Event :=
  { action := .screenshot, value := some (.text "#chart"), frameId := some 4,
    frameUrl := some "https://example.com/embed" }

/-- The element is looked up in the page, and not in its frame. -/
theorem framedChart_not_in_recorded_frame :
    lookupsOf (blocks puppeteer {} [framedChart]) ≠
      [framedChart].flatMap (eventLookups puppeteer {} frameObject) := by
  have hd : puppeteer ∈ [puppeteer, playwright] := List.mem_cons_self
  have hpage : [framedChart].flatMap (eventLookups puppeteer {} fun _ => "page") =
      [⟨"page", "$", "#chart"⟩] := by decide
  have hframe : [framedChart].flatMap (eventLookups puppeteer {} frameObject) =
      [⟨"frame_4", "$", "#chart"⟩] := by decide
  rw [lookupsOf_blocks, lookupsOf_walk hd, hpage, hframe]
  decide

end SessionScript.Script
