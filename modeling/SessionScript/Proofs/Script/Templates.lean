import SessionScript.Proofs.Json.NumberText
import SessionScript.Proofs.Script.Lines
import SessionScript.Proofs.Script.Literals
import SessionScript.Proofs.Script.Names

/-!
# The templates of statements

Every line that an event gives is written out as its pieces: the code of the template, and the
recorded texts as literals in their places. Scanning the line gives these pieces back, for both
libraries, all options and whatever was recorded. The remark behind a move of the pointer is the
only recorded text that enters a line outside of a literal.
-/

namespace SessionScript.Script

/-- The pieces of a call. -/
def callPieces (receiver method : String) (arguments : List Piece) : List Piece :=
  plain receiver ++ plain "." ++ plain method ++ plain "(" ++ arguments ++ plain ")"

/-- The pieces of a statement that awaits a call. -/
def awaitPieces (receiver method : String) (arguments : List Piece) : List Piece :=
  plain "await " ++ callPieces receiver method arguments

/-- The pieces of a statement that awaits a call, with the page that it opens if it does. -/
def awaitedPieces (opens : Bool) (call : List Piece) : List Piece :=
  if opens then
    plain "\x7b\n  const [newPage] = await Promise.all([\n    page.waitForEvent("
      ++ .literal "popup" :: plain "),\n    " ++ call ++ plain ",\n  ])\n  page = newPage\n\x7d"
  else plain "await " ++ call

/-- The pieces of a statement that moves the pointer. -/
def movePieces (receiver : String) (x y : Json.Number) : List Piece :=
  awaitPieces receiver "mouse.move"
    (plain x.text ++ plain ", " ++ plain y.text ++ plain ", \x7b steps: 100 \x7d")

/-- The pieces of two literals as arguments. -/
def bothPieces (first second : String) : List Piece :=
  .literal first :: plain ", " ++ [.literal second]

/-- The text of the picture's file name. -/
def pictureName (n : Nat) : String := "screenshot_" ++ toString n ++ ".png"

/-- The pieces of the lines that take a picture. -/
def screenshotPieces (n : Nat) (e : Event) : List (List Piece) :=
  match (e.value.bind Payload.text?).filter (!·.isEmpty) with
  | some target =>
    [ plain "const " ++ plain ("element" ++ toString n) ++ plain " = await page.$("
        ++ .literal target :: plain ")",
      awaitPieces ("element" ++ toString n) "screenshot"
        (plain "\x7b path: " ++ .literal (pictureName n) :: plain " \x7d") ]
  | none =>
    [ awaitPieces (receiver e) "screenshot"
        (plain "\x7b path: " ++ .literal (pictureName n) :: plain ", fullPage: true \x7d") ]

/-- The pieces of the lines of an event, line by line. -/
def eventPieces (d : Dialect) (o : Options) (p : Progress) (e : Event) (next : Option Event) :
    List (List Piece) :=
  match e.action with
  | .keydown =>
    [awaitedPieces (opensTab next)
      (callPieces (receiver e) "keyboard.press" [.literal (pressedKey o e)])]
  | .hover => [awaitPieces (receiver e) "hover" [.literal e.target]]
  | .mouseMove =>
    (e.value.bind Payload.point?).toList.map fun (x, y) =>
      movePieces (receiver e) x y ++ plain " // " ++ pieces e.target
  | .click =>
    (if o.waitForSelectorOnClick then
      [awaitPieces (receiver e) "waitForSelector" [.literal e.target]] else [])
    ++ [awaitedPieces (opensTab next) (callPieces (receiver e) "click" [.literal e.target])]
    ++ (d.afterClick o).toList.map fun _ =>
      awaitPieces "page" "waitForLoadState" [.literal "networkidle"]
  | .change =>
    if e.isSelect then
      [awaitPieces (receiver e) d.selectMethod (bothPieces e.target e.typedValue)] else []
  | .fill => [awaitPieces (receiver e) "fill" (bothPieces e.target e.typedValue)]
  | .goto => e.href.toList.map fun href => awaitPieces (receiver e) "goto" [.literal href]
  | .viewport =>
    (e.value.bind Payload.size?).toList.map fun (width, height) =>
      awaitPieces (receiver e) d.viewportMethod
        (plain "\x7b width: " ++ plain (toString width.toNat) ++ plain ", height: "
          ++ plain (toString height.toNat) ++ plain " \x7d")
  | .navigation => if o.waitForNavigation then [plain "await navigationPromise"] else []
  | .tabChange =>
    (e.tabId?.map p.tabPosition).toList.flatMap fun n =>
      [ plain "page = context.pages()[" ++ plain (toString n) ++ plain "]",
        plain "await page.bringToFront()" ]
  | .screenshot => screenshotPieces (p.pictures + 1).toNat e
  | _ => []

/-- The pieces of the lines of blocks, line by line. -/
def piecesOf (blocks : List Block) : List (List Piece) :=
  (linesOf blocks).map fun line => pieces line.value

/-- The pieces of a block of an event with given texts. -/
theorem piecesOf_eventBlock (e : Event) (values : List String) :
    piecesOf [eventBlock e values] = values.map pieces := by
  simp [piecesOf, eventBlock]

/-- The receiver of the statements of an event has no quotes. -/
theorem receiver_quoteless (e : Event) : '\'' ∉ (receiver e).toList :=
  (receiver_isName e).not_mem (by decide)

/-- A natural number has no quotes. -/
theorem toDigits_quoteless (n : Nat) : '\'' ∉ Nat.toDigits 10 n :=
  fun h => absurd (Json.isDigit_toDigits h) (by decide)

/-- A number has no quotes. -/
theorem number_quoteless (n : Json.Number) : '\'' ∉ n.text.toList :=
  fun h => absurd (Json.isNumeric_text n _ h) (by decide)

section Calls

variable {receiver : String} (method lead : String)

/-- A call with one literal, whose opening quote is written together with the method. -/
theorem call_spells (hr : '\'' ∉ receiver.toList) (hm : '\'' ∉ method.toList)
    (hl : lead.toList = '.' :: (method.toList ++ "('".toList)) (s : String) :
    Spells (receiver ++ lead ++ escape s ++ "')") (callPieces receiver method [.literal s]) := by
  intro cs
  simp [callPieces, plain, hl, scan_append hr, scan_append hm]

/-- A call with two literals. -/
theorem call_spells_both (hr : '\'' ∉ receiver.toList) (hm : '\'' ∉ method.toList)
    (hl : lead.toList = '.' :: (method.toList ++ "('".toList)) (s t : String) :
    Spells (receiver ++ lead ++ escape s ++ "', '" ++ escape t ++ "')")
      (callPieces receiver method (bothPieces s t)) := by
  intro cs
  simp [callPieces, bothPieces, plain, hl, scan_append hr, scan_append hm]

/-- Awaiting a call with one literal. -/
theorem await_spells (hr : '\'' ∉ receiver.toList) (hm : '\'' ∉ method.toList)
    (hl : lead.toList = '.' :: (method.toList ++ "('".toList)) (s : String) :
    Spells ("await " ++ receiver ++ lead ++ escape s ++ "')")
      (awaitPieces receiver method [.literal s]) := by
  have h := (spells_plain (s := "await ") (by decide)).append (call_spells method lead hr hm hl s)
  simpa only [String.append_assoc, awaitPieces] using h

/-- Awaiting a call with two literals. -/
theorem await_spells_both (hr : '\'' ∉ receiver.toList) (hm : '\'' ∉ method.toList)
    (hl : lead.toList = '.' :: (method.toList ++ "('".toList)) (s t : String) :
    Spells ("await " ++ receiver ++ lead ++ escape s ++ "', '" ++ escape t ++ "')")
      (awaitPieces receiver method (bothPieces s t)) := by
  have h := (spells_plain (s := "await ") (by decide)).append
    (call_spells_both method lead hr hm hl s t)
  simpa only [String.append_assoc, awaitPieces] using h

end Calls

/-- The template of a popup around its fixed literal. -/
theorem popup_eq (trigger : String) :
    popup trigger =
      "\x7b\n  const [newPage] = await Promise.all([\n    page.waitForEvent("
        ++ ("'" ++ escape "popup" ++ "'") ++ "),\n    " ++ trigger
        ++ ",\n  ])\n  page = newPage\n\x7d" := by
  rw [escape_self (by decide)]
  rfl

/-- An escaped text between quotes spells one literal. -/
theorem quoted_spells (s : String) : Spells ("'" ++ escape s ++ "'") [.literal s] := by
  intro cs
  simp

/-- Awaiting a call, with the page that it opens if it does. -/
theorem awaited_spells (opens : Bool) {call : String} {ps : List Piece} (hc : Spells call ps) :
    Spells (awaited opens call) (awaitedPieces opens ps) := by
  unfold awaited awaitedPieces
  split
  · have hlead : Spells "\x7b\n  const [newPage] = await Promise.all([\n    page.waitForEvent("
        (plain "\x7b\n  const [newPage] = await Promise.all([\n    page.waitForEvent(") :=
      spells_plain (by decide)
    have hmiddle : Spells "),\n    " (plain "),\n    ") := spells_plain (by decide)
    have htail : Spells ",\n  ])\n  page = newPage\n\x7d"
        (plain ",\n  ])\n  page = newPage\n\x7d") := spells_plain (by decide)
    have h := (((hlead.append (quoted_spells "popup")).append hmiddle).append hc).append htail
    rw [popup_eq]
    simpa using h
  · exact (spells_plain (by decide)).append hc

/-- The methods of both libraries have no quotes, and what may follow a click is one fixed line. -/
theorem dialect_spells {d : Dialect} (hd : d ∈ [puppeteer, playwright]) (o : Options) :
    '\'' ∉ d.viewportMethod.toList ∧ '\'' ∉ d.selectMethod.toList ∧
      ∀ value ∈ d.afterClick o, value = "await page.waitForLoadState('networkidle')" := by
  simp only [List.mem_cons, List.not_mem_nil, or_false] at hd
  rcases hd with rfl | rfl
  · exact ⟨by decide, by decide, fun _ h => nomatch h⟩
  · refine ⟨by decide, by decide, fun value h => ?_⟩
    simp only [playwright, Option.mem_def, Option.ite_none_right_eq_some, Option.some.injEq] at h
    exact h.2.symm

/-- The fixed line behind a click. -/
theorem networkIdle_spells :
    Spells "await page.waitForLoadState('networkidle')"
      (awaitPieces "page" "waitForLoadState" [.literal "networkidle"]) := by
  have h := @await_spells "page" "waitForLoadState" ".waitForLoadState('" (by decide) (by decide)
    (by decide) "networkidle"
  have hidle : escape "networkidle" = "networkidle" := escape_self (by decide)
  rw [hidle] at h
  exact h

/-- Setting the size of the viewport. -/
theorem viewport_spells {d : Dialect} (hm : '\'' ∉ d.viewportMethod.toList) (e : Event)
    (width height : UInt32) :
    Spells (d.viewport (receiver e) width height)
      (awaitPieces (receiver e) d.viewportMethod
        (plain "\x7b width: " ++ plain (toString width.toNat) ++ plain ", height: "
          ++ plain (toString height.toNat) ++ plain " \x7d")) := by
  intro cs
  delta Dialect.viewport
  simp [awaitPieces, callPieces, plain, scan_append (receiver_quoteless e),
    scan_append (toDigits_quoteless _), scan_append hm]

/-- Moving the pointer, with the selector as a remark. -/
theorem mouseMove_pieces (e : Event) (x y : Json.Number) :
    pieces ("await " ++ receiver e ++ ".mouse.move(" ++ x.text ++ ", " ++ y.text
        ++ ", \x7b steps: 100 \x7d) // " ++ e.target) =
      movePieces (receiver e) x y ++ plain " // " ++ pieces e.target := by
  simp [pieces, movePieces, awaitPieces, callPieces, plain, scan_append (receiver_quoteless e),
    scan_append (number_quoteless _)]

/-- The file of a picture is one literal. -/
theorem pictureFile_spells (n : Nat) : Spells (pictureFile n) [.literal (pictureName n)] := by
  have hdigit : ∀ c, c.isDigit = true → escapeChar c = [c] := by
    intro c hc
    have hne : ∀ c', c'.isDigit = false → c ≠ c' := fun c' hc' h => by simp [← h, hc] at hc'
    simp [escapeChar, hne '\\' rfl, hne '\'' rfl, hne '\n' rfl, hne '\r' rfl]
  have hplain : (pictureName n).toList.all (fun c => escapeChar c = [c]) = true := by
    have hdigits : (toString n).toList.all (fun c => escapeChar c = [c]) = true := by
      rw [List.all_eq_true]
      exact fun c hc => decide_eq_true (hdigit c (isDigit_of_mem_toString hc))
    simp only [pictureName, String.toList_append, List.all_append, hdigits]
    decide
  have hfile : pictureFile n = "'" ++ escape (pictureName n) ++ "'" := by
    rw [escape_self hplain]
    delta pictureFile pictureName
    apply String.toList_inj.mp
    simp
  rw [hfile]
  exact quoted_spells (pictureName n)

/-- A declaration that ends in a call with one literal, whose opening quote is written together with
the code in front of it. -/
theorem const_spells {name : String} (hn : '\'' ∉ name.toList) {code lead : String}
    (hc : '\'' ∉ code.toList) (hl : lead.toList = code.toList ++ ['\'']) (s : String) :
    Spells ("const " ++ name ++ lead ++ escape s ++ "')")
      (plain "const " ++ plain name ++ plain code ++ .literal s :: plain ")") := by
  have hrest : Spells (lead ++ escape s ++ "')") (plain code ++ .literal s :: plain ")") := by
    intro cs
    simp [plain, hl, scan_append hc]
  have hconst : Spells "const " (plain "const ") := spells_plain (by decide)
  have h := (hconst.append (spells_plain hn)).append hrest
  simpa only [String.append_assoc, List.append_assoc] using h

/-- Looking up the element of a picture. -/
theorem elementLookup_pieces (n : Nat) (target : String) :
    pieces ("const " ++ ("element" ++ toString n) ++ " = await page.$('" ++ escape target ++ "')") =
      plain "const " ++ plain ("element" ++ toString n) ++ plain " = await page.$("
        ++ .literal target :: plain ")" := by
  have helement : '\'' ∉ ("element" ++ toString n).toList :=
    (isName_numbered (by decide) (by decide) n).not_mem (by decide)
  exact (const_spells helement (by decide) (by decide) target).pieces

/-- Taking a picture of an element or of a page, with the closing bracket written together with the
rest of the arguments. -/
theorem picture_pieces {receiver : String} (hr : '\'' ∉ receiver.toList) {rest close : String}
    (hrest : '\'' ∉ rest.toList) (hclose : close = rest ++ ")") (n : Nat) :
    pieces ("await " ++ receiver ++ ".screenshot(\x7b path: " ++ pictureFile n ++ close) =
      awaitPieces receiver "screenshot"
        (plain "\x7b path: " ++ .literal (pictureName n) :: plain rest) := by
  have hfile := pictureFile_spells n
  unfold Spells at hfile
  simp [pieces, awaitPieces, callPieces, plain, scan_append hr, hfile, hclose, scan_append hrest]

/-- The lines that take a picture. -/
theorem screenshotBlock_pieces (n : Nat) (e : Event) :
    piecesOf [screenshotBlock n e] = screenshotPieces n e := by
  unfold screenshotBlock screenshotPieces
  cases (e.value.bind Payload.text?).filter (!·.isEmpty) with
  | some target =>
    have helement : '\'' ∉ ("element" ++ toString n).toList :=
      (isName_numbered (by decide) (by decide) n).not_mem (by decide)
    have hlookup := elementLookup_pieces n target
    have hpicture := @picture_pieces _ helement " \x7d" " \x7d)" (by decide) rfl n
    exact congr (congrArg (fun a b => [a, b]) hlookup) hpicture
  | none =>
    have hpicture := @picture_pieces _ (receiver_quoteless e) ", fullPage: true \x7d"
      ", fullPage: true \x7d)" (by decide) rfl n
    exact congrArg (fun a => [a]) hpicture

/-- The lines that wait for an element and click it. -/
theorem clickBlock_pieces {d : Dialect} (hd : d ∈ [puppeteer, playwright]) (o : Options)
    (opens : Bool) {e : Event} (ha : e.action = .click) :
    piecesOf [clickBlock d o opens e] =
      (if o.waitForSelectorOnClick then
        [awaitPieces (receiver e) "waitForSelector" [.literal e.target]] else [])
      ++ [awaitedPieces opens (callPieces (receiver e) "click" [.literal e.target])]
      ++ (d.afterClick o).toList.map fun _ =>
        awaitPieces "page" "waitForLoadState" [.literal "networkidle"] := by
  have hr := receiver_quoteless e
  have hwait := (await_spells "waitForSelector" ".waitForSelector('" hr (by decide) (by decide)
    e.target).pieces
  have hclick := (awaited_spells opens
    (call_spells "click" ".click('" hr (by decide) (by decide) e.target)).pieces
  have hidle : ∀ value ∈ (d.afterClick o).toList,
      pieces value = awaitPieces "page" "waitForLoadState" [.literal "networkidle"] := by
    intro value hv
    rw [(dialect_spells hd o).2.2 value (Option.mem_toList.mp hv)]
    exact networkIdle_spells.pieces
  rw [clickBlock_eq ha, piecesOf_eventBlock, List.map_append, List.map_append, List.map_cons,
    List.map_nil, selectorText, hclick, List.map_congr_left hidle]
  congr 2
  split
  · exact congrArg (fun a => [a]) hwait
  · rfl

/-- The pieces of the line that finds a frame by its address. -/
def findFramePieces (id : UInt64) (url : String) : List Piece :=
  plain "const " ++ plain (frameVariable id) ++ plain " = frames.find(f => f.url() === "
    ++ .literal url :: plain ")"

/-- Finding a frame by its address. -/
theorem findFrame_pieces (id : UInt64) (url : String) :
    pieces (findFrame id url) = findFramePieces id url := by
  have hname : '\'' ∉ (frameVariable id).toList := (frameVariable_isName id).not_mem (by decide)
  exact (const_spells hname (by decide) (by decide) url).pieces

/-- Listing the frames of the page takes no literal. -/
theorem listFrames_pieces (bound : Bool) :
    pieces (listFrames bound) = plain (listFrames bound) := by
  cases bound <;> exact (spells_plain (by decide)).pieces

/-- Scanning the lines of an event gives the pieces of their templates. -/
theorem blockOf_pieces {d : Dialect} (hd : d ∈ [puppeteer, playwright]) (o : Options)
    (p : Progress) (e : Event) (next : Option Event) :
    piecesOf (blockOf d o p e next).toList = eventPieces d o p e next := by
  have hr := receiver_quoteless e
  obtain ⟨hviewport, hselect, -⟩ := dialect_spells hd o
  have hsingle : ∀ {kind value ps}, pieces value = ps →
      piecesOf [Block.single e.frame kind value] = [ps] :=
    fun h => congrArg (fun a => [a]) h
  unfold blockOf eventPieces
  cases ha : e.action with
  | keydown =>
    have hcall := call_spells "keyboard.press" ".keyboard.press('" hr (by decide) (by decide)
      (pressedKey o e)
    exact hsingle (awaited_spells _ hcall).pieces
  | hover =>
    exact hsingle (await_spells "hover" ".hover('" hr (by decide) (by decide) e.target).pieces
  | mouseMove =>
    dsimp only
    cases e.value.bind Payload.point? with
    | none => rfl
    | some point => exact hsingle (mouseMove_pieces e point.1 point.2)
  | click => exact clickBlock_pieces hd o _ ha
  | change =>
    dsimp only
    split
    · have hlead : ("." ++ d.selectMethod ++ "('").toList =
          '.' :: (d.selectMethod.toList ++ "('".toList) := by simp
      have hcall := await_spells_both _ _ hr hselect hlead e.target e.typedValue
      have hvalue : d.selectOption (receiver e) (selectorText e) (escape e.typedValue) =
          "await " ++ receiver e ++ ("." ++ d.selectMethod ++ "('") ++ escape e.target ++ "', '"
            ++ escape e.typedValue ++ "')" := by
        delta Dialect.selectOption selectorText
        simp only [String.append_assoc]
      exact hsingle (hvalue ▸ hcall.pieces)
    · rfl
  | fill =>
    exact hsingle (await_spells_both "fill" ".fill('" hr (by decide) (by decide) e.target
      e.typedValue).pieces
  | goto =>
    dsimp only
    cases e.href with
    | none => rfl
    | some href =>
      exact hsingle (await_spells "goto" ".goto('" hr (by decide) (by decide) href).pieces
  | viewport =>
    dsimp only
    cases e.value.bind Payload.size? with
    | none => rfl
    | some size => exact hsingle (viewport_spells hviewport e size.1 size.2).pieces
  | navigation =>
    dsimp only [navigationBlock]
    split
    · exact hsingle (spells_plain (by decide)).pieces
    · rfl
  | tabChange =>
    dsimp only [tabChangeBlock]
    cases e.tabId?.map p.tabPosition with
    | none => rfl
    | some n =>
      have hpage : pieces ("page = context.pages()[" ++ toString n ++ "]") =
          plain "page = context.pages()[" ++ plain (toString n) ++ plain "]" := by
        simp [pieces, plain, scan_append (toDigits_quoteless n)]
      have hfront := (spells_plain (s := "await page.bringToFront()") (by decide)).pieces
      exact congr (congrArg (fun a b => [a, b]) hpage) hfront
  | screenshot => exact screenshotBlock_pieces _ e
  | tabCreate | dblClick | select | submit | load | unload | other tag => rfl

/-- The pieces of the lines of an event's block, line by line. -/
theorem eventBlock_pieces {d : Dialect} (hd : d ∈ [puppeteer, playwright]) {o : Options}
    {p : Progress} {e : Event} {next : Option Event} {values : List String}
    (hb : blockOf d o p e next = some (eventBlock e values)) :
    values.map pieces = eventPieces d o p e next := by
  rw [← piecesOf_eventBlock e values, ← blockOf_pieces hd, hb]
  rfl

/-- The line that declares the promise of a navigation. -/
def promiseLine : Line :=
  ⟨some .navigationPromise, "const navigationPromise = page.waitForNavigation()", 0⟩

/-- Declaring the promise of a navigation takes no literal. -/
theorem promiseLine_pieces : pieces promiseLine.value = plain promiseLine.value :=
  (spells_plain (by decide)).pieces

end SessionScript.Script
