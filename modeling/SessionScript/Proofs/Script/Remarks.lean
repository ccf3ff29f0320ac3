import Mathlib.Data.List.TakeWhile
import SessionScript.Proofs.Script.Templates

/-!
# Remarks in the code of a session

A remark runs from two slashes to the next line break, and what stands behind the break is code
again. The only remark of a template is the one behind a move of the pointer, which gives the
recorded selector as it is. So the code of such a line is the move, and whatever the selector has
behind its first line break; the code of all other lines is read as if there were no remarks.
-/

namespace SessionScript.Script

/-- Does the character end a remark? These are all line breaks of JavaScript: the line feed, the
carriage return, and the separators of lines and of paragraphs. -/
def endsRemark (c : Char) : Bool := c = '\n' || c = '\r' || c = '\u2028' || c = '\u2029'

/-- What stands behind a remark, from the line break on that ends it. -/
def behindRemark (cs : List Char) : List Char := cs.dropWhile (!endsRemark ·)

/-- What is left behind a remark is no longer than the remark and it. -/
theorem behindRemark_length (cs : List Char) : (behindRemark cs).length ≤ cs.length :=
  (List.dropWhile_suffix _).length_le

/-- Scan code from left to right, and leave out the remarks that start with two slashes. -/
def scanCode : List Char → List Piece
  | [] => []
  | c :: cs =>
    if c = '\'' then
      match _h : readLiteral cs with
      | some (s, rest) => .literal (String.ofList s) :: scanCode rest
      | none => [.broken]
    else if c = '/' ∧ cs.head? = some '/' then scanCode (behindRemark cs)
    else .code c :: scanCode cs
termination_by cs => cs.length
decreasing_by
  · have hl := readLiteral_length _h
    simp only [List.length_cons]
    omega
  · have hl := behindRemark_length cs
    simp only [List.length_cons]
    omega
  · simp

/-- The pieces of the code of a line, without its remarks. -/
def codeOf (value : String) : List Piece := scanCode value.toList

@[simp]
theorem scanCode_nil : scanCode [] = [] := by rw [scanCode]

/-- Any character but the quote and the slash is code. -/
@[simp]
theorem scanCode_code {c : Char} (hquote : c ≠ '\'') (hslash : c ≠ '/') (cs : List Char) :
    scanCode (c :: cs) = .code c :: scanCode cs := by
  rw [scanCode, if_neg hquote, if_neg fun h => hslash h.1]

/-- Two slashes start a remark. -/
@[simp]
theorem scanCode_remark (cs : List Char) :
    scanCode ('/' :: '/' :: cs) = scanCode (behindRemark cs) := by
  have hslash : behindRemark ('/' :: cs) = behindRemark cs := rfl
  rw [scanCode, if_neg (by decide), if_pos ⟨rfl, rfl⟩, hslash]

/-- A stretch of code without quotes and slashes is scanned as it stands. -/
theorem scanCode_append {s : List Char} (hquote : '\'' ∉ s) (hslash : '/' ∉ s) (cs : List Char) :
    scanCode (s ++ cs) = s.map .code ++ scanCode cs := by
  induction s with
  | nil => rfl
  | cons c s ih =>
    obtain ⟨hq, hquotes⟩ := List.ne_and_not_mem_of_not_mem_cons hquote
    obtain ⟨hs, hslashes⟩ := List.ne_and_not_mem_of_not_mem_cons hslash
    rw [List.cons_append, scanCode_code hq.symm hs.symm, ih hquotes hslashes]
    rfl

/-- Code without quotes and slashes is read as it stands. -/
theorem codeOf_plain {s : String} (hquote : '\'' ∉ s.toList) (hslash : '/' ∉ s.toList) :
    codeOf s = plain s := by
  have h := scanCode_append hquote hslash []
  rwa [List.append_nil, scanCode_nil, List.append_nil] at h

/-- A literal that can be read is one piece. -/
theorem scanCode_literal {cs s rest : List Char} (h : readLiteral cs = some (s, rest)) :
    scanCode ('\'' :: cs) = .literal (String.ofList s) :: scanCode rest := by
  rw [scanCode, if_pos rfl]
  split
  · rename_i s' rest' h'
    rw [h] at h'
    cases h'
    rfl
  · rename_i h'
    rw [h] at h'
    cases h'

/-- A literal that cannot be read stops the scan. -/
theorem scanCode_broken {cs : List Char} (h : readLiteral cs = none) :
    scanCode ('\'' :: cs) = [.broken] := by
  rw [scanCode, if_pos rfl]
  split
  · rename_i s' rest' h'
    rw [h] at h'
    cases h'
  · rfl

/-- Without a slash in the code there is no remark. -/
theorem scanCode_eq_scan {cs : List Char} (h : .code '/' ∉ scan cs) : scanCode cs = scan cs := by
  -- both scans take a literal whole, so the induction follows the one without remarks
  fun_induction scan cs with
  | case1 => exact scanCode_nil
  | case2 cs s rest hr ih =>
    rw [scanCode_literal hr, ih fun hm => h (List.mem_cons_of_mem _ hm)]
  | case3 cs hr => exact scanCode_broken hr
  | case4 c cs hc ih =>
    have hslash : c ≠ '/' := by
      rintro rfl
      exact h List.mem_cons_self
    rw [scanCode_code hc hslash, ih fun hm => h (List.mem_cons_of_mem _ hm)]

/-- Is the piece whole, and not a slash, with which a remark could start? -/
def Piece.isTame : Piece → Bool
  | .code c => c ≠ '/'
  | .literal _ => true
  | .broken => false

/-- A line of tame pieces has no remarks. -/
theorem codeOf_eq_pieces {value : String} (h : (pieces value).all Piece.isTame = true) :
    codeOf value = pieces value := by
  refine scanCode_eq_scan fun hm => ?_
  have htame := List.all_eq_true.mp h _ hm
  exact absurd htame (by decide)

@[simp]
theorem tame_plain (s : String) : (plain s).all Piece.isTame = s.toList.all (· ≠ '/') := by
  rw [plain, List.all_map]
  rfl

@[simp]
theorem tame_literal (text : String) : (Piece.literal text).isTame = true := rfl

/-- A name is tame. -/
theorem tame_name {s : String} (hs : IsName s) : s.toList.all (· ≠ '/') = true :=
  List.all_eq_true.mpr fun _ hc => decide_eq_true fun h => hs.not_mem (by decide) (h ▸ hc)

/-- The text of a number is tame. -/
theorem tame_numeric {s : String} (hs : Json.IsNumeric s) : s.toList.all (· ≠ '/') = true :=
  List.all_eq_true.mpr fun _ hc => decide_eq_true fun h => absurd (hs _ (h ▸ hc)) (by decide)

section Calls

variable {receiver : String} (hr : IsName receiver) {method : String}
  (hm : method.toList.all (· ≠ '/') = true) {arguments : List Piece}
  (ha : arguments.all Piece.isTame = true)

include hr hm ha

/-- A call is tame if its arguments are. -/
theorem tame_call : (callPieces receiver method arguments).all Piece.isTame = true := by
  simp only [callPieces, List.all_append, tame_plain, tame_name hr, hm, ha]
  decide

/-- Awaiting a call is tame if its arguments are. -/
theorem tame_await : (awaitPieces receiver method arguments).all Piece.isTame = true := by
  simp only [awaitPieces, List.all_append, tame_plain, tame_call hr hm ha]
  decide

end Calls

/-- Awaiting a call with the page that it opens is tame if the call is. -/
theorem tame_awaited (opens : Bool) {call : List Piece} (hc : call.all Piece.isTame = true) :
    (awaitedPieces opens call).all Piece.isTame = true := by
  unfold awaitedPieces
  split
  · simp only [List.all_append, List.all_cons, tame_plain, tame_literal, hc]
    decide
  · simp only [List.all_append, tame_plain, hc]
    decide

/-- The methods of both libraries are tame. -/
theorem tame_dialect {d : Dialect} (hd : d ∈ [puppeteer, playwright]) :
    d.viewportMethod.toList.all (· ≠ '/') = true ∧ d.selectMethod.toList.all (· ≠ '/') = true := by
  simp only [List.mem_cons, List.not_mem_nil, or_false] at hd
  rcases hd with rfl | rfl <;> decide

/-- The lines that take a picture are tame. -/
theorem tame_screenshot (n : Nat) (e : Event) :
    ∀ ps ∈ screenshotPieces n e, ps.all Piece.isTame = true := by
  have hfile : ∀ rest : String, rest.toList.all (· ≠ '/') = true →
      (plain "\x7b path: " ++ .literal (pictureName n) :: plain rest).all Piece.isTame = true := by
    intro rest hrest
    simp only [List.all_append, List.all_cons, tame_plain, tame_literal, hrest]
    decide
  intro ps hps
  unfold screenshotPieces at hps
  split at hps
  · have hname : IsName ("element" ++ toString n) := isName_numbered (by decide) (by decide) n
    simp only [List.mem_cons, List.not_mem_nil, or_false] at hps
    rcases hps with rfl | rfl
    · simp only [List.all_append, List.all_cons, tame_plain, tame_literal, tame_name hname]
      decide
    · exact tame_await hname (by decide) (hfile _ (by decide))
  · rw [List.mem_singleton.mp hps]
    exact tame_await (receiver_isName e) (by decide) (hfile _ (by decide))

/-- Apart from moves of the pointer, the templates are tame. -/
theorem eventPieces_tame {d : Dialect} (hd : d ∈ [puppeteer, playwright]) (o : Options)
    (p : Progress) {e : Event} (next : Option Event) (hm : e.action ≠ .mouseMove) :
    ∀ ps ∈ eventPieces d o p e next, ps.all Piece.isTame = true := by
  have hr := receiver_isName e
  have hone : ∀ s, [Piece.literal s].all Piece.isTame = true := fun _ => rfl
  have hboth : ∀ s t, (bothPieces s t).all Piece.isTame = true := fun _ _ => rfl
  obtain ⟨hviewport, hselect⟩ := tame_dialect hd
  intro ps hps
  unfold eventPieces at hps
  cases ha : e.action with
  | mouseMove => exact absurd ha hm
  | keydown =>
    rw [ha] at hps
    rw [List.mem_singleton.mp hps]
    exact tame_awaited _ (tame_call hr (by decide) (hone _))
  | hover =>
    rw [ha] at hps
    rw [List.mem_singleton.mp hps]
    exact tame_await hr (by decide) (hone _)
  | click =>
    simp only [ha, List.append_assoc, List.mem_append] at hps
    rcases hps with hps | hps | hps
    · split at hps
      · rw [List.mem_singleton.mp hps]
        exact tame_await hr (by decide) (hone _)
      · exact absurd hps List.not_mem_nil
    · rw [List.mem_singleton.mp hps]
      exact tame_awaited _ (tame_call hr (by decide) (hone _))
    · obtain ⟨-, -, rfl⟩ := List.mem_map.mp hps
      rfl
  | change =>
    rw [ha] at hps
    dsimp only at hps
    split at hps
    · rw [List.mem_singleton.mp hps]
      exact tame_await hr hselect (hboth _ _)
    · exact absurd hps List.not_mem_nil
  | fill =>
    rw [ha] at hps
    rw [List.mem_singleton.mp hps]
    exact tame_await hr (by decide) (hboth _ _)
  | goto =>
    rw [ha] at hps
    obtain ⟨href, -, rfl⟩ := List.mem_map.mp hps
    exact tame_await hr (by decide) (hone _)
  | viewport =>
    rw [ha] at hps
    obtain ⟨⟨width, height⟩, -, rfl⟩ := List.mem_map.mp hps
    refine tame_await hr hviewport ?_
    simp only [List.all_append, tame_plain, tame_numeric (Json.isNumeric_toString _)]
    decide
  | navigation =>
    rw [ha] at hps
    dsimp only at hps
    split at hps
    · rw [List.mem_singleton.mp hps]
      rfl
    · exact absurd hps List.not_mem_nil
  | tabChange =>
    rw [ha] at hps
    obtain ⟨n, -, hps⟩ := List.mem_flatMap.mp hps
    simp only [List.mem_cons, List.not_mem_nil, or_false] at hps
    rcases hps with rfl | rfl
    · simp only [List.all_append, tame_plain, tame_numeric (Json.isNumeric_toString _)]
      decide
    · rfl
  | screenshot =>
    rw [ha] at hps
    exact tame_screenshot _ e ps hps
  | tabCreate | dblClick | select | submit | load | unload | other tag =>
    rw [ha] at hps
    exact absurd hps List.not_mem_nil

/-- The code of a move of the pointer is the move, and what the remark has behind its first line
break. -/
theorem mouseMove_code (e : Event) (x y : Json.Number) (remark : String) :
    codeOf ("await " ++ receiver e ++ ".mouse.move(" ++ x.text ++ ", " ++ y.text
        ++ ", \x7b steps: 100 \x7d) // " ++ remark) =
      movePieces (receiver e) x y ++ plain " " ++ scanCode (behindRemark remark.toList) := by
  have hnumber : ∀ n : Json.Number, '/' ∉ n.text.toList :=
    fun n h => absurd (Json.isNumeric_text n _ h) (by decide)
  have hr : '/' ∉ (receiver e).toList := (receiver_isName e).not_mem (by decide)
  have hspace : behindRemark (' ' :: remark.toList) = behindRemark remark.toList := rfl
  simp [codeOf, movePieces, awaitPieces, callPieces, plain, hspace,
    scanCode_append (receiver_quoteless e) hr, scanCode_append (number_quoteless _) (hnumber _)]

/-- The pieces of the code of the lines of an event, line by line. -/
def eventCode (d : Dialect) (o : Options) (p : Progress) (e : Event) (next : Option Event) :
    List (List Piece) :=
  if e.action = .mouseMove then
    (e.value.bind Payload.point?).toList.map fun (x, y) =>
      movePieces (receiver e) x y ++ plain " " ++ scanCode (behindRemark e.target.toList)
  else eventPieces d o p e next

/-- The code of all events but moves of the pointer is all of their templates. -/
theorem eventCode_eq {d : Dialect} {o : Options} {p : Progress} {e : Event} {next : Option Event}
    (hm : e.action ≠ .mouseMove) : eventCode d o p e next = eventPieces d o p e next := if_neg hm

/-- The code of the lines of an event is read from its templates. -/
theorem blockOf_code {d : Dialect} (hd : d ∈ [puppeteer, playwright]) (o : Options)
    (p : Progress) (e : Event) (next : Option Event) :
    (linesOf (blockOf d o p e next).toList).map (codeOf ·.value) = eventCode d o p e next := by
  unfold eventCode
  split
  · rename_i ha
    rw [blockOf, ha]
    dsimp only
    cases e.value.bind Payload.point? with
    | none => rfl
    | some point => exact congrArg (fun a => [a]) (mouseMove_code e point.1 point.2 e.target)
  · rename_i ha
    rw [← blockOf_pieces hd, piecesOf]
    refine List.map_congr_left fun line hl => codeOf_eq_pieces ?_
    refine eventPieces_tame hd o p next ha _ ?_
    exact blockOf_pieces hd o p e next ▸ List.mem_map_of_mem hl

/-- The code of the lines of an event's block is read from its templates. -/
theorem eventBlock_code {d : Dialect} (hd : d ∈ [puppeteer, playwright]) {o : Options}
    {p : Progress} {e : Event} {next : Option Event} {values : List String}
    (hb : blockOf d o p e next = some (eventBlock e values)) :
    values.map codeOf = eventCode d o p e next := by
  rw [← blockOf_code hd, hb]
  simp [eventBlock]

/-- The remark of an event does not end before its line does: the event has no place to move the
pointer to, or its selector has no line break. -/
def KeepsRemark (e : Event) : Prop :=
  e.action = .mouseMove → (e.value.bind Payload.point?).isSome = true →
    ∀ c ∈ (e.selector.getD "").toList, endsRemark c = false

/-- Nothing stands behind a remark that has no line break. -/
theorem behindRemark_eq_nil {cs : List Char} (h : ∀ c ∈ cs, endsRemark c = false) :
    behindRemark cs = [] :=
  List.dropWhile_eq_nil_iff.mpr fun c hc => by rw [h c hc]; rfl

/-- Where the remark is kept, the code of a move of the pointer is the move alone. -/
theorem eventCode_move {d : Dialect} {o : Options} {p : Progress} {e : Event}
    {next : Option Event} (ha : e.action = .mouseMove) (hk : KeepsRemark e) {ps : List Piece}
    (hps : ps ∈ eventCode d o p e next) :
    ∃ point : Json.Number × Json.Number,
      ps = movePieces (receiver e) point.1 point.2 ++ plain " " := by
  rw [eventCode, if_pos ha] at hps
  obtain ⟨point, hpoint, rfl⟩ := List.mem_map.mp hps
  have hsome : (e.value.bind Payload.point?).isSome = true := by
    rw [Option.mem_toList.mp hpoint]
    rfl
  have hnone : behindRemark e.target.toList = [] := behindRemark_eq_nil (hk ha hsome)
  refine ⟨point, ?_⟩
  dsimp only
  rw [hnone, scanCode_nil, List.append_nil]

/-- A line as far as its template goes: a move of the pointer ends with its remark. -/
def Line.own (line : Line) : Line :=
  if line.kind = some (.action .mouseMove) then
    { line with value := String.ofList (line.value.toList.takeWhile (!endsRemark ·)) }
  else line

/-- Any other line is all its own. -/
theorem own_of_ne {line : Line} (h : line.kind ≠ some (.action .mouseMove)) : line.own = line :=
  if_neg h

/-- Characters of a kind to which no line break belongs end no remark. -/
theorem endsRemark_of_kind {p : Char → Bool}
    (hp : p '\n' = false ∧ p '\r' = false ∧ p '\u2028' = false ∧ p '\u2029' = false)
    {cs : List Char} (hcs : ∀ c ∈ cs, p c = true) : ∀ c ∈ cs, (!endsRemark c) = true := by
  obtain ⟨hfeed, hreturn, hline, hparagraph⟩ := hp
  intro c hc
  have hne : ∀ {c'}, p c' = false → c ≠ c' := by
    rintro c' hc' rfl
    exact Bool.eq_false_iff.mp hc' (hcs c hc)
  simp [endsRemark, hne hfeed, hne hreturn, hne hline, hne hparagraph]

/-- Of its own, a move of the pointer has the move alone, whatever the selector has behind a line
break. -/
theorem own_mouseMove {e : Event} {x y : Json.Number} {line : Line}
    (hl : line ∈ (mouseMoveBlock e x y).lines) :
    codeOf line.own.value = movePieces (receiver e) x y ++ plain " " := by
  have hlead : ∀ c ∈ ("await " ++ receiver e ++ ".mouse.move(" ++ x.text ++ ", " ++ y.text
      ++ ", \x7b steps: 100 \x7d) // ").toList, (!endsRemark c) = true := by
    have hr := endsRemark_of_kind (by decide) (receiver_isName e).chars
    have hnumber := fun n => endsRemark_of_kind (by decide) (Json.isNumeric_text n)
    simp only [String.toList_append, List.forall_mem_append]
    exact ⟨⟨⟨⟨⟨⟨List.all_eq_true.mp rfl, hr⟩, List.all_eq_true.mp rfl⟩, hnumber x⟩,
      List.all_eq_true.mp rfl⟩, hnumber y⟩, List.all_eq_true.mp rfl⟩
  -- the code in front of the remark has no line break, so the cut falls into the selector
  have hcut : line.own.value = "await " ++ receiver e ++ ".mouse.move(" ++ x.text ++ ", "
      ++ y.text ++ ", \x7b steps: 100 \x7d) // "
      ++ String.ofList (e.target.toList.takeWhile (!endsRemark ·)) := by
    rw [mouseMoveBlock, single_lines, List.mem_singleton] at hl
    subst hl
    rw [Line.own, if_pos rfl, String.toList_append, List.takeWhile_append_of_pos hlead,
      String.ofList_append, String.ofList_toList]
  have hnone : behindRemark (e.target.toList.takeWhile (!endsRemark ·)) = [] :=
    behindRemark_eq_nil fun c hc => by simpa using List.mem_takeWhile_imp hc
  rw [hcut, mouseMove_code, String.toList_ofList, hnone, scanCode_nil, List.append_nil]

/-- Finding a frame takes no remark. -/
theorem findFrame_code (id : UInt64) (url : String) :
    codeOf (findFrame id url) = findFramePieces id url := by
  rw [codeOf_eq_pieces, findFrame_pieces]
  rw [findFrame_pieces, findFramePieces]
  simp only [List.all_append, List.all_cons, tame_plain, tame_literal,
    tame_name (frameVariable_isName id)]
  decide

/-- Listing the frames takes no remark. -/
theorem listFrames_code (bound : Bool) : codeOf (listFrames bound) = plain (listFrames bound) := by
  cases bound <;> exact codeOf_plain (by decide) (by decide)

/-- Declaring the promise of a navigation takes no remark. -/
theorem promiseLine_code : codeOf promiseLine.value = plain promiseLine.value :=
  codeOf_plain (by decide) (by decide)

end SessionScript.Script
