import SessionScript.Proofs.Script.Remarks

/-!
# Names in the code of a line

The code of a line is read word by word. Of the words, those that scripts declare for themselves are
kept: the promise of a navigation, the list of frames, the variables of frames and those of pictured
elements. Such a word behind `const` or `let` is declared; any other one is used, unless a point in
front of it makes it a property. Literals and remarks hold no names, but what stands behind the line
break that ends a remark is read on.
-/

namespace SessionScript.Script

/-- A name in the code of a line. -/
inductive Mention where
  /-- The line declares the name. -/
  | declares (name : String)
  /-- The line uses the name. -/
  | uses (name : String)
  deriving DecidableEq

/-- What stands in front of a word. -/
inductive Lead where
  /-- Nothing that matters to the word. -/
  | expression
  /-- A point. -/
  | property
  /-- `const` or `let`. -/
  | binding
  deriving DecidableEq

/-- How far a line has been read. -/
structure Reading where
  /-- What stands in front of the word that is being read. -/
  lead : Lead := .expression
  /-- The word so far. -/
  word : List Char := []
  deriving DecidableEq

/-- Is the word one of the names that scripts declare for themselves? -/
def isOwnName (word : List Char) : Bool :=
  word = "navigationPromise".toList || word = "frames".toList ||
    "frame_".toList.isPrefixOf word || "element".toList.isPrefixOf word

namespace Reading

/-- What the word amounts to when it ends. -/
def finish (r : Reading) : List Mention :=
  if isOwnName r.word then
    match r.lead with
    | .expression => [.uses (String.ofList r.word)]
    | .property => []
    | .binding => [.declares (String.ofList r.word)]
  else []

/-- Read on behind a character that ends the word. -/
def next (r : Reading) (c : Char) : Reading :=
  if c = '.' then ⟨.property, []⟩
  else if c = ' ' && (r.word = "const".toList || r.word = "let".toList) then ⟨.binding, []⟩
  else {}

end Reading

/-- The names in pieces of a line, read on from a reading. -/
def mentionsFrom : Reading → List Piece → List Mention
  | r, [] => r.finish
  | r, .code c :: rest =>
    if isNameChar c then mentionsFrom ⟨r.lead, r.word ++ [c]⟩ rest
    else r.finish ++ mentionsFrom (r.next c) rest
  | r, .literal _ :: rest => r.finish ++ mentionsFrom {} rest
  | r, .broken :: _ => r.finish

/-- The names in the pieces of a line. -/
def mentions (ps : List Piece) : List Mention := mentionsFrom {} ps

example :
    mentions (codeOf "const frame_5 = frames.find('frame_6') // frame_7\nframe_8.click()") =
      [.declares "frame_5", .uses "frames", .uses "frame_8"] := by decide +kernel

/-- Reading pieces gives mentions and leads to a reading, whatever follows them. -/
def Reads (r : Reading) (ps : List Piece) (ms : List Mention) (last : Reading) : Prop :=
  ∀ rest, mentionsFrom r (ps ++ rest) = ms ++ mentionsFrom last rest

/-- Pieces in a row are read in a row. -/
theorem Reads.append {r s t : Reading} {ps qs : List Piece} {ms ns : List Mention}
    (hp : Reads r ps ms s) (hq : Reads s qs ns t) : Reads r (ps ++ qs) (ms ++ ns) t := by
  intro rest
  rw [List.append_assoc, hp, hq, List.append_assoc]

/-- The characters of a name are one word. -/
theorem reads_name {s : List Char} (hs : ∀ c ∈ s, isNameChar c = true) (r : Reading) :
    Reads r (s.map .code) [] ⟨r.lead, r.word ++ s⟩ := by
  intro rest
  induction s generalizing r with
  | nil => rw [List.append_nil]; rfl
  | cons c s ih =>
    have hc := hs c List.mem_cons_self
    have hrest := ih (fun c' hc' => hs c' (List.mem_cons_of_mem c hc')) ⟨r.lead, r.word ++ [c]⟩
    rw [List.map_cons, List.cons_append, mentionsFrom, if_pos hc, hrest, List.append_assoc]
    rfl

/-- A literal ends the word in front of it. -/
theorem reads_literal (r : Reading) (text : String) : Reads r [.literal text] r.finish {} :=
  fun _ => rfl

/-- Pieces that lead back to the start of a reading are read in full. -/
theorem Reads.mentions {ps : List Piece} {ms : List Mention} (h : Reads {} ps ms {}) :
    mentions ps = ms := by
  have hall := h []
  rwa [List.append_nil, show mentionsFrom {} [] = [] from rfl, List.append_nil] at hall

section Numbers

/-- No name that scripts declare looks like a number. -/
theorem isOwnName_of_numeric {word : List Char} (hw : ∀ c ∈ word, Json.isNumberChar c = true) :
    isOwnName word = false := by
  have hnot : ∀ c, Json.isNumberChar c = false → c ∉ word :=
    fun c hc hm => Bool.eq_false_iff.mp hc (hw c hm)
  have hpre : ∀ (p : List Char) c, Json.isNumberChar c = false → c ∈ p →
      p.isPrefixOf word = false := by
    intro p c hc hp
    rw [Bool.eq_false_iff, ne_eq, List.isPrefixOf_iff_prefix]
    exact fun h => hnot c hc (h.subset hp)
  have heq : ∀ (p : List Char) c, Json.isNumberChar c = false → c ∈ p → word ≠ p := by
    rintro p c hc hp rfl
    exact hnot c hc hp
  simp only [isOwnName, Bool.or_eq_false_iff, decide_eq_false_iff_not]
  exact ⟨⟨⟨heq _ 'm' (by decide) (by decide), heq _ 'r' (by decide) (by decide)⟩,
    hpre _ 'r' (by decide) (by decide)⟩, hpre _ 'l' (by decide) (by decide)⟩

/-- A word that looks like a number amounts to nothing. -/
theorem finish_of_numeric {r : Reading} (hr : ∀ c ∈ r.word, Json.isNumberChar c = true) :
    r.finish = [] := by
  rw [Reading.finish, if_neg (Bool.eq_false_iff.mp (isOwnName_of_numeric hr))]

/-- The text of a number holds no names, and leaves a word that looks like a number. -/
theorem reads_numeric {s : List Char} (hs : ∀ c ∈ s, Json.isNumberChar c = true) {r : Reading}
    (hr : ∀ c ∈ r.word, Json.isNumberChar c = true) :
    ∃ last : Reading, (∀ c ∈ last.word, Json.isNumberChar c = true) ∧
      Reads r (s.map .code) [] last := by
  induction s generalizing r with
  | nil => exact ⟨r, hr, fun _ => rfl⟩
  | cons c s ih =>
    have hc := hs c List.mem_cons_self
    have hrest := fun c' hc' => hs c' (List.mem_cons_of_mem c hc')
    by_cases hname : isNameChar c
    · obtain ⟨last, hlast, hreads⟩ := ih hrest (r := ⟨r.lead, r.word ++ [c]⟩) (by
        intro c' hc'
        rcases List.mem_append.mp hc' with hc' | hc'
        · exact hr c' hc'
        · rwa [List.mem_singleton.mp hc'])
      refine ⟨last, hlast, fun rest => ?_⟩
      rw [List.map_cons, List.cons_append, mentionsFrom, if_pos hname]
      exact hreads rest
    · have hnext : (r.next c).word = [] := by
        unfold Reading.next
        split
        · rfl
        · split <;> rfl
      obtain ⟨last, hlast, hreads⟩ := ih hrest (r := r.next c) (by
        rw [hnext]
        exact fun _ h => absurd h List.not_mem_nil)
      refine ⟨last, hlast, fun rest => ?_⟩
      rw [List.map_cons, List.cons_append, mentionsFrom, if_neg hname, finish_of_numeric hr]
      exact hreads rest

/-- The text of a number is over at a character that ends it, and holds no names. -/
theorem reads_number {s : String} (hs : Json.IsNumeric s) {c : Char} {tail : List Piece}
    {ms : List Mention} (hc : isNameChar c = false ∧ c ≠ '.') (ht : Reads {} tail ms {}) :
    Reads {} (plain s ++ .code c :: tail) ms {} := by
  obtain ⟨hname, hpoint⟩ := hc
  obtain ⟨last, hlast, hreads⟩ := reads_numeric hs (r := {}) fun _ h => absurd h List.not_mem_nil
  intro rest
  have hword : ∀ w : List Char, 't' ∈ w → last.word ≠ w := by
    rintro w ht rfl
    exact absurd (hlast 't' ht) (by decide)
  have hnext : last.next c = {} := by
    have hconst := hword "const".toList (by decide)
    have hlet := hword "let".toList (by decide)
    simp only [Reading.next, hpoint, hconst, hlet, decide_false, Bool.or_false, Bool.and_false,
      Bool.false_eq_true, if_false]
  have hall := hreads (.code c :: (tail ++ rest))
  rw [List.append_assoc, List.cons_append]
  refine hall.trans ?_
  rw [mentionsFrom, hname, finish_of_numeric hlast, hnext]
  exact ht rest

end Numbers

/-- The receiver of the statements of an event, as a name that a script declares. -/
def receiverMentions (e : Event) : List Mention :=
  if e.frame = 0 then [] else [.uses (frameVariable e.frame)]

/-- The variables of frames are names that scripts declare. -/
theorem isOwnName_frame (id : UInt64) : isOwnName (frameVariable id).toList = true := by
  have hpre : "frame_".toList.isPrefixOf (frameVariable id).toList = true := by
    rw [List.isPrefixOf_iff_prefix, frameVariable, String.toList_append]
    exact List.prefix_append _ _
  simp only [isOwnName, hpre, Bool.or_true, Bool.true_or]

/-- The variables of pictured elements are names that scripts declare. -/
theorem isOwnName_element (n : Nat) : isOwnName ("element" ++ toString n).toList = true := by
  have hpre : "element".toList.isPrefixOf ("element" ++ toString n).toList = true := by
    rw [List.isPrefixOf_iff_prefix, String.toList_append]
    exact List.prefix_append _ _
  simp only [isOwnName, hpre, Bool.or_true]

/-- A name that scripts declare is used when it ends in an expression. -/
theorem finish_uses {name : String} (hn : isOwnName name.toList = true) :
    Reading.finish ⟨.expression, name.toList⟩ = [.uses name] := by
  rw [Reading.finish, if_pos hn]
  simp only [String.ofList_toList]

/-- A name that scripts declare is declared behind `const`. -/
theorem const_reads {name : String} (hname : IsName name) (hn : isOwnName name.toList = true)
    {tail : List Piece} {ms : List Mention} (ht : Reads {} tail ms {}) :
    Reads {} (plain "const " ++ plain name ++ .code ' ' :: tail) (.declares name :: ms) {} := by
  have hconst : Reads {} (plain "const ") [] ⟨.binding, []⟩ := fun _ => rfl
  have hword : Reads {} (plain "const " ++ plain name) [] ⟨.binding, name.toList⟩ :=
    hconst.append (reads_name hname.chars _)
  have hnext : Reading.next ⟨.binding, name.toList⟩ ' ' = {} := by
    have hne : ∀ w, isOwnName w = false → name.toList ≠ w := by
      rintro w hw rfl
      exact Bool.eq_false_iff.mp hw hn
    have hc := hne "const".toList (by decide)
    have hl := hne "let".toList (by decide)
    simp only [Reading.next, hc, hl, decide_false, Bool.or_false, Bool.and_false,
      Bool.false_eq_true, if_false]
    rfl
  have hfinish : Reading.finish ⟨.binding, name.toList⟩ = [.declares name] := by
    rw [Reading.finish, if_pos hn]
    simp only [String.ofList_toList]
  intro rest
  have hspace : mentionsFrom ⟨.binding, name.toList⟩ (.code ' ' :: (tail ++ rest)) =
      Reading.finish ⟨.binding, name.toList⟩ ++
        mentionsFrom (Reading.next ⟨.binding, name.toList⟩ ' ') (tail ++ rest) := rfl
  rw [List.append_assoc, List.cons_append, hword, hspace, hfinish, hnext, ht]
  rfl

/-- What the receiver of the statements of an event amounts to. -/
theorem finish_receiver (e : Event) :
    Reading.finish ⟨.expression, (receiver e).toList⟩ = receiverMentions e := by
  unfold receiver receiverMentions
  split
  · rfl
  · exact finish_uses (isOwnName_frame e.frame)

section Calls

variable {receiver : String} (method : String) {arguments : List Piece}

/-- A call mentions only its receiver, if its arguments hold no names. -/
theorem call_reads (hr : IsName receiver)
    (hm : Reads ⟨.property, []⟩ (plain method ++ plain "(") [] {}) (ha : Reads {} arguments [] {}) :
    Reads {} (callPieces receiver method arguments)
      (Reading.finish ⟨.expression, receiver.toList⟩) {} := by
  have hpoint : Reads ⟨.expression, receiver.toList⟩ (plain ".")
      (Reading.finish ⟨.expression, receiver.toList⟩) ⟨.property, []⟩ := fun _ => rfl
  have hclose : Reads {} (plain ")") [] {} := fun _ => rfl
  have h := (((reads_name hr.chars {}).append hpoint).append hm).append (ha.append hclose)
  simpa only [callPieces, plain, List.append_assoc, List.append_nil, List.nil_append] using h

/-- Awaiting a call mentions what the call mentions. -/
theorem await_reads (hr : IsName receiver)
    (hm : Reads ⟨.property, []⟩ (plain method ++ plain "(") [] {}) (ha : Reads {} arguments [] {}) :
    Reads {} (awaitPieces receiver method arguments)
      (Reading.finish ⟨.expression, receiver.toList⟩) {} := by
  have hawait : Reads {} (plain "await ") [] {} := fun _ => rfl
  exact hawait.append (call_reads method hr hm ha)

end Calls

set_option maxRecDepth 2000 in
/-- Awaiting a call with the page that it opens mentions what the call mentions. -/
theorem awaited_reads (opens : Bool) {call : List Piece} {ms : List Mention}
    (hc : Reads {} call ms {}) : Reads {} (awaitedPieces opens call) ms {} := by
  unfold awaitedPieces
  split
  · have hlead : Reads {}
        (plain "\x7b\n  const [newPage] = await Promise.all([\n    page.waitForEvent("
          ++ .literal "popup" :: plain "),\n    ") [] {} := fun _ => rfl
    have htail : Reads {} (plain ",\n  ])\n  page = newPage\n\x7d") [] {} := fun _ => rfl
    have h := (hlead.append hc).append htail
    simpa only [List.append_assoc, List.append_nil, List.nil_append] using h
  · have hawait : Reads {} (plain "await ") [] {} := fun _ => rfl
    exact hawait.append hc

/-- The arguments that take a picture hold no names. -/
theorem picture_reads (n : Nat) (rest : String) (hrest : Reads {} (plain rest) [] {}) :
    Reads {} (plain "\x7b path: " ++ .literal (pictureName n) :: plain rest) [] {} := by
  have hpath : Reads {} (plain "\x7b path: ") [] {} := fun _ => rfl
  exact hpath.append ((reads_literal {} (pictureName n)).append hrest)

/-- The size of a viewport as an argument holds no names. -/
theorem size_reads (width height : Nat) :
    Reads {} (plain "\x7b width: " ++ plain (toString width) ++ plain ", height: "
      ++ plain (toString height) ++ plain " \x7d") [] {} := by
  have hlead : Reads {} (plain "\x7b width: ") [] {} := fun _ => rfl
  have hwidth : Reads {} (plain (toString width) ++ plain ", height: ") [] {} :=
    reads_number (Json.isNumeric_toString width) (c := ',') (by decide) fun _ => rfl
  have hheight : Reads {} (plain (toString height) ++ plain " \x7d") [] {} :=
    reads_number (Json.isNumeric_toString height) (c := ' ') (by decide) fun _ => rfl
  have h := (hlead.append hwidth).append hheight
  simpa only [List.append_assoc, List.nil_append] using h

/-- The place to move the pointer to as an argument holds no names. -/
theorem point_reads (x y : Json.Number) :
    Reads {} (plain x.text ++ plain ", " ++ plain y.text ++ plain ", \x7b steps: 100 \x7d") []
      {} := by
  have hx : Reads {} (plain x.text ++ plain ", ") [] {} :=
    reads_number (Json.isNumeric_text x) (c := ',') (by decide) fun _ => rfl
  have hy : Reads {} (plain y.text ++ plain ", \x7b steps: 100 \x7d") [] {} :=
    reads_number (Json.isNumeric_text y) (c := ',') (by decide) fun _ => rfl
  have h := hx.append hy
  simpa only [List.append_assoc, List.nil_append] using h

/-- The methods of both libraries are read as properties. -/
theorem dialect_reads {d : Dialect} (hd : d ∈ [puppeteer, playwright]) :
    Reads ⟨.property, []⟩ (plain d.viewportMethod ++ plain "(") [] {} ∧
      Reads ⟨.property, []⟩ (plain d.selectMethod ++ plain "(") [] {} := by
  simp only [List.mem_cons, List.not_mem_nil, or_false] at hd
  rcases hd with rfl | rfl <;> exact ⟨fun _ => rfl, fun _ => rfl⟩

/-- Moving the pointer mentions the receiver, as long as nothing stands behind the remark. -/
theorem move_mentions (e : Event) (x y : Json.Number) :
    mentions (movePieces (receiver e) x y ++ plain " ") = receiverMentions e := by
  have hmove := await_reads "mouse.move" (receiver_isName e) (fun _ => rfl) (point_reads x y)
  have hspace : Reads {} (plain " ") [] {} := fun _ => rfl
  rw [movePieces, (hmove.append hspace).mentions, List.append_nil, finish_receiver]

/-- Apart from awaiting a navigation and taking pictures, a statement mentions no more than its
receiver. -/
theorem eventCode_mentions {d : Dialect} (hd : d ∈ [puppeteer, playwright]) (o : Options)
    (p : Progress) {e : Event} (next : Option Event) (hk : KeepsRemark e)
    (hn : e.action ≠ .navigation) (hs : e.action ≠ .screenshot) :
    ∀ ps ∈ eventCode d o p e next, mentions ps ⊆ receiverMentions e := by
  have hr := receiver_isName e
  obtain ⟨hviewport, hselect⟩ := dialect_reads hd
  have hliteral : ∀ s, Reads {} [.literal s] [] {} := fun s _ => rfl
  have hboth : ∀ s t, Reads {} (bothPieces s t) [] {} := fun s t _ => rfl
  have hcall : ∀ {ps}, Reads {} ps (Reading.finish ⟨.expression, (receiver e).toList⟩) {} →
      mentions ps ⊆ receiverMentions e := by
    intro ps h
    rw [h.mentions, finish_receiver]
    exact List.Subset.refl _
  have hnone : ∀ {ps}, Reads {} ps [] {} → mentions ps ⊆ receiverMentions e := by
    intro ps h
    rw [h.mentions]
    exact List.nil_subset _
  intro ps hps
  by_cases hm : e.action = .mouseMove
  · obtain ⟨⟨x, y⟩, rfl⟩ := eventCode_move hm hk hps
    rw [move_mentions]
    exact List.Subset.refl _
  rw [eventCode, if_neg hm] at hps
  unfold eventPieces at hps
  cases ha : e.action with
  | mouseMove => exact absurd ha hm
  | keydown =>
    rw [ha] at hps
    rw [List.mem_singleton.mp hps]
    exact hcall (awaited_reads _ (call_reads _ hr (fun _ => rfl) (hliteral _)))
  | hover =>
    rw [ha] at hps
    rw [List.mem_singleton.mp hps]
    exact hcall (await_reads _ hr (fun _ => rfl) (hliteral _))
  | click =>
    simp only [ha, List.append_assoc, List.mem_append] at hps
    rcases hps with hps | hps | hps
    · split at hps
      · rw [List.mem_singleton.mp hps]
        exact hcall (await_reads _ hr (fun _ => rfl) (hliteral _))
      · exact absurd hps List.not_mem_nil
    · rw [List.mem_singleton.mp hps]
      exact hcall (awaited_reads _ (call_reads _ hr (fun _ => rfl) (hliteral _)))
    · obtain ⟨-, -, rfl⟩ := List.mem_map.mp hps
      exact hnone fun _ => rfl
  | change =>
    rw [ha] at hps
    dsimp only at hps
    split at hps
    · rw [List.mem_singleton.mp hps]
      exact hcall (await_reads _ hr hselect (hboth _ _))
    · exact absurd hps List.not_mem_nil
  | fill =>
    rw [ha] at hps
    rw [List.mem_singleton.mp hps]
    exact hcall (await_reads _ hr (fun _ => rfl) (hboth _ _))
  | goto =>
    rw [ha] at hps
    obtain ⟨href, -, rfl⟩ := List.mem_map.mp hps
    exact hcall (await_reads _ hr (fun _ => rfl) (hliteral _))
  | viewport =>
    rw [ha] at hps
    obtain ⟨⟨width, height⟩, -, rfl⟩ := List.mem_map.mp hps
    exact hcall (await_reads _ hr hviewport (size_reads _ _))
  | navigation => exact absurd ha hn
  | tabChange =>
    rw [ha] at hps
    obtain ⟨n, -, hps⟩ := List.mem_flatMap.mp hps
    simp only [List.mem_cons, List.not_mem_nil, or_false] at hps
    rcases hps with rfl | rfl
    · have hposition : Reads {} (plain (toString n) ++ plain "]") [] {} :=
        reads_number (Json.isNumeric_toString n) (c := ']') (by decide) fun _ => rfl
      have hpages : Reads {} (plain "page = context.pages()[") [] {} := fun _ => rfl
      rw [List.append_assoc]
      exact hnone (hpages.append hposition)
    · exact hnone fun _ => rfl
  | screenshot => exact absurd ha hs
  | tabCreate | dblClick | select | submit | load | unload | other tag =>
    rw [ha] at hps
    exact absurd hps List.not_mem_nil

/-- Taking a picture mentions the receiver, or declares the variable of the pictured element and
uses it in the line behind. -/
theorem screenshotPieces_mentions (n : Nat) (e : Event) :
    (screenshotPieces n e).map mentions = [receiverMentions e] ∨
      (screenshotPieces n e).map mentions =
        [[.declares ("element" ++ toString n)], [.uses ("element" ++ toString n)]] := by
  unfold screenshotPieces
  cases (e.value.bind Payload.text?).filter (!·.isEmpty) with
  | none =>
    have hpicture := await_reads "screenshot" (receiver_isName e) (fun _ => rfl)
      (picture_reads n ", fullPage: true \x7d" fun _ => rfl)
    rw [finish_receiver] at hpicture
    exact Or.inl (congrArg (fun ms => [ms]) hpicture.mentions)
  | some target =>
    have hname : IsName ("element" ++ toString n) := isName_numbered (by decide) (by decide) n
    have hlookup : Reads {} (plain "const " ++ plain ("element" ++ toString n)
        ++ plain " = await page.$(" ++ .literal target :: plain ")")
        [.declares ("element" ++ toString n)] {} := by
      have hrest : Reads {} (plain "= await page.$(" ++ .literal target :: plain ")") [] {} :=
        fun _ => rfl
      rw [List.append_assoc]
      exact const_reads hname (isOwnName_element n) hrest
    have hpicture := await_reads "screenshot" hname (fun _ => rfl)
      (picture_reads n " \x7d" fun _ => rfl)
    rw [finish_uses (isOwnName_element n)] at hpicture
    exact Or.inr (congr (congrArg (fun ms ns => [ms, ns]) hlookup.mentions) hpicture.mentions)

/-- Finding a frame declares its variable, from the list of frames. -/
theorem findFrame_mentions (id : UInt64) (url : String) :
    mentions (codeOf (findFrame id url)) = [.declares (frameVariable id), .uses "frames"] := by
  have hrest : Reads {} (plain "= frames.find(f => f.url() === " ++ .literal url :: plain ")")
      [.uses "frames"] {} := fun _ => rfl
  have h := (const_reads (frameVariable_isName id) (isOwnName_frame id) hrest).mentions
  rw [findFrame_code, findFramePieces, List.append_assoc]
  exact h

/-- Listing the frames declares the list, or uses it when it is bound. -/
theorem listFrames_mentions (bound : Bool) :
    mentions (codeOf (listFrames bound)) =
      [if bound then .uses "frames" else .declares "frames"] := by
  rw [listFrames_code]
  cases bound <;> rfl

end SessionScript.Script
