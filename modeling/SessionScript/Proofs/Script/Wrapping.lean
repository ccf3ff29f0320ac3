import Mathlib.Data.List.Infix
import SessionScript.Proofs.Script.PhysicalLines

/-!
# The frame around a script

Wrapping a script into an asynchronous function and showing the browser's window change the frame
around the code, whatever was recorded. The wrapped script is the plain one between two more lines,
with every physical line behind the first moved in by two spaces unless it is empty. The window is a
matter of the arguments of a single call in the head, and no other call in the script is touched. So
the frame comes to the same when it is made from the text of the plain one, by replacing that call
wherever it stands and by indenting the lines of the text.
-/

namespace SessionScript.Script

/-- A text with two spaces in front of each physical line that is not empty; `fresh` tells whether
the text starts a line. -/
def movedIn (fresh : Bool) : List Char → List Char
  | [] => []
  | c :: cs =>
    if c = '\n' then c :: movedIn true cs
    else if fresh then ' ' :: ' ' :: c :: movedIn false cs
    else c :: movedIn false cs

/-- Code with two spaces in front of each physical line that is not empty. -/
def moveIn (s : String) : String := String.ofList (movedIn true s.toList)

example : moveIn "\x7b\n\n  a\n\x7d" = "  \x7b\n\n    a\n  \x7d" := by decide

/-- The part of a script that starts the browser, behind the line that loads the library. -/
def headText (d : Dialect) (o : Options) : String := "\n".intercalate (headLines d o).tail

/-- A physical line at its indentation, by its characters. -/
def indentedChars (line : List Char) : List Char := if line = [] then [] else ' ' :: ' ' :: line

/-- Spaces are put in front of each physical line, but for the first one when it has been begun. -/
theorem movedIn_splitLines {cs line : List Char} {rest : List (List Char)}
    (h : splitLines cs = line :: rest) :
    movedIn false cs = ['\n'].intercalate (line :: rest.map indentedChars) ∧
      movedIn true cs = ['\n'].intercalate (indentedChars line :: rest.map indentedChars) := by
  induction cs generalizing line rest with
  | nil =>
    cases h
    exact ⟨rfl, rfl⟩
  | cons c cs ih =>
    obtain ⟨first, more, hsplit, hcons⟩ := splitLines_cons c cs
    obtain ⟨hbegun, hfresh⟩ := ih hsplit
    rw [hcons] at h
    rw [movedIn, movedIn]
    by_cases hc : c = '\n'
    · rw [if_pos hc] at h
      cases h
      rw [if_pos hc, if_pos hc, hfresh, hc]
      exact ⟨rfl, rfl⟩
    · rw [if_neg hc] at h
      cases h
      rw [if_neg hc, if_neg hc, if_neg Bool.false_ne_true, if_pos rfl, hbegun,
        indentedChars, if_neg (List.cons_ne_nil c first)]
      simp only [List.intercalate_cons_cons_left, and_self]

/-- Moving a text in indents its physical lines. -/
theorem moveIn_eq (s : String) :
    moveIn s = "\n".intercalate ((physicalLines s).map (indented true)) := by
  have hline : ∀ line : List Char,
      (indented true (String.ofList line)).toList = indentedChars line := by
    intro line
    unfold indented indentedChars
    cases line <;> simp
  obtain ⟨line, rest, hsplit⟩ := List.exists_cons_of_ne_nil (splitLines_ne_nil s.toList)
  have hlines : ((physicalLines s).map (indented true)).map String.toList =
      (splitLines s.toList).map indentedChars := by
    rw [physicalLines, List.map_map, List.map_map]
    exact List.map_congr_left fun line _ => hline line
  rw [moveIn, (movedIn_splitLines hsplit).2, ← String.toList_inj, String.toList_ofList,
    String.toList_intercalate, hlines, hsplit, List.map_cons]
  rfl

/-- The script is its lines, joined by line feeds and ended by one. -/
theorem script_eq (d : Dialect) (o : Options) (events : List Event) :
    script d o events = "\n".intercalate (scriptLines d o events ++ [""]) := join_lines _

/-- Lines that are joined by line feeds and ended by one. -/
theorem intercalate_concat {lines : List String} (hne : lines ≠ []) (last : String) :
    "\n".intercalate (lines ++ [last]) = "\n".intercalate lines ++ "\n" ++ last := by
  rw [String.intercalate_append_of_ne_nil hne (List.cons_ne_nil last []),
    String.intercalate_singleton]

/-- The lines of a script behind the one that loads the library, as they are without wrapping. -/
def innerLines (d : Dialect) (o : Options) (events : List Event) : List String :=
  d.opening o.headless ++ spacedLines o.blankLinesBetweenBlocks (unspaced d o events) ++ d.closing

/-- The lines of a script that is not wrapped. -/
theorem scriptLines_plain {d : Dialect} (hd : d ∈ [puppeteer, playwright]) (o : Options)
    (events : List Event) :
    scriptLines d { o with wrapAsync := false } events = d.load :: innerLines d o events := by
  have hblocks : unspaced d { o with wrapAsync := false } events = unspaced d o events :=
    unspaced_laidOut hd o false o.headless o.blankLinesBetweenBlocks events
  simp only [scriptLines_eq, hblocks, headLines, footLines, map_indented_false, innerLines,
    Bool.false_eq_true, if_false, List.cons_append]

/-- The lines of a script that is wrapped. -/
theorem scriptLines_wrapped {d : Dialect} (hd : d ∈ [puppeteer, playwright]) (o : Options)
    (events : List Event) :
    scriptLines d { o with wrapAsync := true } events =
      d.load :: "(async () => \x7b" ::
        ((innerLines d o events).map (indented true) ++ ["\x7d)()"]) := by
  have hblocks : unspaced d { o with wrapAsync := true } events = unspaced d o events :=
    unspaced_laidOut hd o true o.headless o.blankLinesBetweenBlocks events
  simp only [scriptLines_eq, hblocks, headLines, footLines, innerLines, if_true, List.cons_append,
    List.map_append, List.append_assoc]

/-- The wrapped script is the plain script between the lines of the function, moved in. -/
theorem script_wrapped {d : Dialect} (hd : d ∈ [puppeteer, playwright]) (o : Options)
    (events : List Event) :
    ∃ text, script d { o with wrapAsync := false } events = d.load ++ "\n" ++ text ++ "\n" ∧
      script d { o with wrapAsync := true } events =
        d.load ++ "\n" ++ "(async () => \x7b" ++ "\n" ++ moveIn text ++ "\n" ++ "\x7d)()" ++
          "\n" := by
  have hne : innerLines d o events ≠ [] := by simp [innerLines, Dialect.opening]
  have hfeed : ∀ line ∈ innerLines d o events, '\n' ∉ line.toList := by
    intro line hline
    refine feed_not_mem_scriptLines hd { o with wrapAsync := false } events line ?_
    rw [scriptLines_plain hd]
    exact List.mem_cons_of_mem _ hline
  refine ⟨"\n".intercalate (innerLines d o events), ?_, ?_⟩
  · rw [script_eq, scriptLines_plain hd, List.cons_append,
      String.intercalate_cons_of_ne_nil (by simp), intercalate_concat hne]
    simp only [String.append_empty, String.append_assoc]
  · rw [script_eq, scriptLines_wrapped hd, moveIn_eq, physicalLines_intercalate hfeed hne,
      List.cons_append, List.cons_append, String.intercalate_cons_cons,
      String.intercalate_cons_of_ne_nil (by simp), intercalate_concat (by simp),
      intercalate_concat (by simpa using hne)]
    simp only [String.append_empty, String.append_assoc]

/-- The head of a script up to the call that starts the browser. -/
def launchLead (d : Dialect) (wrap : Bool) : String :=
  (if wrap then "(async () => \x7b\n  " else "") ++ "const browser = await " ++ d.launcher ++ "."

/-- The head of a script behind the call that starts the browser. -/
def launchTrail (d : Dialect) (wrap : Bool) : String :=
  let space := if wrap then "\n  " else "\n"
  space ++ "const context = " ++ d.context ++ space ++ "let page = await context.newPage()"

/-- The window is a matter of the arguments of one call in the head. -/
theorem headText_eq (d : Dialect) (o : Options) :
    headText d o =
      launchLead d o.wrapAsync ++ ("launch(" ++ Dialect.launchArguments o.headless ++ ")") ++
        launchTrail d o.wrapAsync := by
  rw [← String.toList_inj]
  unfold headText headLines Dialect.opening launchLead launchTrail
  cases o.wrapAsync <;> simp [indented]

/-- The head without the window and with it. -/
theorem headText_window (d : Dialect) (o : Options) :
    headText d { o with headless := true } =
        launchLead d o.wrapAsync ++ "launch()" ++ launchTrail d o.wrapAsync ∧
      headText d { o with headless := false } =
        launchLead d o.wrapAsync ++ "launch(\x7b headless: false \x7d)" ++
          launchTrail d o.wrapAsync :=
  ⟨headText_eq d _, headText_eq d _⟩

/-- A part that a single one of the ends of a text starts with divides the text in one way. -/
theorem eq_of_single_place {text part front back front' back' : List Char}
    (hsingle : text.tails.filter (part <+: ·) = [part ++ back]) (h : text = front ++ part ++ back)
    (h' : text = front' ++ part ++ back') : front' = front ∧ back' = back := by
  have hend : part ++ back' ∈ text.tails.filter (part <+: ·) := by
    rw [List.mem_filter, List.mem_tails, h', List.append_assoc]
    exact ⟨List.suffix_append front' _, decide_eq_true (List.prefix_append part back')⟩
  rw [hsingle, List.mem_singleton, List.append_cancel_left_eq] at hend
  subst hend
  rw [h, List.append_cancel_right_eq, List.append_cancel_right_eq] at h'
  exact ⟨h'.symm, rfl⟩

/-- The head calls the browser's start at one place only. -/
theorem single_launch {d : Dialect} (hd : d ∈ [puppeteer, playwright]) (wrap : Bool) :
    ((launchLead d wrap ++ "launch()" ++ launchTrail d wrap).toList.tails.filter
      ("launch()".toList <+: ·)) = ["launch()".toList ++ (launchTrail d wrap).toList] := by
  simp only [List.mem_cons, List.not_mem_nil, or_false] at hd
  rcases hd with rfl | rfl <;> cases wrap <;>
    simp only [launchLead, launchTrail, puppeteer, playwright, String.toList_append,
      String.reduceToList, if_true, Bool.false_eq_true, if_false] <;> decide

/-- A text with a part replaced wherever it stands, from left to right. The first `left` characters
belong to a part that has been replaced already. -/
def replaceFrom (part new : List Char) : Nat → List Char → List Char
  | _, [] => []
  | left + 1, _ :: cs => replaceFrom part new left cs
  | 0, c :: cs =>
    if part <+: c :: cs then new ++ replaceFrom part new (part.length - 1) cs
    else c :: replaceFrom part new 0 cs

/-- A text with a part replaced wherever it stands. -/
def replaceAll (part new s : String) : String :=
  String.ofList (replaceFrom part.toList new.toList 0 s.toList)

example : replaceAll "()" "(a)" "f()()(" = "f(a)(a)(" := by decide

section Replace

variable {part : List Char} (new : List Char)

/-- Characters that have been replaced already are dropped. -/
theorem replaceFrom_drop (left : Nat) (cs : List Char) :
    replaceFrom part new left cs = replaceFrom part new 0 (cs.drop left) := by
  induction cs generalizing left with
  | nil => simp [replaceFrom]
  | cons c cs ih =>
    cases left with
    | zero => rfl
    | succ left => rw [replaceFrom, ih, List.drop_succ_cons]

/-- A text without the part stays as it is. -/
theorem replaceFrom_absent {cs : List Char} (h : ∀ t ∈ cs.tails, ¬part <+: t) :
    replaceFrom part new 0 cs = cs := by
  induction cs with
  | nil => rfl
  | cons c cs ih =>
    obtain ⟨hhere, hrest⟩ := List.forall_mem_cons.mp (List.tails_cons c cs ▸ h)
    rw [replaceFrom, if_neg hhere, ih hrest]

/-- A part that a single one of the ends of a text starts with is replaced there, and nowhere
else. -/
theorem replaceFrom_single {text front back : List Char} (hne : part ≠ [])
    (hsingle : text.tails.filter (part <+: ·) = [part ++ back]) (h : text = front ++ part ++ back) :
    replaceFrom part new 0 text = front ++ new ++ back := by
  have hpart := List.length_pos_iff.mpr hne
  induction front generalizing text with
  | nil =>
    have habsent : ∀ t ∈ back.tails, ¬part <+: t := by
      intro t ht hprefix
      have hsuffix := (List.mem_tails _ _).mp ht
      have htext : t ∈ text.tails.filter (part <+: ·) := by
        rw [List.mem_filter, List.mem_tails, h]
        exact ⟨hsuffix.trans (List.suffix_append part back), decide_eq_true hprefix⟩
      rw [hsingle, List.mem_singleton] at htext
      have hlength := hsuffix.length_le
      rw [htext, List.length_append] at hlength
      omega
    obtain ⟨c, cs, rfl⟩ := List.exists_cons_of_ne_nil hne
    have hprefix : c :: cs <+: c :: (cs ++ back) := List.prefix_append (c :: cs) back
    rw [h, List.nil_append, List.nil_append, List.cons_append, replaceFrom, if_pos hprefix,
      replaceFrom_drop, List.length_cons, Nat.add_sub_cancel, List.drop_left,
      replaceFrom_absent new habsent]
  | cons c front ih =>
    subst h
    rw [List.cons_append, List.cons_append, List.tails_cons] at hsingle
    have hhere : ¬part <+: c :: (front ++ part ++ back) := by
      intro hprefix
      rw [List.filter_cons, if_pos (decide_eq_true hprefix)] at hsingle
      have hlength := congrArg List.length (List.cons.inj hsingle).1
      simp only [List.length_cons, List.length_append] at hlength
      omega
    rw [List.filter_cons, if_neg (by simpa using hhere)] at hsingle
    rw [List.cons_append, List.cons_append, replaceFrom, if_neg hhere, ih hsingle rfl]
    rfl

end Replace

/-- Showing the window replaces the call that starts the browser in the head. -/
theorem headText_shown {d : Dialect} (hd : d ∈ [puppeteer, playwright]) (o : Options) :
    headText d { o with headless := false } =
      replaceAll "launch()" "launch(\x7b headless: false \x7d)"
        (headText d { o with headless := true }) := by
  obtain ⟨hhidden, hshown⟩ := headText_window d o
  have hreplaced := replaceFrom_single "launch(\x7b headless: false \x7d)".toList (by decide)
    (single_launch hd o.wrapAsync) (by rw [String.toList_append, String.toList_append])
  rw [hshown, hhidden, replaceAll, hreplaced, String.ofList_append, String.ofList_append,
    String.ofList_toList, String.ofList_toList, String.ofList_toList]

/-- A line without the carriage return that may end it. -/
def withoutReturn (line : String) : String :=
  if line.toList.getLast? = some '\r' then String.ofList line.toList.dropLast else line

/-- The lines of a text, each ended by a line feed or by a carriage return and a line feed. What
stands behind the last line feed is a line too, unless it is empty. -/
def readLines (s : String) : List String :=
  (physicalLines s).dropLast.map withoutReturn
    ++ ((physicalLines s).getLast?.filter (· ≠ "")).toList

/-- A text with its lines read, indented and joined again. -/
def indentLines (s : String) : String := "\n".intercalate ((readLines s).map (indented true))

/-- Solid lines without carriage returns are read back from the text that joins them. -/
theorem readLines_intercalate {lines : List String} (hne : lines ≠ [])
    (hsolid : ∀ line ∈ lines, IsSolid line) (hreturn : ∀ line ∈ lines, '\r' ∉ line.toList) :
    readLines ("\n".intercalate lines) = lines := by
  have hfront : ∀ line ∈ lines.dropLast, withoutReturn line = line := by
    intro line hline
    exact if_neg fun h => hreturn line (List.mem_of_mem_dropLast hline) (List.mem_of_getLast? h)
  have hlast : lines.getLast? = some (lines.getLast hne) := List.getLast?_eq_some_getLast hne
  have hsome : lines.getLast hne ≠ "" := (hsolid _ (List.getLast_mem hne)).2
  rw [readLines, physicalLines_intercalate (fun line hline => (hsolid line hline).1) hne,
    List.map_congr_left hfront, List.map_id', hlast, Option.filter_some_pos (by simpa using hsome),
    Option.toList_some, List.dropLast_concat_getLast]

/-- The part of a script behind its blocks. -/
def footText (d : Dialect) (o : Options) : String := "\n".intercalate (footLines d o)

/-- The lines that start the browser and those that end the session are read back from their
texts. -/
theorem readLines_frame {d : Dialect} (hd : d ∈ [puppeteer, playwright]) (headless : Bool) :
    readLines ("\n".intercalate (d.opening headless)) = d.opening headless ∧
      readLines ("\n".intercalate d.closing) = d.closing := by
  have hsolid : ∀ line ∈ d.opening headless ++ d.closing, IsSolid line := by
    intro line hline
    refine isSolid_frame hd { headless := headless } line ?_
    simp only [headLines, footLines, map_indented_false, Bool.false_eq_true, if_false]
    exact List.mem_cons_of_mem _ hline
  have hreturn : ∀ line ∈ d.opening headless ++ d.closing, '\r' ∉ line.toList := by
    simp only [List.mem_cons, List.not_mem_nil, or_false] at hd
    rcases hd with rfl | rfl <;> cases headless <;> decide
  rw [List.forall_mem_append] at hsolid hreturn
  exact ⟨readLines_intercalate (List.cons_ne_nil _ _) hsolid.1 hreturn.1,
    readLines_intercalate (List.cons_ne_nil _ _) hsolid.2 hreturn.2⟩

/-- Wrapping indents the lines that start the browser behind the line that opens the function, and
those that end the session in front of the line that closes it. -/
theorem frame_wrapped {d : Dialect} (hd : d ∈ [puppeteer, playwright]) (o : Options) :
    headText d { o with wrapAsync := true } =
        "(async () => \x7b\n" ++ indentLines (headText d { o with wrapAsync := false }) ∧
      footText d { o with wrapAsync := true } =
        indentLines (footText d { o with wrapAsync := false }) ++ "\n\x7d)()" := by
  obtain ⟨hopening, hclosing⟩ := readLines_frame hd o.headless
  have hhead : headText d { o with wrapAsync := false } =
      "\n".intercalate (d.opening o.headless) :=
    congrArg _ (map_indented_false _)
  have hfoot : footText d { o with wrapAsync := false } = "\n".intercalate d.closing :=
    congrArg _ (map_indented_false _)
  rw [hhead, hfoot, indentLines, indentLines, hopening, hclosing]
  constructor
  · exact String.intercalate_cons_of_ne_nil (List.cons_ne_nil _ _)
  · exact intercalate_concat (List.cons_ne_nil _ _) "\x7d)()"

/-- The head is divided in one way by the call that starts the browser. -/
theorem eq_of_launch {d : Dialect} (hd : d ∈ [puppeteer, playwright]) {wrap : Bool}
    {front back : String}
    (h : launchLead d wrap ++ "launch()" ++ launchTrail d wrap = front ++ "launch()" ++ back) :
    front = launchLead d wrap ∧ back = launchTrail d wrap := by
  have hchars : ∀ front back : String, (front ++ "launch()" ++ back).toList =
      front.toList ++ "launch()".toList ++ back.toList := by
    intro front back
    rw [String.toList_append, String.toList_append]
  obtain ⟨hfront, hback⟩ := eq_of_single_place (single_launch hd wrap) (hchars _ _)
    ((congrArg String.toList h).trans (hchars front back))
  exact ⟨String.toList_inj.mp hfront, String.toList_inj.mp hback⟩

/-- What follows the head of a script does not depend on the window. -/
theorem script_headed {d : Dialect} (hd : d ∈ [puppeteer, playwright]) (o : Options)
    (events : List Event) :
    ∃ rest, ∀ headless, script d { o with headless := headless } events =
      d.load ++ "\n" ++ headText d { o with headless := headless } ++ rest := by
  refine ⟨"\n" ++ "\n".intercalate
    ((spacedLines o.blankLinesBetweenBlocks (unspaced d o events)).map (indented o.wrapAsync) ++
      footLines d o ++ [""]), fun headless => ?_⟩
  have hblocks : unspaced d { o with headless := headless } events = unspaced d o events :=
    unspaced_laidOut hd o o.wrapAsync headless o.blankLinesBetweenBlocks events
  have hfoot : footLines d { o with headless := headless } = footLines d o := rfl
  have hhead : headLines d { o with headless := headless } =
      d.load :: (headLines d { o with headless := headless }).tail := rfl
  have hstart : (headLines d { o with headless := headless }).tail ≠ [] := by
    unfold headLines
    cases o.wrapAsync <;> simp [Dialect.opening]
  rw [script_eq, scriptLines_eq, hblocks, hfoot, hhead, List.append_assoc, List.append_assoc,
    List.cons_append, String.intercalate_cons_of_ne_nil (by simp),
    String.intercalate_append_of_ne_nil hstart (by simp), headText]
  simp only [String.append_assoc, List.append_assoc]

/-- Wrapping and the window change only the frame around a script, in every session, in both
libraries and under all other options. The wrapped script is the plain one with everything behind
its first line moved in, between the lines of the function. The script that shows the window is the
one that does not, up to the arguments of the call that starts the browser; there is one such call
in the head, and what was recorded may well contain others. -/
theorem wrapping_and_window_change_only_the_frame {d : Dialect} (hd : d ∈ [puppeteer, playwright])
    (o : Options) (events : List Event) :
    ((∃ text, script d { o with wrapAsync := false } events = d.load ++ "\n" ++ text ++ "\n") ∧
      ∀ text, script d { o with wrapAsync := false } events = d.load ++ "\n" ++ text ++ "\n" →
        script d { o with wrapAsync := true } events =
          d.load ++ "\n" ++ "(async () => \x7b" ++ "\n" ++ moveIn text ++ "\n" ++ "\x7d)()" ++
            "\n") ∧
      ∃ front back rest,
        headText d { o with headless := true } = front ++ "launch()" ++ back ∧
        (∀ front' back', headText d { o with headless := true } = front' ++ "launch()" ++ back' →
          front' = front ∧ back' = back) ∧
        script d { o with headless := true } events =
          d.load ++ "\n" ++ (front ++ "launch()" ++ back) ++ rest ∧
        script d { o with headless := false } events =
          d.load ++ "\n" ++ (front ++ "launch(\x7b headless: false \x7d)" ++ back) ++ rest := by
  constructor
  · obtain ⟨text, hplain, hwrapped⟩ := script_wrapped hd o events
    refine ⟨⟨text, hplain⟩, fun text' hplain' => ?_⟩
    have htext : text' = text := by
      rw [hplain', String.append_left_inj, String.append_right_inj] at hplain
      exact hplain
    rw [htext, hwrapped]
  · obtain ⟨rest, hscript⟩ := script_headed hd o events
    obtain ⟨hhidden, hshown⟩ := headText_window d o
    refine ⟨launchLead d o.wrapAsync, launchTrail d o.wrapAsync, rest, hhidden, ?_, ?_, ?_⟩
    · intro front' back' hsplit
      exact eq_of_launch hd (hhidden.symm.trans hsplit)
    · rw [hscript, hhidden]
    · rw [hscript, hshown]

/-- The pointer rests on an element whose selector spells the call that starts the browser. -/
def hoverLaunch : Event := { action := .hover, selector := some "launch()" }

/-- The plain script of the session behind its first line. -/
def hoverLaunchText : String :=
  "\n".intercalate
    [ "const browser = await puppeteer.launch()",
      "const context = browser.defaultBrowserContext()",
      "let page = await context.newPage()",
      "await page.hover('launch()')",
      "",
      "await browser.close()" ]

/-- The recorded text is moved in with the rest of the script, and does not get the arguments of the
call. -/
theorem hoverLaunch_in_frame :
    puppeteer ∈ [puppeteer, playwright] ∧
      script puppeteer { wrapAsync := true } [hoverLaunch] =
        puppeteer.load ++ "\n" ++ "(async () => \x7b" ++ "\n" ++ moveIn hoverLaunchText ++ "\n" ++
          "\x7d)()" ++ "\n" ∧
      ∃ front back rest,
        script puppeteer { headless := true } [hoverLaunch] =
          puppeteer.load ++ "\n" ++ (front ++ "launch()" ++ back) ++ rest ∧
        script puppeteer { headless := false } [hoverLaunch] =
          puppeteer.load ++ "\n" ++ (front ++ "launch(\x7b headless: false \x7d)" ++ back) ++
            rest := by
  have hd : puppeteer ∈ [puppeteer, playwright] := List.mem_cons_self
  have hplain : script puppeteer { wrapAsync := false } [hoverLaunch] =
      puppeteer.load ++ "\n" ++ hoverLaunchText ++ "\n" := by
    decide +kernel
  obtain ⟨⟨-, hwrapped⟩, front, back, rest, -, -, hhidden, hshown⟩ :=
    wrapping_and_window_change_only_the_frame hd {} [hoverLaunch]
  exact ⟨hd, hwrapped _ hplain, front, back, rest, hhidden, hshown⟩

end SessionScript.Script
