import SessionScript.Proofs.Script.Layout

/-!
# The physical lines of a script

Code is divided into physical lines at its line feeds, and joining the lines by line feeds gives the
code back. A script has the physical lines that it was put together from: those of its head, those
of its blocks, with an empty line behind each block if the options ask for spacers, and those of its
foot. Wrapping, the window and the spacers are a matter of these lines only, for the blocks before
spacers are put between them do not depend on such options.
-/

namespace SessionScript.Script

/-- Physical lines are the parts between line feeds. -/
theorem splitLines_eq_splitOn (cs : List Char) : splitLines cs = cs.splitOn '\n' := by
  induction cs with
  | nil => rfl
  | cons c cs ih =>
    obtain ⟨line, rest, hsplit, hcons⟩ := splitLines_cons c cs
    rw [hcons, List.splitOn_cons_eq_if_modifyHead, ← ih, hsplit]
    by_cases hc : c = '\n' <;> simp [hc]

/-- A physical line has no line feed. -/
theorem feed_not_mem_splitLines {cs line : List Char} (h : line ∈ splitLines cs) : '\n' ∉ line := by
  induction cs generalizing line with
  | nil =>
    rw [List.mem_singleton.mp h]
    exact List.not_mem_nil
  | cons c cs ih =>
    obtain ⟨first, rest, hsplit, hcons⟩ := splitLines_cons c cs
    rw [hsplit] at ih
    rw [hcons] at h
    by_cases hc : c = '\n'
    · rw [if_pos hc] at h
      rcases List.mem_cons.mp h with rfl | h
      · exact List.not_mem_nil
      · exact ih h
    · rw [if_neg hc] at h
      rcases List.mem_cons.mp h with rfl | h
      · exact List.not_mem_cons_of_ne_of_not_mem (Ne.symm hc) (ih List.mem_cons_self)
      · exact ih (List.mem_cons_of_mem first h)

/-- A physical line of code has no line feed. -/
theorem feed_not_mem_physicalLines {s line : String} (h : line ∈ physicalLines s) :
    '\n' ∉ line.toList := by
  obtain ⟨cs, hcs, rfl⟩ := List.mem_map.mp h
  rw [String.toList_ofList]
  exact feed_not_mem_splitLines hcs

/-- Lines without line feeds are the physical lines of the text that joins them. -/
theorem physicalLines_intercalate {lines : List String}
    (hfeed : ∀ line ∈ lines, '\n' ∉ line.toList) (hne : lines ≠ []) :
    physicalLines ("\n".intercalate lines) = lines := by
  have hchars : ∀ cs ∈ lines.map String.toList, '\n' ∉ cs := by
    intro cs hcs
    obtain ⟨line, hline, rfl⟩ := List.mem_map.mp hcs
    exact hfeed line hline
  have hone : "\n".toList = ['\n'] := rfl
  rw [physicalLines, String.toList_intercalate, hone, splitLines_eq_splitOn,
    List.splitOn_intercalate '\n' hchars (by simpa using hne), List.map_map]
  simp [Function.comp_def]

/-- Code without line feeds is one physical line. -/
theorem physicalLines_of_unbroken {s : String} (h : '\n' ∉ s.toList) : physicalLines s = [s] := by
  have hjoin : "\n".intercalate [s] = s := String.intercalate_singleton
  rw [← hjoin, physicalLines_intercalate (by simpa using h) (List.cons_ne_nil s [])]
  rw [hjoin]

/-- Lines that are each ended by a line feed are joined by line feeds, with an empty one behind. -/
theorem join_lines (lines : List String) :
    String.join (lines.map (· ++ "\n")) = "\n".intercalate (lines ++ [""]) := by
  induction lines with
  | nil => rfl
  | cons line lines ih =>
    rw [List.map_cons, String.join_cons, ih, List.cons_append,
      String.intercalate_cons_of_ne_nil (by simp)]

/-- An empty line stays empty at every indentation, and no other line gets empty. -/
theorem indented_eq_empty_iff (wrap : Bool) (line : String) :
    indented wrap line = "" ↔ line = "" := by
  unfold indented
  split <;> simp_all

/-- Lines outside of an asynchronous function are not indented. -/
theorem map_indented_false (lines : List String) : lines.map (indented false) = lines :=
  List.map_id' lines

/-- Indentation brings no line feed with it. -/
theorem feed_mem_indented_iff (wrap : Bool) (line : String) :
    '\n' ∈ (indented wrap line).toList ↔ '\n' ∈ line.toList := by
  unfold indented
  split <;> simp

/-- The physical lines of a block. -/
def Block.physicalLines (b : Block) : List String :=
  b.lines.flatMap fun line => Script.physicalLines line.value

/-- Only a block without lines has no physical lines. -/
theorem Block.physicalLines_eq_nil_iff (b : Block) : b.physicalLines = [] ↔ b.lines = [] := by
  rw [Block.physicalLines, List.flatMap_eq_nil_iff, List.eq_nil_iff_forall_not_mem]
  simp only [physicalLines_ne_nil, imp_false]

/-- The physical lines of blocks, with an empty line behind each block if there are spacers. -/
def spacedLines (spacers : Bool) (bs : List Block) : List String :=
  bs.flatMap fun b => b.physicalLines ++ if spacers then [""] else []

/-- The lines of a script are those of its head, its blocks and its foot. -/
theorem scriptLines_eq (d : Dialect) (o : Options) (events : List Event) :
    scriptLines d o events =
      headLines d o ++
        (spacedLines o.blankLinesBetweenBlocks (unspaced d o events)).map (indented o.wrapAsync) ++
          footLines d o := by
  have hbody : ∀ bs : List Block, bodyLines o bs =
      (bs.flatMap Block.physicalLines).map (indented o.wrapAsync) := by
    intro bs
    simp only [bodyLines, Block.physicalLines, List.map_flatMap]
  have hspacer : Block.spacer.physicalLines = [""] := rfl
  have hblock : ∀ b : Block, (if o.blankLinesBetweenBlocks then [b, Block.spacer] else [b]).flatMap
      Block.physicalLines = b.physicalLines ++ if o.blankLinesBetweenBlocks then [""] else [] := by
    intro b
    split <;> simp [hspacer]
  rw [scriptLines, dropLeadingSpacer_blocks, hbody, List.flatMap_assoc, spacedLines]
  simp only [hblock]

/-- Is a line a single physical line, and not an empty one? -/
def IsSolid (line : String) : Prop := '\n' ∉ line.toList ∧ line ≠ ""

/-- Indentation keeps lines solid. -/
theorem isSolid_indented {line : String} (h : IsSolid line) (wrap : Bool) :
    IsSolid (indented wrap line) :=
  ⟨(feed_mem_indented_iff wrap line).not.mpr h.1, (indented_eq_empty_iff wrap line).not.mpr h.2⟩

/-- The lines of head and foot are solid. -/
theorem isSolid_frame {d : Dialect} (hd : d ∈ [puppeteer, playwright]) (o : Options) :
    ∀ line ∈ headLines d o ++ footLines d o, IsSolid line := by
  have hspelled : ∀ line ∈ "(async () => \x7b" :: "\x7d)()" :: d.load ::
      (d.opening o.headless ++ d.closing), IsSolid line := by
    have harguments : '\n' ∉ (Dialect.launchArguments o.headless).toList := by
      cases o.headless <;> decide
    simp only [List.mem_cons, List.not_mem_nil, or_false] at hd
    rcases hd with rfl | rfl <;>
      simp [IsSolid, puppeteer, playwright, Dialect.opening, Dialect.closing, harguments]
  simp only [List.forall_mem_cons, List.forall_mem_append] at hspelled
  obtain ⟨hcall, hend, hload, hopening, hclosing⟩ := hspelled
  have hmap : ∀ lines : List String, (∀ line ∈ lines, IsSolid line) →
      ∀ line ∈ lines.map (indented o.wrapAsync), IsSolid line := by
    intro lines h line hline
    obtain ⟨code, hcode, rfl⟩ := List.mem_map.mp hline
    exact isSolid_indented (h code hcode) o.wrapAsync
  rw [headLines, footLines, List.forall_mem_append, List.forall_mem_cons]
  split
  · rw [List.forall_mem_cons, List.forall_mem_append, List.forall_mem_singleton]
    exact ⟨⟨hload, hcall, hmap _ hopening⟩, hmap _ hclosing, hend⟩
  · exact ⟨⟨hload, hmap _ hopening⟩, hmap _ hclosing⟩

/-- The lines of a script have no line feeds. -/
theorem feed_not_mem_scriptLines {d : Dialect} (hd : d ∈ [puppeteer, playwright]) (o : Options)
    (events : List Event) : ∀ line ∈ scriptLines d o events, '\n' ∉ line.toList := by
  intro line hline
  rw [scriptLines_eq, List.mem_append, List.mem_append] at hline
  rcases hline with (hhead | hbody) | hfoot
  · exact (isSolid_frame hd o line (List.mem_append_left _ hhead)).1
  · obtain ⟨code, hcode, rfl⟩ := List.mem_map.mp hbody
    rw [feed_mem_indented_iff]
    obtain ⟨b, -, hb⟩ := List.mem_flatMap.mp hcode
    rcases List.mem_append.mp hb with hb | hb
    · obtain ⟨l, -, hl⟩ := List.mem_flatMap.mp hb
      exact feed_not_mem_physicalLines hl
    · split at hb
      · rw [List.mem_singleton.mp hb]
        exact List.not_mem_nil
      · exact absurd hb List.not_mem_nil
  · exact (isSolid_frame hd o line (List.mem_append_right _ hfoot)).1

/-- The physical lines of a script are the lines that it was put together from, and an empty one
behind the last line feed. -/
theorem physicalLines_script {d : Dialect} (hd : d ∈ [puppeteer, playwright]) (o : Options)
    (events : List Event) : physicalLines (script d o events) = scriptLines d o events ++ [""] := by
  rw [script, join_lines, physicalLines_intercalate _ (by simp)]
  exact List.forall_mem_append.mpr
    ⟨feed_not_mem_scriptLines hd o events, by simp⟩

/-- Options that lay the same code out in another way. -/
def laidOut (o : Options) (wrap headless spacers : Bool) : Options :=
  { o with wrapAsync := wrap, headless := headless, blankLinesBetweenBlocks := spacers }

/-- How code is laid out makes no difference to the blocks before spacers are put between them. -/
theorem unspaced_laidOut {d : Dialect} (hd : d ∈ [puppeteer, playwright]) (o : Options)
    (wrap headless spacers : Bool) (events : List Event) :
    unspaced d (laidOut o wrap headless spacers) events = unspaced d o events := by
  have hclick : d.afterClick (laidOut o wrap headless spacers) = d.afterClick o := by
    simp only [List.mem_cons, List.not_mem_nil, or_false] at hd
    rcases hd with rfl | rfl <;> rfl
  have hblock : ∀ p e next,
      blockOf d (laidOut o wrap headless spacers) p e next = blockOf d o p e next := by
    intro p e next
    simp only [blockOf, clickBlock, hclick]
    rfl
  have hwalk : ∀ p, walk d (laidOut o wrap headless spacers) p events = walk d o p events := by
    induction events with
    | nil => exact fun _ => rfl
    | cons e rest ih =>
      intro p
      rw [walk, walk, ih, hblock]
  rw [unspaced, unspaced, hwalk]
  rfl

end SessionScript.Script
