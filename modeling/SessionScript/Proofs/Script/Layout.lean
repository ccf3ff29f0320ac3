import Mathlib.Algebra.Order.BigOperators.Group.List
import Mathlib.Algebra.Order.Ring.Nat
import Mathlib.Data.List.Flatten
import SessionScript.Proofs.Script.Lines
import SessionScript.Script.Page

/-!
# The length of a script

The lines of the blocks of a session are laid out between the same head and foot, whatever the
session, and each of them takes up at least one physical line. So the script gets shorter when
blocks with lines are taken out of it, and scripts with the same text have all their lines in
common if the blocks of one are among those of the other.
-/

namespace SessionScript.Script

/-- The number of characters that physical lines take up, each ended by a line feed. -/
def textLength (lines : List String) : Nat := (lines.map (·.length + 1)).sum

/-- The length of lines in a row. -/
theorem textLength_append (xs ys : List String) :
    textLength (xs ++ ys) = textLength xs + textLength ys := by
  rw [textLength, List.map_append, List.sum_append]
  rfl

/-- The number of characters that a line takes up in a script. -/
def lineLength (o : Options) (line : Line) : Nat :=
  textLength ((physicalLines line.value).map (indented o.wrapAsync))

/-- A text has at least one physical line. -/
theorem splitLines_ne_nil (cs : List Char) : splitLines cs ≠ [] := by
  cases cs with
  | nil => exact List.cons_ne_nil _ _
  | cons c cs =>
    rw [splitLines]
    split
    · exact List.cons_ne_nil _ _
    · split <;> exact List.cons_ne_nil _ _

/-- A line feed in front of a text starts another line; any other character is put in front of the
first line. -/
theorem splitLines_cons (c : Char) (cs : List Char) :
    ∃ line rest, splitLines cs = line :: rest ∧
      splitLines (c :: cs) = if c = '\n' then [] :: line :: rest else (c :: line) :: rest := by
  obtain ⟨line, rest, hcs⟩ := List.exists_cons_of_ne_nil (splitLines_ne_nil cs)
  exact ⟨line, rest, hcs, by rw [splitLines, hcs]⟩

/-- Code has at least one physical line. -/
theorem physicalLines_ne_nil (s : String) : physicalLines s ≠ [] :=
  List.map_eq_nil_iff.not.mpr (splitLines_ne_nil s.toList)

/-- Every line takes up characters, be it empty. -/
theorem lineLength_pos (o : Options) (line : Line) : 0 < lineLength o line := by
  obtain ⟨first, more, hfirst⟩ := List.exists_cons_of_ne_nil (physicalLines_ne_nil line.value)
  rw [lineLength, hfirst, List.map_cons, textLength, List.map_cons, List.sum_cons]
  omega

/-- The length of the lines of blocks. -/
theorem textLength_bodyLines (o : Options) (blocks : List Block) :
    textLength (bodyLines o blocks) = ((linesOf blocks).map (lineLength o)).sum := by
  have hlines : ∀ lines : List Line,
      textLength (lines.flatMap fun line => (physicalLines line.value).map (indented o.wrapAsync)) =
        (lines.map (lineLength o)).sum := by
    intro lines
    induction lines with
    | nil => rfl
    | cons line lines ih =>
      rw [List.flatMap_cons, textLength_append, ih, List.map_cons, List.sum_cons]
      rfl
  rw [bodyLines, linesOf, ← hlines, List.flatMap_assoc]

/-- The length of a script: besides head and foot, that of its lines. -/
theorem length_script (d : Dialect) (o : Options) (events : List Event) :
    (script d o events).length =
      textLength (headLines d o) +
        ((linesOf (dropLeadingSpacer (blocks d o events))).map (lineLength o)).sum +
          textLength (footLines d o) := by
  have hfeed : (String.length ∘ (· ++ "\n")) = (·.length + 1) := by
    funext line
    rw [Function.comp_apply, String.length_append]
    rfl
  rw [script, String.length_join, List.map_map, hfeed, ← textLength_bodyLines, ← textLength_append,
    ← textLength_append]
  rfl

/-- No block of a session is a spacer before spacers are put between them. -/
theorem isSpacer_unspaced (d : Dialect) (o : Options) (events : List Event) :
    ∀ b ∈ unspaced d o events, b.isSpacer = false := by
  have hblank : (linesOf (unspaced d o events)).filter Line.isBlank = [] := by
    rw [unspaced, declareFrames_filter (fun _ _ => rfl) fun _ _ _ => rfl]
    have hwalk : (linesOf (walk d o {} events).2).filter Line.isBlank = [] := by
      refine List.filter_eq_nil_iff.mpr fun line hl => ?_
      rw [← walk_isOfEvent] at hl
      have hevent := (List.mem_filter.mp hl).2
      rw [Line.isOfEvent] at hevent
      rw [Line.isBlank]
      cases hkind : line.kind <;> simp_all
    unfold withPromise
    split
    · rw [linesOf_cons, List.filter_append, hwalk]
      rfl
    · exact hwalk
  intro b hb
  by_contra hs
  rw [Bool.not_eq_false, Block.isSpacer] at hs
  split at hs
  · rename_i line hline
    have hmem : line ∈ linesOf (unspaced d o events) :=
      List.mem_flatMap.mpr ⟨b, hb, hline ▸ List.mem_singleton_self line⟩
    exact List.filter_eq_nil_iff.mp hblank line hmem hs
  · cases hs

/-- The blocks of a script: those of the session, each with a spacer behind it if the options ask
for spacers. -/
theorem dropLeadingSpacer_blocks (d : Dialect) (o : Options) (events : List Event) :
    dropLeadingSpacer (blocks d o events) =
      (unspaced d o events).flatMap fun b =>
        if o.blankLinesBetweenBlocks then [b, Block.spacer] else [b] := by
  have hspacer := isSpacer_unspaced d o events
  rw [blocks_eq]
  generalize unspaced d o events = bs at hspacer
  cases bs with
  | nil =>
    rw [List.isEmpty_nil, Bool.not_true, Bool.and_false]
    rfl
  | cons b rest =>
    rw [List.isEmpty_cons, Bool.not_false, Bool.and_true]
    cases o.blankLinesBetweenBlocks with
    | true => rfl
    | false =>
      have hb := hspacer b List.mem_cons_self
      simp [dropLeadingSpacer, hb]

/-- Elements left out of a list that add nothing to a sum of positive numbers are none. -/
theorem eq_of_sublist_of_sum {α : Type} {weight : α → Nat} (hw : ∀ x, 0 < weight x) {xs ys : List α}
    (h : ys.Sublist xs) (hs : (xs.map weight).sum ≤ (ys.map weight).sum) : ys = xs := by
  induction h with
  | slnil => rfl
  | cons x hsub ih =>
    have hrest := (hsub.map weight).sum_le_sum fun n _ => Nat.zero_le n
    have hx := hw x
    rw [List.map_cons, List.sum_cons] at hs
    omega
  | cons_cons x _ ih =>
    rw [List.map_cons, List.map_cons, List.sum_cons, List.sum_cons] at hs
    rw [ih (by omega)]

/-- The lengths of the lines of a script: those of the blocks, and of a spacer behind each of them
if the options ask for spacers. -/
theorem sum_lineLength_spaced (o : Options) (bs : List Block) :
    ((linesOf (bs.flatMap fun b =>
        if o.blankLinesBetweenBlocks then [b, Block.spacer] else [b])).map (lineLength o)).sum =
      ((linesOf bs).map (lineLength o)).sum +
        (if o.blankLinesBetweenBlocks then lineLength o ⟨none, "", 0⟩ else 0) * bs.length := by
  have hblock : ∀ b : Block,
      ((linesOf (if o.blankLinesBetweenBlocks then [b, Block.spacer] else [b])).map
          (lineLength o)).sum =
        (b.lines.map (lineLength o)).sum +
          if o.blankLinesBetweenBlocks then lineLength o ⟨none, "", 0⟩ else 0 := by
    intro b
    split <;> simp [Block.spacer]
  induction bs with
  | nil => rfl
  | cons b bs ih =>
    rw [List.flatMap_cons, linesOf_append, List.map_append, List.sum_append, hblock, ih,
      linesOf_cons, List.map_append, List.sum_append, List.length_cons, Nat.mul_succ]
    omega

/-- When the blocks of a session are some of those of another one, the scripts of the two have the
same text only if they have the same lines. -/
theorem linesOf_eq_of_script_eq {d : Dialect} {o : Options} {xs ys : List Event}
    (h : (unspaced d o ys).Sublist (unspaced d o xs)) (hs : script d o xs = script d o ys) :
    linesOf (unspaced d o ys) = linesOf (unspaced d o xs) := by
  have hlines : (linesOf (unspaced d o ys)).Sublist (linesOf (unspaced d o xs)) := h.flatMap _
  have hsum := congrArg String.length hs
  rw [length_script, length_script, dropLeadingSpacer_blocks, dropLeadingSpacer_blocks,
    sum_lineLength_spaced, sum_lineLength_spaced] at hsum
  have hspacers := Nat.mul_le_mul_left
    (if o.blankLinesBetweenBlocks then lineLength o ⟨none, "", 0⟩ else 0) h.length_le
  exact eq_of_sublist_of_sum (lineLength_pos o) hlines (by omega)

end SessionScript.Script
