import SessionScript.Proofs.Store.FileNames
import SessionScript.Proofs.Store.Turns

/-!
# Saving at once without overwriting

Whatever the order in which savers take their turns, a file belongs to the saver that made it: no
other saver touches it, and nothing that stood in the tree before is touched at all. The argument is
one invariant for each stage of a saver, kept by each turn: a saver that has not made a file yet owns
none, and one that has owns just the location to which its path leads.
-/

namespace SessionScript.Store

open Files (Location OsError Tree)

/-- Recordings that are saved into one store at once. -/
structure Batch where
  /-- The store. -/
  store : Store
  /-- The files before the first turn. -/
  tree : Tree
  /-- The recordings. -/
  calls : List SaveCall

namespace Batch

variable (b : Batch)

/-- The savers before the first turn. -/
def opening : Scene := ⟨b.tree, b.calls.map fun c => b.store.save c.now c.recording⟩

/-- The savers after some turns. -/
def after (turns : List Turn) : Scene := turns.foldl Scene.step b.opening

/-- The files after some turns. -/
def treeAfter (turns : List Turn) : Tree := (b.after turns).tree

/-- A saver has come to its end and gave a path back. -/
def Returned (turns : List Turn) (i : Nat) (path : String) : Prop :=
  (b.after turns).savers[i]? = some (.done (.ok path))

/-- A saver made what stands at a location: in one of its turns something came where nothing was. -/
def Made (turns : List Turn) (i : Nat) (location : Location) : Prop :=
  ∃ before turn rest, turns = before ++ turn :: rest ∧ turn.saver = i ∧
    Tree.entry? (b.treeAfter before) location = none ∧
    Tree.entry? (b.treeAfter (before ++ [turn])) location ≠ none

variable {b} {turns : List Turn} {turn : Turn} {i j : Nat} {c d : SaveCall} {s next r : Stage}
  {answered : Bool} {location : Location}

theorem after_concat (b : Batch) (turns : List Turn) (turn : Turn) :
    b.after (turns ++ [turn]) = (b.after turns).step turn := by
  rw [after, List.foldl_concat]
  rfl

/-! ### The tree grows -/

/-- What a turn does, where something is known of all savers. -/
theorem turn_cases {P : Nat → SaveCall → Stage → Prop}
    (h : (b.after turns).Staged b.store b.calls P) (turn : Turn) :
    (b.calls[turn.saver]? = none ∧ b.after (turns ++ [turn]) = b.after turns) ∨
      ∃ c s next, b.calls[turn.saver]? = some c ∧ P turn.saver c s ∧
        Moves b.store c (b.treeAfter turns) turn.isAnswer s next (b.treeAfter (turns ++ [turn])) ∧
        ∀ Q : Nat → SaveCall → Stage → Prop, Q turn.saver c next →
          (∀ j d r, j ≠ turn.saver → P j d r → Q j d r) →
          (b.after (turns ++ [turn])).Staged b.store b.calls Q := by
  rw [treeAfter, treeAfter, after_concat]
  exact h.step turn

/-- What holds before the first turn and is kept by each turn holds at every time. -/
theorem staged_after {P : List Turn → Nat → SaveCall → Stage → Prop}
    (hopening : ∀ i c, P [] i c (.trying maxCandidates 1))
    (hidle : ∀ turns turn, b.calls[turn.saver]? = none →
      b.treeAfter (turns ++ [turn]) = b.treeAfter turns →
      ∀ i c s, P turns i c s → P (turns ++ [turn]) i c s)
    (hmoves : ∀ turns turn c s next, b.calls[turn.saver]? = some c → P turns turn.saver c s →
      Moves b.store c (b.treeAfter turns) turn.isAnswer s next (b.treeAfter (turns ++ [turn])) →
      P (turns ++ [turn]) turn.saver c next ∧
        ∀ j d r, j ≠ turn.saver → P turns j d r → P (turns ++ [turn]) j d r)
    (turns : List Turn) : (b.after turns).Staged b.store b.calls (P turns) := by
  induction turns using List.reverseRecOn with
  | nil =>
    refine ⟨List.length_map _, fun i c hc => ⟨.trying maxCandidates 1, ?_, hopening i c⟩⟩
    rw [← save_eq_program]
    exact (List.getElem?_map ..).trans (by rw [hc]; rfl)
  | append_singleton turns turn ih =>
    rcases turn_cases ih turn with ⟨hc, hsame⟩ | ⟨c, s, next, hc, hp, hm, hnext⟩
    · have htree : b.treeAfter (turns ++ [turn]) = b.treeAfter turns := congrArg Scene.tree hsame
      rw [hsame]
      exact ih.imp (hidle turns turn hc htree)
    · obtain ⟨hown, hothers⟩ := hmoves turns turn c s next hc hp hm
      exact hnext _ hown hothers

/-- Nothing is removed in a turn. -/
theorem grows_concat (b : Batch) (turns : List Turn) (turn : Turn) :
    (b.treeAfter turns).Grows (b.treeAfter (turns ++ [turn])) := by
  have hstaged : (b.after turns).Staged b.store b.calls fun _ _ _ => True :=
    staged_after (P := fun _ _ _ _ => True) (fun _ _ => trivial) (fun _ _ _ _ _ _ _ _ => trivial)
      (fun _ _ _ _ _ _ _ _ => ⟨trivial, fun _ _ _ _ _ => trivial⟩) turns
  rcases turn_cases hstaged turn with ⟨-, hsame⟩ | ⟨c, s, next, -, -, hm, -⟩
  · rw [treeAfter, treeAfter, hsame]
    exact Tree.Grows.refl _
  · exact hm.grows

/-- Nothing is removed in any number of turns. -/
theorem grows_append (b : Batch) (turns more : List Turn) :
    (b.treeAfter turns).Grows (b.treeAfter (turns ++ more)) := by
  induction more using List.reverseRecOn with
  | nil =>
    rw [List.append_nil]
    exact Tree.Grows.refl _
  | append_singleton more turn ih =>
    rw [← List.append_assoc]
    exact ih.trans (b.grows_concat _ turn)

/-! ### Who made what -/

/-- What is made in the last turn, and what was made before. -/
theorem made_concat_iff :
    b.Made (turns ++ [turn]) i location ↔
      b.Made turns i location ∨
        turn.saver = i ∧ Tree.entry? (b.treeAfter turns) location = none ∧
          Tree.entry? (b.treeAfter (turns ++ [turn])) location ≠ none := by
  constructor
  · rintro ⟨before, made, rest, hturns, hsaver, hfree, hthere⟩
    rcases List.eq_nil_or_concat rest with rfl | ⟨rest, last, rfl⟩
    · obtain ⟨rfl, hlast⟩ := List.append_inj' hturns rfl
      cases hlast
      exact .inr ⟨hsaver, hfree, hthere⟩
    · rw [List.concat_eq_append, ← List.cons_append, ← List.append_assoc] at hturns
      obtain ⟨rfl, -⟩ := List.append_inj' hturns rfl
      exact .inl ⟨before, made, rest, rfl, hsaver, hfree, hthere⟩
  · rintro (⟨before, made, rest, rfl, hsaver, hfree, hthere⟩ | ⟨hsaver, hfree, hthere⟩)
    · exact ⟨before, made, rest ++ [turn], by simp, hsaver, hfree, hthere⟩
    · exact ⟨turns, turn, [], rfl, hsaver, hfree, hthere⟩

/-- Before the first turn nothing was made. -/
theorem not_made_nil (b : Batch) (i : Nat) (location : Location) : ¬ b.Made [] i location := by
  rintro ⟨before, turn, rest, hturns, -⟩
  exact absurd hturns.symm (by simp)

/-- Where an entry was put, only that can be new. -/
theorem eq_of_new {other : Location} {entry : Files.Entry} (hl : location ≠ [])
    (htree : b.treeAfter (turns ++ [turn]) = (b.treeAfter turns).put location entry)
    (hfree : Tree.entry? (b.treeAfter turns) other = none)
    (hthere : Tree.entry? (b.treeAfter (turns ++ [turn])) other ≠ none) : other = location := by
  rw [htree, Tree.lookup_put _ hl] at hthere
  by_contra hne
  rw [if_neg hne] at hthere
  exact hthere hfree

/-- What was made is there. -/
theorem Made.present (h : b.Made turns i location) :
    Tree.entry? (b.treeAfter turns) location ≠ none := by
  obtain ⟨before, turn, rest, rfl, -, -, hthere⟩ := h
  rw [List.append_cons]
  exact (b.grows_append (before ++ [turn]) rest).present location hthere

/-- What was made was not there before the first turn. -/
theorem Made.fresh (h : b.Made turns i location) : b.tree.entry? location = none := by
  obtain ⟨before, turn, rest, -, -, hfree, -⟩ := h
  by_contra hthere
  exact (b.grows_append [] before).present location hthere hfree

/-- What is made was made by one saver only. -/
theorem Made.unique (h : b.Made turns i location) (h' : b.Made turns j location) : i = j := by
  induction turns using List.reverseRecOn with
  | nil => exact absurd h (b.not_made_nil i location)
  | append_singleton turns turn ih =>
    rcases made_concat_iff.mp h with hi | ⟨rfl, hfree, -⟩
    · rcases made_concat_iff.mp h' with hj | ⟨-, hfree, -⟩
      · exact ih hi hj
      · exact absurd hfree hi.present
    · rcases made_concat_iff.mp h' with hj | ⟨rfl, -, -⟩
      · exact absurd hfree hj.present
      · rfl

/-! ### What a saver owns -/

/-- A saver owns the file with its `n`-th name: its path leads there, it made what is there and
nothing else, and the file holds some bytes. -/
structure Owns (b : Batch) (turns : List Turn) (i : Nat) (c : SaveCall) (n : Nat)
    (location : Location) (content : Text.Bytes) : Prop where
  /-- The number of a name begins at one. -/
  pos : 1 ≤ n
  /-- The path leads to the file. -/
  leads : (b.treeAfter turns).Locates (c.path b.store n) location
  /-- The saver made the file. -/
  made : b.Made turns i location
  /-- The saver made no other file. -/
  only : ∀ other, b.Made turns i other → other = location
  /-- What is in the file. -/
  entry : Tree.entry? (b.treeAfter turns) location = some (.file content)

/-- What is known of a saver at each stage. -/
def Known (b : Batch) (turns : List Turn) (i : Nat) (c : SaveCall) : Stage → Prop
  | .trying _ n => 1 ≤ n ∧ ∀ location, ¬ b.Made turns i location
  | .writing n => ∃ location bytes, b.Owns turns i c n location (c.content.take bytes)
  | .saved n => ∃ location, b.Owns turns i c n location c.content
  | .failed _ => ∀ location, ¬ b.Made turns i location

/-- A file that nobody touches in a turn stays with its saver. -/
theorem Owns.frame {n : Nat} {content : Text.Bytes} (h : b.Owns turns i c n location content)
    (hmade : ∀ other, b.Made (turns ++ [turn]) i other → b.Made turns i other)
    (hentry : Tree.entry? (b.treeAfter (turns ++ [turn])) location =
      Tree.entry? (b.treeAfter turns) location) :
    b.Owns (turns ++ [turn]) i c n location content where
  pos := h.pos
  leads := h.leads.mono (b.grows_concat turns turn)
  made := made_concat_iff.mpr (.inl h.made)
  only other ho := h.only other (hmade other ho)
  entry := hentry.trans h.entry

/-- What is known of a saver stays known as long as it makes nothing and nobody touches its file. -/
theorem Known.frame (h : b.Known turns i c s)
    (hmade : ∀ location, b.Made (turns ++ [turn]) i location → b.Made turns i location)
    (hentry : ∀ location, b.Made turns i location →
      Tree.entry? (b.treeAfter (turns ++ [turn])) location =
        Tree.entry? (b.treeAfter turns) location) :
    b.Known (turns ++ [turn]) i c s := by
  cases s with
  | trying fuel n => exact ⟨h.1, fun location hm => h.2 location (hmade location hm)⟩
  | writing n =>
    obtain ⟨location, bytes, howns⟩ := h
    exact ⟨location, bytes, howns.frame hmade (hentry location howns.made)⟩
  | saved n =>
    obtain ⟨location, howns⟩ := h
    exact ⟨location, howns.frame hmade (hentry location howns.made)⟩
  | failed e => exact fun location hm => h location (hmade location hm)

/-- What is known of a saver stays known in a turn that leaves the tree as it is. -/
theorem Known.same (h : b.Known turns i c s)
    (htree : b.treeAfter (turns ++ [turn]) = b.treeAfter turns) :
    b.Known (turns ++ [turn]) i c s := by
  refine h.frame (fun location hmade => ?_) fun location _ => by rw [htree]
  rcases made_concat_iff.mp hmade with hmade | ⟨-, hfree, hthere⟩
  · exact hmade
  · rw [htree] at hthere
    exact absurd hfree hthere

/-- A file that its saver writes stays with the saver. -/
theorem Owns.put {n : Nat} {old content : Text.Bytes} (h : b.Owns turns i c n location old)
    (htree : b.treeAfter (turns ++ [turn]) = (b.treeAfter turns).put location (.file content)) :
    b.Owns (turns ++ [turn]) i c n location content where
  pos := h.pos
  leads := h.leads.mono (b.grows_concat turns turn)
  made := made_concat_iff.mpr (.inl h.made)
  only other ho := by
    rcases made_concat_iff.mp ho with ho | ⟨-, hfree, hthere⟩
    · exact h.only other ho
    · exact eq_of_new h.leads.ne_nil htree hfree hthere
  entry := by
    rw [htree, Tree.lookup_put _ h.leads.ne_nil, if_pos rfl]

/-- A file that a saver owns can be written. -/
theorem Owns.write_ne_error {n : Nat} {old content : Text.Bytes} {e : OsError}
    (h : b.Owns turns i c n location old) :
    (b.treeAfter turns).write (c.path b.store n) content ≠ .error e := by
  have hd : Tree.entry? (b.treeAfter turns) location ≠ some .directory := by
    rw [h.entry]
    simp
  rw [Tree.write_eq_ok_iff.mpr ⟨location, h.leads, hd, rfl⟩]
  exact fun hrefused => by cases hrefused

/-- In its own turn a saver stays within what is known of it. -/
theorem Known.moves (h : b.Known turns turn.saver c s)
    (hm : Moves b.store c (b.treeAfter turns) answered s next (b.treeAfter (turns ++ [turn]))) :
    b.Known (turns ++ [turn]) turn.saver c next := by
  generalize hlater : b.treeAfter (turns ++ [turn]) = later at hm
  cases hm with
  | waits => exact h.same hlater
  | rests hdone => exact h.same hlater
  | passes htaken => exact ⟨Nat.le_add_left 1 _, (h.same hlater).2⟩
  | givesUp hrefused he => exact (h.same hlater).2
  | @makes fuel n location hl hfree =>
    have hentry : Tree.entry? (b.treeAfter (turns ++ [turn])) location = some (.file []) := by
      rw [hlater, Tree.lookup_put _ hl.ne_nil, if_pos rfl]
    refine ⟨location, 0, h.1, hl.mono (b.grows_concat turns turn), ?_, fun other hother => ?_, ?_⟩
    · refine made_concat_iff.mpr (.inr ⟨rfl, hfree, ?_⟩)
      rw [hentry]
      exact Option.some_ne_none _
    · rcases made_concat_iff.mp hother with hmade | ⟨-, hnone, hthere⟩
      · exact absurd hmade (h.2 other)
      · exact eq_of_new hl.ne_nil hlater hnone hthere
    · rw [hentry, List.take_zero]
  | @writes n location hl hd bytes =>
    -- the path still leads to the file that the saver made, whatever was made since
    obtain ⟨own, old, howns⟩ := h
    obtain rfl := howns.leads.unique hl
    exact ⟨own, bytes, howns.put hlater⟩
  | @saves n location hl hd =>
    obtain ⟨own, old, howns⟩ := h
    obtain rfl := howns.leads.unique hl
    exact ⟨own, howns.put hlater⟩
  | loses hrefused =>
    obtain ⟨own, old, howns⟩ := h
    exact absurd hrefused howns.write_ne_error

/-- A turn changes only what its saver made, in that turn or before. -/
theorem Known.own (h : b.Known turns turn.saver c s)
    (hm : Moves b.store c (b.treeAfter turns) answered s next (b.treeAfter (turns ++ [turn])))
    (hchange : Tree.entry? (b.treeAfter (turns ++ [turn])) location ≠
      Tree.entry? (b.treeAfter turns) location) :
    b.Made (turns ++ [turn]) turn.saver location := by
  rcases hm.changes hchange with hfree | ⟨n, rfl, hl⟩
  · exact made_concat_iff.mpr (.inr ⟨rfl, hfree, fun hnone => hchange (hnone.trans hfree.symm)⟩)
  · obtain ⟨own, old, howns⟩ := h
    obtain rfl := howns.leads.unique hl
    exact made_concat_iff.mpr (.inl howns.made)

/-- In the turn of another saver, what is known of a saver stays known. -/
theorem Known.unmoved (h : b.Known turns j d r) (hj : j ≠ turn.saver)
    (hown : ∀ location, Tree.entry? (b.treeAfter (turns ++ [turn])) location ≠
      Tree.entry? (b.treeAfter turns) location → b.Made (turns ++ [turn]) turn.saver location) :
    b.Known (turns ++ [turn]) j d r := by
  refine h.frame (fun location hmade => ?_) fun location hmade => ?_
  · rcases made_concat_iff.mp hmade with hmade | ⟨hsaver, -⟩
    · exact hmade
    · exact absurd hsaver.symm hj
  · by_contra hchange
    exact hj (Made.unique (made_concat_iff.mpr (.inl hmade)) (hown location hchange))

/-- What is known of a saver before the first turn. -/
theorem known_opening (b : Batch) (i : Nat) (c : SaveCall) :
    b.Known [] i c (.trying maxCandidates 1) :=
  ⟨Nat.le_refl 1, b.not_made_nil i⟩

/-- At every time, what is known of savers holds. -/
theorem known_after (b : Batch) (turns : List Turn) :
    (b.after turns).Staged b.store b.calls (b.Known turns) := by
  refine staged_after b.known_opening ?_ ?_ turns
  · intro turns turn _ htree i c s hknown
    exact hknown.same htree
  · intro turns turn c s next _ hknown hm
    exact ⟨hknown.moves hm, fun j d r hj hother =>
      hother.unmoved hj fun location hchange => hknown.own hm hchange⟩

/-! ### What all savers keep to -/

/-- A turn that changes anything is the turn of a saver, and changes only what that saver made. -/
theorem change_made (hchange : Tree.entry? (b.treeAfter (turns ++ [turn])) location ≠
      Tree.entry? (b.treeAfter turns) location) :
    (∃ c, b.calls[turn.saver]? = some c) ∧ b.Made (turns ++ [turn]) turn.saver location := by
  rcases turn_cases (b.known_after turns) turn with ⟨-, hsame⟩ | ⟨c, s, next, hc, hknown, hm, -⟩
  · rw [treeAfter, treeAfter, hsame] at hchange
    exact absurd rfl hchange
  · exact ⟨⟨c, hc⟩, hknown.own hm hchange⟩

/-- What stood in the tree before the first turn stays as it is. -/
theorem entry_kept (b : Batch) (turns : List Turn) {location : Location}
    (h : b.tree.entry? location ≠ none) :
    Tree.entry? (b.treeAfter turns) location = b.tree.entry? location := by
  induction turns using List.reverseRecOn with
  | nil => rfl
  | append_singleton turns turn ih =>
    by_contra hchange
    have hmade := (change_made fun hsame => hchange (hsame.trans ih)).2
    exact h hmade.fresh

/-- A saver makes one file. -/
theorem Made.one {other : Location} (h : b.Made turns i location) (h' : b.Made turns i other) :
    location = other := by
  have hcall : ∃ c, b.calls[i]? = some c := by
    obtain ⟨before, turn, rest, -, rfl, hfree, hthere⟩ := h
    exact (change_made fun hsame => hthere (hsame.trans hfree)).1
  obtain ⟨c, hc⟩ := hcall
  obtain ⟨s, -, hknown⟩ := (b.known_after turns).stage i c hc
  cases s with
  | trying fuel n => exact absurd h (hknown.2 location)
  | writing n =>
    obtain ⟨own, bytes, howns⟩ := hknown
    exact (howns.only location h).trans (howns.only other h').symm
  | saved n =>
    obtain ⟨own, howns⟩ := hknown
    exact (howns.only location h).trans (howns.only other h').symm
  | failed e => exact absurd h (hknown location)

/-- A saver that gave a path back owns the file there, with all its bytes. -/
theorem Returned.owns {path : String} (h : b.Returned turns i path) :
    ∃ c n location, b.calls[i]? = some c ∧ path = c.path b.store n ∧
      b.Owns turns i c n location c.content := by
  have hstaged := b.known_after turns
  have hlt : i < b.calls.length := by
    rw [← hstaged.length]
    exact (List.getElem?_eq_some_iff.mp h).1
  have hc : b.calls[i]? = some b.calls[i] := List.getElem?_eq_getElem hlt
  obtain ⟨s, hs, hknown⟩ := hstaged.stage i _ hc
  obtain ⟨n, rfl, hpath⟩ := Stage.eq_saved (Option.some.inj (hs.symm.trans h))
  obtain ⟨location, howns⟩ := hknown
  exact ⟨_, n, location, hc, hpath, howns⟩

/-- The file of a saver lies directly in the directory of the store. -/
theorem Owns.inside {n : Nat} {content : Text.Bytes} (h : b.Owns turns i c n location content)
    {here : Location} (hdir : b.tree.resolve b.store.dir = .ok here) :
    location = here ++ [(candidate c.stem n).toList] := by
  obtain ⟨parent, name, hr, -, rfl⟩ := h.leads
  have hlater := (b.grows_append [] turns).resolve hdir
  cases Tree.eq_of_resolveParent_join hlater (isFileName_candidate (isStem_stem _ _) n) hr
  rfl

end Batch

end SessionScript.Store
