import SessionScript.Files.Tree
import SessionScript.Proofs.Json.Tokens

/-!
# Trees of files that only grow

As long as nothing is removed, every path that leads somewhere keeps leading there. Making a file
and writing a file change what stands at one location and nothing else; the location is the one that
the path leads to, both when the file is made and at any later time.
-/

namespace SessionScript.Files

open Json (bind_eq_ok)

namespace Tree

/-- Entries of other locations are looked up as if those of one location were not there. -/
theorem lookup_filter_ne {entries : List (Location × Entry)} {location other : Location}
    (h : other ≠ location) :
    (entries.filter (·.1 ≠ location)).lookup other = entries.lookup other := by
  induction entries with
  | nil => rfl
  | cons head rest ih =>
    obtain ⟨place, entry⟩ := head
    by_cases hat : place = location
    · have hne : (other == place) = false := beq_eq_false_iff_ne.mpr fun heq => h (heq.trans hat)
      rw [List.filter_cons_of_neg (by simpa using hat), ih, List.lookup_cons, hne]
    · rw [List.filter_cons_of_pos (by simpa using hat), List.lookup_cons, List.lookup_cons, ih]

/-- Nothing is left of the entries of a location. -/
theorem lookup_filter_self (entries : List (Location × Entry)) (location : Location) :
    (entries.filter (·.1 ≠ location)).lookup location = none := by
  rw [List.lookup_eq_none_iff]
  intro entry hentry
  have hne : entry.1 ≠ location := by simpa using (List.mem_filter.mp hentry).2
  exact bne_iff_ne.mpr hne.symm

/-- What stands where after an entry was put somewhere. -/
theorem lookup_put (t : Tree) {location : Location} (hl : location ≠ []) (entry : Entry)
    (other : Location) :
    Tree.entry? (t.put location entry) other =
      if other = location then some entry else t.entry? other := by
  unfold entry? put
  by_cases hroot : other = []
  · rw [if_pos hroot, if_pos hroot, if_neg fun h => hl (h.symm.trans hroot)]
  · rw [if_neg hroot, if_neg hroot, List.lookup_append]
    by_cases hother : other = location
    · subst hother
      rw [if_pos rfl, lookup_filter_self, List.lookup_cons, beq_self_eq_true]
      rfl
    · have hne : (other == location) = false := beq_eq_false_iff_ne.mpr hother
      rw [if_neg hother, lookup_filter_ne hother, List.lookup_cons, hne, List.lookup_nil,
        Option.or_none]

/-- A later tree has everything that stood in an earlier one, though files may have other bytes. -/
structure Grows (t later : Tree) : Prop where
  /-- Relative paths start at the same directory. -/
  workDir : later.workDir = t.workDir
  /-- Directories stay directories. -/
  directory : ∀ location, t.entry? location = some .directory →
    later.entry? location = some .directory
  /-- What is there stays there. -/
  present : ∀ location, t.entry? location ≠ none → later.entry? location ≠ none

theorem Grows.refl (t : Tree) : t.Grows t := ⟨rfl, fun _ h => h, fun _ h => h⟩

theorem Grows.trans {t mid later : Tree} (h : t.Grows mid) (h' : mid.Grows later) :
    t.Grows later where
  workDir := h'.workDir.trans h.workDir
  directory location hd := h'.directory location (h.directory location hd)
  present location hp := h'.present location (h.present location hp)

/-- A file may be put anywhere but in the place of a directory. -/
theorem grows_put {t : Tree} {location : Location} (hl : location ≠ [])
    (hd : t.entry? location ≠ some .directory) (content : Text.Bytes) :
    t.Grows (t.put location (.file content)) where
  workDir := rfl
  directory other h := by
    have hother : other ≠ location := by
      rintro rfl
      exact hd h
    rw [lookup_put t hl, if_neg hother]
    exact h
  present other h := by
    rw [lookup_put t hl]
    split
    · exact Option.some_ne_none _
    · exact h

/-- A step along a path that can be followed can be followed later. -/
theorem Grows.follow {t later : Tree} (h : t.Grows later) {here there : Location} {part : List Char}
    (hf : t.follow here part = .ok there) : later.follow here part = .ok there := by
  unfold Tree.follow at hf ⊢
  split at hf
  · rename_i hdir
    rw [h.directory here hdir]
    dsimp only
    split at hf
    · rw [if_pos ‹_›]
      exact hf
    · rw [if_neg ‹_›]
      split at hf
      · rw [if_pos ‹_›]
        exact hf
      · rw [if_neg ‹_›]
        split at hf
        · cases hf
        · rw [if_neg ‹_›]
          split at hf
          · have hsome : (later.entry? (here ++ [part])).isSome = true := by
              rw [Option.isSome_iff_ne_none]
              exact h.present _ (Option.isSome_iff_ne_none.mp ‹_›)
            rw [if_pos hsome]
            exact hf
          · cases hf
  · cases hf

/-- A path that can be followed can be followed later. -/
theorem Grows.foldlM_follow {t later : Tree} (h : t.Grows later) {parts : List (List Char)}
    {here there : Location} (hf : parts.foldlM t.follow here = .ok there) :
    parts.foldlM later.follow here = .ok there := by
  induction parts generalizing here with
  | nil => exact hf
  | cons part parts ih =>
    rw [List.foldlM_cons, bind_eq_ok] at hf ⊢
    obtain ⟨next, hnext, hrest⟩ := hf
    exact ⟨next, h.follow hnext, ih hrest⟩

/-- A path starts where it started before. -/
theorem Grows.start {t later : Tree} (h : t.Grows later) (path : String) :
    later.start path = t.start path := by
  unfold Tree.start
  rw [h.workDir]

/-- A path that leads somewhere leads there later. -/
theorem Grows.resolve {t later : Tree} (h : t.Grows later) {path : String} {location : Location}
    (hr : t.resolve path = .ok location) : later.resolve path = .ok location := by
  unfold Tree.resolve at hr ⊢
  rw [h.start]
  obtain ⟨start, hstart, hparts⟩ := bind_eq_ok.mp hr
  exact bind_eq_ok.mpr ⟨start, hstart, h.foldlM_follow hparts⟩

/-- A path that names something in a directory names it later. -/
theorem Grows.resolveParent {t later : Tree} (h : t.Grows later) {path : String}
    {target : Location × List Char} (hr : t.resolveParent path = .ok target) :
    later.resolveParent path = .ok target := by
  unfold Tree.resolveParent at hr ⊢
  rw [h.start]
  obtain ⟨start, hstart, hr⟩ := bind_eq_ok.mp hr
  refine bind_eq_ok.mpr ⟨start, hstart, ?_⟩
  obtain ⟨parent, hparent, hr⟩ := bind_eq_ok.mp hr
  refine bind_eq_ok.mpr ⟨parent, h.foldlM_follow hparent, ?_⟩
  dsimp only at hr ⊢
  split at hr
  · rw [h.directory parent ‹_›]
    exact hr
  · cases hr

/-- A path leads to a location in a directory, at which there may or may not be anything. -/
def Locates (t : Tree) (path : String) (location : Location) : Prop :=
  ∃ parent name, t.resolveParent path = .ok (parent, name) ∧ isName name = true ∧
    location = parent ++ [name]

/-- A path leads to one location. -/
theorem Locates.unique {t : Tree} {path : String} {location other : Location}
    (h : t.Locates path location) (h' : t.Locates path other) : location = other := by
  obtain ⟨parent, name, hr, -, rfl⟩ := h
  obtain ⟨parent', name', hr', -, rfl⟩ := h'
  cases hr.symm.trans hr'
  rfl

/-- A path leads to the same location later. -/
theorem Locates.mono {t later : Tree} (hg : t.Grows later) {path : String} {location : Location}
    (h : t.Locates path location) : later.Locates path location := by
  obtain ⟨parent, name, hr, hname, hl⟩ := h
  exact ⟨parent, name, hg.resolveParent hr, hname, hl⟩

/-- A path does not lead to the root. -/
theorem Locates.ne_nil {t : Tree} {path : String} {location : Location}
    (h : t.Locates path location) : location ≠ [] := by
  obtain ⟨parent, name, -, -, rfl⟩ := h
  simp

/-- A new file is made exactly where a path leads and nothing stands yet. -/
theorem createNew_eq_ok_iff {t later : Tree} {path : String} :
    t.createNew path = .ok later ↔
      ∃ location, t.Locates path location ∧ t.entry? location = none ∧
        later = t.put location (.file []) := by
  unfold createNew
  rw [bind_eq_ok]
  constructor
  · rintro ⟨⟨parent, name⟩, hr, h⟩
    dsimp only at h
    split at h
    · cases h
    · rename_i hfree
      simp only [Bool.or_eq_true, Bool.not_eq_true', not_or, Bool.not_eq_false,
        Option.not_isSome_iff_eq_none] at hfree
      exact ⟨parent ++ [name], ⟨parent, name, hr, hfree.1, rfl⟩, hfree.2, (Except.ok.inj h).symm⟩
  · rintro ⟨location, ⟨parent, name, hr, hname, rfl⟩, hfree, rfl⟩
    refine ⟨(parent, name), hr, ?_⟩
    dsimp only
    rw [hname, hfree]
    rfl

/-- A path whose location is taken cannot be made. -/
theorem createNew_taken {t : Tree} {path : String} {location : Location}
    (hl : t.Locates path location) (htaken : t.entry? location ≠ none) :
    t.createNew path = .error .alreadyExists := by
  obtain ⟨parent, name, hr, hname, rfl⟩ := hl
  unfold createNew
  rw [hr]
  have hsome : (t.entry? (parent ++ [name])).isSome = true := Option.isSome_iff_ne_none.mpr htaken
  change (if _ then _ else _) = _
  rw [hname, hsome]
  rfl

/-- A file is written exactly where a path leads and no directory stands. -/
theorem write_eq_ok_iff {t later : Tree} {path : String} {content : Text.Bytes} :
    t.write path content = .ok later ↔
      ∃ location, t.Locates path location ∧ t.entry? location ≠ some .directory ∧
        later = t.put location (.file content) := by
  unfold write
  rw [bind_eq_ok]
  constructor
  · rintro ⟨⟨parent, name⟩, hr, h⟩
    dsimp only at h
    split at h
    · cases h
    · rename_i hfile
      simp only [Bool.or_eq_true, Bool.not_eq_true', decide_eq_true_eq, not_or,
        Bool.not_eq_false] at hfile
      exact ⟨parent ++ [name], ⟨parent, name, hr, hfile.1, rfl⟩, hfile.2, (Except.ok.inj h).symm⟩
  · rintro ⟨location, ⟨parent, name, hr, hname, rfl⟩, hd, rfl⟩
    refine ⟨(parent, name), hr, ?_⟩
    dsimp only
    rw [hname, decide_eq_false hd]
    rfl

end Tree

end SessionScript.Files
