import SessionScript.Proofs.Files.Growth

/-!
# Paths below a directory

A path that is joined from a directory and a single name leads to that name in that directory, if
the file system accepts its length.
-/

namespace SessionScript.Files

open Json (bind_eq_ok)

/-- A path has at least one part. -/
theorem pathParts_ne_nil (cs : List Char) : pathParts cs ≠ [] := by
  cases cs with
  | nil => exact List.cons_ne_nil _ _
  | cons c cs =>
    rw [pathParts]
    split
    · exact List.cons_ne_nil _ _
    · split <;> exact List.cons_ne_nil _ _

/-- A slash ends the part before it. -/
theorem pathParts_slash (cs : List Char) : pathParts ('/' :: cs) = [] :: pathParts cs := by
  obtain ⟨part, rest, hparts⟩ := List.exists_cons_of_ne_nil (pathParts_ne_nil cs)
  rw [pathParts, hparts]
  exact if_pos rfl

/-- Any other character belongs to the part that it stands in. -/
theorem pathParts_cons {c : Char} (hc : c ≠ '/') {cs part : List Char} {rest : List (List Char)}
    (h : pathParts cs = part :: rest) : pathParts (c :: cs) = (c :: part) :: rest := by
  rw [pathParts, h]
  exact if_neg hc

/-- The parts of two paths with a slash between them. -/
theorem pathParts_append (left right : List Char) :
    pathParts (left ++ '/' :: right) = pathParts left ++ pathParts right := by
  induction left with
  | nil => exact pathParts_slash right
  | cons c left ih =>
    by_cases hc : c = '/'
    · subst hc
      rw [List.cons_append, pathParts_slash, pathParts_slash, ih, List.cons_append]
    · obtain ⟨part, rest, hparts⟩ := List.exists_cons_of_ne_nil (pathParts_ne_nil left)
      have hjoined : pathParts (left ++ '/' :: right) = part :: (rest ++ pathParts right) := by
        rw [ih, hparts, List.cons_append]
      rw [List.cons_append, pathParts_cons hc hjoined, pathParts_cons hc hparts, List.cons_append]

/-- A name is a path of one part. -/
theorem pathParts_name {name : List Char} (hn : '/' ∉ name) : pathParts name = [name] := by
  induction name with
  | nil => rfl
  | cons c name ih =>
    have hc : c ≠ '/' := fun h => hn (h ▸ List.mem_cons_self)
    have hrest : '/' ∉ name := fun h => hn (List.mem_cons_of_mem c h)
    exact pathParts_cons hc (ih hrest)

/-- A text that can be the name of a file. -/
structure IsFileName (name : String) : Prop where
  /-- It is not empty. -/
  nonempty : name.toList ≠ []
  /-- It does not lead into a directory. -/
  slashless : '/' ∉ name.toList
  /-- It does not end early. -/
  zeroless : '\x00' ∉ name.toList

/-- A name is not an absolute path. -/
theorem IsFileName.not_isAbsolute {name : String} (hn : IsFileName name) :
    isAbsolute name = false := by
  unfold isAbsolute
  rw [decide_eq_false_iff_not]
  intro h
  exact hn.slashless (List.mem_of_mem_head? h)

namespace Tree

/-- Where a path starts and what its parts are, if it is the text of a path. -/
theorem start_eq_ok_iff {t : Tree} {path : String} {here : Location} {parts : List (List Char)} :
    t.start path = .ok (here, parts) ↔
      '\x00' ∉ path.toList ∧ path.toList ≠ [] ∧ Text.byteCount path.toList < pathLimit ∧
        here = (if isAbsolute path then [] else t.workDir) ∧ parts = pathParts path.toList := by
  unfold start
  by_cases hzero : '\x00' ∈ path.toList
  · simp [hzero]
  by_cases hempty : path.toList = []
  · simp [hempty]
  by_cases hlong : pathLimit ≤ Text.byteCount path.toList
  · simp [hzero, hempty, hlong, Nat.not_lt.mpr hlong]
  · have hshort : Text.byteCount path.toList < pathLimit := Nat.not_le.mp hlong
    rw [if_neg (by simpa using hzero), if_neg hempty, if_neg hlong, Except.ok.injEq, Prod.mk.injEq]
    constructor
    · rintro ⟨rfl, rfl⟩
      exact ⟨hzero, hempty, hshort, rfl, rfl⟩
    · rintro ⟨-, -, -, rfl, rfl⟩
      exact ⟨rfl, rfl⟩

/-- A path of a directory, with a name behind it: up to the name it leads where the directory is. -/
theorem start_join {t : Tree} {dir name : String} {here : Location}
    (hdir : t.resolve dir = .ok here) (hn : IsFileName name)
    (hshort : Text.byteCount (join dir name).toList < pathLimit) :
    ∃ origin parts, t.start (join dir name) = .ok (origin, parts ++ [name.toList]) ∧
      parts.foldlM t.follow origin = .ok here := by
  obtain ⟨⟨origin, parts⟩, hstart, hfollow⟩ := bind_eq_ok.mp hdir
  dsimp only at hfollow
  obtain ⟨hzero, hempty, -, horigin, hparts⟩ := start_eq_ok_iff.mp hstart
  have hnotEmpty : dir.isEmpty = false := by
    rw [Bool.eq_false_iff, ne_eq, String.isEmpty_iff]
    rintro rfl
    exact hempty rfl
  have habsolute : ∀ rest, isAbsolute (dir ++ rest) = isAbsolute dir := by
    intro rest
    unfold isAbsolute
    rw [String.toList_append, List.head?_append_of_ne_nil _ hempty]
  by_cases hslash : dir.toList.getLast? = some '/'
  · -- the directory ends in a slash, so its last part is empty and leads nowhere else
    obtain ⟨front, hfront⟩ : ∃ front, dir.toList = front ++ ['/'] :=
      ⟨_, (List.dropLast_append_getLast? _ hslash).symm⟩
    have hjoin : join dir name = dir ++ name := by
      rw [join, if_neg (by rw [hn.not_isAbsolute]; decide), if_pos (by simp [hslash])]
    have hdirParts : parts = pathParts front ++ [[]] := by
      rw [hparts, hfront, pathParts_append]
      rfl
    rw [hdirParts, List.foldlM_append] at hfollow
    obtain ⟨parent, hparent, hlast⟩ := bind_eq_ok.mp hfollow
    have hsame : parent = here := by
      obtain ⟨there, hthere, hdone⟩ := bind_eq_ok.mp hlast
      unfold follow at hthere
      split at hthere
      · cases hthere
        cases hdone
        rfl
      · cases hthere
    refine ⟨origin, pathParts front, start_eq_ok_iff.mpr ⟨?_, ?_, hshort, ?_, ?_⟩, hsame ▸ hparent⟩
    · rw [hjoin, String.toList_append, List.mem_append, not_or]
      exact ⟨hzero, hn.zeroless⟩
    · rw [hjoin, String.toList_append]
      exact List.append_ne_nil_of_left_ne_nil hempty _
    · rw [hjoin, habsolute]
      exact horigin
    · rw [hjoin, String.toList_append, hfront, List.append_assoc, List.singleton_append,
        pathParts_append, pathParts_name hn.slashless]
  · have hjoin : join dir name = dir ++ "/" ++ name := by
      rw [join, if_neg (by rw [hn.not_isAbsolute]; decide),
        if_neg (by simp [hnotEmpty, hslash])]
    have hlist : (dir ++ "/" ++ name).toList = dir.toList ++ '/' :: name.toList := by simp
    refine ⟨origin, parts, start_eq_ok_iff.mpr ⟨?_, ?_, hshort, ?_, ?_⟩, hfollow⟩
    · rw [hjoin, hlist, List.mem_append, List.mem_cons, not_or, not_or]
      exact ⟨hzero, by decide, hn.zeroless⟩
    · rw [hjoin, hlist]
      exact List.append_ne_nil_of_left_ne_nil hempty _
    · rw [hjoin, String.append_assoc, habsolute]
      exact horigin
    · rw [hjoin, hlist, pathParts_append, pathParts_name hn.slashless, hparts]

/-- A name in a directory is found by the path that is joined from both. -/
theorem resolveParent_join {t : Tree} {dir name : String} {here : Location}
    (hdir : t.resolve dir = .ok here) (hentry : t.entry? here = some .directory)
    (hn : IsFileName name) (hshort : Text.byteCount name.toList ≤ maxNameBytes)
    (hpath : Text.byteCount (join dir name).toList < pathLimit) :
    t.resolveParent (join dir name) = .ok (here, name.toList) := by
  obtain ⟨origin, parts, hstart, hparts⟩ := start_join hdir hn hpath
  refine bind_eq_ok.mpr ⟨_, hstart, ?_⟩
  dsimp only
  unfold enter
  rw [List.dropLast_concat]
  refine bind_eq_ok.mpr ⟨here, hparts, ?_⟩
  dsimp only
  rw [hentry, List.getLastD_concat]
  exact if_neg (Nat.not_lt.mpr hshort)

/-- Where a path that is joined from a directory and a name leads, if it leads anywhere. -/
theorem eq_of_resolveParent_join {t : Tree} {dir name : String} {here : Location}
    (hdir : t.resolve dir = .ok here) (hn : IsFileName name) {target : Location × List Char}
    (h : t.resolveParent (join dir name) = .ok target) : target = (here, name.toList) := by
  obtain ⟨⟨origin, parts⟩, hstart, henter⟩ := bind_eq_ok.mp h
  obtain ⟨-, -, hshort, -, -⟩ := start_eq_ok_iff.mp hstart
  obtain ⟨origin', parts', hstart', hparts⟩ := start_join hdir hn hshort
  cases hstart.symm.trans hstart'
  dsimp only at henter
  unfold enter at henter
  rw [List.dropLast_concat] at henter
  obtain ⟨parent, hparent, hrest⟩ := bind_eq_ok.mp henter
  cases hparts.symm.trans hparent
  dsimp only at hrest
  rw [List.getLastD_concat] at hrest
  split at hrest
  · split at hrest
    · cases hrest
    · cases hrest
      rfl
  · cases hrest

end Tree

end SessionScript.Files
