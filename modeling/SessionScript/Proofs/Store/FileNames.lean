import Mathlib.Data.Nat.Digits.Defs
import SessionScript.Proofs.Files.Paths
import SessionScript.Proofs.Json.NumberText
import SessionScript.Store.Basic

/-!
# The names of stored files

Whatever a recording is called, its file gets a name of its own kind: no slash leads out of the
directory of the store, no point but the one of the extension stands in it, and it ends in the
extension by which stored recordings are listed. Later candidates for a name are never shorter than
earlier ones, so the file system accepts all candidates up to one that it accepts.
-/

namespace SessionScript.Store

open Files (Location Tree)

/-- May the character stand in a file name before its extension? -/
def isStemChar (c : Char) : Bool :=
  Text.isWordCharacter c || c.isDigit || c = '-' || c = '_' || c = '+'

/-- All characters of the text may stand in a file name before its extension. -/
def IsStem (s : String) : Prop := ∀ c ∈ s.toList, isStemChar c = true

/-- Parts of file names may be put together. -/
theorem IsStem.append {s t : String} (hs : IsStem s) (ht : IsStem t) : IsStem (s ++ t) := by
  intro c hc
  rw [String.toList_append] at hc
  rcases List.mem_append.mp hc with hc | hc
  · exact hs c hc
  · exact ht c hc

/-- A part of a file name does not hold a character that none may hold. -/
theorem IsStem.not_mem {s : String} (hs : IsStem s) {c : Char} (hc : isStemChar c = false) :
    c ∉ s.toList := by
  intro hm
  rw [hs c hm] at hc
  cases hc

/-- Digits may stand in a file name. -/
theorem isStem_digits {cs : List Char} (hcs : ∀ c ∈ cs, c.isDigit = true) :
    IsStem (String.ofList cs) := by
  intro c hc
  rw [String.toList_ofList] at hc
  simp [isStemChar, hcs c hc]

/-- Numbers may stand in a file name. -/
theorem isStem_toString (n : Nat) : IsStem (toString n) := by
  rw [Nat.toString_eq_ofList_toDigits]
  exact isStem_digits fun c hc => Json.isDigit_toDigits hc

/-- Numbers of a fixed width may stand in a file name. -/
theorem isStem_padded (width n : Nat) : IsStem (Instant.padded width n) := by
  unfold Instant.padded
  dsimp only
  apply isStem_digits
  intro c hc
  rcases List.mem_append.mp hc with hc | hc
  · rw [List.eq_of_mem_replicate hc]
    decide
  · exact Json.isDigit_toDigits hc

/-- Years may stand in a file name. -/
theorem isStem_yearText (year : Int) : IsStem (Instant.yearText year) := by
  have hsign : IsStem (if year < 0 then "-" else "+") := by
    split <;> exact List.all_eq_true.mp (by decide)
  unfold Instant.yearText
  split
  · exact isStem_padded _ _
  · exact hsign.append (isStem_padded _ _)

/-- Times may stand in a file name. -/
theorem isStem_stamp (t : Instant) : IsStem t.stamp := by
  have hline : IsStem "_" := List.all_eq_true.mp (by decide)
  unfold Instant.stamp
  dsimp only
  exact ((((((isStem_yearText _).append (isStem_padded _ _)).append (isStem_padded _ _)).append
    hline).append (isStem_padded _ _)).append (isStem_padded _ _)).append (isStem_padded _ _)

/-- A character that is not safe is replaced by one that is. -/
theorem isStemChar_safeChar (c : Char) : isStemChar (safeChar c) = true := by
  unfold safeChar
  split
  · rename_i hsafe
    simp only [Bool.or_eq_true] at hsafe
    rcases hsafe with (hword | hdash) | hline
    · simp [isStemChar, hword]
    · simp only [isStemChar, hdash, Bool.or_true, Bool.true_or]
    · simp only [isStemChar, hline, Bool.or_true, Bool.true_or]
  · decide

/-- The safe form of a name may stand in a file name. -/
theorem isStem_safeName (name : String) : IsStem (safeName name) := by
  unfold safeName
  split
  · exact List.all_eq_true.mp (by decide)
  · intro c hc
    rw [String.toList_ofList] at hc
    obtain ⟨c', -, rfl⟩ := List.mem_map.mp hc
    exact isStemChar_safeChar c'

/-- The safe form of a name is not empty. -/
theorem safeName_ne_nil (name : String) : (safeName name).toList ≠ [] := by
  unfold safeName
  split
  · decide
  · rename_i hname
    rw [String.toList_ofList, ne_eq, List.map_eq_nil_iff]
    intro hnil
    exact hname (String.isEmpty_iff.mpr (String.toList_eq_nil_iff.mp hnil))

/-- The part of a file name before its number may stand in one. -/
theorem isStem_stem (now : Instant) (name : String) : IsStem (stem now name) :=
  ((isStem_safeName name).append (List.all_eq_true.mp (by decide))).append (isStem_stamp now)

/-- A candidate is a part without a point, and the extension. -/
theorem candidate_eq (stem : String) (n : Nat) :
    candidate stem n = stem ++ (if n = 1 then "" else "_" ++ toString n) ++ ".jsonl" := by
  unfold candidate
  split
  · rw [String.append_empty]
  · simp only [String.append_assoc]

/-- The part of a candidate before its extension. -/
theorem isStem_candidate {stem : String} (hs : IsStem stem) (n : Nat) :
    IsStem (stem ++ (if n = 1 then "" else "_" ++ toString n)) := by
  have hline : IsStem "_" := List.all_eq_true.mp (by decide)
  refine hs.append ?_
  split
  · exact List.all_eq_true.mp (by decide)
  · exact hline.append (isStem_toString n)

/-- A candidate is the name of a file. -/
theorem isFileName_candidate {stem : String} (hs : IsStem stem) (n : Nat) :
    Files.IsFileName (candidate stem n) := by
  have hfront := isStem_candidate hs n
  have hlist : (candidate stem n).toList =
      (stem ++ (if n = 1 then "" else "_" ++ toString n)).toList ++ ".jsonl".toList := by
    rw [candidate_eq, String.toList_append]
  have hnot : ∀ c, isStemChar c = false → c ∉ ".jsonl".toList → c ∉ (candidate stem n).toList := by
    intro c hc hext hm
    rw [hlist] at hm
    rcases List.mem_append.mp hm with hm | hm
    · exact hfront.not_mem hc hm
    · exact hext hm
  refine ⟨?_, hnot _ (by decide) (by decide), hnot _ (by decide) (by decide)⟩
  rw [hlist]
  exact List.append_ne_nil_of_right_ne_nil _ (by decide)

/-- A candidate is no way of writing a directory. -/
theorem isName_candidate (stem : String) (n : Nat) :
    Files.Tree.isName (candidate stem n).toList = true := by
  have hlength : 2 < (candidate stem n).toList.length := by
    rw [candidate_eq, String.toList_append, List.length_append,
      show ".jsonl".toList.length = 6 by decide]
    omega
  have hne : ∀ part : List Char, part.length ≤ 2 → (candidate stem n).toList ≠ part := by
    intro part hpart heq
    rw [heq] at hlength
    omega
  simp [Files.Tree.isName, Files.staysHere, hne [] (by decide), hne ['.'] (by decide),
    hne ['.', '.'] (by decide)]

/-- A candidate is listed among the stored recordings. -/
theorem isStoredName_candidate (stem : String) (n : Nat) :
    isStoredName (candidate stem n) = true := by
  unfold isStoredName
  rw [candidate_eq, String.toList_append, List.isSuffixOf_iff_suffix]
  exact List.suffix_append _ _

/-- The bytes of a text in two parts. -/
theorem byteCount_append (xs ys : List Char) :
    Text.byteCount (xs ++ ys) = Text.byteCount xs + Text.byteCount ys := by
  have hfrom : ∀ (cs : List Char) (k : Nat),
      cs.foldl (fun n c => n + c.utf8Size) k = k + Text.byteCount cs := by
    intro cs
    induction cs with
    | nil => intro k; rfl
    | cons c cs ih =>
      intro k
      have hhead := ih (0 + c.utf8Size)
      rw [Text.byteCount, List.foldl_cons, List.foldl_cons, ih, hhead]
      omega
  rw [Text.byteCount, List.foldl_append, hfrom]
  rfl

/-- A number has as many bytes as digits. -/
theorem byteCount_toDigits (n : Nat) :
    Text.byteCount (Nat.toDigits 10 n) = (Nat.toDigits 10 n).length := by
  have hdigits : ∀ cs : List Char, (∀ c ∈ cs, c.isDigit = true) → Text.byteCount cs = cs.length := by
    intro cs hcs
    induction cs with
    | nil => rfl
    | cons c cs ih =>
      have hdigit : c.isDigit = true := hcs c List.mem_cons_self
      have hsize : c.utf8Size = 1 := by
        simp only [Char.isDigit, Bool.and_eq_true, decide_eq_true_eq] at hdigit
        have hval : c.val.toNat ≤ 57 := UInt32.le_iff_toNat_le.mp hdigit.2
        rw [Char.utf8Size_eq_one_iff, UInt32.le_iff_toNat_le]
        exact Nat.le_trans hval (by decide)
      have hrest := ih fun c' hc' => hcs c' (List.mem_cons_of_mem c hc')
      have hcons := byteCount_append [c] cs
      have hone : Text.byteCount [c] = 1 := by simp [Text.byteCount, hsize]
      rw [List.singleton_append] at hcons
      rw [hcons, hone, hrest, List.length_cons]
      omega
  exact hdigits _ fun c hc => Json.isDigit_toDigits hc

/-- A greater number has no fewer digits. -/
theorem length_toDigits_mono {k n : Nat} (h : k ≤ n) :
    (Nat.toDigits 10 k).length ≤ (Nat.toDigits 10 n).length := by
  have hpos : 0 < (Nat.toDigits 10 n).length := List.length_pos_of_ne_nil Nat.toDigits_ne_nil
  have hbound := (Nat.length_toDigits_le_iff (by decide) hpos).mp (Nat.le_refl _)
  exact (Nat.length_toDigits_le_iff (by decide) hpos).mpr (Nat.lt_of_le_of_lt h hbound)

/-- A later candidate is no shorter. -/
theorem byteCount_candidate_mono (stem : String) {k n : Nat} (hk : 1 ≤ k) (h : k ≤ n) :
    Text.byteCount (candidate stem k).toList ≤ Text.byteCount (candidate stem n).toList := by
  have hcount : ∀ n, Text.byteCount (candidate stem n).toList =
      Text.byteCount stem.toList + (if n = 1 then 0 else 1 + (Nat.toDigits 10 n).length) +
        Text.byteCount ".jsonl".toList := by
    intro n
    rw [candidate_eq, String.toList_append, String.toList_append, byteCount_append,
      byteCount_append]
    congr 2
    split
    · rfl
    · have hnumber : (toString n).toList = Nat.toDigits 10 n := by
        rw [Nat.toString_eq_ofList_toDigits, String.toList_ofList]
      rw [String.toList_append, byteCount_append, hnumber, byteCount_toDigits]
      rfl
  have hdigits := length_toDigits_mono h
  rw [hcount, hcount]
  split <;> split <;> omega

/-- A longer name makes a longer path. -/
theorem byteCount_join_mono (dir : String) {name longer : String} (hn : Files.IsFileName name)
    (hl : Files.IsFileName longer)
    (h : Text.byteCount name.toList ≤ Text.byteCount longer.toList) :
    Text.byteCount (Files.join dir name).toList ≤ Text.byteCount (Files.join dir longer).toList := by
  simp only [Files.join, hn.not_isAbsolute, hl.not_isAbsolute, Bool.false_eq_true, if_false]
  split <;> simp only [String.toList_append, byteCount_append] <;> omega

/-- The file system accepts a name in the directory of the store. -/
structure Accepts (store : Store) (t : Tree) (here : Location) (name : String) : Prop where
  /-- The path of the store leads somewhere. -/
  leads : t.resolve store.dir = .ok here
  /-- A directory is there. -/
  directory : t.entry? here = some .directory
  /-- The name is not too long. -/
  nameFits : Text.byteCount name.toList ≤ Tree.maxNameBytes
  /-- The path of the name is not too long. -/
  pathFits : Text.byteCount (Files.join store.dir name).toList < Tree.pathLimit

namespace Accepts

variable {store : Store} {t later : Tree} {here : Location} {stem : String} {n : Nat}

/-- A name that is accepted is accepted later. -/
theorem mono {name : String} (h : store.Accepts t here name) (hg : t.Grows later) :
    store.Accepts later here name where
  leads := hg.resolve h.leads
  directory := hg.directory here h.directory
  nameFits := h.nameFits
  pathFits := h.pathFits

/-- Where the file of a candidate stands. -/
theorem locates (h : store.Accepts t here (candidate stem n)) (hs : IsStem stem) :
    t.Locates (Files.join store.dir (candidate stem n)) (here ++ [(candidate stem n).toList]) :=
  ⟨here, _, Tree.resolveParent_join h.leads h.directory (isFileName_candidate hs n) h.nameFits
    h.pathFits, isName_candidate stem n, rfl⟩

/-- All candidates before one that is accepted are accepted. -/
theorem earlier (h : store.Accepts t here (candidate stem n)) (hs : IsStem stem) {k : Nat}
    (hk : 1 ≤ k) (hkn : k ≤ n) : store.Accepts t here (candidate stem k) where
  leads := h.leads
  directory := h.directory
  nameFits := Nat.le_trans (byteCount_candidate_mono stem hk hkn) h.nameFits
  pathFits := Nat.lt_of_le_of_lt
    (byteCount_join_mono store.dir (isFileName_candidate hs k) (isFileName_candidate hs n)
      (byteCount_candidate_mono stem hk hkn)) h.pathFits

end Accepts

end SessionScript.Store
