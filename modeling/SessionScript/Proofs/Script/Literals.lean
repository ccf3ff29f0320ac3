import SessionScript.Script.Literal

/-!
# Taking code and literals of a line apart

A line is scanned from left to right into the characters of its code and the texts of its literals.
Escaped text is read back as it was, whatever follows its closing quote, so the scan of a line that
is put together from plain code and escaped texts gives exactly these parts. Other quotes, comments
and line breaks in code are left to the code; a literal that is never closed, or is broken across
lines, stops the scan.
-/

namespace SessionScript.Script

/-- Reading a literal undoes escaping, and stops right behind the closing quote. -/
theorem readLiteral_escape (s rest : List Char) :
    readLiteral (s.flatMap escapeChar ++ '\'' :: rest) = some (s, rest) := by
  induction s with
  | nil =>
    rw [List.flatMap_nil, List.nil_append, readLiteral.eq_def]
    simp
  | cons c s ih =>
    have hc : ∀ cs, readLiteral (escapeChar c ++ cs) = consLiteral c (readLiteral cs) := by
      intro cs
      by_cases hback : c = '\\'
      · subst hback; rfl
      by_cases hquote : c = '\''
      · subst hquote; rfl
      by_cases hfeed : c = '\n'
      · subst hfeed; rfl
      by_cases hreturn : c = '\r'
      · subst hreturn; rfl
      rw [escapeChar, if_neg hback, if_neg hquote, if_neg hfeed, if_neg hreturn,
        List.singleton_append, readLiteral.eq_def]
      simp [hback, hquote, hfeed, hreturn]
    rw [List.flatMap_cons, List.append_assoc, hc, ih]
    rfl

/-- Reading a literal gives the text that was escaped. -/
theorem readLiteral_escaped (s : String) (rest : List Char) :
    readLiteral ((escape s).toList ++ '\'' :: rest) = some (s.toList, rest) := by
  rw [escape, String.toList_ofList]
  exact readLiteral_escape s.toList rest

/-- A literal that is read takes at least its closing quote from the text. -/
theorem readLiteral_length {cs s rest : List Char} (h : readLiteral cs = some (s, rest)) :
    rest.length < cs.length := by
  have hcons : ∀ {c cs s}, consLiteral c (readLiteral cs) = some (s, rest) →
      ∃ s', readLiteral cs = some (s', rest) := by
    intro c cs s h
    unfold consLiteral at h
    split at h
    · rename_i s' rest' hr
      cases h
      exact ⟨s', hr⟩
    · cases h
  fun_induction readLiteral cs generalizing s with
  | case1 => cases h
  | case2 => cases h; simp
  | case3 => cases h
  | case4 e cs _ ih =>
    obtain ⟨s', hs⟩ := hcons h
    have hl := ih hs
    simp only [List.length_cons]
    omega
  | case5 => cases h
  | case6 c cs _ _ _ ih =>
    obtain ⟨s', hs⟩ := hcons h
    have hl := ih hs
    simp only [List.length_cons]
    omega

/-- A part of a scanned line. -/
inductive Piece where
  /-- One character of code. -/
  | code (c : Char)
  /-- A literal, by the text that it stands for. -/
  | literal (text : String)
  /-- A literal that does not end, or not on its line; nothing behind it is scanned. -/
  | broken
  deriving DecidableEq

/-- Scan a line from left to right. -/
def scan : List Char → List Piece
  | [] => []
  | c :: cs =>
    if c = '\'' then
      match _h : readLiteral cs with
      | some (s, rest) => .literal (String.ofList s) :: scan rest
      | none => [.broken]
    else .code c :: scan cs
termination_by cs => cs.length
decreasing_by
  · have hl := readLiteral_length _h
    simp only [List.length_cons]
    omega
  · simp

/-- The pieces of plain code. -/
def plain (s : String) : List Piece := s.toList.map .code

/-- The pieces of a line of code. -/
def pieces (value : String) : List Piece := scan value.toList

@[simp]
theorem scan_nil : scan [] = [] := by rw [scan]

/-- Any character but the quote is code. -/
@[simp]
theorem scan_code {c : Char} (hc : c ≠ '\'') (cs : List Char) :
    scan (c :: cs) = .code c :: scan cs := by
  rw [scan, if_neg hc]

/-- An escaped text between quotes is one literal. -/
@[simp]
theorem scan_quoted (s : String) (cs : List Char) :
    scan ('\'' :: ((escape s).toList ++ '\'' :: cs)) = .literal s :: scan cs := by
  have hr := readLiteral_escaped s cs
  rw [scan, if_pos rfl]
  split
  · rename_i s' rest h
    rw [hr] at h
    cases h
    rw [String.ofList_toList]
  · rename_i h
    rw [hr] at h
    cases h

/-- A stretch of code without quotes is scanned as it stands. -/
theorem scan_append {s : List Char} (hs : '\'' ∉ s) (cs : List Char) :
    scan (s ++ cs) = s.map .code ++ scan cs := by
  induction s with
  | nil => rfl
  | cons c s ih =>
    have hc : c ≠ '\'' := fun h => hs (by simp [h])
    have hrest := ih fun h => hs (List.mem_cons_of_mem c h)
    rw [List.cons_append, scan_code hc, hrest]
    rfl

/-- A text spells pieces when it is scanned as these pieces, whatever follows it. -/
def Spells (s : String) (ps : List Piece) : Prop :=
  ∀ cs, scan (s.toList ++ cs) = ps ++ scan cs

/-- Code without quotes spells itself. -/
theorem spells_plain {s : String} (hs : '\'' ∉ s.toList) : Spells s (plain s) :=
  scan_append hs

/-- Texts in a row spell their pieces in a row. -/
theorem Spells.append {s t : String} {ps qs : List Piece} (hs : Spells s ps) (ht : Spells t qs) :
    Spells (s ++ t) (ps ++ qs) := by
  intro cs
  rw [String.toList_append, List.append_assoc, hs, ht, List.append_assoc]

/-- A line that spells pieces has these pieces. -/
theorem Spells.pieces {s : String} {ps : List Piece} (hs : Spells s ps) : pieces s = ps := by
  have h := hs []
  rwa [List.append_nil, scan_nil, List.append_nil] at h

/-- A text that needs no escaping stands for itself. -/
theorem escape_self {s : String} (hs : s.toList.all (fun c => escapeChar c = [c]) = true) :
    escape s = s := by
  have hall : s.toList.flatMap escapeChar = s.toList := by
    revert hs
    induction s.toList with
    | nil => intro _; rfl
    | cons c cs ih =>
      intro hs
      rw [List.all_cons, Bool.and_eq_true, decide_eq_true_eq] at hs
      rw [List.flatMap_cons, hs.1, ih hs.2]
      rfl
  rw [escape, hall, String.ofList_toList]

end SessionScript.Script
