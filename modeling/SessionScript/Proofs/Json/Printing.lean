import Mathlib.Tactic.SplitIfs
import SessionScript.Json.Printer
import SessionScript.Proofs.Json.Reading
import SessionScript.Proofs.Text.Lines

/-!
# Reading what was written

The text of a document, in any layout, is read back as the document. Two things limit this: brackets
must not be nested too deeply, and a floating-point number must be one that its text gives back.
The text of a document without any space holds no control character, so it is a single line.
-/

namespace SessionScript.Json

/-- Does reading the text of a number give the number back? Whole numbers always come back. -/
def Number.IsLegible : Number → Prop
  | .whole _ => True
  | .float x => parse (Number.text (.float x)) = .ok (.num (.float x))

/-- A document whose text can be read back, with a limited number of open brackets. -/
inductive Legible : Nat → Json → Prop where
  /-- The word `null`. -/
  | null {depth : Nat} : Legible depth .null
  /-- A truth value. -/
  | bool {depth : Nat} {b : Bool} : Legible depth (.bool b)
  /-- A number that comes back. -/
  | num {depth : Nat} {n : Number} : n.IsLegible → Legible depth (.num n)
  /-- A string. -/
  | str {depth : Nat} {s : String} : Legible depth (.str s)
  /-- An array of such documents. -/
  | arr {depth : Nat} {items : List Json} : 1 < depth → (∀ v ∈ items, Legible (depth - 1) v) →
      Legible depth (.arr items)
  /-- An object of such documents. -/
  | obj {depth : Nat} {members : List (String × Json)} : 1 < depth →
      (∀ m ∈ members, Legible (depth - 1) m.2) → Legible depth (.obj members)

section Scalars

/-- No character of a number is a blank. -/
theorem isBlank_of_isNumberChar {c : Char} (h : isNumberChar c = true) : Text.isBlank c = false := by
  by_contra hblank
  simp only [Text.isBlank, Bool.not_eq_false, Bool.or_eq_true, decide_eq_true_eq] at hblank
  rcases hblank with ((rfl | rfl) | rfl) | rfl <;> revert h <;> decide

/-- No blanks are passed over in the text of a number. -/
theorem skipBlanks_numeric {cs : List Char} (h : ∀ c ∈ cs, isNumberChar c = true) :
    skipBlanks cs = cs := by
  cases cs with
  | nil => rfl
  | cons c cs =>
    have hc := isBlank_of_isNumberChar (h c List.mem_cons_self)
    exact List.dropWhile_cons_of_neg (by simp [hc])

/-- A floating-point number that comes back is read in front of any text that ends it. -/
theorem readsScalar_float {x : Binary64} (h : Number.IsLegible (.float x)) {rest : List Char}
    (hrest : endsNumber rest = true) :
    ReadsScalar ((Number.text (.float x)).toList ++ rest) (.num (.float x)) rest := by
  have hnumeric := isNumeric_text (.float x)
  obtain ⟨left, hread, hleft⟩ := finish_eq_ok.mp h
  cases readValue_eq_ok_iff.mp hread with
  | scalar hs =>
    rw [skipBlanks_numeric hnumeric] at hs
    obtain ⟨hsuffix, -, hmore⟩ := hs.stable
    -- what is left behind the number is part of its text, so it has no blanks and is empty
    rw [skipBlanks_numeric fun c hc => hnumeric c (hsuffix.mem hc)] at hleft
    subst hleft
    exact hmore rest fun _ => hrest

/-- A whole number is read in front of any text that ends it. -/
theorem readsScalar_whole (n : Whole) {rest : List Char} (hrest : endsNumber rest = true) :
    ReadsScalar (n.text.toList ++ rest) (.num (.whole n)) rest := by
  have hlimit : n.val.natAbs ≤ maxSignificand := by
    have hlower := n.lower
    have hupper := n.upper
    unfold maxSignificand
    omega
  have hread := readUnsigned_toDigits (decide (n.val < 0)) hlimit hrest
  rw [wholeNumber_natAbs n] at hread
  unfold Whole.text
  split
  · rename_i hneg
    rw [decide_eq_true hneg] at hread
    have htext : ("-" ++ String.ofList (Nat.toDigits 10 n.val.natAbs)).toList =
        '-' :: Nat.toDigits 10 n.val.natAbs := by simp
    rw [htext]
    exact .negative hread
  · rename_i hneg
    rw [decide_eq_false hneg] at hread
    obtain ⟨c, digits, hdigits⟩ := List.exists_cons_of_ne_nil (Nat.toDigits_ne_nil (n := n.val.natAbs))
    have hc : c.isDigit = true := isDigit_toDigits (by rw [hdigits]; exact List.mem_cons_self)
    rw [hdigits] at hread
    rw [String.toList_ofList, hdigits]
    exact .positive hc hread

/-- A number that comes back is read in front of any text that ends it. -/
theorem readsScalar_number {n : Number} (h : n.IsLegible) {rest : List Char}
    (hrest : endsNumber rest = true) : ReadsScalar (n.text.toList ++ rest) (.num n) rest := by
  cases n with
  | whole n => exact readsScalar_whole n hrest
  | float x => exact readsScalar_float h hrest

end Scalars

section Blanks

variable {blanks : List Char} (hblanks : ∀ c ∈ blanks, Text.isBlank c = true)

include hblanks

/-- Blanks are passed over. -/
theorem skipBlanks_blanks (cs : List Char) : skipBlanks (blanks ++ cs) = skipBlanks cs :=
  List.dropWhile_append_of_pos hblanks

/-- Blanks end a number. -/
theorem endsNumber_blanks {cs : List Char} (h : endsNumber cs = true) :
    endsNumber (blanks ++ cs) = true := by
  cases blanks with
  | nil => exact h
  | cons c blanks =>
    have hc := hblanks c List.mem_cons_self
    simp only [Text.isBlank, Bool.or_eq_true, decide_eq_true_eq] at hc
    rcases hc with ((rfl | rfl) | rfl) | rfl <;> rfl

/-- Blanks may stand in front of a document. -/
theorem Reads.after_blanks {depth : Nat} {cs rest : List Char} {v : Json}
    (h : Reads depth cs v rest) : Reads depth (blanks ++ cs) v rest := by
  rw [← reads_skipBlanks_iff, skipBlanks_blanks hblanks, reads_skipBlanks_iff]
  exact h

/-- Blanks may stand in front of a closing bracket. -/
theorem readsItems_close {depth : Nat} (first : Bool) (rest : List Char) :
    ReadsItems depth first (blanks ++ ']' :: rest) [] (']' :: rest) :=
  .nil (.close (skipBlanks_blanks hblanks _))

/-- Blanks may stand in front of a closing brace. -/
theorem readsMembers_close {depth : Nat} (first : Bool) (rest : List Char) :
    ReadsMembers depth first (blanks ++ '\x7d' :: rest) [] ('\x7d' :: rest) :=
  .nil (.close (skipBlanks_blanks hblanks _))

/-- Blanks may stand in front of a key. -/
theorem skipBlanks_key (key : String) (cs : List Char) :
    skipBlanks (blanks ++ (quoteChars key ++ cs)) =
      '"' :: (key.toList.flatMap escapeChar ++ '"' :: cs) := by
  rw [skipBlanks_blanks hblanks, quoteChars, List.cons_append, List.append_assoc]
  rfl

end Blanks

section Brackets

variable {depth : Nat} {cs mid rest : List Char}

/-- An item stands behind the opening bracket. -/
theorem Reads.firstItem {item : Json} {items : List Json} (h : Reads depth cs item mid)
    (hitems : ReadsItems depth false mid items rest) : ReadsItems depth true cs (item :: items) rest := by
  obtain ⟨c, tail, hcs, hc⟩ := h.start
  have hitem := reads_skipBlanks_iff.mpr h
  rw [hcs] at hitem
  exact .cons (.first hcs hc) hitem hitems

/-- An item stands behind a comma. -/
theorem Reads.nextItem {item : Json} {items : List Json} (h : Reads depth cs item mid)
    (hitems : ReadsItems depth false mid items rest) :
    ReadsItems depth false (',' :: cs) (item :: items) rest := by
  obtain ⟨c, tail, hcs, hc⟩ := h.start
  have hitem := reads_skipBlanks_iff.mpr h
  rw [hcs] at hitem
  exact .cons (.next rfl hcs hc) hitem hitems

variable {blanks : List Char} {value : Json} {members : List (String × Json)}

/-- A member stands behind the opening brace. -/
theorem Reads.firstMember (hblanks : ∀ c ∈ blanks, Text.isBlank c = true) (key : String)
    (h : Reads depth cs value mid) (hmembers : ReadsMembers depth false mid members rest) :
    ReadsMembers depth true (blanks ++ (quoteChars key ++ ':' :: cs)) ((key, value) :: members)
      rest := by
  have hkey := NextKey.first (skipBlanks_key hblanks key _) (readString_quoted key (':' :: cs))
  rw [String.ofList_toList] at hkey
  exact .cons hkey rfl h hmembers

/-- A member stands behind a comma. -/
theorem Reads.nextMember (hblanks : ∀ c ∈ blanks, Text.isBlank c = true) (key : String)
    (h : Reads depth cs value mid) (hmembers : ReadsMembers depth false mid members rest) :
    ReadsMembers depth false (',' :: (blanks ++ (quoteChars key ++ ':' :: cs)))
      ((key, value) :: members) rest := by
  have hcomma : skipBlanks (',' :: (blanks ++ (quoteChars key ++ ':' :: cs))) =
      ',' :: (blanks ++ (quoteChars key ++ ':' :: cs)) := rfl
  have hkey := NextKey.next hcomma (skipBlanks_key hblanks key _) (readString_quoted key (':' :: cs))
  rw [String.ofList_toList] at hkey
  exact .cons hkey rfl h hmembers

end Brackets

namespace Layout

variable (layout : Layout)

/-- A number ends where the items of an array go on. -/
theorem endsNumber_items (level : Nat) (items : List Json) (rest : List Char) :
    endsNumber (layout.items level items ++ rest) = true := by
  cases items with
  | nil =>
    rw [Layout.items, List.append_assoc]
    exact endsNumber_blanks (layout.lineBreak_blank level) rfl
  | cons v items => rfl

/-- A number ends where the members of an object go on. -/
theorem endsNumber_members (level : Nat) (members : List (String × Json)) (rest : List Char) :
    endsNumber (layout.members level members ++ rest) = true := by
  cases members with
  | nil =>
    rw [Layout.members, List.append_assoc]
    exact endsNumber_blanks (layout.lineBreak_blank level) rfl
  | cons m members => rfl

mutual

/-- The text of a legible document is read as the document. -/
theorem reads {depth : Nat} (level : Nat) {rest : List Char} (hrest : endsNumber rest = true) :
    ∀ v : Json, Legible depth v → Reads depth (layout.chars level v ++ rest) v rest
  | .null, _ => .scalar .null
  | .bool true, _ => .scalar .yes
  | .bool false, _ => .scalar .no
  | .num n, .num h => .of_scalar (readsScalar_number h hrest)
  | .str s, _ => by
    have hs := ReadsScalar.string (readString_quoted s rest)
    rw [String.ofList_toList] at hs
    rw [chars, quoteChars, List.cons_append, List.append_assoc]
    exact .scalar hs
  | .arr [], .arr hdepth _ => .array hdepth rfl (.nil (.close rfl)) rfl
  | .arr (v :: rest'), .arr hdepth h => by
    have hitems := readsItems level rest' (fun w hw => h w (List.mem_cons_of_mem v hw)) rest
    have hv := reads (level + 1) (layout.endsNumber_items level rest' rest) v
      (h v List.mem_cons_self)
    have hall := (hv.after_blanks (layout.lineBreak_blank (level + 1))).firstItem hitems
    rw [chars, List.cons_append, List.append_assoc, List.append_assoc]
    exact .array hdepth rfl hall rfl
  | .obj [], .obj hdepth _ => .object hdepth rfl (.nil (.close rfl)) rfl
  | .obj ((k, v) :: rest'), .obj hdepth h => by
    have hmembers := readsMembers level rest' (fun m hm => h m (List.mem_cons_of_mem (k, v) hm)) rest
    have hv := reads (level + 1) (layout.endsNumber_members level rest' rest) v
      (h (k, v) List.mem_cons_self)
    have hall := (hv.after_blanks layout.afterColon_blank).firstMember
      (layout.lineBreak_blank (level + 1)) k hmembers
    rw [chars]
    simp only [List.cons_append, List.append_assoc]
    exact .object hdepth rfl hall rfl

/-- The items of a legible array are read as such. -/
theorem readsItems {depth : Nat} (level : Nat) : ∀ items : List Json,
    (∀ v ∈ items, Legible depth v) →
    ∀ rest, ReadsItems depth false (layout.items level items ++ rest) items (']' :: rest)
  | [], _, rest => by
    rw [items, List.append_assoc]
    exact readsItems_close (layout.lineBreak_blank level) false rest
  | v :: rest', h, rest => by
    have hitems := readsItems level rest' (fun w hw => h w (List.mem_cons_of_mem v hw)) rest
    have hv := reads (level + 1) (layout.endsNumber_items level rest' rest) v
      (h v List.mem_cons_self)
    have hall := (hv.after_blanks (layout.lineBreak_blank (level + 1))).nextItem hitems
    rw [items, List.cons_append, List.append_assoc, List.append_assoc]
    exact hall

/-- The members of a legible object are read as such. -/
theorem readsMembers {depth : Nat} (level : Nat) : ∀ members : List (String × Json),
    (∀ m ∈ members, Legible depth m.2) →
    ∀ rest, ReadsMembers depth false (layout.members level members ++ rest) members ('\x7d' :: rest)
  | [], _, rest => by
    rw [members, List.append_assoc]
    exact readsMembers_close (layout.lineBreak_blank level) false rest
  | (k, v) :: rest', h, rest => by
    have hmembers := readsMembers level rest' (fun m hm => h m (List.mem_cons_of_mem (k, v) hm)) rest
    have hv := reads (level + 1) (layout.endsNumber_members level rest' rest) v
      (h (k, v) List.mem_cons_self)
    have hall := (hv.after_blanks layout.afterColon_blank).nextMember
      (layout.lineBreak_blank (level + 1)) k hmembers
    rw [members]
    simp only [List.cons_append, List.append_assoc]
    exact hall

end

/-- A legible document is what its text holds. -/
theorem reads_ofList {depth : Nat} {v : Json} (h : Legible depth v) (level : Nat) :
    Reads depth (String.ofList (layout.chars level v)).toList v [] := by
  have hend : endsNumber [] = true := rfl
  have hread := layout.reads level hend v h
  rw [List.append_nil] at hread
  rw [String.toList_ofList]
  exact hread

end Layout

/-- A legible document is read from its text without any space. -/
theorem parse_compact {v : Json} (h : Legible depthLimit v) : parse v.compact = .ok v :=
  finish_eq_ok.mpr ⟨[], readValue_eq_ok_iff.mpr (Layout.tight.reads_ofList h 0), rfl⟩

section Line

open Text (IsPrintable isPrintable_of_all)

/-- Digits to the base sixteen are no control characters. -/
theorem isPrintable_hexDigit (n : Nat) : IsPrintable (hexDigit n) := by
  have hall : ∀ m < 16, IsPrintable ((Nat.toDigits 16 m).headD '0') := by decide
  exact hall (n % 16) (Nat.mod_lt n (by decide))

/-- What is written for a character holds no control character. -/
theorem isPrintable_escapeChar (c : Char) : ∀ d ∈ escapeChar c, IsPrintable d := by
  unfold escapeChar
  split_ifs with hq hb hback htab hline hfeed hret hc
  · exact isPrintable_of_all rfl
  · exact isPrintable_of_all rfl
  · exact isPrintable_of_all rfl
  · exact isPrintable_of_all rfl
  · exact isPrintable_of_all rfl
  · exact isPrintable_of_all rfl
  · exact isPrintable_of_all rfl
  · have hmark : ∀ d ∈ ['\\', 'u', '0', '0'], IsPrintable d := isPrintable_of_all rfl
    refine List.forall_mem_append.mpr ⟨hmark, List.forall_mem_cons.mpr ⟨?_, ?_⟩⟩
    · exact isPrintable_hexDigit _
    · exact List.forall_mem_singleton.mpr (isPrintable_hexDigit _)
  · exact List.forall_mem_singleton.mpr (Nat.le_of_not_lt hc)

/-- The text of a string holds no control character. -/
theorem isPrintable_quoteChars (s : String) : ∀ c ∈ quoteChars s, IsPrintable c := by
  refine List.forall_mem_cons.mpr ⟨by decide, List.forall_mem_append.mpr ⟨?_, isPrintable_of_all rfl⟩⟩
  intro c hc
  obtain ⟨d, -, hd⟩ := List.mem_flatMap.mp hc
  exact isPrintable_escapeChar d c hd

/-- The text of a number holds no control character. -/
theorem isPrintable_number (n : Number) : ∀ c ∈ n.text.toList, IsPrintable c := by
  intro c hc
  have hnumeric := isNumeric_text n c hc
  simp only [isNumberChar, Bool.or_eq_true, List.contains_iff_mem] at hnumeric
  rcases hnumeric with hdigit | hmark
  · have hlower := (Char.isDigit_iff_toNat.mp hdigit).1
    exact Nat.le_trans (by decide) hlower
  · have hall : ∀ d ∈ "+-.einfNa".toList, IsPrintable d := isPrintable_of_all rfl
    exact hall c hmark

mutual

/-- The text of a document without any space holds no control character. -/
theorem isPrintable_tight (level : Nat) : ∀ v : Json, ∀ c ∈ Layout.tight.chars level v, IsPrintable c
  | .null => by unfold Layout.chars; exact isPrintable_of_all rfl
  | .bool true => by unfold Layout.chars; exact isPrintable_of_all rfl
  | .bool false => by unfold Layout.chars; exact isPrintable_of_all rfl
  | .num n => by
    rw [Layout.chars]
    exact isPrintable_number n
  | .str s => by
    rw [Layout.chars]
    exact isPrintable_quoteChars s
  | .arr [] => by unfold Layout.chars; exact isPrintable_of_all rfl
  | .arr (v :: rest) => by
    rw [Layout.chars, List.forall_mem_cons, List.forall_mem_append, List.forall_mem_append]
    exact ⟨by decide, nofun, isPrintable_tight (level + 1) v, isPrintable_tightItems level rest⟩
  | .obj [] => by unfold Layout.chars; exact isPrintable_of_all rfl
  | .obj ((k, v) :: rest) => by
    rw [Layout.chars, List.forall_mem_cons, List.forall_mem_append, List.forall_mem_append,
      List.forall_mem_cons, List.forall_mem_append, List.forall_mem_append]
    exact ⟨by decide, nofun, isPrintable_quoteChars k, by decide, nofun,
      isPrintable_tight (level + 1) v, isPrintable_tightMembers level rest⟩

/-- Nor do the items of an array. -/
theorem isPrintable_tightItems (level : Nat) : ∀ items : List Json,
    ∀ c ∈ Layout.tight.items level items, IsPrintable c
  | [] => by
    rw [Layout.items, List.forall_mem_append]
    exact ⟨nofun, isPrintable_of_all rfl⟩
  | v :: rest => by
    rw [Layout.items, List.forall_mem_cons, List.forall_mem_append, List.forall_mem_append]
    exact ⟨by decide, nofun, isPrintable_tight (level + 1) v, isPrintable_tightItems level rest⟩

/-- Nor do the members of an object. -/
theorem isPrintable_tightMembers (level : Nat) : ∀ members : List (String × Json),
    ∀ c ∈ Layout.tight.members level members, IsPrintable c
  | [] => by
    rw [Layout.members, List.forall_mem_append]
    exact ⟨nofun, isPrintable_of_all rfl⟩
  | (k, v) :: rest => by
    rw [Layout.members, List.forall_mem_cons, List.forall_mem_append, List.forall_mem_append,
      List.forall_mem_cons, List.forall_mem_append, List.forall_mem_append]
    exact ⟨by decide, nofun, isPrintable_quoteChars k, by decide, nofun,
      isPrintable_tight (level + 1) v, isPrintable_tightMembers level rest⟩

end

/-- The text of a document without any space holds no control character. -/
theorem isPrintable_compact (v : Json) : ∀ c ∈ v.compact.toList, IsPrintable c := by
  unfold compact
  rw [String.toList_ofList]
  exact isPrintable_tight 0 v

end Line

end SessionScript.Json
