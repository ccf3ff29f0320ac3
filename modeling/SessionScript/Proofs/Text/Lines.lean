import SessionScript.Text.Utf8

/-!
# Lines of a file

A text is decoded from its own bytes, and a text that is decoded from the first bytes of another one
is the beginning of that one. Texts without control characters are written as lines that are read
back as they are, and the lines of a file that was cut off are the first of its lines, the last one
possibly cut off too.
-/

namespace SessionScript.Text

/-- A character that is no control character below the space. -/
def IsPrintable (c : Char) : Prop := 0x20 ≤ c.toNat

instance (c : Char) : Decidable (IsPrintable c) := inferInstanceAs (Decidable (0x20 ≤ c.toNat))

/-- All characters of a list can be printed when a check of each says so. -/
theorem isPrintable_of_all {cs : List Char} (h : cs.all (fun c => decide (IsPrintable c)) = true) :
    ∀ c ∈ cs, IsPrintable c :=
  fun c hc => of_decide_eq_true (List.all_eq_true.mp h c hc)

section Bytes

/-- The bytes of an array are taken one by one. -/
theorem toList_loop (bs : ByteArray) (i : Nat) (taken : Bytes) :
    ByteArray.toList.loop bs i taken = taken.reverse ++ bs.data.toList.drop i := by
  fun_induction ByteArray.toList.loop bs i taken with
  | case1 i taken hi ih =>
    have hlen : i < bs.data.toList.length := hi
    have hget : bs.data.toList.drop i = bs.get! i :: bs.data.toList.drop (i + 1) := by
      rw [List.drop_eq_getElem_cons hlen]
      congr 1
      simp [ByteArray.get!, hi]
    rw [ih, hget, List.reverse_cons, List.append_assoc]
    rfl
  | case2 i taken hi =>
    have hlen : bs.data.toList.length ≤ i := Nat.le_of_not_lt hi
    rw [List.drop_eq_nil_of_le hlen, List.append_nil]

/-- The bytes of a text are those that it is kept as. -/
theorem encode_eq_data (s : String) : encode s = s.toByteArray.data.toList := by
  unfold encode ByteArray.toList
  rw [toList_loop, List.reverse_nil, List.nil_append, List.drop_zero, String.toUTF8_eq_toByteArray]

/-- The bytes of a text are those of its characters. -/
theorem encode_eq_flatMap (s : String) : encode s = s.toList.flatMap String.utf8EncodeChar := by
  rw [encode_eq_data, ← String.utf8Encode_toList, List.utf8Encode, List.toList_data_toByteArray]

/-- The bytes of two texts in a row are those of both. -/
theorem encode_append (s t : String) : encode (s ++ t) = encode s ++ encode t := by
  rw [encode_eq_flatMap, encode_eq_flatMap, encode_eq_flatMap, String.toList_append,
    List.flatMap_append]

/-- A text is decoded from its own bytes. -/
theorem decode?_encode (s : String) : decode? (encode s) = some s := by
  have hbytes : (⟨(encode s).toArray⟩ : ByteArray) = s.toByteArray := by
    rw [encode_eq_data, Array.toArray_toList]
  rw [decode?, hbytes, String.fromUTF8?, dif_pos s.isValidUTF8]
  rfl

/-- A text that is decoded has the bytes it was decoded from. -/
theorem encode_of_decode? {bs : Bytes} {s : String} (h : decode? bs = some s) : encode s = bs := by
  unfold decode? String.fromUTF8? at h
  split at h
  · cases h
    rw [encode_eq_data]
    simp [String.fromUTF8]
  · cases h

/-- A text that is decoded from the first bytes of another one is the beginning of that one. -/
theorem isPrefix_of_decode? {bs : Bytes} {s t : String} (h : decode? bs = some t)
    (hbs : bs <+: encode s) : t.toList <+: s.toList := by
  obtain ⟨more, hmore⟩ := hbs
  rw [← encode_of_decode? h, encode_eq_data, encode_eq_data] at hmore
  refine List.isPrefix_of_utf8Encode_append_eq_utf8Encode more.toByteArray ?_
  rw [String.utf8Encode_toList, String.utf8Encode_toList]
  apply ByteArray.ext
  rw [← Array.toList_inj, ByteArray.toList_data_append, List.toList_data_toByteArray]
  exact hmore

/-- A byte below 128 of a character is the character itself. -/
theorem toNat_of_mem_utf8EncodeChar {c : Char} {b : UInt8} (hb : b ∈ String.utf8EncodeChar c)
    (hascii : b.toNat < 0x80) : c.toNat = b.toNat := by
  change c.val.toNat = b.toNat
  unfold String.utf8EncodeChar at hb
  dsimp only at hb
  generalize c.val.toNat = v at hb
  split at hb
  · rw [List.mem_singleton.mp hb, UInt8.toNat_ofNat']
    omega
  -- all bytes of a longer form are at least 128
  · exfalso
    split at hb
    · simp only [List.mem_cons, List.not_mem_nil, or_false] at hb
      rcases hb with rfl | rfl <;> rw [UInt8.toNat_ofNat'] at hascii <;> omega
    · split at hb
      · simp only [List.mem_cons, List.not_mem_nil, or_false] at hb
        rcases hb with rfl | rfl | rfl <;> rw [UInt8.toNat_ofNat'] at hascii <;> omega
      · simp only [List.mem_cons, List.not_mem_nil, or_false] at hb
        rcases hb with rfl | rfl | rfl | rfl <;> rw [UInt8.toNat_ofNat'] at hascii <;> omega

/-- No byte of a character that can be printed is a control character. -/
theorem utf8EncodeChar_printable {c : Char} (hc : IsPrintable c) :
    ∀ b ∈ String.utf8EncodeChar c, 0x20 ≤ b.toNat := by
  refine fun b hb => Nat.le_of_not_lt fun hlow => ?_
  have heq := toNat_of_mem_utf8EncodeChar hb (by omega)
  unfold IsPrintable at hc
  omega

/-- A text without an ASCII character has no byte of it. -/
theorem not_mem_encode {s : String} {c : Char} (hascii : c.toNat < 0x80) (hc : c ∉ s.toList) :
    c.toNat.toUInt8 ∉ encode s := by
  intro hb
  rw [encode_eq_flatMap] at hb
  obtain ⟨d, hd, hb⟩ := List.mem_flatMap.mp hb
  have hbyte : c.toNat.toUInt8.toNat = c.toNat := by
    rw [UInt8.toNat_ofNat']
    omega
  have heq := toNat_of_mem_utf8EncodeChar hb (by omega)
  rw [hbyte] at heq
  exact hc (Char.toNat_inj.mp heq ▸ hd)

end Bytes

section Lines

/-- The bytes of a line that has no control characters. -/
def IsLine (line : Bytes) : Prop := ∀ b ∈ line, 0x20 ≤ b.toNat

/-- A text without control characters is a line. -/
theorem isLine_encode {s : String} (h : ∀ c ∈ s.toList, IsPrintable c) : IsLine (encode s) := by
  intro b hb
  rw [encode_eq_flatMap] at hb
  obtain ⟨c, hc, hb⟩ := List.mem_flatMap.mp hb
  exact utf8EncodeChar_printable (h c hc) b hb

/-- A line has no line feed within itself. -/
theorem IsLine.feed_not_mem {line : Bytes} (h : IsLine line) : lineFeed ∉ line :=
  fun hfeed => absurd (h lineFeed hfeed) (by decide)

/-- Bytes without a line feed belong to the current line. -/
theorem linesFrom_append {line : Bytes} (h : lineFeed ∉ line) (taken rest : Bytes) :
    linesFrom taken (line ++ rest) = linesFrom (line.reverse ++ taken) rest := by
  induction line generalizing taken with
  | nil => rfl
  | cons b line ih =>
    obtain ⟨hb, hline⟩ := not_or.mp (mt List.mem_cons.mpr h)
    rw [List.cons_append, linesFrom, if_neg (Ne.symm hb), ih hline, List.reverse_cons,
      List.append_assoc]
    rfl

/-- Bytes in front of the first line feed are the first line. -/
theorem lines_append_feed {line : Bytes} (h : lineFeed ∉ line) (rest : Bytes) :
    lines (line ++ lineFeed :: rest) = stripReturn line :: lines rest := by
  rw [lines, linesFrom_append h, List.append_nil, linesFrom, if_pos rfl, List.reverse_reverse]
  rfl

/-- A line keeps all its bytes. -/
theorem stripReturn_line {line : Bytes} (h : IsLine line) : stripReturn line = line := by
  unfold stripReturn
  rw [if_neg]
  intro hlast
  have hreturn := h carriageReturn (List.mem_of_getLast? hlast)
  exact absurd hreturn (by decide)

/-- A line with its end is the first of the lines. -/
theorem lines_cons {line : Bytes} (h : IsLine line) (rest : Bytes) :
    lines (line ++ lineFeed :: rest) = line :: lines rest := by
  rw [lines_append_feed h.feed_not_mem, stripReturn_line h]

/-- A line without its end is the last one. -/
theorem lines_last {line : Bytes} (h : IsLine line) (hne : line ≠ []) : lines line = [line] := by
  have hfrom := linesFrom_append h.feed_not_mem [] []
  rw [List.append_nil, List.append_nil] at hfrom
  rw [lines, hfrom, linesFrom, if_neg (by simpa using hne), List.reverse_reverse]

/-- The bytes of a file with the given lines. -/
def fileOf (ls : List Bytes) : Bytes := ls.flatMap (· ++ [lineFeed])

/-- The first line of a file stands in front of a line feed and the other lines. -/
theorem fileOf_cons (l : Bytes) (ls : List Bytes) :
    fileOf (l :: ls) = l ++ lineFeed :: fileOf ls := by
  rw [fileOf, List.flatMap_cons, List.append_assoc]
  rfl

/-- The first lines of a file are a beginning of it. -/
theorem fileOf_prefix {ls ls' : List Bytes} (h : ls <+: ls') : fileOf ls <+: fileOf ls' := by
  obtain ⟨more, rfl⟩ := h
  rw [fileOf, fileOf, List.flatMap_append]
  exact List.prefix_append _ _

/-- The lines of a file are read back. -/
theorem lines_fileOf {ls : List Bytes} (h : ∀ l ∈ ls, IsLine l) : lines (fileOf ls) = ls := by
  induction ls with
  | nil => rfl
  | cons l ls ih =>
    obtain ⟨hl, hls⟩ := List.forall_mem_cons.mp h
    rw [fileOf_cons, lines_cons hl, ih hls]

/-- The lines that are left of a file that was cut off. -/
inductive Cut : List Bytes → List Bytes → Prop where
  /-- Nothing is left of the lines. -/
  | none {ls : List Bytes} : Cut ls []
  /-- The beginning of the next line is left, possibly all of it. -/
  | last {l q : Bytes} {ls : List Bytes} : q <+: l → q ≠ [] → Cut (l :: ls) [q]
  /-- The next line is left. -/
  | line {l : Bytes} {ls cut : List Bytes} : Cut ls cut → Cut (l :: ls) (l :: cut)

/-- The lines of the beginning of a file are what is left of its lines. -/
theorem cut_lines {ls : List Bytes} (h : ∀ l ∈ ls, IsLine l) {bs : Bytes} (hbs : bs <+: fileOf ls) :
    Cut ls (lines bs) := by
  induction ls generalizing bs with
  | nil =>
    rw [List.prefix_nil.mp hbs]
    exact .none
  | cons l ls ih =>
    obtain ⟨hl, hls⟩ := List.forall_mem_cons.mp h
    rw [fileOf_cons] at hbs
    -- the cut is inside of the first line, or behind its end
    by_cases hlen : bs.length ≤ l.length
    · have hq : bs <+: l := List.prefix_of_prefix_length_le hbs (List.prefix_append l _) hlen
      by_cases hne : bs = []
      · rw [hne]
        exact .none
      · rw [lines_last (fun b hb => hl b (hq.subset hb)) hne]
        exact .last hq hne
    · obtain ⟨tail, rfl⟩ : l <+: bs :=
        List.prefix_of_prefix_length_le (List.prefix_append l _) hbs (by omega)
      have htail := (List.prefix_append_right_inj l).mp hbs
      cases tail with
      | nil => simp at hlen
      | cons b tail =>
        obtain ⟨rfl, hrest⟩ := List.cons_prefix_cons.mp htail
        rw [lines_cons hl]
        exact .line (ih hls hrest)

end Lines

end SessionScript.Text
