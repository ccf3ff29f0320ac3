import SessionScript.Json.Shape
import SessionScript.Proofs.Json.Skipping

/-!
# Decoding from text

A decoder reads a value from a text in one pass, and need not build the document in between. It is
lawful when it nevertheless gives what decoding that document gives, and when the text behind the
value is of no importance. Words are decoded lawfully in both of their forms. Records are lawful
when their fields are: members with unknown keys are passed over, which succeeds since the document
could be read.
-/

namespace SessionScript.Json

/-- What a decoder from text has to do. -/
structure Decoder.Lawful {α : Type} (d : Decoder α) : Prop where
  /-- A value that the document gives is read from the text. -/
  agrees : ∀ {depth cs v rest a}, Reads depth cs v rest → d.ofJson v = .ok a →
    d.ofText depth cs = .ok (a, rest)
  /-- A value takes at least one character. -/
  takes : ∀ {depth cs a rest}, d.ofText depth cs = .ok (a, rest) → rest.length < cs.length
  /-- What follows the value is of no importance, a number at the end of the text excepted. -/
  stable : ∀ {depth cs a rest}, d.ofText depth cs = .ok (a, rest) → ∀ {more}, MayFollow rest more →
    d.ofText depth (cs ++ more) = .ok (a, rest ++ more)

section Values

/-- Strings are read as such. -/
theorem Reads.of_str {depth : Nat} {cs rest : List Char} {s : String}
    (h : Reads depth cs (.str s) rest) :
    ∃ tail, skipBlanks cs = '"' :: tail ∧ readString tail = .ok (s.toList, rest) := by
  cases h with
  | scalar hs =>
    generalize hcs : skipBlanks cs = start at hs
    cases hs with
    | string hread => exact ⟨_, rfl, by rw [hread, String.toList_ofList]⟩

/-- Numbers are read with or without a sign. -/
theorem Reads.of_num {depth : Nat} {cs rest : List Char} {n : Number}
    (h : Reads depth cs (.num n) rest) :
    (∃ tail, skipBlanks cs = '-' :: tail ∧ readUnsigned true tail = .ok (n, rest)) ∨
      ∃ c tail, skipBlanks cs = c :: tail ∧ c.isDigit = true ∧
        readUnsigned false (c :: tail) = .ok (n, rest) := by
  cases h with
  | scalar hs =>
    generalize hcs : skipBlanks cs = start at hs
    cases hs with
    | negative hread => exact .inl ⟨_, rfl, hread⟩
    | positive hc hread => exact .inr ⟨_, _, rfl, hc, hread⟩

/-- Only `null` starts like it. -/
theorem Reads.null_of_start {depth : Nat} {cs tail rest : List Char} {v : Json}
    (h : Reads depth cs v rest) (hcs : skipBlanks cs = 'n' :: tail) : v = .null := by
  cases h with
  | scalar hs =>
    rw [hcs] at hs
    cases hs with
    | null => rfl
    | positive hc _ => cases hc
  | array _ hopen _ _ => cases hcs.symm.trans hopen
  | object _ hopen _ _ => cases hcs.symm.trans hopen

/-- The word `null` is read as such. -/
theorem Reads.of_null {depth : Nat} {cs rest : List Char} (h : Reads depth cs .null rest) :
    skipBlanks cs = 'n' :: (['u', 'l', 'l'] ++ rest) := by
  cases h with
  | scalar hs =>
    generalize hcs : skipBlanks cs = start at hs
    cases hs with
    | null => rfl

/-- Arrays are read between their brackets. -/
theorem Reads.of_arr {depth : Nat} {cs rest : List Char} {items : List Json}
    (h : Reads depth cs (.arr items) rest) : ∃ tail mid, 1 < depth ∧ skipBlanks cs = '[' :: tail ∧
      ReadsItems (depth - 1) true tail items mid ∧ skipBlanks mid = ']' :: rest := by
  cases h with
  | scalar hs =>
    generalize skipBlanks cs = start at hs
    cases hs
  | array hdepth hopen hitems hclose => exact ⟨_, _, hdepth, hopen, hitems, hclose⟩

/-- Objects are read between their braces. -/
theorem Reads.of_obj {depth : Nat} {cs rest : List Char} {members : List (String × Json)}
    (h : Reads depth cs (.obj members) rest) : ∃ tail mid, 1 < depth ∧
      skipBlanks cs = '\x7b' :: tail ∧ ReadsMembers (depth - 1) true tail members mid ∧
      skipBlanks mid = '\x7d' :: rest := by
  cases h with
  | scalar hs =>
    generalize skipBlanks cs = start at hs
    cases hs
  | object hdepth hopen hmembers hclose => exact ⟨_, _, hdepth, hopen, hmembers, hclose⟩

/-- A decoder is lawful when it gives from text just what decoding the document gives. -/
theorem Decoder.Lawful.of_exact {α : Type} {d : Decoder α}
    (h : ∀ {depth cs a rest}, d.ofText depth cs = .ok (a, rest) ↔
      ∃ v, Reads depth cs v rest ∧ d.ofJson v = .ok a) : d.Lawful where
  agrees hread ha := h.mpr ⟨_, hread, ha⟩
  takes hd := by
    obtain ⟨v, hread, -⟩ := h.mp hd
    exact hread.length
  stable hd more hm := by
    obtain ⟨v, hread, ha⟩ := h.mp hd
    exact h.mpr ⟨v, hread.append hm, ha⟩

/-- A string is decoded from the text of a string. -/
theorem Decoder.text_ofText_iff {name s : String} {depth : Nat} {cs rest : List Char} :
    (Decoder.text name).ofText depth cs = .ok (s, rest) ↔ Reads depth cs (.str s) rest := by
  constructor
  · intro h
    simp only [Decoder.text] at h
    split at h
    · rename_i tail hcs
      obtain ⟨⟨s', rest'⟩, hs, heq⟩ := map_eq_ok.mp h
      obtain ⟨rfl, rfl⟩ := Prod.mk.inj heq
      exact .scalar (hcs ▸ .string hs)
    · cases h
  · intro hread
    obtain ⟨tail, hcs, hs⟩ := hread.of_str
    simp only [Decoder.text, hcs]
    exact map_eq_ok.mpr ⟨_, hs, by rw [String.ofList_toList]⟩

/-- Strings are decoded lawfully. -/
theorem Decoder.lawful_text (name : String) : (Decoder.text name).Lawful := by
  refine .of_exact fun {depth cs a rest} => ?_
  rw [Decoder.text_ofText_iff]
  constructor
  · intro hread
    exact ⟨.str a, hread, rfl⟩
  · rintro ⟨v, hread, ha⟩
    cases v with
    | str s =>
      cases ha
      exact hread
    | _ => cases ha

/-- Natural numbers are decoded lawfully. -/
theorem Decoder.lawful_natural (limit : Nat) (name : String) :
    (Decoder.natural limit name).Lawful := by
  refine .of_exact fun {depth cs a rest} => ?_
  constructor
  · intro h
    simp only [Decoder.natural] at h
    split at h
    · rename_i tail hcs
      split at h
      · cases h
      · rename_i n rest' hn
        split at h
        · rename_i m hm
          cases h
          exact ⟨.num n, .scalar (hcs ▸ .negative hn), hm⟩
        · cases h
    · rename_i hsign
      split at h
      · rename_i hdigit
        cases hcs : skipBlanks cs with
        | nil => simp [hcs, startsWithDigit] at hdigit
        | cons c tail =>
          rw [hcs] at h hdigit
          split at h
          · cases h
          · rename_i n rest' hn
            split at h
            · rename_i m hm
              cases h
              exact ⟨.num n, .scalar (hcs ▸ .positive hdigit hn), hm⟩
            · cases h
      · cases h
  · rintro ⟨v, hread, ha⟩
    cases v with
    | num n =>
      have hbelow : Decoder.naturalBelow limit name n = .ok a := ha
      rcases hread.of_num with ⟨tail, hcs, hn⟩ | ⟨c, tail, hcs, hc, hn⟩
      · simp only [Decoder.natural, hcs, hn, hbelow]
      · obtain ⟨-, -, -, hminus, -⟩ := ne_of_isDigit hc
        have hdigit : startsWithDigit (c :: tail) = true := hc
        simp [Decoder.natural, hcs, hminus, hdigit, hn, hbelow]
    | _ => cases ha

/-- Values that are read as a whole are decoded lawfully. -/
theorem Decoder.lawful_buffered {α : Type} (f : Json → Except Cause α) :
    (Decoder.buffered f).Lawful := by
  refine .of_exact fun {depth cs a rest} => ?_
  constructor
  · intro h
    obtain ⟨⟨v, rest'⟩, hread, h⟩ := bind_eq_ok.mp h
    dsimp only at h
    split at h
    · rename_i b hb
      cases h
      exact ⟨v, readValue_eq_ok_iff.mp hread, hb⟩
    · cases h
  · rintro ⟨v, hread, ha⟩
    have hf : f v = .ok a := ha
    refine bind_eq_ok.mpr ⟨_, readValue_eq_ok_iff.mpr hread, ?_⟩
    simp only [hf]
    rfl

/-- Documents of any kind are decoded lawfully. -/
theorem Decoder.lawful_any : Decoder.any.Lawful := by
  refine .of_exact fun {depth cs a rest} => ?_
  constructor
  · intro h
    obtain ⟨⟨v, rest'⟩, hread, heq⟩ := map_eq_ok.mp h
    obtain ⟨rfl, rfl⟩ := Prod.mk.inj heq
    exact ⟨v, readValue_eq_ok_iff.mp hread, rfl⟩
  · rintro ⟨v, hread, ha⟩
    cases ha
    exact map_eq_ok.mpr ⟨_, readValue_eq_ok_iff.mpr hread, rfl⟩

end Values

section Combinators

variable {α β : Type} {d : Decoder α}

/-- A lawful decoder stays lawful when its results are changed. -/
theorem Decoder.Lawful.map (h : d.Lawful) (f : α → β) : (d.map f).Lawful where
  agrees hread hb := by
    obtain ⟨a, ha, rfl⟩ := map_eq_ok.mp hb
    exact map_eq_ok.mpr ⟨_, h.agrees hread ha, rfl⟩
  takes hb := by
    obtain ⟨⟨a, rest⟩, ha, heq⟩ := map_eq_ok.mp hb
    obtain ⟨rfl, rfl⟩ := Prod.mk.inj heq
    exact h.takes ha
  stable hb more hm := by
    obtain ⟨⟨a, rest⟩, ha, heq⟩ := map_eq_ok.mp hb
    obtain ⟨rfl, rfl⟩ := Prod.mk.inj heq
    exact map_eq_ok.mpr ⟨_, h.stable ha hm, rfl⟩

/-- What a checked decoder gives is what the decoder and the check give. -/
theorem Decoder.refine_ofText_iff {f : α → Except Cause β} {depth : Nat} {cs rest : List Char}
    {b : β} : (d.refine f).ofText depth cs = .ok (b, rest) ↔
      ∃ a, d.ofText depth cs = .ok (a, rest) ∧ f a = .ok b := by
  constructor
  · intro h
    obtain ⟨⟨a, rest'⟩, hd, h⟩ := bind_eq_ok.mp h
    dsimp only at h
    split at h
    · rename_i b' hb
      cases h
      exact ⟨a, hd, hb⟩
    · cases h
  · rintro ⟨a, hd, hb⟩
    refine bind_eq_ok.mpr ⟨_, hd, ?_⟩
    simp only [hb]
    rfl

/-- A lawful decoder stays lawful when its results are checked. -/
theorem Decoder.Lawful.refine (h : d.Lawful) (f : α → Except Cause β) : (d.refine f).Lawful where
  agrees hread hb := by
    obtain ⟨a, ha, hf⟩ := bind_eq_ok.mp hb
    exact Decoder.refine_ofText_iff.mpr ⟨a, h.agrees hread ha, hf⟩
  takes hb := by
    obtain ⟨a, ha, -⟩ := Decoder.refine_ofText_iff.mp hb
    exact h.takes ha
  stable hb more hm := by
    obtain ⟨a, ha, hf⟩ := Decoder.refine_ofText_iff.mp hb
    exact Decoder.refine_ofText_iff.mpr ⟨a, h.stable ha hm, hf⟩

/-- The ways in which an optional value is decoded from text. -/
theorem Decoder.option_ofText_iff {depth : Nat} {cs rest : List Char} {a? : Option α} :
    d.option.ofText depth cs = .ok (a?, rest) ↔
      (skipBlanks cs = 'n' :: (['u', 'l', 'l'] ++ rest) ∧ a? = none) ∨
        ∃ a, (∀ tail, skipBlanks cs ≠ 'n' :: tail) ∧ d.ofText depth (skipBlanks cs) = .ok (a, rest) ∧
          a? = some a := by
  constructor
  · intro h
    simp only [Decoder.option] at h
    split at h
    · rename_i tail hcs
      obtain ⟨rest', hword, heq⟩ := map_eq_ok.mp h
      obtain ⟨rfl, rfl⟩ := Prod.mk.inj heq
      exact .inl ⟨by rw [hcs, readWord_eq_ok.mp hword], rfl⟩
    · rename_i hcs
      obtain ⟨⟨a, rest'⟩, hd, heq⟩ := map_eq_ok.mp h
      obtain ⟨rfl, rfl⟩ := Prod.mk.inj heq
      exact .inr ⟨a, fun tail htail => hcs tail htail, hd, rfl⟩
  · rintro (⟨hcs, rfl⟩ | ⟨a, hcs, hd, rfl⟩)
    · simp only [Decoder.option, hcs]
      exact map_eq_ok.mpr ⟨rest, readWord_eq_ok.mpr rfl, rfl⟩
    · simp only [Decoder.option]
      exact map_eq_ok.mpr ⟨_, hd, rfl⟩

/-- A lawful decoder stays lawful when its values become optional. -/
theorem Decoder.Lawful.option (h : d.Lawful) : d.option.Lawful where
  agrees {depth cs v rest a?} hread ha := by
    refine Decoder.option_ofText_iff.mpr ?_
    by_cases hv : v = .null
    · subst hv
      cases ha
      exact .inl ⟨hread.of_null, rfl⟩
    · have ha' : (d.ofJson v).map some = .ok a? := by
        cases v with
        | null => exact absurd rfl hv
        | _ => exact ha
      obtain ⟨a, hd, rfl⟩ := map_eq_ok.mp ha'
      refine .inr ⟨a, fun tail htail => hv (hread.null_of_start htail), ?_, rfl⟩
      exact h.agrees (reads_skipBlanks_iff.mpr hread) hd
  takes {depth cs a? rest} ha := by
    have hblanks := (skipBlanks_suffix cs).length_le
    rcases Decoder.option_ofText_iff.mp ha with ⟨hcs, -⟩ | ⟨a, -, hd, -⟩
    · have hlen := congrArg List.length hcs
      simp only [List.length_cons, List.length_append] at hlen
      omega
    · have hlen := h.takes hd
      omega
  stable {depth cs a? rest} ha more hm := by
    refine Decoder.option_ofText_iff.mpr ?_
    rcases Decoder.option_ofText_iff.mp ha with ⟨hcs, rfl⟩ | ⟨a, hne, hd, rfl⟩
    · exact .inl ⟨by rw [skipBlanks_append hcs more, List.append_assoc], rfl⟩
    · cases hcs : skipBlanks cs with
      | nil =>
        -- a value takes a character, so the text does not end in front of it
        have hlen := h.takes hd
        rw [hcs] at hlen
        cases hlen
      | cons c tail =>
        have hmore := skipBlanks_append hcs more
        have hstable := h.stable hd hm
        rw [hcs] at hstable hne
        refine .inr ⟨a, fun tail' htail => ?_, by rw [hmore]; exact hstable, rfl⟩
        rw [hmore] at htail
        cases htail
        exact hne tail rfl

end Combinators

section Words

variable {α : Type} {words : List (String × α)} {depth : Nat} {cs rest : List Char}

/-- An object with a key over `null` and nothing else, token by token. -/
theorem reads_onlyKey_iff {key : String} :
    Reads depth cs (.obj [(key, .null)]) rest ↔ ∃ tail mid tail' mid', 1 < depth ∧
      skipBlanks cs = '\x7b' :: tail ∧ NextKey true tail (some key) mid ∧
      skipBlanks mid = ':' :: tail' ∧ skipBlanks tail' = 'n' :: (['u', 'l', 'l'] ++ mid') ∧
      skipBlanks mid' = '\x7d' :: rest := by
  constructor
  · intro h
    obtain ⟨tail, mid, hdepth, hopen, hmembers, hclose⟩ := h.of_obj
    cases hmembers with
    | cons hkey hcolon hnull hend =>
      cases hend with
      | nil hnext =>
        cases hnext with
        | close hbrace =>
          cases hclose
          exact ⟨_, _, _, _, hdepth, hopen, hkey, hcolon, hnull.of_null, hbrace⟩
  · rintro ⟨tail, mid, tail', mid', hdepth, hopen, hkey, hcolon, hnull, hbrace⟩
    have hvalue : Reads (depth - 1) tail' .null mid' := .scalar (hnull ▸ .null)
    exact .object hdepth hopen (.cons hkey hcolon hvalue (.nil (.close hbrace))) rfl

/-- In front of an object, a word is decoded from its only key. -/
theorem Decoder.word_ofText_onlyKey {tail : List Char} {a : α}
    (hopen : skipBlanks cs = '\x7b' :: tail) :
    (Decoder.word words).ofText depth cs = .ok (a, rest) ↔
      ∃ key, Reads depth cs (.obj [(key, .null)]) rest ∧ Decoder.lookupWord words key = .ok a := by
  simp only [Decoder.word, hopen]
  constructor
  · intro h
    split at h
    · cases h
    · rename_i hdepth
      obtain ⟨⟨key?, mid⟩, hkey, h⟩ := bind_eq_ok.mp h
      dsimp only at h
      split at h
      · cases h
      · cases h
      · rename_i b hb
        obtain ⟨key, rfl, hword⟩ := Option.map_eq_some_iff.mp hb
        obtain ⟨_, hret, h⟩ := bind_eq_ok.mp h
        cases hret
        obtain ⟨tail', hcolon, h⟩ := bind_eq_ok.mp h
        split at h
        · rename_i tail'' hnull
          obtain ⟨mid', hrest, h⟩ := bind_eq_ok.mp h
          rw [readWord_eq_ok.mp hrest] at hnull
          split at h
          · cases h
          · rename_i hbrace
            cases h
            have hread := reads_onlyKey_iff.mpr ⟨tail, mid, tail', mid', Nat.lt_of_not_le hdepth,
              hopen, nextKey_eq_ok_iff.mp hkey, readColon_eq_ok.mp hcolon, hnull, hbrace⟩
            exact ⟨key, hread, hword⟩
          · cases h
        · cases h
  · rintro ⟨key, hread, hword⟩
    obtain ⟨tail', mid, tail'', mid', hdepth, hopen', hkey, hcolon, hnull, hbrace⟩ :=
      reads_onlyKey_iff.mp hread
    cases hopen.symm.trans hopen'
    rw [if_neg (Nat.not_le.mpr hdepth)]
    refine bind_eq_ok.mpr ⟨_, nextKey_eq_ok_iff.mpr hkey, ?_⟩
    simp only [Option.map_some, hword]
    refine bind_eq_ok.mpr ⟨_, rfl, bind_eq_ok.mpr ⟨_, readColon_eq_ok.mpr hcolon, ?_⟩⟩
    simp only [hnull]
    refine bind_eq_ok.mpr ⟨_, readWord_eq_ok.mpr rfl, ?_⟩
    simp only [hbrace]
    rfl

/-- An object that holds a word has it for its only key. -/
theorem Decoder.word_ofJson_obj {members : List (String × Json)} {a : α}
    (h : (Decoder.word words).ofJson (.obj members) = .ok a) :
    ∃ key, members = [(key, .null)] ∧ Decoder.lookupWord words key = .ok a := by
  match members, h with
  | [(key, value)], h =>
    obtain ⟨b, hb, h⟩ := bind_eq_ok.mp h
    split at h
    · cases h
      exact ⟨key, rfl, hb⟩
    · cases h

/-- Words are decoded lawfully, whether they stand as strings or as keys. -/
theorem Decoder.lawful_word (words : List (String × α)) : (Decoder.word words).Lawful := by
  refine .of_exact fun {depth cs a rest} => ?_
  constructor
  · intro h
    have hword := h
    simp only [Decoder.word] at h
    split at h
    · cases h
    · rename_i tail hcs
      obtain ⟨s, hs, ha⟩ := Decoder.refine_ofText_iff.mp h
      have hread := Decoder.text_ofText_iff.mp hs
      rw [← hcs, reads_skipBlanks_iff] at hread
      exact ⟨.str s, hread, ha⟩
    · rename_i tail hopen
      obtain ⟨key, hread, ha⟩ := (Decoder.word_ofText_onlyKey hopen).mp hword
      exact ⟨_, hread, bind_eq_ok.mpr ⟨a, ha, rfl⟩⟩
    · cases h
  · rintro ⟨v, hread, ha⟩
    cases v with
    | str s =>
      obtain ⟨tail, hcs, -⟩ := hread.of_str
      have hs := reads_skipBlanks_iff.mpr hread
      rw [hcs] at hs
      simp only [Decoder.word, hcs]
      exact Decoder.refine_ofText_iff.mpr ⟨s, Decoder.text_ofText_iff.mpr hs, ha⟩
    | obj members =>
      obtain ⟨key, rfl, hkey⟩ := Decoder.word_ofJson_obj ha
      obtain ⟨tail, _, _, _, _, hopen, _⟩ := reads_onlyKey_iff.mp hread
      exact (Decoder.word_ofText_onlyKey hopen).mpr ⟨key, hread, hkey⟩
    | _ => cases ha

end Words

end SessionScript.Json
