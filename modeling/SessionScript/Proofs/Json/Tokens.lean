import Mathlib.Data.List.DropRight
import SessionScript.Json.Skip
import SessionScript.Proofs.Json.Numbers
import SessionScript.Proofs.Json.Strings

/-!
# The tokens of a document

What each of the small readers takes from the start of a text is listed once: the scalars, the ways
in which an array or an object goes on or ends, and the marks between a key and its value. None of
them looks further than to the end of what it takes; only behind a number that ends the text must
the text not go on with that number.
-/

namespace SessionScript.Json

/-- Two steps in a row succeed when both do. -/
theorem bind_eq_ok {ε α β : Type} {x : Except ε α} {f : α → Except ε β} {b : β} :
    (x >>= f) = .ok b ↔ ∃ a, x = .ok a ∧ f a = .ok b := by
  cases x with
  | error e => exact ⟨nofun, nofun⟩
  | ok a => exact ⟨fun h => ⟨a, rfl, h⟩, fun ⟨a', ha, hf⟩ => by cases ha; exact hf⟩

/-- A result is changed where there is one. -/
theorem map_eq_ok {ε α β : Type} {x : Except ε α} {f : α → β} {b : β} :
    x.map f = .ok b ↔ ∃ a, x = .ok a ∧ f a = b := by
  cases x with
  | error e => exact ⟨nofun, nofun⟩
  | ok a => exact ⟨fun h => ⟨a, rfl, by cases h; rfl⟩, fun ⟨a', ha, hf⟩ => by cases ha; cases hf; rfl⟩

section Tokens

/-- What is left behind blanks is the end of the text. -/
theorem skipBlanks_suffix (cs : List Char) : skipBlanks cs <:+ cs := List.dropWhile_suffix _

/-- No blanks are left behind blanks. -/
theorem skipBlanks_skipBlanks (cs : List Char) : skipBlanks (skipBlanks cs) = skipBlanks cs :=
  List.dropWhile_idempotent _ _

/-- Blanks are passed over up to the next token, whatever follows it. -/
theorem skipBlanks_append {cs tail : List Char} {c : Char} (h : skipBlanks cs = c :: tail)
    (more : List Char) : skipBlanks (cs ++ more) = c :: (tail ++ more) := by
  induction cs with
  | nil => cases h
  | cons d cs ih =>
    by_cases hd : Text.isBlank d = true
    · have hskip : ∀ cs, skipBlanks (d :: cs) = skipBlanks cs :=
        fun cs => List.dropWhile_cons_of_pos hd
      rw [hskip] at h
      rw [List.cons_append, hskip, ih h]
    · have hskip : ∀ cs, skipBlanks (d :: cs) = d :: cs := fun cs => List.dropWhile_cons_of_neg hd
      rw [hskip] at h
      cases h
      rw [List.cons_append, hskip]

/-- The text behind the next token is shorter. -/
theorem length_lt_of_skipBlanks {cs tail : List Char} {c : Char} (h : skipBlanks cs = c :: tail) :
    tail.length < cs.length := by
  have hle := (skipBlanks_suffix cs).length_le
  rw [h, List.length_cons] at hle
  exact hle

/-- The text is not at its end in front of a token. -/
theorem ne_nil_of_skipBlanks {cs tail : List Char} {c : Char} (h : skipBlanks cs = c :: tail) :
    cs ≠ [] := by
  rintro rfl
  cases h

/-- A word is read when the text starts with it. -/
theorem readWord_eq_ok {word cs rest : List Char} :
    readWord word cs = .ok rest ↔ cs = word ++ rest := by
  induction word generalizing cs with
  | nil => simp [readWord, eq_comm]
  | cons w word ih =>
    cases cs with
    | nil => simp [readWord]
    | cons c cs =>
      by_cases hc : c = w
      · simp [readWord, hc, ih]
      · simp [readWord, hc]

/-- The scalars that a text may start with, and the text behind each. -/
inductive ReadsScalar : List Char → Json → List Char → Prop where
  /-- The word `null`. -/
  | null {rest : List Char} : ReadsScalar ('n' :: (['u', 'l', 'l'] ++ rest)) .null rest
  /-- The word `true`. -/
  | yes {rest : List Char} : ReadsScalar ('t' :: (['r', 'u', 'e'] ++ rest)) (.bool true) rest
  /-- The word `false`. -/
  | no {rest : List Char} : ReadsScalar ('f' :: (['a', 'l', 's', 'e'] ++ rest)) (.bool false) rest
  /-- A number with a sign. -/
  | negative {cs rest : List Char} {n : Number} : readUnsigned true cs = .ok (n, rest) →
      ReadsScalar ('-' :: cs) (.num n) rest
  /-- A number without a sign. -/
  | positive {c : Char} {cs rest : List Char} {n : Number} : c.isDigit = true →
      readUnsigned false (c :: cs) = .ok (n, rest) → ReadsScalar (c :: cs) (.num n) rest
  /-- A string. -/
  | string {cs s rest : List Char} : readString cs = .ok (s, rest) →
      ReadsScalar ('"' :: cs) (.str (String.ofList s)) rest

/-- A digit is no other first character of a scalar. -/
theorem ne_of_isDigit {c : Char} (h : c.isDigit = true) :
    c ≠ 'n' ∧ c ≠ 't' ∧ c ≠ 'f' ∧ c ≠ '-' ∧ c ≠ '"' := by
  refine ⟨?_, ?_, ?_, ?_, ?_⟩ <;> (rintro rfl; revert h; decide)

/-- Scalars are read as they are listed. -/
theorem readScalar?_eq_ok_iff {cs rest : List Char} {v : Json} :
    readScalar? cs = some (.ok (v, rest)) ↔ ReadsScalar cs v rest := by
  constructor
  · intro h
    unfold readScalar? at h
    dsimp only at h
    split at h
    · obtain ⟨rest', hrest, heq⟩ := map_eq_ok.mp (Option.some.inj h)
      cases heq
      rw [readWord_eq_ok.mp hrest]
      exact .null
    · obtain ⟨rest', hrest, heq⟩ := map_eq_ok.mp (Option.some.inj h)
      cases heq
      rw [readWord_eq_ok.mp hrest]
      exact .yes
    · obtain ⟨rest', hrest, heq⟩ := map_eq_ok.mp (Option.some.inj h)
      cases heq
      rw [readWord_eq_ok.mp hrest]
      exact .no
    · obtain ⟨⟨n, rest'⟩, hrest, heq⟩ := map_eq_ok.mp (Option.some.inj h)
      cases heq
      exact .negative hrest
    · obtain ⟨⟨s, rest'⟩, hrest, heq⟩ := map_eq_ok.mp (Option.some.inj h)
      cases heq
      exact .string hrest
    · split at h
      · rename_i hc
        obtain ⟨⟨n, rest'⟩, hrest, heq⟩ := map_eq_ok.mp (Option.some.inj h)
        cases heq
        exact .positive hc hrest
      · cases h
    · cases h
  · intro h
    cases h with
    | null => rfl
    | yes => rfl
    | no => rfl
    | negative hn => simp [readScalar?, hn, Except.map]
    | positive hc hn =>
      obtain ⟨hnull, hyes, hno, hminus, hquote⟩ := ne_of_isDigit hc
      simp [readScalar?, hc, hn, Except.map]
    | string hs => simp [readScalar?, hs, Except.map]

/-- A scalar is read without looking further than to its end. -/
theorem ReadsScalar.stable {cs rest : List Char} {v : Json} (h : ReadsScalar cs v rest) :
    rest <:+ cs ∧ rest.length < cs.length ∧
      ∀ more, MayFollow rest more → ReadsScalar (cs ++ more) v (rest ++ more) := by
  cases h with
  | null => exact ⟨⟨['n', 'u', 'l', 'l'], rfl⟩, by simp; omega, fun more _ => .null⟩
  | yes => exact ⟨⟨['t', 'r', 'u', 'e'], rfl⟩, by simp; omega, fun more _ => .yes⟩
  | no => exact ⟨⟨['f', 'a', 'l', 's', 'e'], rfl⟩, by simp; omega, fun more _ => .no⟩
  | @negative cs rest n hn =>
    obtain ⟨hs, hmore⟩ := readUnsigned_stable true hn
    have hlen := hs.length_le
    refine ⟨hs.trans (List.suffix_cons _ cs), by simp only [List.length_cons]; omega, ?_⟩
    exact fun more hm => .negative (hmore more hm)
  | positive hc hn =>
    obtain ⟨hs, hmore⟩ := readUnsigned_stable false hn
    exact ⟨hs, readUnsigned_length hn, fun more hm => .positive hc (hmore more hm)⟩
  | @string cs s rest hs =>
    obtain ⟨hlen, hmore⟩ := readString_append hs
    obtain ⟨body, -, hcs⟩ := spelled_of_readString hs
    refine ⟨?_, by simp only [List.length_cons]; omega, fun more _ => .string (hmore more)⟩
    rw [hcs]
    exact ⟨'"' :: (body ++ ['"']), by simp⟩

/-- No scalar starts with a bracket. -/
theorem ReadsScalar.not_bracket {c : Char} {cs rest : List Char} {v : Json}
    (h : ReadsScalar (c :: cs) v rest) : c ≠ '[' ∧ c ≠ '\x7b' := by
  cases h with
  | positive hc _ => constructor <;> (rintro rfl; revert hc; decide)
  | _ => decide

/-- No scalar starts with a blank. -/
theorem ReadsScalar.skipBlanks {cs rest : List Char} {v : Json} (h : ReadsScalar cs v rest) :
    skipBlanks cs = cs := by
  cases h with
  | @positive c cs _ _ hc _ =>
    have hblank : Text.isBlank c = false := by
      by_contra hb
      simp only [Text.isBlank, Bool.not_eq_false, Bool.or_eq_true, decide_eq_true_eq] at hb
      rcases hb with ((rfl | rfl) | rfl) | rfl <;> cases hc
    exact List.dropWhile_cons_of_neg (by simp [hblank])
  | _ => rfl

/-- A scalar that can be read can be passed over. -/
theorem ReadsScalar.skip {cs rest : List Char} {v : Json} (h : ReadsScalar cs v rest) :
    skipScalar cs = .ok rest := by
  cases h with
  | null => rfl
  | yes => rfl
  | no => rfl
  | negative hn => exact skipUnsigned_of_readUnsigned hn
  | positive hc hn =>
    obtain ⟨hnull, hyes, hno, hminus, hquote⟩ := ne_of_isDigit hc
    simp [skipScalar, hc, skipUnsigned_of_readUnsigned hn]
  | string hs => exact skipString_of_readString hs

/-- A scalar is passed over without looking further than to its end. -/
theorem skipScalar_stable {cs rest : List Char} (h : skipScalar cs = .ok rest) :
    rest.length < cs.length ∧
      ∀ more, MayFollow rest more → skipScalar (cs ++ more) = .ok (rest ++ more) := by
  have hword : ∀ {c : Char} {word cs : List Char}, readWord word cs = .ok rest →
      rest.length < (c :: cs).length ∧ ∀ more, readWord word (cs ++ more) = .ok (rest ++ more) := by
    intro c word cs h
    have hcs := readWord_eq_ok.mp h
    subst hcs
    refine ⟨?_, fun more => readWord_eq_ok.mpr (List.append_assoc ..)⟩
    simp only [List.length_cons, List.length_append]
    omega
  unfold skipScalar at h
  split at h
  · exact ⟨(hword h).1, fun more _ => (hword (c := 'n') h).2 more⟩
  · exact ⟨(hword h).1, fun more _ => (hword (c := 't') h).2 more⟩
  · exact ⟨(hword h).1, fun more _ => (hword (c := 'f') h).2 more⟩
  · have hlen := skipUnsigned_length h
    exact ⟨by simp only [List.length_cons]; omega, (skipUnsigned_stable h).2⟩
  · obtain ⟨hlen, hmore⟩ := skipString_append h
    exact ⟨by simp only [List.length_cons]; omega, fun more _ => hmore more⟩
  · split at h
    · rename_i hc
      refine ⟨skipUnsigned_length h, fun more hm => ?_⟩
      have hmore := (skipUnsigned_stable h).2 more hm
      simpa [skipScalar, hc] using hmore
    · cases h
  · cases h

/-- The ways in which the items of an array go on or end. -/
inductive NextItem : Bool → List Char → Bool → List Char → Prop where
  /-- The closing bracket comes next. -/
  | close {first : Bool} {cs tail : List Char} : skipBlanks cs = ']' :: tail →
      NextItem first cs false (']' :: tail)
  /-- The first item comes next. -/
  | first {cs tail : List Char} {c : Char} : skipBlanks cs = c :: tail → c ≠ ']' →
      NextItem true cs true (c :: tail)
  /-- A comma comes next, and then another item. -/
  | next {cs tail rest : List Char} {c : Char} : skipBlanks cs = ',' :: tail →
      skipBlanks tail = c :: rest → c ≠ ']' → NextItem false cs true (c :: rest)

/-- The items of an array go on or end as they are listed. -/
theorem nextItem_eq_ok_iff {first goesOn : Bool} {cs rest : List Char} :
    nextItem first cs = .ok (goesOn, rest) ↔ NextItem first cs goesOn rest := by
  constructor
  · intro h
    unfold nextItem at h
    split at h
    · cases h
    · rename_i hcs
      cases h
      exact .close hcs
    · rename_i c tail hclose hcs
      cases first with
      | true =>
        cases h
        exact .first hcs hclose
      | false =>
        simp only [Bool.false_eq_true, if_false] at h
        split at h
        · rename_i hcomma
          subst hcomma
          split at h
          · cases h
          · cases h
          · rename_i hne hclose'
            cases h
            cases htail : skipBlanks tail with
            | nil => exact absurd htail hne
            | cons c rest => exact .next hcs htail fun hc => hclose' rest (by rw [htail, hc])
        · cases h
  · intro h
    cases h with
    | close hcs => simp [nextItem, hcs]
    | first hcs hc => simp [nextItem, hcs]
    | next hcs htail hc => simp [nextItem, hcs, htail, hc]

/-- Whether another item follows is decided by the next token or two. -/
theorem NextItem.stable {first goesOn : Bool} {cs rest : List Char}
    (h : NextItem first cs goesOn rest) :
    rest ≠ [] ∧ rest.length ≤ cs.length ∧ ∀ more, NextItem first (cs ++ more) goesOn (rest ++ more) := by
  cases h with
  | close hcs =>
    have hlen := length_lt_of_skipBlanks hcs
    exact ⟨by simp, hlen, fun more => .close (skipBlanks_append hcs more)⟩
  | first hcs hc =>
    have hlen := length_lt_of_skipBlanks hcs
    exact ⟨by simp, hlen, fun more => .first (skipBlanks_append hcs more) hc⟩
  | next hcs htail hc =>
    have hlen := length_lt_of_skipBlanks hcs
    have hlen' := length_lt_of_skipBlanks htail
    refine ⟨by simp, by simp only [List.length_cons]; omega, fun more => ?_⟩
    exact .next (skipBlanks_append hcs more) (skipBlanks_append htail more) hc

/-- Whether another item follows is not decided at the end of the text. -/
theorem NextItem.start_ne_nil {first goesOn : Bool} {cs rest : List Char}
    (h : NextItem first cs goesOn rest) : cs ≠ [] := by
  cases h with
  | close hcs => exact ne_nil_of_skipBlanks hcs
  | first hcs _ => exact ne_nil_of_skipBlanks hcs
  | next hcs _ _ => exact ne_nil_of_skipBlanks hcs

/-- The ways in which the members of an object go on or end. -/
inductive NextKey : Bool → List Char → Option String → List Char → Prop where
  /-- The closing brace comes next. -/
  | close {first : Bool} {cs tail : List Char} : skipBlanks cs = '\x7d' :: tail →
      NextKey first cs none ('\x7d' :: tail)
  /-- The key of the first member comes next. -/
  | first {cs tail s rest : List Char} : skipBlanks cs = '"' :: tail →
      readString tail = .ok (s, rest) → NextKey true cs (some (String.ofList s)) rest
  /-- A comma comes next, and then the key of another member. -/
  | next {cs tail tail' s rest : List Char} : skipBlanks cs = ',' :: tail →
      skipBlanks tail = '"' :: tail' → readString tail' = .ok (s, rest) →
      NextKey false cs (some (String.ofList s)) rest

/-- A key is a string. -/
theorem readKey_eq_ok {cs rest : List Char} {key : Option String} :
    readKey cs = .ok (key, rest) ↔
      ∃ s, readString cs = .ok (s, rest) ∧ key = some (String.ofList s) := by
  unfold readKey
  cases h : readString cs with
  | error e => simp
  | ok p =>
    obtain ⟨s, rest'⟩ := p
    simp only [Except.ok.injEq, Prod.mk.injEq]
    constructor
    · rintro ⟨rfl, rfl⟩
      exact ⟨s, ⟨rfl, rfl⟩, rfl⟩
    · rintro ⟨s', ⟨rfl, rfl⟩, rfl⟩
      exact ⟨rfl, rfl⟩

/-- The members of an object go on or end as they are listed. -/
theorem nextKey_eq_ok_iff {first : Bool} {cs rest : List Char} {key : Option String} :
    nextKey first cs = .ok (key, rest) ↔ NextKey first cs key rest := by
  constructor
  · intro h
    unfold nextKey at h
    split at h
    · cases h
    · rename_i hcs
      cases h
      exact .close hcs
    · rename_i c tail hclose hcs
      cases first with
      | true =>
        simp only [if_true] at h
        split at h
        · rename_i hquote
          subst hquote
          obtain ⟨s, hs, rfl⟩ := readKey_eq_ok.mp h
          exact .first hcs hs
        · cases h
      | false =>
        simp only [Bool.false_eq_true, if_false] at h
        split at h
        · rename_i hcomma
          subst hcomma
          split at h
          · cases h
          · rename_i htail
            obtain ⟨s, hs, rfl⟩ := readKey_eq_ok.mp h
            exact .next hcs htail hs
          · cases h
          · cases h
        · cases h
  · intro h
    cases h with
    | close hcs => simp [nextKey, hcs]
    | first hcs hs => simp [nextKey, hcs, readKey_eq_ok.mpr ⟨_, hs, rfl⟩]
    | next hcs htail hs => simp [nextKey, hcs, htail, readKey_eq_ok.mpr ⟨_, hs, rfl⟩]

/-- Whether another member follows, and its key, is decided by the next few tokens. -/
theorem NextKey.stable {first : Bool} {cs rest : List Char} {key : Option String}
    (h : NextKey first cs key rest) :
    (key = none → rest ≠ []) ∧ rest.length ≤ cs.length ∧
      ∀ more, NextKey first (cs ++ more) key (rest ++ more) := by
  cases h with
  | close hcs =>
    have hlen := length_lt_of_skipBlanks hcs
    exact ⟨by simp, hlen, fun more => .close (skipBlanks_append hcs more)⟩
  | first hcs hs =>
    have hlen := length_lt_of_skipBlanks hcs
    obtain ⟨hlen', hmore⟩ := readString_append hs
    exact ⟨nofun, by omega, fun more => .first (skipBlanks_append hcs more) (hmore more)⟩
  | next hcs htail hs =>
    have hlen := length_lt_of_skipBlanks hcs
    have hlen' := length_lt_of_skipBlanks htail
    obtain ⟨hlen'', hmore⟩ := readString_append hs
    refine ⟨nofun, by omega, fun more => ?_⟩
    exact .next (skipBlanks_append hcs more) (skipBlanks_append htail more) (hmore more)

/-- Whether another member follows is not decided at the end of the text. -/
theorem NextKey.start_ne_nil {first : Bool} {cs rest : List Char} {key : Option String}
    (h : NextKey first cs key rest) : cs ≠ [] := by
  cases h with
  | close hcs => exact ne_nil_of_skipBlanks hcs
  | first hcs _ => exact ne_nil_of_skipBlanks hcs
  | next hcs _ _ => exact ne_nil_of_skipBlanks hcs

/-- A colon is passed over. -/
theorem readColon_eq_ok {cs rest : List Char} :
    readColon cs = .ok rest ↔ skipBlanks cs = ':' :: rest := by
  unfold readColon
  split <;> simp_all

/-- A closing bracket is passed over. -/
theorem closeArray_eq_ok {cs rest : List Char} :
    closeArray cs = .ok rest ↔ skipBlanks cs = ']' :: rest := by
  unfold closeArray
  split
  · simp_all
  · simp_all
  · split <;> simp_all
  · simp_all

/-- A closing brace is passed over. -/
theorem closeObject_eq_ok {cs rest : List Char} :
    closeObject cs = .ok rest ↔ skipBlanks cs = '\x7d' :: rest := by
  unfold closeObject
  split <;> simp_all

/-- A text is read as a whole when nothing but blanks is left of it. -/
theorem finish_eq_ok {α : Type} {reading : Reading (α × List Char)} {a : α} :
    finish reading = .ok a ↔ ∃ rest, reading = .ok (a, rest) ∧ skipBlanks rest = [] := by
  cases reading with
  | error e => exact ⟨nofun, nofun⟩
  | ok p =>
    obtain ⟨b, rest⟩ := p
    unfold finish
    dsimp only
    cases hrest : skipBlanks rest with
    | nil => simp [hrest]
    | cons c tail => simp [hrest]

end Tokens

end SessionScript.Json
