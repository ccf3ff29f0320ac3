import SessionScript.Proofs.Script.Literals

/-!
# Escaping and literals

What is escaped is read back from the literal it is put into, whatever stands behind the literal, so
different texts have different escapes. Character by character is also how escaping works: it goes
through texts that are appended, and it comes to the same as replacing one character after the other
everywhere in the text, as long as backslashes are the first to be replaced. A later replacement
then meets no character that an earlier one has written.
-/

namespace SessionScript.Script

/-- Write a text in place of a character, wherever it stands. -/
def replaceEach (c : Char) (text : List Char) (cs : List Char) : List Char :=
  cs.flatMap fun d => if d = c then text else [d]

/-- Replacing is done character by character. -/
theorem replaceEach_flatMap (c : Char) (text : List Char) (f : Char → List Char) (cs : List Char) :
    replaceEach c text (cs.flatMap f) = cs.flatMap fun d => replaceEach c text (f d) :=
  List.flatMap_assoc

/-- Escape a text by four replacements: of backslashes, quotes, line feeds and carriage returns. -/
def escapeInTurn (cs : List Char) : List Char :=
  replaceEach '\r' ['\\', 'r'] <| replaceEach '\n' ['\\', 'n'] <|
    replaceEach '\'' ['\\', '\''] <| replaceEach '\\' ['\\', '\\'] cs

/-- A character is escaped as if it stood alone. -/
theorem escapeInTurn_eq_flatMap (cs : List Char) :
    escapeInTurn cs = cs.flatMap fun c => escapeInTurn [c] := by
  have hsingle : ∀ c, replaceEach '\\' ['\\', '\\'] [c] = if c = '\\' then ['\\', '\\'] else [c] :=
    fun c => List.flatMap_singleton _ c
  simp only [escapeInTurn, hsingle, ← replaceEach_flatMap]
  rfl

/-- No replacement touches what an earlier one has written. -/
theorem escapeInTurn_singleton (c : Char) : escapeInTurn [c] = escapeChar c := by
  by_cases hback : c = '\\'
  · subst hback; rfl
  by_cases hquote : c = '\''
  · subst hquote; rfl
  by_cases hfeed : c = '\n'
  · subst hfeed; rfl
  by_cases hreturn : c = '\r'
  · subst hreturn; rfl
  simp [escapeInTurn, replaceEach, escapeChar, hback, hquote, hfeed, hreturn]

/-- Escaping replaces one character after the other. -/
theorem toList_escape (s : String) : (escape s).toList = escapeInTurn s.toList := by
  rw [escape, String.toList_ofList, escapeInTurn_eq_flatMap]
  simp only [escapeInTurn_singleton]

/-- Appended texts are escaped one by one. -/
theorem escape_append (s t : String) : escape (s ++ t) = escape s ++ escape t := by
  rw [escape, String.toList_append, List.flatMap_append, String.ofList_append]
  rfl

/-- Different texts have different escapes, since each is read back from its own. -/
theorem escape_injective : Function.Injective escape := by
  intro s t h
  have hs := readLiteral_escaped s []
  rw [h, readLiteral_escaped t []] at hs
  exact String.toList_injective (Prod.mk.inj (Option.some.inj hs)).1.symm

/-- Escaping is exactly undone by the literal that the text goes into: behind the opening quote, the
text is read back from its escape, up to the closing quote and whatever follows that. So escaping is
injective. It goes through texts that are appended, and is the work of four replacements in turn. -/
theorem literal_undoes_escaping :
    (∀ s t : String,
      readLiteral (escape s ++ "'" ++ t).toList = some (s.toList, t.toList)) ∧
    Function.Injective escape ∧
    (∀ a b : String, escape (a ++ b) = escape a ++ escape b) ∧
    ∀ s : String, (escape s).toList = escapeInTurn s.toList := by
  refine ⟨fun s t => ?_, escape_injective, escape_append, toList_escape⟩
  rw [String.toList_append, String.toList_append, List.append_assoc]
  exact readLiteral_escaped s t.toList

/-- A text that ends in a backslash does not take the closing quote of its literal in. -/
example : readLiteral (escape "a\\" ++ "'" ++ " + b").toList =
    some ("a\\".toList, " + b".toList) := by
  cbv

end SessionScript.Script
