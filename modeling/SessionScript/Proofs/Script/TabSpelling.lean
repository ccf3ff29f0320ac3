import Mathlib.Data.List.Forall2
import SessionScript.Compilation
import SessionScript.Proofs.Event.TabIds
import SessionScript.Proofs.Optimizer.Barriers

/-!
# Tab ids by number and by text

Recorders write the id of a tab as a number or as a text. A session says the same in both forms:
only events about tabs are read for an id, the id is the same, and nothing else of their payloads
matters, so neither the passes nor the walk can tell the two sessions apart.
-/

namespace SessionScript.Script

open Optimizer

/-- Is the event about a tab? -/
def ConcernsTab (e : Event) : Prop := e.action = .tabCreate ∨ e.action = .tabChange

/-- The second event is the first, or the first is about a tab and the second has its payload
written as a text, with white space around it. -/
inductive Retold : Event → Event → Prop where
  /-- The same event. -/
  | same {e : Event} : Retold e e
  /-- The payload as a text. -/
  | byText {e : Event} {p : Payload} {front back : String} : ConcernsTab e → e.value = some p →
      Text.IsWhite front → Text.IsWhite back →
      Retold e (e.withValue (.text (front ++ p.typed ++ back)))

/-- Two events are the same, or are about the same tab and differ in their payloads only. -/
def SameTab (e e' : Event) : Prop :=
  e = e' ∨ ConcernsTab e ∧ e'.tabId? = e.tabId? ∧ ∃ value, e' = { e with value }

/-- An event whose payload is written as a text is about the same tab. -/
theorem Retold.sameTab {e e' : Event} (h : Retold e e') : SameTab e e' := by
  cases h with
  | same => exact Or.inl rfl
  | byText htab hvalue hfront hback =>
    refine Or.inr ⟨htab, ?_, _, rfl⟩
    rw [Event.tabId?, Event.tabId?, hvalue]
    exact Payload.tabId?_text _ hfront hback

namespace SameTab

variable {e e' : Event}

theorem refl (e : Event) : SameTab e e := Or.inl rfl

theorem action (h : SameTab e e') : e.action = e'.action := by
  obtain rfl | ⟨-, -, value, rfl⟩ := h <;> rfl

theorem frameId (h : SameTab e e') : e.frameId = e'.frameId := by
  obtain rfl | ⟨-, -, value, rfl⟩ := h <;> rfl

theorem frame (h : SameTab e e') : e.frame = e'.frame := by
  rw [Event.frame, Event.frame, h.frameId]

theorem frameUrl (h : SameTab e e') : e.frameUrl = e'.frameUrl := by
  obtain rfl | ⟨-, -, value, rfl⟩ := h <;> rfl

theorem tabId? (h : SameTab e e') : e.tabId? = e'.tabId? := by
  obtain rfl | ⟨-, hid, -⟩ := h
  · rfl
  · exact hid.symm

/-- When the first event is about a tab, so is the second. -/
theorem concernsTab (h : SameTab e e') (htab : ConcernsTab e) : ConcernsTab e' := by
  rwa [ConcernsTab, ← h.action]

end SameTab

section Shrinking

/-- No rule of shrinking is about tabs. -/
theorem not_governs_of_concernsTab {e : Event} (h : ConcernsTab e) : ¬shrinking.Governs e := by
  have haction : ∀ {a : Action}, e.action = a → a = .tabCreate ∨ a = .tabChange :=
    fun ha => ha ▸ h
  refine (not_governs_iff e).mpr ⟨?_, ?_, ?_, ?_⟩
  · rintro ⟨hkey | ⟨hchange, -⟩, -⟩
    · exact (haction hkey).elim nofun nofun
    · exact (haction hchange).elim nofun nofun
  · exact fun hfill => (haction hfill).elim nofun nofun
  · exact fun hwait => (haction hwait).elim nofun nofun
  · exact fun hstroke => (haction hstroke.1).elim nofun nofun

/-- One step of shrinking keeps sessions alike. -/
theorem step_sameTab {kept kept' : List Event} (hkept : List.Forall₂ SameTab kept kept')
    {e e' : Event} (h : SameTab e e') :
    List.Forall₂ SameTab (shrinking.step kept e) (shrinking.step kept' e') := by
  by_cases htab : ConcernsTab e
  · rw [Rule.step_other (not_governs_of_concernsTab htab),
      Rule.step_other (not_governs_of_concernsTab (h.concernsTab htab))]
    exact .cons h hkept
  · obtain rfl : e = e' := h.resolve_right fun hother => htab hother.1
    cases hkept with
    | nil => exact .cons (.refl _) .nil
    | @cons last last' rest rest' hlast hrest =>
      by_cases hlasttab : ConcernsTab last
      · -- an event about a tab takes nothing in
        have hnone := Rule.absorb_of_last (not_governs_of_concernsTab hlasttab) e
        have hnone' :=
          Rule.absorb_of_last (not_governs_of_concernsTab (hlast.concernsTab hlasttab)) e
        rw [Rule.step_kept hnone, Rule.step_kept hnone']
        exact .cons (.refl _) (.cons hlast hrest)
      · obtain rfl : last = last' := hlast.resolve_right fun hother => hlasttab hother.1
        cases htaken : shrinking.absorb? last e with
        | some taken =>
          rw [Rule.step_absorbed htaken, Rule.step_absorbed htaken]
          exact .cons (.refl _) hrest
        | none =>
          rw [Rule.step_kept htaken, Rule.step_kept htaken]
          exact .cons (.refl _) (.cons (.refl _) hrest)

/-- Sessions that are alike are so when they have been shrunk. -/
theorem optimize_sameTab {xs ys : List Event} (h : List.Forall₂ SameTab xs ys) :
    List.Forall₂ SameTab (optimize xs) (optimize ys) := by
  have hfold : ∀ {kept kept' : List Event}, List.Forall₂ SameTab kept kept' →
      List.Forall₂ SameTab (xs.foldl shrinking.step kept) (ys.foldl shrinking.step kept') := by
    induction h with
    | nil => exact fun hkept => hkept
    | cons he _ ih => exact fun hkept => ih (step_sameTab hkept he)
  rw [optimize_eq_run, optimize_eq_run]
  exact List.forall₂_reverse_iff.mpr (hfold .nil)

end Shrinking

section Walk

variable {d : Dialect} {o : Options}

/-- Events about the same tab change the progress alike. -/
theorem advance_sameTab {e e' : Event} (h : SameTab e e') (p : Progress) :
    (p.noteFrame e).advance e = (p.noteFrame e').advance e' := by
  have hnote : p.noteFrame e = p.noteFrame e' := by
    rw [Progress.noteFrame, Progress.noteFrame, h.frame, h.frameUrl]
  rw [hnote, Progress.advance, Progress.advance, h.action, h.tabId?]

/-- Events about the same tab give the same block. -/
theorem blockOf_sameTab {e e' : Event} (h : SameTab e e') (p : Progress) {next next' : Option Event}
    (hnext : opensTab next = opensTab next') : blockOf d o p e next = blockOf d o p e' next' := by
  have hcreate : ∀ {e : Event}, e.action = .tabCreate → ∀ next,
      blockOf d o p e next = some (tabCreateBlock e) := by
    intro e ha next
    rw [blockOf, ha]
  have hchange : ∀ {e : Event}, e.action = .tabChange → ∀ next,
      blockOf d o p e next = some (tabChangeBlock e (e.tabId?.map p.tabPosition)) := by
    intro e ha next
    rw [blockOf, ha]
  obtain rfl | ⟨htab, hid, value, rfl⟩ := h
  · rw [blockOf, blockOf, hnext]
  · obtain htab | htab := htab
    · rw [hcreate htab, hcreate (e := { e with value }) htab]
      rfl
    · rw [hchange htab, hchange (e := { e with value }) htab, hid]
      rfl

/-- The walk goes the same way through sessions that are alike. -/
theorem walk_sameTab {xs ys : List Event} (h : List.Forall₂ SameTab xs ys) (p : Progress) :
    walk d o p xs = walk d o p ys := by
  induction h generalizing p with
  | nil => rfl
  | @cons e e' rest rest' he hrest ih =>
    have hnext : opensTab rest.head? = opensTab rest'.head? := by
      cases hrest with
      | nil => rfl
      | cons hnext _ => simp only [opensTab, List.head?_cons, Option.any_some, hnext.action]
    have hnote : p.noteFrame e = p.noteFrame e' := by
      rw [Progress.noteFrame, Progress.noteFrame, he.frame, he.frameUrl]
    rw [walk, walk, advance_sameTab he, ih, hnote, blockOf_sameTab he _ hnext]

/-- Sessions that are alike have the same script. -/
theorem script_sameTab {xs ys : List Event} (h : List.Forall₂ SameTab xs ys) (d : Dialect)
    (o : Options) : script d o xs = script d o ys := by
  have hblocks : blocks d o xs = blocks d o ys := by
    rw [blocks, blocks, walk_sameTab h]
  rw [script, script, scriptLines, scriptLines, hblocks]

end Walk

open Compilation (compile)

/-- The id of a tab means the same as a number and as a text. When the payloads of events about tabs
are written as texts, with any white space around them, both scripts stay the same, and so do the
scripts of the session as it was recorded. For written as such a text, every payload is the id of
the same tab as before; a number is one just if it is a signed 64-bit whole number, so other numbers
are none in either form. -/
theorem tab_ids_by_text {xs ys : List Event} (h : List.Forall₂ Retold xs ys) (o : Options) :
    (compile o xs).puppeteer = (compile o ys).puppeteer ∧
      (compile o xs).playwright = (compile o ys).playwright ∧
      (∀ d, script d o xs = script d o ys) ∧
      (∀ (p : Payload) {front back : String}, Text.IsWhite front → Text.IsWhite back →
        (Payload.text (front ++ p.typed ++ back)).tabId? = p.tabId?) ∧
      ∀ n id, (Payload.number n).tabId? = some id ↔
        -0x8000000000000000 ≤ id ∧ id < 0x8000000000000000 ∧
          ∃ w : Json.Whole, n = .whole w ∧ w.val = id := by
  have hsame : List.Forall₂ SameTab xs ys := h.imp fun _ _ => Retold.sameTab
  have hshrunk := optimize_sameTab hsame
  exact ⟨script_sameTab hshrunk puppeteer o, script_sameTab hshrunk playwright o,
    fun d => script_sameTab hsame d o, fun p _ _ hfront hback => p.tabId?_text hfront hback,
    Payload.tabId?_number_iff⟩

/-- The id of a tab, as a number. -/
def minusSeven : Payload := .number (.whole ⟨-7, by decide, by decide⟩)

/-- A link that opens a tab, which then comes to the front. The id of the tab is given twice. -/
def openedTab (created changed : Payload) : List Event :=
  [ { action := .click, selector := some "a" },
    { action := .tabCreate, value := some created },
    { action := .tabChange, value := some changed } ]

/-- The script is the same whether the tab is opened under a number or under a text. -/
theorem openedTab_by_text :
    List.Forall₂ Retold (openedTab minusSeven minusSeven)
        (openedTab (.text " -7\n") minusSeven) ∧
      (compile {} (openedTab minusSeven minusSeven)).playwright =
        (compile {} (openedTab (.text " -7\n") minusSeven)).playwright := by
  have hfront : Text.IsWhite " " := by decide
  have hback : Text.IsWhite "\n" := by decide
  have htext : " " ++ minusSeven.typed ++ "\n" = " -7\n" := by decide
  have hretold : List.Forall₂ Retold (openedTab minusSeven minusSeven)
      (openedTab (.text " -7\n") minusSeven) := by
    rw [← htext]
    exact .cons .same (.cons (.byText (.inl rfl) rfl hfront hback) (.cons .same .nil))
  exact ⟨hretold, (tab_ids_by_text hretold {}).2.1⟩

end SessionScript.Script
