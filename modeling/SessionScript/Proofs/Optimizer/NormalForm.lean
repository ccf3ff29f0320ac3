import SessionScript.Proofs.Optimizer.Meaning
import Mathlib.Data.List.Chain

/-!
# The normal form of a session

A session is in normal form when no event of it is typing, and no two neighbours are waits for a
navigation or strokes of one modifier key in one frame. Shrinking gives sessions in normal form, and
leaves exactly these as they are. Each pass removes one of the three defects; that a later pass does
not bring back what an earlier one has removed is shown for any pair of tests, of which the later
one only drops events that the earlier one does not look at.
-/

namespace SessionScript.Optimizer

/-- Are both events waits for a navigation? -/
def BothNavigate (a b : Event) : Prop := a.action = .navigation ∧ b.action = .navigation

/-- Are both events strokes of one modifier key in one frame? -/
def BothHold (a b : Event) : Prop :=
  (a.action = .keydown ∧ b.action = .keydown) ∧
    (∃ key, Keyboard.isModifier key = true ∧ a.key = some key ∧ b.key = some key) ∧
      a.frameId = b.frameId

/-- A session that shrinking has nothing to do on. -/
structure IsNormal (events : List Event) : Prop where
  /-- No event types into an element. -/
  noTyping : ∀ e ∈ events, ¬Types e
  /-- No two neighbours are waits for a navigation. -/
  noDoubleWait : events.IsChain fun a b => ¬BothNavigate a b
  /-- No two neighbours are strokes of one modifier key in one frame. -/
  noHeldKey : events.IsChain fun a b => ¬BothHold a b

/-- The pass compares navigations as the normal form does. -/
theorem repeatsNavigation_iff (a b : Event) : repeatsNavigation a b = true ↔ BothNavigate a b := by
  simp [repeatsNavigation, BothNavigate, and_comm]

/-- The pass compares modifier keys as the normal form does. -/
theorem repeatsModifier_iff (a b : Event) : repeatsModifier a b = true ↔ BothHold a b := by
  simp only [repeatsModifier, Bool.and_eq_true, decide_eq_true_eq, Option.any_eq_true]
  constructor
  · rintro ⟨⟨⟨⟨hb, ha⟩, hkeys⟩, key, hkey, hmod⟩, hframe⟩
    exact ⟨⟨ha, hb⟩, ⟨key, hmod, hkeys ▸ hkey, hkey⟩, hframe.symm⟩
  · rintro ⟨⟨ha, hb⟩, ⟨key, hmod, hakey, hbkey⟩, hframe⟩
    exact ⟨⟨⟨⟨hb, ha⟩, hbkey.trans hakey.symm⟩, key, hbkey, hmod⟩, hframe.symm⟩

/-- What a pass that drops repeats keeps behind an event that it has kept. -/
def keptAfter (repeats : Event → Event → Bool) (last : Event) : List Event → List Event
  | [] => []
  | e :: events =>
    if repeats last e then keptAfter repeats last events else e :: keptAfter repeats e events

/-- The fold of a pass, from an event on that it has kept. -/
theorem foldl_dropStep (repeats : Event → Event → Bool) (last : Event) (kept events : List Event) :
    (events.foldl (dropStep repeats) (last :: kept)).reverse =
      kept.reverse ++ last :: keptAfter repeats last events := by
  induction events generalizing last kept with
  | nil => simp [keptAfter]
  | cons e events ih =>
    rw [List.foldl_cons, keptAfter]
    by_cases hr : repeats last e = true
    · have hstep : dropStep repeats (last :: kept) e = last :: kept := if_pos hr
      rw [hstep, ih, if_pos hr]
    · have hstep : dropStep repeats (last :: kept) e = e :: last :: kept := if_neg hr
      rw [hstep, ih, if_neg hr, List.reverse_cons, List.append_assoc]
      rfl

/-- The first event is kept, and the others are compared with what was kept last. -/
theorem dropRepeats_cons (repeats : Event → Event → Bool) (e : Event) (events : List Event) :
    dropRepeats repeats (e :: events) = e :: keptAfter repeats e events := by
  have h := foldl_dropStep repeats e [] events
  simpa [dropRepeats, dropStep] using h

section Passes

variable {repeats : Event → Event → Bool}

/-- A pass only drops events. -/
theorem keptAfter_sublist (last : Event) (events : List Event) :
    (keptAfter repeats last events).Sublist events := by
  induction events generalizing last with
  | nil => exact List.Sublist.slnil
  | cons e events ih =>
    rw [keptAfter]
    split
    · exact (ih last).cons e
    · exact (ih e).cons_cons e

/-- No two neighbours of what a pass keeps repeat each other. -/
theorem keptAfter_isChain (last : Event) (events : List Event) :
    (last :: keptAfter repeats last events).IsChain fun a b => ¬repeats a b = true := by
  induction events generalizing last with
  | nil => exact List.isChain_singleton last
  | cons e events ih =>
    rw [keptAfter]
    split
    · exact ih last
    · rename_i hr
      exact List.isChain_cons_cons.mpr ⟨hr, ih e⟩

/-- A pass keeps everything when no two neighbours repeat each other. -/
theorem keptAfter_eq_self {last : Event} {events : List Event}
    (h : (last :: events).IsChain fun a b => ¬repeats a b = true) :
    keptAfter repeats last events = events := by
  induction events generalizing last with
  | nil => rfl
  | cons e events ih =>
    obtain ⟨hr, hrest⟩ := List.isChain_cons_cons.mp h
    rw [keptAfter, if_neg hr, ih hrest]

/-- A pass brings no neighbours together that stand in a relation which its repeats take no part
in. Only behind an event with a repeat can an event get a new neighbour in front of it. -/
theorem keptAfter_keeps {related : Event → Event → Prop}
    (hfree : ∀ last e, repeats last e = true → ∀ x, ¬related last x)
    {last : Event} {events : List Event} (h : (last :: events).IsChain fun a b => ¬related a b) :
    (last :: keptAfter repeats last events).IsChain fun a b => ¬related a b := by
  induction events generalizing last with
  | nil => exact List.isChain_singleton last
  | cons e events ih =>
    obtain ⟨hn, hrest⟩ := List.isChain_cons_cons.mp h
    rw [keptAfter]
    split
    · rename_i hr
      apply ih
      -- `e` is gone, and what stood behind it now stands behind `last`
      cases events with
      | nil => exact List.isChain_singleton last
      | cons x events =>
        obtain ⟨-, htail⟩ := List.isChain_cons_cons.mp hrest
        exact List.isChain_cons_cons.mpr ⟨hfree last e hr x, htail⟩
    · exact List.isChain_cons_cons.mpr ⟨hn, ih hrest⟩

/-- A pass only drops events. -/
theorem dropRepeats_sublist (events : List Event) : (dropRepeats repeats events).Sublist events := by
  cases events with
  | nil => exact List.Sublist.slnil
  | cons e events =>
    rw [dropRepeats_cons]
    exact (keptAfter_sublist e events).cons_cons e

/-- No two neighbours repeat each other after a pass. -/
theorem dropRepeats_isChain (events : List Event) :
    (dropRepeats repeats events).IsChain fun a b => ¬repeats a b = true := by
  cases events with
  | nil => exact List.isChain_nil
  | cons e events =>
    rw [dropRepeats_cons]
    exact keptAfter_isChain e events

/-- A session without repeats passes unchanged. -/
theorem dropRepeats_eq_self {events : List Event}
    (h : events.IsChain fun a b => ¬repeats a b = true) : dropRepeats repeats events = events := by
  cases events with
  | nil => rfl
  | cons e events => rw [dropRepeats_cons, keptAfter_eq_self h]

/-- A pass keeps a session free of neighbours in a relation that its repeats take no part in. -/
theorem dropRepeats_keeps {related : Event → Event → Prop}
    (hfree : ∀ last e, repeats last e = true → ∀ x, ¬related last x) {events : List Event}
    (h : events.IsChain fun a b => ¬related a b) :
    (dropRepeats repeats events).IsChain fun a b => ¬related a b := by
  cases events with
  | nil => exact List.isChain_nil
  | cons e events =>
    rw [dropRepeats_cons]
    exact keptAfter_keeps hfree h

end Passes

/-- One step of taking typing together leaves no typing among what it keeps. -/
theorem squashStep_noTyping {kept : List Event} (hk : ∀ x ∈ kept, ¬Types x) (e : Event) :
    ∀ x ∈ squashStep kept e, ¬Types x := by
  have hfill : ∀ {x : Event}, x.action = .fill → ¬Types x := by
    intro x hx ht
    simp [Types, hx] at ht
  unfold squashStep
  split
  · split
    · rename_i last rest
      split
      · rename_i hb
        obtain ⟨hl, -⟩ := (Bool.and_eq_true _ _).mp hb
        exact List.forall_mem_cons.mpr
          ⟨hfill (of_decide_eq_true hl), (List.forall_mem_cons.mp hk).2⟩
      · exact List.forall_mem_cons.mpr ⟨hfill rfl, hk⟩
    · exact List.forall_mem_cons.mpr ⟨hfill rfl, by simp⟩
  · rename_i ht
    exact List.forall_mem_cons.mpr ⟨mt (isTyping_iff e).mpr ht, hk⟩

/-- No typing is left once typing has been taken together. -/
theorem squash_noTyping (events : List Event) : ∀ x ∈ squash events, ¬Types x := by
  have hfold : ∀ kept : List Event, (∀ x ∈ kept, ¬Types x) →
      ∀ x ∈ events.foldl squashStep kept, ¬Types x := by
    induction events with
    | nil => exact fun kept hk => hk
    | cons e events ih => exact fun kept hk => ih _ (squashStep_noTyping hk e)
  intro x hx
  exact hfold [] (by simp) x (List.mem_reverse.mp hx)

/-- A session without typing passes unchanged. -/
theorem squash_eq_self {events : List Event} (h : ∀ e ∈ events, ¬Types e) :
    squash events = events := by
  have hfold : ∀ kept : List Event, events.foldl squashStep kept = events.reverse ++ kept := by
    induction events with
    | nil => exact fun kept => rfl
    | cons e events ih =>
      intro kept
      obtain ⟨he, hrest⟩ := List.forall_mem_cons.mp h
      have hstep : squashStep kept e = e :: kept := if_neg (mt (isTyping_iff e).mp he)
      rw [List.foldl_cons, hstep, ih hrest, List.reverse_cons, List.append_assoc]
      rfl
  rw [squash, hfold, List.append_nil, List.reverse_reverse]

/-- A session is free of what a pass tests for exactly when it is free of what the test stands for. -/
theorem isChain_iff_of_test {repeats : Event → Event → Bool} {related : Event → Event → Prop}
    (ht : ∀ a b, repeats a b = true ↔ related a b) (events : List Event) :
    (events.IsChain fun a b => ¬repeats a b = true) ↔ events.IsChain fun a b => ¬related a b :=
  List.IsChain.iff fun a b => not_congr (ht a b)

/-- A shrunk session is in normal form. -/
theorem isNormal_optimize (events : List Event) : IsNormal (optimize events) := by
  have hwait : (dropNavigations (squash events)).IsChain fun a b => ¬BothNavigate a b :=
    (isChain_iff_of_test repeatsNavigation_iff _).mp (dropRepeats_isChain _)
  -- a dropped stroke of a key stands behind another one, which is no wait
  have hfree : ∀ last e, repeatsModifier last e = true → ∀ x, ¬BothNavigate last x := by
    intro last e hr x hb
    obtain ⟨⟨hl, -⟩, -⟩ := (repeatsModifier_iff last e).mp hr
    have hnav : last.action = .navigation := hb.1
    rw [hl] at hnav
    cases hnav
  have hsub : (optimize events).Sublist (squash events) :=
    (dropRepeats_sublist _).trans (dropRepeats_sublist _)
  exact
    { noTyping := fun e he => squash_noTyping events e (hsub.subset he)
      noDoubleWait := dropRepeats_keeps hfree hwait
      noHeldKey := (isChain_iff_of_test repeatsModifier_iff _).mp (dropRepeats_isChain _) }

/-- A session in normal form is left as it is. -/
theorem optimize_eq_self {events : List Event} (h : IsNormal events) : optimize events = events := by
  have hwait := (isChain_iff_of_test repeatsNavigation_iff events).mpr h.noDoubleWait
  have hheld := (isChain_iff_of_test repeatsModifier_iff events).mpr h.noHeldKey
  rw [optimize, squash_eq_self h.noTyping, dropNavigations, dropRepeats_eq_self hwait, dropModifiers,
    dropRepeats_eq_self hheld]

/-- Shrinking computes normal forms: its result is in normal form, exactly the sessions in normal
form are left as they are, and so shrinking twice is shrinking once. -/
theorem optimize_normal_form (events : List Event) :
    IsNormal (optimize events) ∧ (optimize events = events ↔ IsNormal events) ∧
      optimize (optimize events) = optimize events := by
  have hn := isNormal_optimize events
  refine ⟨hn, ⟨fun h => ?_, optimize_eq_self⟩, optimize_eq_self hn⟩
  rw [← h]
  exact hn

end SessionScript.Optimizer
