import SessionScript.Proofs.Optimizer.Runs

/-!
# Stretches of events that shrink to one

Typing goes on with the typing of the same element in front of it, a wait with the wait in front of
it, and a stroke of a held key with the stroke in front of it. Whether it does can be read off the
recorded neighbours. A stretch of events of which each goes on with the one before is shrunk to one
event, which is the first of them with the text of the last: so a session can be shrunk from its end
on, event by event.
-/

namespace SessionScript.Optimizer

namespace Rule

variable {p : Rule}

/-- Behind an event that does not take the next one in, a session is gone through on its own. -/
theorem run_kept {a b : Event} (h : p.absorb? (p.enter a) b = none) (rest : List Event) :
    p.run (a :: b :: rest) = p.enter a :: p.run (b :: rest) := by
  rw [run_cons, run_cons, List.foldl_cons, step_kept h, foldl_bottom, List.reverse_append]
  rfl

/-- When an event can stand for another one wherever that takes something in, it does so over a
whole session. -/
theorem foldl_standIn {f : Event → Event} {Stands : Event → Prop}
    (hf : ∀ x, Stands x → ∀ e, p.absorb? (f x) e = (p.absorb? x e).map f)
    (hs : ∀ x, Stands x → ∀ e, ∀ taken ∈ p.absorb? x e, Stands taken) {x : Event} (hx : Stands x)
    (events : List Event) :
    (events.foldl p.step [f x]).reverse = (events.foldl p.step [x]).reverse.modifyHead f := by
  induction events generalizing x with
  | nil => rfl
  | cons e events ih =>
    rw [List.foldl_cons, List.foldl_cons]
    cases h : p.absorb? x e with
    | some taken =>
      have hfx : p.absorb? (f x) e = some (f taken) := by rw [hf x hx, h]; rfl
      rw [step_absorbed h, step_absorbed hfx]
      exact ih (hs x hx e taken h)
    | none =>
      have hfx : p.absorb? (f x) e = none := by rw [hf x hx, h]; rfl
      rw [step_kept h, step_kept hfx, foldl_bottom, foldl_bottom _ _ [x], List.reverse_append,
        List.reverse_append]
      rfl

end Rule

instance (a b : Event) : Decidable (BothNavigate a b) := inferInstanceAs (Decidable (_ ∧ _))

instance (a b : Event) : Decidable (BothHold a b) :=
  decidable_of_iff _ (repeatsModifier_iff a b)

/-- Does an event go on with what the one in front of it does: with its typing, or with holding the
same key? -/
def Continues (a b : Event) : Prop :=
  (startsRun a = true ∧ continuesRun a b = true) ∨ BothHold a b

instance (a b : Event) : Decidable (Continues a b) := inferInstanceAs (Decidable (_ ∨ _))

/-- Neighbours that shrink to one event: the second goes on with the first, or both are waits. -/
def Merges (a b : Event) : Prop := Continues a b ∨ BothNavigate a b

/-- An event with the text of another one, if that is a fill. -/
def withTextOf (a x : Event) : Event :=
  if x.action = .fill then { a with action := .fill, value := x.value } else a

/-- What the passes make of an event on its own. -/
theorem shrinking_enter (e : Event) :
    shrinking.enter e = if Types e then asFill e (typedText e) else e := rfl

/-- What becomes of an event that takes the next one in. -/
theorem shrinking_absorb (last e : Event) :
    shrinking.absorb? last e =
      if Types e ∧ last.action = .fill ∧ targetOf last = targetOf e then
        some { last with value := some (.text (typedText e)) }
      else if BothNavigate last e ∨ BothHold last e then some last
      else none := by
  have hwait := repeatsNavigation_iff last e
  have hhold := repeatsModifier_iff last e
  change ((if _ then _ else _ : Option Event).or (if _ then _ else _)).or (if _ then _ else _) = _
  simp only [hwait, hhold]
  split
  · rfl
  · by_cases hn : BothNavigate last e <;> by_cases hm : BothHold last e <;> simp [hn, hm]

/-- Does an event stand for a stretch that another event starts? -/
def Represents (a x : Event) : Prop :=
  (x.action = .fill ∧ targetOf a = targetOf x) ∨ BothNavigate a x ∨ BothHold a x

/-- What stands for a stretch still does after it has taken an event in. -/
theorem Represents.absorb {a x e taken : Event} (h : Represents a x)
    (ht : taken ∈ shrinking.absorb? x e) : Represents a taken := by
  rw [shrinking_absorb] at ht
  split at ht
  · rename_i hfill
    cases ht
    rcases h with ⟨ha, hs⟩ | h | h
    · exact Or.inl ⟨ha, hs⟩
    · simp [hfill.2.1, BothNavigate] at h
    · simp [hfill.2.1, BothHold] at h
  · split at ht
    · cases ht
      exact h
    · cases ht

/-- The first event of a stretch with the text so far takes the same events in as what stands for
the stretch without it. -/
theorem Represents.absorb_withTextOf {a x : Event} (h : Represents a x) (e : Event) :
    shrinking.absorb? (withTextOf a x) e = (shrinking.absorb? x e).map (withTextOf a) := by
  rw [shrinking_absorb, shrinking_absorb]
  rcases h with ⟨hf, hs⟩ | ⟨ha, hx⟩ | ⟨⟨ha, hx⟩, ⟨key, hmod, hakey, hxkey⟩, hframe⟩
  · have hfill : withTextOf a x = { a with action := .fill, value := x.value } := if_pos hf
    have htarget : targetOf (withTextOf a x) = targetOf x := by
      rw [hfill]
      exact hs
    have hother : ∀ {y : Event}, y.action = .fill → ¬(BothNavigate y e ∨ BothHold y e) := by
      intro y hy
      simp [BothNavigate, BothHold, hy]
    have haction : (withTextOf a x).action = .fill := by rw [hfill]
    rw [if_neg (hother hf), if_neg (hother haction), htarget, haction, hf]
    split
    · simp [withTextOf, hf]
    · rfl
  · have hkeep : withTextOf a x = a := if_neg (by simp [hx])
    simp [hkeep, ha, hx, BothNavigate, BothHold]
  · have hkeep : withTextOf a x = a := if_neg (by simp [hx])
    simp [hkeep, ha, hx, BothNavigate, BothHold, hakey, hxkey, hframe]

/-- What starts a run of typing is entered as a fill of the same element. -/
theorem enter_of_starts {e : Event} (hs : startsRun e = true) :
    (shrinking.enter e).action = .fill ∧ targetOf (shrinking.enter e) = targetOf e ∧
      ∀ value, { shrinking.enter e with value } = { e with action := .fill, value } := by
  rw [shrinking_enter]
  by_cases ht : Types e
  · rw [if_pos ht]
    exact ⟨rfl, rfl, fun _ => rfl⟩
  · have hf : e.action = .fill := (of_decide_eq_true hs).resolve_right ht
    rw [if_neg ht]
    refine ⟨hf, rfl, fun value => ?_⟩
    cases e
    cases hf
    rfl

/-- All other events are entered as they are. -/
theorem enter_of_other {e : Event} (hs : startsRun e = false) : shrinking.enter e = e :=
  if_neg (not_or.mp (of_decide_eq_false hs)).2

/-- An event that leaves a mark is entered as it is. -/
theorem enter_of_mark {e : Event} {m : Mark} (hm : markOf? e = some m) : shrinking.enter e = e := by
  refine enter_of_other (decide_eq_false (not_or.mpr ⟨fun hf => ?_, fun ht => ?_⟩))
  · simp [markOf?_fill hf] at hm
  · simp [markOf?_typing ht] at hm

/-- What goes on with a fill is entered as a fill, and what goes on with a stroke as a stroke. -/
theorem Continues.action {a b : Event} (h : Continues a b) :
    (shrinking.enter a).action = (shrinking.enter b).action ∧
      ((shrinking.enter b).action = .fill ∨ (shrinking.enter b).action = .keydown) := by
  rcases h with ⟨hs, hc⟩ | hhold
  · have hb : shrinking.enter b = asFill b (typedText b) := if_pos (of_decide_eq_true hc).1
    rw [(enter_of_starts hs).1, hb]
    exact ⟨rfl, Or.inl rfl⟩
  · obtain ⟨m, ha, hb⟩ := repeatsModifier_mark a b ((repeatsModifier_iff a b).mpr hhold)
    rw [enter_of_mark ha, enter_of_mark hb, hhold.1.1, hhold.1.2]
    exact ⟨rfl, Or.inr rfl⟩

/-- A wait for a navigation is kept as it is. -/
theorem enter_of_bothNavigate {a b : Event} (h : BothNavigate a b) :
    (shrinking.enter b).action = .navigation := by
  obtain ⟨m, -, hb⟩ := repeatsNavigation_mark a b ((repeatsNavigation_iff a b).mpr h)
  rw [enter_of_mark hb]
  exact h.2

/-- An event that goes on with the one in front of it is taken in, and the first event of the two
gets the text of the second. -/
theorem Merges.absorb {a b : Event} (h : Merges a b) :
    Represents a (shrinking.enter b) ∧
      shrinking.absorb? (shrinking.enter a) b = some (withTextOf a (shrinking.enter b)) := by
  have hmarked : ∀ {m}, markOf? a = some m → markOf? b = some m →
      BothNavigate a b ∨ BothHold a b → Represents a (shrinking.enter b) ∧
        shrinking.absorb? (shrinking.enter a) b = some (withTextOf a (shrinking.enter b)) := by
    intro m ha hb hboth
    have hfill : b.action ≠ .fill := fun hf => by simp [markOf?_fill hf] at hb
    have htypes : ¬Types b := fun ht => by simp [markOf?_typing ht] at hb
    rw [enter_of_mark ha, enter_of_mark hb, shrinking_absorb, if_neg fun h => htypes h.1,
      if_pos hboth, withTextOf, if_neg hfill]
    exact ⟨Or.inr hboth, rfl⟩
  rcases h with (⟨hs, hc⟩ | hhold) | hnav
  · obtain ⟨ht, htarget⟩ := of_decide_eq_true hc
    have hb : shrinking.enter b = asFill b (typedText b) := if_pos ht
    obtain ⟨hfill, hsame, hvalue⟩ := enter_of_starts hs
    rw [hb, shrinking_absorb, if_pos ⟨ht, hfill, hsame.trans htarget⟩, hvalue]
    exact ⟨Or.inl ⟨rfl, htarget⟩, rfl⟩
  · obtain ⟨m, ha, hb⟩ := repeatsModifier_mark a b ((repeatsModifier_iff a b).mpr hhold)
    exact hmarked ha hb (Or.inr hhold)
  · obtain ⟨m, ha, hb⟩ := repeatsNavigation_mark a b ((repeatsNavigation_iff a b).mpr hnav)
    exact hmarked ha hb (Or.inl hnav)

/-- No other event is taken in. -/
theorem absorb_of_not_merges {a b : Event} (h : ¬Merges a b) :
    shrinking.absorb? (shrinking.enter a) b = none := by
  cases hs : startsRun a with
  | true =>
    obtain ⟨hfill, hsame, -⟩ := enter_of_starts hs
    rw [shrinking_absorb, if_neg, if_neg]
    · simp [BothNavigate, BothHold, hfill]
    · rintro ⟨ht, -, htarget⟩
      exact h (Or.inl (Or.inl ⟨hs, decide_eq_true ⟨ht, hsame.symm.trans htarget⟩⟩))
  | false =>
    have hfill : a.action ≠ .fill := (not_or.mp (of_decide_eq_false hs)).1
    rw [enter_of_other hs, shrinking_absorb, if_neg fun htaken => hfill htaken.2.1, if_neg]
    exact fun hboth => h (hboth.elim Or.inr fun hhold => Or.inl (Or.inr hhold))

/-- A session that starts with an event on which the next one does not go on. -/
theorem optimize_apart {a b : Event} (h : ¬Merges a b) (rest : List Event) :
    optimize (a :: b :: rest) = shrinking.enter a :: optimize (b :: rest) := by
  rw [optimize_eq_run, optimize_eq_run, Rule.run_kept (absorb_of_not_merges h)]

/-- A session that starts with an event on which the next one goes on is shrunk as without it, but
the first event of the result is replaced by that event, with the text that is left in the end. -/
theorem optimize_merged {a b : Event} (h : Merges a b) (rest : List Event) :
    optimize (a :: b :: rest) = (optimize (b :: rest)).modifyHead (withTextOf a) := by
  obtain ⟨hrep, habsorb⟩ := h.absorb
  rw [optimize_eq_run, optimize_eq_run, Rule.run_cons, Rule.run_cons, List.foldl_cons,
    Rule.step_absorbed habsorb]
  exact Rule.foldl_standIn (fun x hx => hx.absorb_withTextOf) (fun x hx e taken => hx.absorb) hrep
    rest

/-- The first event of a shrunk session is the first event of the session as the passes enter it,
possibly with a later text. -/
theorem optimize_head (a : Event) (rest : List Event) :
    ∃ value kept, optimize (a :: rest) = { shrinking.enter a with value } :: kept := by
  have hfold : ∀ x : Event, ∃ value kept,
      (rest.foldl shrinking.step [x]).reverse = { x with value } :: kept := by
    induction rest with
    | nil => exact fun x => ⟨x.value, [], rfl⟩
    | cons e rest ih =>
      intro x
      rw [List.foldl_cons]
      cases h : shrinking.absorb? x e with
      | some taken =>
        obtain ⟨text, rfl⟩ : ∃ text, taken = { x with value := text } := by
          rw [shrinking_absorb] at h
          split at h
          · exact ⟨_, (Option.some.inj h).symm⟩
          · exact ⟨x.value, (Option.some.inj (Option.ite_none_right_eq_some.mp h).2).symm⟩
        rw [Rule.step_absorbed h]
        exact ih _
      | none =>
        rw [Rule.step_kept h, Rule.foldl_bottom, List.reverse_append]
        exact ⟨x.value, _, rfl⟩
  rw [optimize_eq_run, Rule.run_cons]
  exact hfold (shrinking.enter a)

end SessionScript.Optimizer
