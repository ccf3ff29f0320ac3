import SessionScript.Proofs.Optimizer.NormalForm
import Mathlib.Data.List.SplitBy

/-!
# Repeats of the event in front

A pass that drops repeats compares an event with the one that it has kept last. That may stand far
in front of the event, but as long as events are dropped they all repeat it, and whatever repeats
one of them repeats it too. So the pass could as well compare each event with the one directly in
front of it in the session. This tells which positions of a session are kept, and that a run of
repeats becomes its first event, however long it is.
-/

namespace SessionScript.Optimizer

/-- What is kept of a session are its events at the positions with a property, unchanged and in
order. -/
def KeepsAt (kept events : List Event) (At : Nat → Prop) : Prop :=
  ∃ positions : List Nat, positions.Pairwise (· < ·) ∧
    (∀ i, i ∈ positions ↔ i < events.length ∧ At i) ∧
    kept.map some = positions.map fun i => events[i]?

/-- The event at a position does not repeat the one directly in front of it. -/
def IsFresh (Repeats : Event → Event → Prop) (events : List Event) (i : Nat) : Prop :=
  i = 0 ∨ ¬∃ last ∈ events[i - 1]?, ∃ e ∈ events[i]?, Repeats last e

/-- How a session falls into runs of events each of which repeats the one in front of it. An event
without repeats is a run on its own. -/
structure AreRuns (Repeats : Event → Event → Prop) (runs : List (List Event))
    (events : List Event) : Prop where
  /-- One behind the other, the runs are the session. -/
  inOrder : runs.flatten = events
  /-- No run is empty. -/
  nonempty : ∀ run ∈ runs, run ≠ []
  /-- In a run, each event repeats the one in front of it. -/
  repeated : ∀ run ∈ runs, run.IsChain Repeats
  /-- The first event of a run does not repeat the last event of the run in front of it. -/
  maximal : runs.IsChain fun run next => ∀ last ∈ run.getLast?, ∀ e ∈ next.head?, ¬Repeats last e

/-- A pass drops just the events of a session that repeat the event directly in front of them. -/
structure DropsRepeated (pass : List Event → List Event) (Repeats : Event → Event → Prop)
    (events : List Event) : Prop where
  /-- What is kept are the events at the positions without such a repeat. -/
  keepsAt : KeepsAt (pass events) events (IsFresh Repeats events)
  /-- An event without such a repeat is kept when the pass comes to it. -/
  keeps : ∀ i (h : i < events.length), IsFresh Repeats events i →
    pass (events.take (i + 1)) = pass (events.take i) ++ [events[i]]
  /-- Any other event is dropped when the pass comes to it. -/
  drops : ∀ i < events.length, ¬IsFresh Repeats events i →
    pass (events.take (i + 1)) = pass (events.take i)
  /-- The session falls into runs. -/
  hasRuns : ∃ runs, AreRuns Repeats runs events
  /-- Each of them becomes its first event. -/
  reduces : ∀ runs, AreRuns Repeats runs events → pass events = runs.filterMap List.head?

/-- An event that repeats another one is repeated by the same events as that. -/
def PassesOn (Repeats : Event → Event → Prop) : Prop :=
  ∀ {last e}, Repeats last e → ∀ next, Repeats e next ↔ Repeats last next

/-- Waits for a navigation pass on what repeats them. -/
theorem bothNavigate_passesOn : PassesOn BothNavigate :=
  fun h _ => ⟨fun hnext => ⟨h.1, hnext.2⟩, fun hnext => ⟨h.2, hnext.2⟩⟩

/-- Strokes of a modifier key pass on what repeats them, since they have the same key and frame. -/
theorem bothHold_passesOn : PassesOn BothHold := by
  intro last e h next
  obtain ⟨⟨hlast, he⟩, ⟨key, -, hlastKey, hkey⟩, hframe⟩ := h
  unfold BothHold
  rw [hlast, he, hlastKey, hkey, hframe]

section Neighbours

variable {repeats : Event → Event → Bool} {Repeats : Event → Event → Prop}

/-- Behind two events that are repeated by the same events, a pass keeps the same. -/
theorem keptAfter_congr {last e : Event} (h : ∀ next, repeats e next = repeats last next)
    (events : List Event) : keptAfter repeats e events = keptAfter repeats last events := by
  induction events with
  | nil => rfl
  | cons next events ih => rw [keptAfter, keptAfter, h, ih]

variable (htest : ∀ a b, repeats a b = true ↔ Repeats a b) (hpass : PassesOn Repeats)

include htest hpass

/-- Behind an event it does not matter whether it was kept itself. -/
theorem keptAfter_neighbour (last e : Event) (events : List Event) :
    keptAfter repeats last (e :: events) =
      (if repeats last e then [] else [e]) ++ keptAfter repeats e events := by
  rw [keptAfter]
  split
  · rename_i hr
    have hsame : ∀ next, repeats e next = repeats last next := by
      intro next
      rw [Bool.eq_iff_iff, htest, htest]
      exact hpass ((htest last e).mp hr) next
    rw [List.nil_append, keptAfter_congr hsame]
  · rfl

/-- Behind what has been kept of a session, the next event is dropped if it repeats the last event
of the session, and kept otherwise. -/
theorem keptAfter_concat (first : Event) (xs : List Event) (e : Event) :
    keptAfter repeats first (xs ++ [e]) =
      keptAfter repeats first xs ++ if repeats (xs.getLastD first) e then [] else [e] := by
  induction xs generalizing first with
  | nil =>
    have hone := keptAfter_neighbour htest hpass first e []
    rwa [keptAfter, List.append_nil] at hone
  | cons x xs ih =>
    have hgrown := keptAfter_neighbour htest hpass first x (xs ++ [e])
    rw [ih, ← List.append_assoc, ← keptAfter_neighbour htest hpass] at hgrown
    rw [List.getLastD_cons]
    exact hgrown

/-- One more event is kept by a pass, unless it repeats the last event of the session so far. -/
theorem dropRepeats_concat (xs : List Event) (e : Event) :
    dropRepeats repeats (xs ++ [e]) =
      dropRepeats repeats xs ++ if xs.getLast?.any fun last => repeats last e then [] else [e] := by
  cases xs with
  | nil => rfl
  | cons x xs =>
    rw [List.cons_append, dropRepeats_cons, dropRepeats_cons, keptAfter_concat htest hpass,
      List.getLast?_cons, List.getLastD_eq_getLast?, List.cons_append]
    rfl

/-- One more event is dropped if it repeats the last event of the session so far. -/
theorem dropRepeats_concat_of_repeats {xs : List Event} {last e : Event}
    (hlast : last ∈ xs.getLast?) (h : Repeats last e) :
    dropRepeats repeats (xs ++ [e]) = dropRepeats repeats xs := by
  have hany : xs.getLast?.any (fun last => repeats last e) = true := by
    rw [Option.mem_def.mp hlast]
    exact (htest last e).mpr h
  rw [dropRepeats_concat htest hpass, if_pos hany, List.append_nil]

/-- One more event is kept if it does not repeat the last event of the session so far. -/
theorem dropRepeats_concat_of_not {xs : List Event} {e : Event}
    (h : ∀ last ∈ xs.getLast?, ¬Repeats last e) :
    dropRepeats repeats (xs ++ [e]) = dropRepeats repeats xs ++ [e] := by
  have hany : ¬xs.getLast?.any (fun last => repeats last e) = true := by
    intro hany
    obtain ⟨last, hlast, hr⟩ := (Option.any_eq_true _ _).mp hany
    exact h last hlast ((htest last e).mp hr)
  rw [dropRepeats_concat htest hpass, if_neg hany]

end Neighbours

section Positions

variable {Repeats : Event → Event → Prop} {events : List Event} {i : Nat}

/-- An event is fresh if it does not repeat the last event in front of its position. -/
theorem isFresh_iff (h : i < events.length) :
    IsFresh Repeats events i ↔ ∀ last ∈ (events.take i).getLast?, ¬Repeats last events[i] := by
  cases i with
  | zero => simp [IsFresh]
  | succ i =>
    have hi : i < events.length := Nat.lt_of_succ_lt h
    simp [IsFresh, List.getLast?_take, hi, h]

end Positions

section Passes

variable {repeats : Event → Event → Bool} {Repeats : Event → Event → Prop}
  (htest : ∀ a b, repeats a b = true ↔ Repeats a b) (hpass : PassesOn Repeats)

include htest hpass

/-- A pass keeps a fresh event when it comes to it. -/
theorem dropRepeats_keeps_fresh {events : List Event} {i : Nat} (h : i < events.length)
    (hfresh : IsFresh Repeats events i) :
    dropRepeats repeats (events.take (i + 1)) =
      dropRepeats repeats (events.take i) ++ [events[i]] := by
  rw [← List.take_append_getElem h]
  exact dropRepeats_concat_of_not htest hpass ((isFresh_iff h).mp hfresh)

/-- A pass drops any other event when it comes to it. -/
theorem dropRepeats_drops_repeated {events : List Event} {i : Nat} (h : i < events.length)
    (hfresh : ¬IsFresh Repeats events i) :
    dropRepeats repeats (events.take (i + 1)) = dropRepeats repeats (events.take i) := by
  rw [isFresh_iff h] at hfresh
  push Not at hfresh
  obtain ⟨last, hlast, hr⟩ := hfresh
  rw [← List.take_append_getElem h]
  exact dropRepeats_concat_of_repeats htest hpass hlast hr

/-- A pass keeps the fresh events of a session, and none else. -/
theorem dropRepeats_keepsAt (events : List Event) :
    KeepsAt (dropRepeats repeats events) events (IsFresh Repeats events) := by
  classical
  have hprefix : ∀ n ≤ events.length, (dropRepeats repeats (events.take n)).map some =
      ((List.range n).filter fun i => IsFresh Repeats events i).map fun i => events[i]? := by
    intro n
    induction n with
    | zero => exact fun _ => rfl
    | succ n ih =>
      intro hn
      have hstep := ih (Nat.le_of_succ_le hn)
      rw [List.range_succ, List.filter_append, List.map_append]
      by_cases hfresh : IsFresh Repeats events n
      · rw [dropRepeats_keeps_fresh htest hpass hn hfresh, List.map_append, hstep]
        simp [hfresh, List.getElem?_eq_getElem hn]
      · rw [dropRepeats_drops_repeated htest hpass hn hfresh, hstep]
        simp [hfresh]
  refine ⟨(List.range events.length).filter fun i => IsFresh Repeats events i, ?_, ?_, ?_⟩
  · exact List.Pairwise.filter _ List.pairwise_lt_range
  · simp
  · have hall := hprefix events.length (Nat.le_refl _)
    rwa [List.take_length] at hall

/-- A run that does not repeat what stands in front of it leaves its first event. -/
theorem dropRepeats_append_run {xs rest : List Event} {e : Event}
    (hrun : (e :: rest).IsChain Repeats) (hfresh : ∀ last ∈ xs.getLast?, ¬Repeats last e) :
    dropRepeats repeats (xs ++ e :: rest) = dropRepeats repeats xs ++ [e] := by
  induction rest using List.reverseRecOn with
  | nil => exact dropRepeats_concat_of_not htest hpass hfresh
  | append_singleton rest next ih =>
    have hchain : ((e :: rest) ++ [next]).IsChain Repeats := hrun
    obtain ⟨hrest, -, hlast⟩ := List.isChain_append.mp hchain
    obtain ⟨last, hl⟩ : ∃ last, last ∈ (e :: rest).getLast? := ⟨_, List.getLast?_cons⟩
    have hend : last ∈ (xs ++ e :: rest).getLast? := by
      rw [List.getLast?_append, hl]
      rfl
    have hassoc : xs ++ e :: (rest ++ [next]) = (xs ++ e :: rest) ++ [next] := by simp
    rw [hassoc, dropRepeats_concat_of_repeats htest hpass hend (hlast last hl next rfl), ih hrest]

/-- Runs behind a session leave their first events, if the first of them does not go on with what
stands in front of it. -/
theorem dropRepeats_append_runs {runs : List (List Event)} (hnonempty : ∀ run ∈ runs, run ≠ [])
    (hrepeated : ∀ run ∈ runs, run.IsChain Repeats)
    (hmaximal : runs.IsChain fun run next =>
      ∀ last ∈ run.getLast?, ∀ e ∈ next.head?, ¬Repeats last e)
    {xs : List Event} (hfresh : ∀ last ∈ xs.getLast?, ∀ run ∈ runs.head?, ∀ e ∈ run.head?,
      ¬Repeats last e) :
    dropRepeats repeats (xs ++ runs.flatten) =
      dropRepeats repeats xs ++ runs.filterMap List.head? := by
  induction runs generalizing xs with
  | nil => simp
  | cons run runs ih =>
    obtain ⟨hrun, hruns⟩ := List.forall_mem_cons.mp hrepeated
    obtain ⟨hne, hnes⟩ := List.forall_mem_cons.mp hnonempty
    obtain ⟨hnext, hothers⟩ := List.isChain_cons.mp hmaximal
    obtain ⟨e, rest, rfl⟩ := List.exists_cons_of_ne_nil hne
    have hbehind : ∀ last ∈ (xs ++ e :: rest).getLast?, ∀ next ∈ runs.head?, ∀ e' ∈ next.head?,
        ¬Repeats last e' := by
      intro last hlast next hn
      rw [List.getLast?_append, List.getLast?_cons, Option.some_or, ← List.getLast?_cons] at hlast
      exact hnext next hn last hlast
    rw [List.flatten_cons, ← List.append_assoc, ih hnes hruns hothers hbehind,
      dropRepeats_append_run htest hpass hrun fun last hlast => hfresh last hlast _ rfl e rfl,
      List.append_assoc]
    rfl

/-- The runs of a session leave their first events. -/
theorem dropRepeats_of_runs {runs : List (List Event)} {events : List Event}
    (h : AreRuns Repeats runs events) :
    dropRepeats repeats events = runs.filterMap List.head? := by
  rw [← h.inOrder]
  have hstart : ∀ last ∈ ([] : List Event).getLast?, ∀ run ∈ runs.head?, ∀ e ∈ run.head?,
      ¬Repeats last e := by simp
  exact dropRepeats_append_runs htest hpass h.nonempty h.repeated h.maximal hstart

omit hpass in
/-- Every session falls into runs. -/
theorem exists_areRuns (events : List Event) : ∃ runs, AreRuns Repeats runs events := by
  refine ⟨events.splitBy repeats, List.flatten_splitBy _ _, fun run => List.ne_nil_of_mem_splitBy,
    fun run hrun => ?_, ?_⟩
  · exact (List.isChain_of_mem_splitBy hrun).imp fun a b => (htest a b).mp
  · refine (List.isChain_getLast_head_splitBy repeats events).imp ?_
    rintro run next ⟨hrun, hnext, hbool⟩ last hlast e he
    rw [List.getLast?_eq_some_getLast hrun] at hlast
    rw [List.head?_eq_some_head hnext] at he
    cases hlast
    cases he
    rw [← htest, hbool]
    exact Bool.false_ne_true

/-- A pass drops just the events that repeat the one in front of them. -/
theorem dropRepeats_dropsRepeated (events : List Event) :
    DropsRepeated (dropRepeats repeats) Repeats events where
  keepsAt := dropRepeats_keepsAt htest hpass events
  keeps _ h hfresh := dropRepeats_keeps_fresh htest hpass h hfresh
  drops _ h hfresh := dropRepeats_drops_repeated htest hpass h hfresh
  hasRuns := exists_areRuns htest events
  reduces _ h := dropRepeats_of_runs htest hpass h

end Passes

/-- The two passes that drop repeats compare each event with the one in front of it, although they
look at the one that was kept last: just those waits for a navigation are dropped that stand behind
a wait, and just those strokes of a modifier key that stand behind a stroke of the same key in the
same frame. A run of such events becomes its first event. -/
theorem passes_drop_repeated (events : List Event) :
    DropsRepeated dropNavigations BothNavigate events ∧
      DropsRepeated dropModifiers BothHold events :=
  ⟨dropRepeats_dropsRepeated repeatsNavigation_iff bothNavigate_passesOn events,
    dropRepeats_dropsRepeated repeatsModifier_iff bothHold_passesOn events⟩

end SessionScript.Optimizer
