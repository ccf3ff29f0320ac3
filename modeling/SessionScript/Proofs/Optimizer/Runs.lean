import SessionScript.Proofs.Optimizer.Rules
import Mathlib.Data.List.TakeWhile

/-!
# Runs of typing

A run of typing starts with a fill or with typing, and takes in all typing of the same element that
follows directly. Shrinking turns each run into one fill with the text of its last event, and drops
none of these fills, so the fills of a shrunk session are the runs of the session in order.
-/

namespace SessionScript.Optimizer

/-- A run of typing in one element. -/
structure TypingRun where
  /-- The event that starts the run. -/
  first : Event
  /-- The typing that follows it directly, in order. -/
  more : List Event

/-- The last event of a run. -/
def TypingRun.last (r : TypingRun) : Event := r.more.getLastD r.first

/-- The text that a run leaves in its element: what its last event writes. -/
def TypingRun.text (r : TypingRun) : String := (writtenText? r.last).getD ""

/-- Does an event start a run, when no run takes it in? -/
def startsRun (e : Event) : Bool := e.action = .fill ∨ Types e

/-- Does an event go on with the run that another event has started? -/
def continuesRun (first e : Event) : Bool := Types e ∧ targetOf first = targetOf e

/-- The runs of typing of a session, each as long as it can be. -/
def typingRuns : List Event → List TypingRun
  | [] => []
  | e :: rest =>
    if startsRun e then
      ⟨e, rest.takeWhile (continuesRun e)⟩ :: typingRuns (rest.dropWhile (continuesRun e))
    else typingRuns rest
termination_by events => events.length
decreasing_by
  · have hl := (List.dropWhile_suffix (continuesRun e) (l := rest)).length_le
    simp only [List.length_cons]
    omega
  · simp

/-- The fill that stands for a run: its first event with the text of the last. -/
def TypingRun.fill (r : TypingRun) : Event :=
  if Types r.last then asFill r.first (typedText r.last) else r.first

/-- What is below the newest event stays there unchanged. -/
theorem foldl_squash_bottom (x : Event) (kept events : List Event) :
    events.foldl squashStep (x :: kept) = events.foldl squashStep [x] ++ kept := by
  rw [squashStep_eq_step]
  exact squashing.foldl_bottom x kept events

/-- An event that does not go on with the newest fill starts afresh. -/
theorem squashStep_fresh {x e : Event} (h : x.action = .fill → continuesRun x e = false) :
    squashStep [x] e = squashStep [] e ++ [x] := by
  unfold squashStep
  split
  · rename_i hi
    have ht := (isTyping_iff e).mp hi
    have hs : (decide (x.action = .fill) && sameTarget x e) = false := by
      by_contra hb
      obtain ⟨hx, hs⟩ := (Bool.and_eq_true _ _).mp (Bool.not_eq_false _ ▸ hb)
      have hc := h (of_decide_eq_true hx)
      exact of_decide_eq_false hc ⟨ht, (sameTarget_iff x e).mp hs⟩
    simp [hs]
  · rfl

/-- Typing that goes on with the newest fill only replaces its text. -/
theorem foldl_squash_run {x : Event} (hx : x.action = .fill) {more : List Event}
    (hm : ∀ e ∈ more, continuesRun x e = true) :
    more.foldl squashStep [x] = [more.getLast?.elim x fun e => asFill x (typedText e)] := by
  induction more generalizing x with
  | nil => rfl
  | cons e more ih =>
    obtain ⟨ht, hs⟩ := of_decide_eq_true (hm e List.mem_cons_self)
    have hstep : squashStep [x] e = [asFill x (typedText e)] := by
      simp [squashStep, (isTyping_iff e).mpr ht, hx, (sameTarget_iff x e).mpr hs, asFill]
    have hrest : ∀ e' ∈ more, continuesRun (asFill x (typedText e)) e' = true :=
      fun e' he' => hm e' (List.mem_cons_of_mem e he')
    rw [List.foldl_cons, hstep, ih rfl hrest, List.getLast?_cons]
    cases more.getLast? <;> rfl

/-- Behind a run, and behind an event outside of all runs, a session is shrunk on its own. -/
theorem foldl_squash_fresh {x : Event} {events : List Event}
    (h : x.action = .fill → ∀ e ∈ events.head?, continuesRun x e = false) :
    (events.foldl squashStep [x]).reverse = x :: squash events := by
  cases events with
  | nil => rfl
  | cons e events =>
    have hstep : squashStep [x] e = squashStep [] e ++ [x] :=
      squashStep_fresh fun hx => h hx e rfl
    obtain ⟨y, hy⟩ : ∃ y, squashStep [] e = [y] := by
      unfold squashStep
      split <;> exact ⟨_, rfl⟩
    rw [squash, List.foldl_cons, List.foldl_cons, hstep, hy, List.singleton_append,
      foldl_squash_bottom, List.reverse_append]
    rfl

/-- The first event that a run does not take in does not go on with it. -/
theorem head_dropWhile_continuesRun (x : Event) (events : List Event) :
    ∀ e ∈ (events.dropWhile (continuesRun x)).head?, continuesRun x e = false := by
  intro e he
  have h := List.head?_dropWhile_not (continuesRun x) events
  rw [he] at h
  simpa using h

/-- The fill of a run goes on as its first event does. -/
theorem continuesRun_fill (r : TypingRun) : continuesRun r.fill = continuesRun r.first := by
  have htarget : targetOf r.fill = targetOf r.first := by
    unfold TypingRun.fill
    split <;> rfl
  funext e
  rw [continuesRun, htarget]
  rfl

/-- The first event of a run becomes a fill, and later texts replace its own. -/
theorem fill_first {e : Event} (hs : startsRun e = true) :
    squashStep [] e = [TypingRun.fill ⟨e, []⟩] ∧ (TypingRun.fill ⟨e, []⟩).action = .fill ∧
      ∀ text, asFill (TypingRun.fill ⟨e, []⟩) text = asFill e text := by
  have hlast : TypingRun.last ⟨e, []⟩ = e := rfl
  unfold TypingRun.fill
  rw [hlast]
  by_cases ht : Types e
  · rw [if_pos ht, squashStep, if_pos ((isTyping_iff e).mpr ht)]
    exact ⟨rfl, rfl, fun _ => rfl⟩
  · have hf : e.action = .fill := (of_decide_eq_true hs).resolve_right ht
    rw [if_neg ht, squashStep, if_neg (mt (isTyping_iff e).mp ht)]
    exact ⟨rfl, hf, fun _ => rfl⟩

/-- The fill of a run has the text of the last event, or is the first event alone. -/
theorem fill_more {e : Event} (hs : startsRun e = true) {more : List Event}
    (hm : ∀ e' ∈ more, continuesRun e e' = true) :
    TypingRun.fill ⟨e, more⟩ =
      more.getLast?.elim (TypingRun.fill ⟨e, []⟩) fun e' =>
        asFill (TypingRun.fill ⟨e, []⟩) (typedText e') := by
  cases hl : more.getLast? with
  | none =>
    rw [List.getLast?_eq_none_iff.mp hl]
    rfl
  | some e' =>
    obtain ⟨ht, -⟩ := of_decide_eq_true (hm e' (List.mem_of_getLast? hl))
    have hlast : TypingRun.last ⟨e, more⟩ = e' := by
      rw [TypingRun.last, List.getLastD_eq_getLast?, hl]
      rfl
    rw [TypingRun.fill, hlast, if_pos ht, Option.elim_some, (fill_first hs).2.2]

/-- A session that starts with a run is shrunk to the fill of the run, and then the rest. -/
theorem squash_run {e : Event} (hs : startsRun e = true) (rest : List Event) :
    squash (e :: rest) =
      TypingRun.fill ⟨e, rest.takeWhile (continuesRun e)⟩ ::
        squash (rest.dropWhile (continuesRun e)) := by
  obtain ⟨hstep, hfill, -⟩ := fill_first hs
  have htake : ∀ e' ∈ rest.takeWhile (continuesRun e), continuesRun e e' = true :=
    fun e' he' => List.mem_takeWhile_imp he'
  have hrun : (rest.takeWhile (continuesRun e)).foldl squashStep [TypingRun.fill ⟨e, []⟩] =
      [TypingRun.fill ⟨e, rest.takeWhile (continuesRun e)⟩] := by
    rw [fill_more hs htake]
    exact foldl_squash_run hfill (continuesRun_fill ⟨e, []⟩ ▸ htake)
  have hsplit : rest.foldl squashStep [TypingRun.fill ⟨e, []⟩] =
      (rest.dropWhile (continuesRun e)).foldl squashStep
        [TypingRun.fill ⟨e, rest.takeWhile (continuesRun e)⟩] := by
    rw [← hrun, ← List.foldl_append, List.takeWhile_append_dropWhile]
  rw [squash, List.foldl_cons, hstep, hsplit]
  apply foldl_squash_fresh
  intro _
  rw [continuesRun_fill]
  exact head_dropWhile_continuesRun e rest

/-- An event outside of all runs is kept as it is. -/
theorem squash_other {e : Event} (hs : startsRun e = false) (rest : List Event) :
    squash (e :: rest) = e :: squash rest := by
  obtain ⟨hf, ht⟩ := not_or.mp (of_decide_eq_false hs)
  rw [squash, List.foldl_cons, squashStep, if_neg (mt (isTyping_iff e).mp ht)]
  exact foldl_squash_fresh fun h => absurd h hf

/-- The fill of a run is a fill. -/
theorem fill_action {e : Event} (hs : startsRun e = true) {more : List Event}
    (hm : ∀ e' ∈ more, continuesRun e e' = true) : (TypingRun.fill ⟨e, more⟩).action = .fill := by
  rw [fill_more hs hm]
  cases more.getLast? with
  | none => exact (fill_first hs).2.1
  | some e' => rfl

/-- The fills of a session after taking typing together are its runs. -/
theorem squash_fills (events : List Event) :
    (squash events).filter (·.action = .fill) = (typingRuns events).map TypingRun.fill := by
  induction events using typingRuns.induct with
  | case1 => simp [squash, typingRuns]
  | case2 e rest hs ih =>
    have ha := fill_action hs fun e' (he' : e' ∈ rest.takeWhile (continuesRun e)) =>
      List.mem_takeWhile_imp he'
    rw [squash_run hs, typingRuns, if_pos hs, List.map_cons, List.filter_cons_of_pos, ih]
    exact decide_eq_true ha
  | case3 e rest hs ih =>
    have hn : startsRun e = false := Bool.eq_false_iff.mpr hs
    have ha : ¬e.action = .fill := fun h => hs (decide_eq_true (Or.inl h))
    rw [squash_other hn, typingRuns, if_neg hs, List.filter_cons_of_neg, ih]
    exact mt of_decide_eq_true ha

/-- Events that no pass drops are all still there after dropping repeats, in order. -/
theorem dropRepeats_filter {repeats : Event → Event → Bool} {p : Event → Bool}
    (hp : ∀ last e, repeats last e = true → p e = false) (events : List Event) :
    (dropRepeats repeats events).filter p = events.filter p := by
  have hv : ∀ {xs ys : List Event}, xs.filter p = ys.filter p →
      ∀ e, (xs ++ [e]).filter p = (ys ++ [e]).filter p := by
    intro xs ys h e
    rw [List.filter_append, List.filter_append, h]
  have hs : ∀ kept e,
      (dropStep repeats kept e).reverse.filter p = (kept.reverse ++ [e]).filter p := by
    intro kept e
    unfold dropStep
    split
    · split
      · rename_i hr
        have he : [e].filter p = [] := List.filter_cons_of_neg (by simp [hp _ _ hr])
        rw [List.filter_append, he, List.append_nil]
      · rw [List.reverse_cons]
    · rfl
  exact foldl_view hv hs [] events

/-- The fills of a shrunk session are the runs of the session. -/
theorem optimize_fills (events : List Event) :
    (optimize events).filter (·.action = .fill) = (typingRuns events).map TypingRun.fill := by
  have hnav : ∀ last e, repeatsNavigation last e = true → decide (e.action = .fill) = false := by
    intro last e h
    simp only [repeatsNavigation, Bool.and_eq_true, decide_eq_true_eq] at h
    simp [h.1]
  have hmod : ∀ last e, repeatsModifier last e = true → decide (e.action = .fill) = false := by
    intro last e h
    simp only [repeatsModifier, Bool.and_eq_true, decide_eq_true_eq] at h
    simp [h.1.1.1.1]
  rw [optimize, dropModifiers, dropRepeats_filter hmod, dropNavigations, dropRepeats_filter hnav,
    squash_fills]

/-- Every run of a session starts as a run does and is continued by all of its other events. -/
theorem typingRuns_valid {events : List Event} {r : TypingRun} (hr : r ∈ typingRuns events) :
    startsRun r.first = true ∧ ∀ e ∈ r.more, continuesRun r.first e = true := by
  induction events using typingRuns.induct with
  | case1 => simp [typingRuns] at hr
  | case2 e rest hs ih =>
    rw [typingRuns, if_pos hs] at hr
    rcases List.mem_cons.mp hr with rfl | hr
    · exact ⟨hs, fun e' he' => List.mem_takeWhile_imp he'⟩
    · exact ih hr
  | case3 e rest hs ih =>
    rw [typingRuns, if_neg hs] at hr
    exact ih hr

/-- The fill of a run has the frame and the selector of the first event. -/
theorem fill_element (r : TypingRun) :
    r.fill.frame = r.first.frame ∧ r.fill.target = r.first.target := by
  unfold TypingRun.fill
  split <;> exact ⟨rfl, rfl⟩

/-- A run whose last event does not type is a lone fill. -/
theorem lone_of_not_types {events : List Event} {r : TypingRun} (hr : r ∈ typingRuns events)
    (ht : ¬Types r.last) : r.last = r.first ∧ r.first.action = .fill := by
  obtain ⟨hs, hm⟩ := typingRuns_valid hr
  have hlast : r.last = r.first := by
    cases hl : r.more.getLast? with
    | none => rw [TypingRun.last, List.getLastD_eq_getLast?, hl]; rfl
    | some e =>
      have he : r.last = e := by rw [TypingRun.last, List.getLastD_eq_getLast?, hl]; rfl
      exact absurd (of_decide_eq_true (hm e (List.mem_of_getLast? hl))).1 (he ▸ ht)
  exact ⟨hlast, (of_decide_eq_true hs).resolve_right (hlast ▸ ht)⟩

/-- The fill of a run has the text that the run leaves. -/
theorem fill_text {events : List Event} {r : TypingRun} (hr : r ∈ typingRuns events) :
    r.fill.typedValue = r.text := by
  unfold TypingRun.fill TypingRun.text
  by_cases ht : Types r.last
  · rw [if_pos ht, writtenText?_typing ht]
    rfl
  · obtain ⟨hlast, hf⟩ := lone_of_not_types hr ht
    rw [if_neg ht, hlast, writtenText?_fill hf]
    rfl

end SessionScript.Optimizer
