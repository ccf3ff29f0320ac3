import SessionScript.Proofs.Optimizer.NormalForm
import Mathlib.Data.List.Basic

/-!
# The passes as rules for neighbours

Each pass looks at an event and the one kept last: the kept one takes the event in, or the event is
kept behind it. Such a rule is about some of the events and leaves all others alone. When two rules
are about different events, a pass by one of them and then a pass by the other is a single pass by
both, so the two can be exchanged. The three passes are about typing, waits and held keys, hence
their order does not matter, and together they go through a session once: a session may be shrunk
while it grows.
-/

namespace SessionScript.Optimizer

/-- A rule for an event and the one kept in front of it. -/
structure Rule where
  /-- The events that the rule is about. -/
  Governs : Event → Prop
  /-- What an event becomes that is kept. -/
  enter : Event → Event
  /-- What the event kept last becomes when it takes the next one in. -/
  absorb? : Event → Event → Option Event
  /-- All other events are kept as they are. -/
  enter_other : ∀ {e}, ¬Governs e → enter e = e
  /-- The rule is still about an event that is kept by it. -/
  enter_governs : ∀ {e}, Governs e → Governs (enter e)
  /-- Only events that the rule is about take events in and are taken in. -/
  absorb_governs : ∀ {last e taken}, absorb? last e = some taken →
    Governs last ∧ Governs e ∧ Governs taken

namespace Rule

/-- One step of a pass by a rule. What has been kept is listed from the newest event on. -/
def step (p : Rule) (kept : List Event) (e : Event) : List Event :=
  match kept with
  | [] => [p.enter e]
  | last :: rest =>
    match p.absorb? last e with
    | some taken => taken :: rest
    | none => p.enter e :: last :: rest

/-- A pass by a rule over a session. -/
def run (p : Rule) (events : List Event) : List Event := (events.foldl p.step []).reverse

/-- The rule that takes an event in when either of two rules does. -/
def or (p q : Rule) : Rule where
  Governs e := p.Governs e ∨ q.Governs e
  enter e := q.enter (p.enter e)
  absorb? last e := (p.absorb? last e).or (q.absorb? last e)
  enter_other h := by rw [p.enter_other (not_or.mp h).1, q.enter_other (not_or.mp h).2]
  enter_governs {e} h := by
    by_cases hq : q.Governs (p.enter e)
    · exact Or.inr (q.enter_governs hq)
    · rw [q.enter_other hq]
      by_cases hp : p.Governs e
      · exact Or.inl (p.enter_governs hp)
      · rw [p.enter_other hp] at hq
        exact absurd h (not_or.mpr ⟨hp, hq⟩)
  absorb_governs h := by
    rcases Option.or_eq_some_iff.mp h with h | ⟨-, h⟩
    · exact (p.absorb_governs h).imp Or.inl (And.imp Or.inl Or.inl)
    · exact (q.absorb_governs h).imp Or.inr (And.imp Or.inr Or.inr)

/-- Rules that are about different events. -/
def Apart (p q : Rule) : Prop := ∀ e, p.Governs e → ¬q.Governs e

variable {p q r : Rule}

theorem Apart.symm (h : p.Apart q) : q.Apart p := fun e hq hp => h e hp hq

theorem Apart.or (hp : p.Apart r) (hq : q.Apart r) : (p.or q).Apart r :=
  fun e he => he.elim (hp e) (hq e)

/-- An event takes nothing in if the rule is not about it. -/
theorem absorb_of_last {last : Event} (hl : ¬p.Governs last) (e : Event) :
    p.absorb? last e = none := by
  by_contra h
  obtain ⟨taken, h⟩ := Option.ne_none_iff_exists'.mp h
  exact hl (p.absorb_governs h).1

/-- An event is not taken in if the rule is not about it. -/
theorem absorb_of_next {e : Event} (he : ¬p.Governs e) (last : Event) :
    p.absorb? last e = none := by
  by_contra h
  obtain ⟨taken, h⟩ := Option.ne_none_iff_exists'.mp h
  exact he (p.absorb_governs h).2.1

/-- An event that is taken in changes the newest one only. -/
theorem step_absorbed {last e taken : Event} (h : p.absorb? last e = some taken)
    (kept : List Event) : p.step (last :: kept) e = taken :: kept := by
  rw [step, h]

/-- Any other event is kept. -/
theorem step_kept {last e : Event} (h : p.absorb? last e = none) (kept : List Event) :
    p.step (last :: kept) e = p.enter e :: last :: kept := by
  rw [step, h]

/-- An event is kept as it is if the rule is not about it. -/
theorem step_other {e : Event} (he : ¬p.Governs e) (kept : List Event) :
    p.step kept e = e :: kept := by
  cases kept with
  | nil => rw [step, p.enter_other he]
  | cons last kept => rw [step_kept (absorb_of_next he last), p.enter_other he]

/-- The rule is about the newest event behind a step with an event that it is about. -/
theorem step_governs {e : Event} (he : p.Governs e) (kept : List Event) :
    ∃ last rest, p.step kept e = last :: rest ∧ p.Governs last := by
  cases kept with
  | nil => exact ⟨_, _, rfl, p.enter_governs he⟩
  | cons last kept =>
    cases h : p.absorb? last e with
    | some taken => exact ⟨_, _, step_absorbed h kept, (p.absorb_governs h).2.2⟩
    | none => exact ⟨_, _, step_kept h kept, p.enter_governs he⟩

/-- A step of a pass looks at the newest event alone. -/
theorem step_bottom (p : Rule) (x : Event) (kept : List Event) (e : Event) :
    p.step (x :: kept) e = p.step [x] e ++ kept := by
  cases h : p.absorb? x e with
  | some taken => rw [step_absorbed h, step_absorbed h, List.singleton_append]
  | none =>
    rw [step_kept h, step_kept h]
    rfl

/-- What is below the newest event stays there unchanged. -/
theorem foldl_bottom (p : Rule) (x : Event) (kept events : List Event) :
    events.foldl p.step (x :: kept) = events.foldl p.step [x] ++ kept := by
  induction events generalizing x kept with
  | nil => rfl
  | cons e events ih =>
    rw [List.foldl_cons, List.foldl_cons, p.step_bottom]
    cases h : p.absorb? x e with
    | some taken => rw [step_absorbed h, List.singleton_append, ih]
    | none =>
      rw [step_kept h, List.cons_append, ih, ih _ [x], List.append_assoc]

/-- A pass enters the first event, and goes on from there. -/
theorem run_cons (p : Rule) (e : Event) (events : List Event) :
    p.run (e :: events) = (events.foldl p.step [p.enter e]).reverse := rfl

/-- A pass that goes on behind a session it has already gone through. -/
theorem run_append (p : Rule) (xs ys : List Event) :
    p.run (xs ++ ys) = (ys.foldl p.step (p.run xs).reverse).reverse := by
  rw [run, List.foldl_append, run, List.reverse_reverse]

/-- When a pass leaves its own results alone, a session may be gone through before it has its
end. -/
theorem run_resume (hp : ∀ events, p.run (p.run events) = p.run events) (xs ys : List Event) :
    p.run (p.run xs ++ ys) = p.run (xs ++ ys) := by
  rw [run_append, hp, ← run_append]

section TwoRules

variable (h : p.Apart q)

include h

/-- For the other rule it makes no difference that an event has been kept. -/
theorem Apart.absorb_enter (last e : Event) :
    q.absorb? last (p.enter e) = q.absorb? last e := by
  by_cases hp : p.Governs e
  · rw [absorb_of_next (h _ (p.enter_governs hp)), absorb_of_next (h _ hp)]
  · rw [p.enter_other hp]

/-- When the first of two rules does not take an event in, the second decides. -/
theorem Apart.or_step {last e : Event} (hl : p.absorb? last e = none) (kept : List Event) :
    (p.or q).step (last :: kept) e = q.step (last :: kept) (p.enter e) := by
  have hor : (p.or q).absorb? last e = q.absorb? last (p.enter e) := by
    rw [h.absorb_enter]
    exact congrArg (Option.or · _) hl
  cases hq : q.absorb? last (p.enter e) with
  | some taken => rw [step_absorbed (hor.trans hq), step_absorbed hq]
  | none =>
    rw [step_kept (hor.trans hq), step_kept hq]
    rfl

/-- A step of the first pass is a step by both rules in what the second pass makes of it. -/
theorem Apart.foldr_step (kept : List Event) (e : Event) :
    (p.step kept e).foldr (fun e kept => q.step kept e) [] =
      (p.or q).step (kept.foldr (fun e kept => q.step kept e) []) e := by
  cases kept with
  | nil => rfl
  | cons last kept =>
    simp only [List.foldr_cons]
    generalize hrest : kept.foldr (fun e kept => q.step kept e) [] = rest
    by_cases hq : q.Governs last
    · -- the second rule has made something of `last` that the first is not about either
      obtain ⟨newest, older, hnew, hgov⟩ := step_governs hq rest
      have hlast : p.absorb? last e = none := absorb_of_last (fun hp => h _ hp hq) e
      have hnewest : p.absorb? newest e = none := absorb_of_last (fun hp => h _ hp hgov) e
      rw [step_kept hlast, hnew, h.or_step hnewest, List.foldr_cons, List.foldr_cons, hrest, hnew]
    · rw [step_other hq]
      cases hp : p.absorb? last e with
      | some taken =>
        have htaken : ¬q.Governs taken := h _ (p.absorb_governs hp).2.2
        have hor : (p.or q).absorb? last e = some taken := congrArg (Option.or · _) hp
        rw [step_absorbed hp, step_absorbed hor, List.foldr_cons, hrest, step_other htaken]
      | none => rw [step_kept hp, h.or_step hp, List.foldr_cons, List.foldr_cons, hrest,
          step_other hq]

/-- Two passes by rules about different events are one pass by both rules. -/
theorem Apart.run_run (events : List Event) : q.run (p.run events) = (p.or q).run events := by
  have hfold : events.foldl (p.or q).step
        (([] : List Event).foldr (fun e kept => q.step kept e) []) =
      (events.foldl p.step []).foldr (fun e kept => q.step kept e) [] :=
    List.foldl_hom (fun kept : List Event => kept.foldr (fun e kept => q.step kept e) [])
      fun kept e => (h.foldr_step kept e).symm
  rw [run, run, List.foldl_reverse, run]
  exact congrArg List.reverse hfold.symm

/-- It does not matter which of two rules about different events comes first. -/
theorem Apart.or_comm_step : (p.or q).step = (q.or p).step := by
  have henter : ∀ e, (p.or q).enter e = (q.or p).enter e := by
    intro e
    change q.enter (p.enter e) = p.enter (q.enter e)
    by_cases hp : p.Governs e
    · rw [q.enter_other (h _ hp), q.enter_other (h _ (p.enter_governs hp))]
    · rw [p.enter_other hp]
      by_cases hq : q.Governs e
      · rw [p.enter_other (h.symm _ (q.enter_governs hq))]
      · rw [q.enter_other hq, p.enter_other hp]
  have habsorb : ∀ last e, (p.or q).absorb? last e = (q.or p).absorb? last e := by
    intro last e
    change (p.absorb? last e).or (q.absorb? last e) = (q.absorb? last e).or (p.absorb? last e)
    by_cases hp : p.Governs last
    · rw [absorb_of_last (h _ hp), Option.or_none, Option.none_or]
    · rw [absorb_of_last hp, Option.or_none, Option.none_or]
  funext kept e
  cases kept with
  | nil => exact congrArg (fun e => [e]) (henter e)
  | cons last kept => rw [step, step, habsorb, henter]

/-- Passes by rules about different events can be exchanged. -/
theorem Apart.run_comm (events : List Event) : q.run (p.run events) = p.run (q.run events) := by
  rw [h.run_run, h.symm.run_run, run, run, h.or_comm_step]

end TwoRules

end Rule

/-- Typing is taken into the fill of the same element in front of it, and starts a fill where there
is none. -/
def squashing : Rule where
  Governs e := e.action = .fill ∨ Types e
  enter e := if Types e then asFill e (typedText e) else e
  absorb? last e :=
    if Types e ∧ last.action = .fill ∧ targetOf last = targetOf e then
      some { last with value := some (.text (typedText e)) }
    else none
  enter_other h := if_neg (not_or.mp h).2
  enter_governs {e} h := by
    split
    · exact Or.inl rfl
    · exact h
  absorb_governs {last e taken} h := by
    obtain ⟨⟨ht, hl, -⟩, h⟩ := Option.ite_none_right_eq_some.mp h
    cases h
    exact ⟨Or.inl hl, Or.inr ht, Or.inl hl⟩

/-- An event that repeats the one kept last is dropped. -/
def dropping (repeats : Event → Event → Bool) (Governs : Event → Prop)
    (hr : ∀ last e, repeats last e = true → Governs last ∧ Governs e) : Rule where
  Governs := Governs
  enter := id
  absorb? last e := if repeats last e then some last else none
  enter_other _ := rfl
  enter_governs := id
  absorb_governs {last e taken} h := by
    obtain ⟨hrep, h⟩ := Option.ite_none_right_eq_some.mp h
    cases h
    exact ⟨(hr _ _ hrep).1, (hr _ _ hrep).2, (hr _ _ hrep).1⟩

/-- Is the event a stroke of a modifier key? -/
def StrokesModifier (e : Event) : Prop :=
  e.action = .keydown ∧ ∃ key ∈ e.key, Keyboard.isModifier key = true

/-- Only strokes of modifier keys repeat each other. -/
theorem strokesModifier_of_repeats (last e : Event) (h : repeatsModifier last e = true) :
    StrokesModifier last ∧ StrokesModifier e := by
  obtain ⟨⟨ha, hb⟩, ⟨key, hkey, hakey, hbkey⟩, -⟩ := (repeatsModifier_iff last e).mp h
  exact ⟨⟨ha, key, hakey, hkey⟩, hb, key, hbkey, hkey⟩

/-- A wait for a navigation takes the next one in. -/
def waiting : Rule :=
  dropping repeatsNavigation (·.action = .navigation) fun last e =>
    (repeatsNavigation_iff last e).mp

/-- A stroke of a modifier key takes the next one in. -/
def holding : Rule := dropping repeatsModifier StrokesModifier strokesModifier_of_repeats

/-- A step of taking typing together is a step of its rule. -/
theorem squashStep_eq_step : squashStep = squashing.step := by
  funext kept e
  cases kept with
  | nil => by_cases ht : Types e <;> simp [squashStep, Rule.step, squashing, isTyping_iff, ht]
  | cons last rest =>
    by_cases ht : Types e
    · by_cases hl : last.action = .fill <;> by_cases hs : targetOf last = targetOf e <;>
        simp [squashStep, Rule.step, squashing, isTyping_iff, sameTarget_iff, ht, hl, hs]
    · simp [squashStep, Rule.step, squashing, isTyping_iff, ht]

/-- Taking typing together is the pass of its rule. -/
theorem squash_eq_run (events : List Event) : squash events = squashing.run events := by
  rw [squash, Rule.run, squashStep_eq_step]

/-- Dropping repeats is the pass of its rule. -/
theorem dropRepeats_eq_run {repeats : Event → Event → Bool} {Governs : Event → Prop}
    (hr : ∀ last e, repeats last e = true → Governs last ∧ Governs e) (events : List Event) :
    dropRepeats repeats events = (dropping repeats Governs hr).run events := by
  have hstep : dropStep repeats = (dropping repeats Governs hr).step := by
    funext kept e
    cases kept with
    | nil => rfl
    | cons last rest =>
      by_cases h : repeats last e = true <;> simp [dropStep, Rule.step, dropping, h]
  rw [dropRepeats, Rule.run, hstep]

/-- Dropping waits is the pass of its rule. -/
theorem dropNavigations_eq_run (events : List Event) :
    dropNavigations events = waiting.run events :=
  dropRepeats_eq_run (fun last e => (repeatsNavigation_iff last e).mp) events

/-- Dropping held keys is the pass of its rule. -/
theorem dropModifiers_eq_run (events : List Event) : dropModifiers events = holding.run events :=
  dropRepeats_eq_run strokesModifier_of_repeats events

/-- A wait for a navigation is neither typing nor a fill. -/
theorem squashing_apart_waiting : squashing.Apart waiting := by
  rintro e (hf | ⟨ht, -⟩) (hn : e.action = .navigation)
  · simp [hn] at hf
  · simp [hn] at ht

/-- A stroke of a modifier key is neither typing nor a fill. -/
theorem squashing_apart_holding : squashing.Apart holding := by
  rintro e hs ⟨ha, key, hkey, hmod⟩
  have hmark : markOf? e = some (.modifier key e.frameId) := by
    simp [markOf?, ha, Option.mem_def.mp hkey, hmod]
  have hnone : markOf? e = none := hs.elim markOf?_fill markOf?_typing
  rw [hnone] at hmark
  cases hmark

/-- A stroke of a key is no wait for a navigation. -/
theorem waiting_apart_holding : waiting.Apart holding := by
  rintro e (hn : e.action = .navigation) ⟨ha, -⟩
  rw [hn] at ha
  cases ha

/-- The rule of all three passes together. -/
def shrinking : Rule := (squashing.or waiting).or holding

/-- Shrinking goes through a session once. -/
theorem optimize_eq_run (events : List Event) : optimize events = shrinking.run events := by
  rw [optimize, squash_eq_run, dropNavigations_eq_run, dropModifiers_eq_run,
    squashing_apart_waiting.run_run, (squashing_apart_holding.or waiting_apart_holding).run_run]
  rfl

/-- Any two of the passes can be exchanged. -/
theorem passes_comm {pass pass' : List Event → List Event}
    (h : pass ∈ [squash, dropNavigations, dropModifiers])
    (h' : pass' ∈ [squash, dropNavigations, dropModifiers]) (events : List Event) :
    pass (pass' events) = pass' (pass events) := by
  have hrules : ∀ {pass}, pass ∈ [squash, dropNavigations, dropModifiers] →
      ∃ p ∈ [squashing, waiting, holding], pass = p.run := by
    intro pass h
    simp only [List.mem_cons, List.not_mem_nil, or_false] at h
    rcases h with rfl | rfl | rfl
    · exact ⟨squashing, by simp, funext squash_eq_run⟩
    · exact ⟨waiting, by simp, funext dropNavigations_eq_run⟩
    · exact ⟨holding, by simp, funext dropModifiers_eq_run⟩
  obtain ⟨p, hp, rfl⟩ := hrules h
  obtain ⟨q, hq, rfl⟩ := hrules h'
  have hcomm : [squashing, waiting, holding].Pairwise fun p q =>
      ∀ events, p.run (q.run events) = q.run (p.run events) := by
    simp only [List.pairwise_cons, List.mem_cons, List.not_mem_nil, or_false, forall_eq_or_imp,
      forall_eq, IsEmpty.forall_iff, implies_true, List.Pairwise.nil, and_true]
    exact ⟨⟨squashing_apart_waiting.symm.run_comm, squashing_apart_holding.symm.run_comm⟩,
      waiting_apart_holding.symm.run_comm⟩
  have hsymm : Std.Symm fun p q : Rule => ∀ events, p.run (q.run events) = q.run (p.run events) :=
    ⟨fun p q h events => (h events).symm⟩
  exact hcomm.forall_of_forall (fun p _ events => rfl) hp hq events

/-- The order of the passes does not matter: in whatever order the three are applied, the result is
that of shrinking. -/
theorem passes_in_any_order {order : List (List Event → List Event)}
    (h : order.Perm [squash, dropNavigations, dropModifiers]) (events : List Event) :
    order.foldl (fun events pass => pass events) events = optimize events := by
  have hcomm : ∀ pass ∈ order, ∀ pass' ∈ order, ∀ events : List Event,
      pass' (pass events) = pass (pass' events) :=
    fun pass hp pass' hp' events => passes_comm (h.subset hp') (h.subset hp) events
  exact h.foldl_eq' hcomm events

/-- Typing around a held key, while the page moves on twice. -/
def typingSession : List Event :=
  [ { action := .keydown, selector := some "#q", key := some "a" },
    { action := .keydown, selector := some "#q", value := some (.text "a"), key := some "b" },
    { action := .keydown, key := some "Shift" },
    { action := .keydown, key := some "Shift" },
    { action := .navigation },
    { action := .navigation } ]

/-- With the passes in the opposite order, the session shrinks to the same three events. -/
theorem typingSession_in_reverse :
    [dropModifiers, dropNavigations, squash].Perm [squash, dropNavigations, dropModifiers] ∧
      squash (dropNavigations (dropModifiers typingSession)) =
        [ { action := .fill, selector := some "#q", value := some (.text "ab"), key := some "a" },
          { action := .keydown, key := some "Shift" },
          { action := .navigation } ] := by
  have hperm : [dropModifiers, dropNavigations, squash].Perm
      [squash, dropNavigations, dropModifiers] :=
    List.reverse_perm [squash, dropNavigations, dropModifiers]
  exact ⟨hperm, (passes_in_any_order hperm typingSession).trans (by decide)⟩

/-- A session may be shrunk while it grows: shrinking what has been recorded so far does not change
what the whole session shrinks to, however often it is done. -/
theorem optimize_while_growing (xs ys : List Event) (parts : List (List Event)) :
    optimize (optimize xs ++ ys) = optimize (xs ++ ys) ∧
      parts.foldl (fun kept part => optimize (kept ++ part)) [] = optimize parts.flatten := by
  have hagain : ∀ events, shrinking.run (shrinking.run events) = shrinking.run events := by
    intro events
    rw [← optimize_eq_run, ← optimize_eq_run, optimize_eq_self (isNormal_optimize events)]
  have hresume : ∀ xs ys, optimize (optimize xs ++ ys) = optimize (xs ++ ys) := by
    intro xs ys
    rw [optimize_eq_run xs, optimize_eq_run, optimize_eq_run, Rule.run_resume hagain]
  refine ⟨hresume xs ys, ?_⟩
  induction parts using List.reverseRecOn with
  | nil => rfl
  | append_singleton parts part ih =>
    rw [List.foldl_append, ih, List.foldl_cons, List.foldl_nil, hresume, List.flatten_append,
      List.flatten_singleton]

end SessionScript.Optimizer
