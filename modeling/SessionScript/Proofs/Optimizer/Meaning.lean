import SessionScript.Optimizer
import Mathlib.Data.Set.Basic
import Mathlib.Logic.Function.Basic

/-!
# The meaning of a session survives shrinking

A session is replayed over the texts of its elements: typing and fills write a text, waits for a
navigation and strokes of modifier keys leave a mark, and every other event is observed together
with all texts of the moment. Shrinking a session keeps what is observed, the final texts, and
which marks lie between two observed events. How often a mark is repeated there is not kept, and is
the one thing that two of the passes remove.
-/

namespace SessionScript.Optimizer

/-- The element that an event is about, as it was recorded. -/
structure Target where
  /-- The frame, with absent and zero told apart. -/
  frameId : Option UInt64
  /-- The address of the page. -/
  href : Option String
  /-- The selector of the element. -/
  selector : Option String
  /-- The tag of the element. -/
  tagName : Option String
  deriving DecidableEq

/-- The element of an event. -/
def targetOf (e : Event) : Target := ⟨e.frameId, e.href, e.selector, e.tagName⟩

/-- The texts of the elements, as far as any has been written. -/
abbrev Texts := Target → Option String

/-- Does the event type into an element? A choice from a drop-down list does not, and neither does
a key that stands for no text. -/
def Types (e : Event) : Prop :=
  (e.action = .keydown ∨ e.action = .change ∧ e.tagName ≠ some "SELECT") ∧
    KeyKind.of e.key e.keyCode ≠ .other

instance (e : Event) : Decidable (Types e) := inferInstanceAs (Decidable ((_ ∨ _ ∧ _) ∧ _))

/-- The text that an event leaves in its element: the recorded value, for typing followed by the
character of a printable key. -/
def writtenText? (e : Event) : Option String :=
  if Types e then
    if KeyKind.of e.key e.keyCode = .printable then some (e.typedValue ++ e.key.getD "")
    else some e.typedValue
  else if e.action = .fill then some e.typedValue
  else none

/-- What the passes may thin out between two observed events. -/
inductive Mark where
  /-- A wait for a navigation. -/
  | navigation
  /-- A stroke of a modifier key in a frame. -/
  | modifier (key : String) (frameId : Option UInt64)
  deriving DecidableEq

/-- The mark that an event leaves. -/
def markOf? (e : Event) : Option Mark :=
  match e.action, e.key with
  | .navigation, _ => some .navigation
  | .keydown, some key => if Keyboard.isModifier key then some (.modifier key e.frameId) else none
  | _, _ => none

/-- An event that neither writes a text nor leaves a mark is observed. -/
def isObserved (e : Event) : Bool := (writtenText? e).isNone && (markOf? e).isNone

/-- What a replay has come to. -/
structure Replay where
  /-- The texts at this moment. -/
  texts : Texts := fun _ => none
  /-- The observed events, each with the texts of its moment. -/
  log : List (Event × Texts) := []

/-- Replay one more event. -/
def Replay.step (r : Replay) (e : Event) : Replay :=
  match writtenText? e with
  | some text => { r with texts := Function.update r.texts (targetOf e) (some text) }
  | none => if isObserved e then { r with log := r.log ++ [(e, r.texts)] } else r

/-- Replay a session from the beginning. -/
def replay (events : List Event) : Replay := events.foldl Replay.step {}

/-- The stretches before, between and after the observed events of a session. -/
def gaps (events : List Event) : List (List Event) := events.splitOnP isObserved

/-- The marks in a stretch, however often each is left there. -/
def marksIn (gap : List Event) : Set Mark := {m | ∃ e ∈ gap, markOf? e = some m}

/-- All that an observer can tell of a session: the texts and the log that it comes to, and the
marks of each of its stretches. -/
def appearance (events : List Event) : Replay × List (Set Mark) :=
  (replay events, (gaps events).map marksIn)

/-- Typing is decided by the passes as it is defined for the replay. -/
theorem isTyping_iff (e : Event) : isTyping e = true ↔ Types e := by
  have hm : (keyKind e).isMergeable = true ↔ KeyKind.of e.key e.keyCode ≠ .other := by
    unfold keyKind
    cases KeyKind.of e.key e.keyCode <;> simp [KeyKind.isMergeable]
  unfold isTyping Types Event.isSelect
  split <;> simp_all

/-- Typing writes the text that the passes put into a fill. -/
theorem writtenText?_typing {e : Event} (ht : Types e) : writtenText? e = some (typedText e) := by
  rw [writtenText?, if_pos ht]
  unfold typedText keyKind
  split <;> simp

/-- A fill writes its value. -/
theorem writtenText?_fill {e : Event} (hf : e.action = .fill) :
    writtenText? e = some e.typedValue := by
  have ht : ¬Types e := by simp [Types, hf]
  rw [writtenText?, if_neg ht, if_pos hf]

/-- Modifier keys have long names of their own, so none of them stands for text. -/
theorem ofKey_modifier {key : String} (hk : Keyboard.isModifier key = true) :
    KeyKind.ofKey (some key) = .other := by
  have hall : ∀ k ∈ Keyboard.modifiers, KeyKind.ofKey (some k) = .other := by decide
  exact hall key (List.contains_iff_mem.mp hk)

/-- Typing leaves no mark. -/
theorem markOf?_typing {e : Event} (ht : Types e) : markOf? e = none := by
  obtain ⟨ha, hk⟩ := ht
  unfold markOf?
  split
  · simp_all
  · rename_i key _ hkey
    have hn : ¬Keyboard.isModifier key = true := by
      intro hm
      rw [hkey] at hk
      exact hk (ofKey_modifier hm)
    rw [if_neg hn]
  · rfl

/-- A fill leaves no mark. -/
theorem markOf?_fill {e : Event} (hf : e.action = .fill) : markOf? e = none := by
  simp [markOf?, hf]

/-- An event that writes is not observed. -/
theorem isObserved_of_written {e : Event} {text : String} (hw : writtenText? e = some text) :
    isObserved e = false := by
  simp [isObserved, hw]

/-- An event that leaves a mark is not observed. -/
theorem isObserved_of_mark {e : Event} {m : Mark} (hm : markOf? e = some m) :
    isObserved e = false := by
  simp [isObserved, hm]

/-- An event that leaves a mark writes nothing. -/
theorem writtenText?_of_mark {e : Event} {m : Mark} (hm : markOf? e = some m) :
    writtenText? e = none := by
  have ht : ¬Types e := fun ht => by simp [markOf?_typing ht] at hm
  have hf : ¬e.action = .fill := fun hf => by simp [markOf?_fill hf] at hm
  rw [writtenText?, if_neg ht, if_neg hf]

/-- A write replaces the text of its element and nothing else. -/
theorem step_written {e : Event} {text : String} (hw : writtenText? e = some text) (r : Replay) :
    r.step e = { r with texts := Function.update r.texts (targetOf e) (some text) } := by
  simp [Replay.step, hw]

/-- Marks do not move the replay. -/
theorem step_mark {e : Event} {m : Mark} (hm : markOf? e = some m) (r : Replay) : r.step e = r := by
  simp [Replay.step, writtenText?_of_mark hm, isObserved_of_mark hm]

/-- A replay of two sessions in a row goes on from the first. -/
theorem replay_append (xs ys : List Event) :
    replay (xs ++ ys) = ys.foldl Replay.step (replay xs) := by
  rw [replay, List.foldl_append]
  rfl

/-- One more event starts a new stretch when it is observed, and else extends the last one. -/
theorem gaps_concat (xs : List Event) (e : Event) :
    ∃ earlier last, gaps xs = earlier ++ [last] ∧
      gaps (xs ++ [e]) =
        if isObserved e then earlier ++ [last] ++ [[]] else earlier ++ [last ++ [e]] := by
  unfold gaps
  induction xs with
  | nil =>
    refine ⟨[], [], by simp, ?_⟩
    by_cases he : isObserved e = true <;> simp [List.splitOnP_cons_eq_if_modifyHead, he]
  | cons x xs ih =>
    obtain ⟨earlier, last, hx, he⟩ := ih
    simp only [List.cons_append, List.splitOnP_cons_eq_if_modifyHead, hx, he]
    by_cases ho : isObserved x = true
    · refine ⟨[] :: earlier, last, by simp [ho], ?_⟩
      by_cases hn : isObserved e = true <;> simp [ho, hn]
    · cases earlier with
      | nil =>
        refine ⟨[], x :: last, by simp [ho], ?_⟩
        by_cases hn : isObserved e = true <;> simp [ho, hn]
      | cons first earlier =>
        refine ⟨(x :: first) :: earlier, last, by simp [ho], ?_⟩
        by_cases hn : isObserved e = true <;> simp [ho, hn]

/-- The marks of a stretch that grows by an event. -/
theorem marksIn_concat (gap : List Event) (e : Event) :
    marksIn (gap ++ [e]) = marksIn gap ∪ {m | markOf? e = some m} := by
  ext m
  simp only [marksIn, Set.mem_ofPred_eq, Set.mem_union, List.mem_append, List.mem_singleton,
    or_and_right, exists_or, exists_eq_left]

/-- What an event without a mark adds to the marks is nothing. -/
theorem marksIn_concat_unmarked {e : Event} (hm : markOf? e = none) (gap : List Event) :
    marksIn (gap ++ [e]) = marksIn gap := by
  rw [marksIn_concat]
  simp [hm]

/-- How an observer sees one more event depends only on what was seen before. -/
theorem appearance_concat {xs ys : List Event} (h : appearance xs = appearance ys) (e : Event) :
    appearance (xs ++ [e]) = appearance (ys ++ [e]) := by
  obtain ⟨hr, hm⟩ := Prod.mk.inj h
  obtain ⟨xearlier, xlast, hx, hxe⟩ := gaps_concat xs e
  obtain ⟨yearlier, ylast, hy, hye⟩ := gaps_concat ys e
  rw [hx, hy, List.map_append, List.map_append] at hm
  obtain ⟨hearlier, hlast⟩ := List.append_inj' hm rfl
  have hl : marksIn xlast = marksIn ylast := by simpa using hlast
  have hstep : replay (xs ++ [e]) = replay (ys ++ [e]) := by
    rw [replay_append, replay_append, hr]
  refine Prod.ext hstep ?_
  simp only [appearance, hxe, hye]
  split
  · simp [hearlier, hl]
  · simp [hearlier, marksIn_concat, hl]

/-- After a write an observer sees the new text, and the marks as they were. -/
theorem appearance_written {e : Event} {text : String} (hw : writtenText? e = some text)
    (xs : List Event) :
    appearance (xs ++ [e]) =
      ({ replay xs with texts := Function.update (replay xs).texts (targetOf e) (some text) },
        (gaps xs).map marksIn) := by
  have hm : markOf? e = none := by
    by_contra hm
    obtain ⟨m, hm⟩ := Option.ne_none_iff_exists'.mp hm
    rw [writtenText?_of_mark hm] at hw
    cases hw
  obtain ⟨earlier, last, hx, he⟩ := gaps_concat xs e
  refine Prod.ext ?_ ?_
  · simp only [appearance, replay_append, List.foldl_cons, List.foldl_nil, step_written hw]
  · simp [appearance, he, hx, isObserved_of_written hw, marksIn_concat_unmarked hm]

/-- A mark that repeats the one just left goes unnoticed. -/
theorem appearance_repeated {last e : Event} {m : Mark} (hl : markOf? last = some m)
    (he : markOf? e = some m) (xs : List Event) :
    appearance (xs ++ [last] ++ [e]) = appearance (xs ++ [last]) := by
  obtain ⟨earlier, gap, -, hgap⟩ := gaps_concat xs last
  obtain ⟨earlier', gap', hx, hxe⟩ := gaps_concat (xs ++ [last]) e
  simp only [isObserved_of_mark hl, isObserved_of_mark he, Bool.false_eq_true, if_false]
    at hgap hxe
  obtain ⟨hearlier, hsame⟩ := List.append_inj' (hx.symm.trans hgap) rfl
  have hg : gap' = gap ++ [last] := by simpa using hsame
  have hmarks : marksIn (gap' ++ [e]) = marksIn gap' := by
    rw [marksIn_concat, hg, marksIn_concat, Set.union_assoc]
    simp [hl, he]
  refine Prod.ext ?_ ?_
  · simp only [appearance, replay_append, List.foldl_cons, List.foldl_nil, step_mark he]
  · simp only [appearance, hxe, hx, List.map_append, List.map_cons, hmarks]

/-- The passes compare elements as the replay does. -/
theorem sameTarget_iff (a b : Event) : sameTarget a b = true ↔ targetOf a = targetOf b := by
  simp [sameTarget, targetOf, and_assoc]

/-- Typing looks like the fill that stands for it. -/
theorem appearance_asFill {e : Event} (ht : Types e) (xs : List Event) :
    appearance (xs ++ [asFill e (typedText e)]) = appearance (xs ++ [e]) := by
  have hf : writtenText? (asFill e (typedText e)) = some (typedText e) := writtenText?_fill rfl
  rw [appearance_written hf, appearance_written (writtenText?_typing ht)]
  rfl

/-- Typing after a fill of the same element looks like a fill with the later text. -/
theorem appearance_overwritten {last e : Event} (hl : last.action = .fill)
    (hs : sameTarget last e = true) (ht : Types e) (xs : List Event) :
    appearance (xs ++ [{ last with value := some (.text (typedText e)) }]) =
      appearance (xs ++ [last] ++ [e]) := by
  have hw := writtenText?_fill hl
  have hf : writtenText? { last with value := some (.text (typedText e)) } =
      some (typedText e) := writtenText?_fill hl
  rw [appearance_written hf, appearance_written (writtenText?_typing ht)]
  obtain ⟨hr, hm⟩ := Prod.mk.inj (appearance_written hw xs)
  rw [hr, hm, ← (sameTarget_iff last e).mp hs]
  simp only [Function.update_idem]
  rfl

/-- One step of taking typing together is not noticed. -/
theorem squashStep_appearance (kept : List Event) (e : Event) :
    appearance (squashStep kept e).reverse = appearance (kept.reverse ++ [e]) := by
  unfold squashStep
  split
  · rename_i hi
    have ht := (isTyping_iff e).mp hi
    split
    · rename_i last rest
      split
      · rename_i hb
        obtain ⟨hl, hs⟩ := (Bool.and_eq_true _ _).mp hb
        simpa using appearance_overwritten (of_decide_eq_true hl) hs ht rest.reverse
      · simpa using appearance_asFill ht (last :: rest).reverse
    · exact appearance_asFill ht []
  · rw [List.reverse_cons]

/-- One step of dropping repeated marks is not noticed. -/
theorem dropStep_appearance {repeats : Event → Event → Bool}
    (hr : ∀ last e, repeats last e = true → ∃ m, markOf? last = some m ∧ markOf? e = some m)
    (kept : List Event) (e : Event) :
    appearance (dropStep repeats kept e).reverse = appearance (kept.reverse ++ [e]) := by
  unfold dropStep
  split
  · rename_i last rest
    split
    · rename_i hrep
      obtain ⟨m, hl, he⟩ := hr last e hrep
      simpa using (appearance_repeated hl he rest.reverse).symm
    · rw [List.reverse_cons]
  · rfl

/-- What a pass keeps in each single step it keeps on every session. The pass is seen through a
view of its output that one more event extends in one way only. -/
theorem foldl_view {α : Type} {view : List Event → α} {step : List Event → Event → List Event}
    (hv : ∀ {xs ys}, view xs = view ys → ∀ e, view (xs ++ [e]) = view (ys ++ [e]))
    (hs : ∀ kept e, view (step kept e).reverse = view (kept.reverse ++ [e]))
    (kept events : List Event) :
    view (events.foldl step kept).reverse = view (kept.reverse ++ events) := by
  have happend : ∀ more {xs ys}, view xs = view ys → view (xs ++ more) = view (ys ++ more) := by
    intro more
    induction more with
    | nil => intro xs ys h; simpa using h
    | cons e more ih =>
      intro xs ys h
      rw [List.append_cons xs, List.append_cons ys]
      exact ih (hv h e)
  induction events generalizing kept with
  | nil => simp
  | cons e events ih =>
    rw [List.append_cons kept.reverse, List.foldl_cons, ih (step kept e)]
    exact happend events (hs kept e)

/-- Taking typing together is not noticed. -/
theorem squash_appearance (events : List Event) :
    appearance (squash events) = appearance events :=
  foldl_view appearance_concat squashStep_appearance [] events

/-- Dropping repeated marks is not noticed. -/
theorem dropRepeats_appearance {repeats : Event → Event → Bool}
    (hr : ∀ last e, repeats last e = true → ∃ m, markOf? last = some m ∧ markOf? e = some m)
    (events : List Event) : appearance (dropRepeats repeats events) = appearance events :=
  foldl_view appearance_concat (dropStep_appearance hr) [] events

/-- Waits for a navigation that repeat each other leave the same mark. -/
theorem repeatsNavigation_mark (last e : Event) (h : repeatsNavigation last e = true) :
    ∃ m, markOf? last = some m ∧ markOf? e = some m := by
  simp only [repeatsNavigation, Bool.and_eq_true, decide_eq_true_eq] at h
  exact ⟨.navigation, by simp [markOf?, h.2], by simp [markOf?, h.1]⟩

/-- Strokes of a modifier key that repeat each other leave the same mark. -/
theorem repeatsModifier_mark (last e : Event) (h : repeatsModifier last e = true) :
    ∃ m, markOf? last = some m ∧ markOf? e = some m := by
  simp only [repeatsModifier, Bool.and_eq_true, decide_eq_true_eq] at h
  obtain ⟨⟨⟨⟨he, hl⟩, hk⟩, hm⟩, hf⟩ := h
  obtain ⟨key, hkey, hmod⟩ := (Option.any_eq_true _ _).mp hm
  have hlast : last.key = some key := hk.symm.trans hkey
  exact ⟨.modifier key e.frameId, by simp [markOf?, hl, hlast, hmod, hf],
    by simp [markOf?, he, hkey, hmod]⟩

/-- Shrinking a session keeps its meaning: the observed events with the texts of their moments, the
final texts, and which waits for a navigation and which modifier keys, in which frame, lie between
any two neighbours of the observed events, before the first and after the last. -/
theorem optimize_keeps_meaning (events : List Event) :
    (replay (optimize events)).log = (replay events).log ∧
      (replay (optimize events)).texts = (replay events).texts ∧
      (gaps (optimize events)).map marksIn = (gaps events).map marksIn := by
  have h : appearance (optimize events) = appearance events := by
    rw [optimize, dropModifiers, dropRepeats_appearance repeatsModifier_mark, dropNavigations,
      dropRepeats_appearance repeatsNavigation_mark, squash_appearance]
  obtain ⟨hr, hm⟩ := Prod.mk.inj h
  exact ⟨congrArg Replay.log hr, congrArg Replay.texts hr, hm⟩

end SessionScript.Optimizer
