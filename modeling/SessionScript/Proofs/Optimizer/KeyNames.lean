import SessionScript.Proofs.Optimizer.Stretches

/-!
# Keys that were recorded by their code alone

Older recordings give a keystroke only the code of its key. Giving it the name that belongs to the
code changes neither whether it is typing nor what it types, because only control keys have such
names. It does change which strokes repeat each other: a held key is found by its name. So a session
with names is shrunk to what the session itself shrinks to, with names and with the held keys
dropped that had been recorded by code; there are none exactly if no two neighbours of the session
are strokes of a key that is held by code alone.
-/

namespace SessionScript.Optimizer

open Keyboard

/-- A keystroke without the name of its key gets the name of its code, if that has one. -/
def keyNamed (e : Event) : Event :=
  if e.action = .keydown ∧ e.key = none then { e with key := e.keyCode.bind codeName? } else e

/-- A session in which every held key is recorded by its name: strokes that hold one key down once
their keys are named do so already. -/
def HeldByName (events : List Event) : Prop :=
  events.IsChain fun a b => BothHold (keyNamed a) (keyNamed b) → BothHold a b

instance (events : List Event) : Decidable (HeldByName events) :=
  inferInstanceAs (Decidable (events.IsChain _))

/-- Codes with a name are codes of control keys, and their names stand for no text. -/
theorem codeName?_control {code : UInt32} {name : String} (h : codeName? code = some name) :
    code ≠ composingCode ∧ isControlCode code = true ∧ KeyKind.ofKey (some name) = .other := by
  have hall : ∀ entry ∈ codeNames, entry.1 ≠ composingCode ∧ isControlCode entry.1 = true ∧
      KeyKind.ofKey (some entry.2) = .other := by decide
  obtain ⟨before, after, hnames, -⟩ := List.lookup_eq_some_iff.mp h
  refine hall (code, name) ?_
  rw [hnames]
  exact List.mem_append_right _ List.mem_cons_self

/-- At most the name of the key is changed. -/
theorem exists_keyNamed_eq (e : Event) : ∃ key, keyNamed e = { e with key } := by
  unfold keyNamed
  split
  · exact ⟨_, rfl⟩
  · exact ⟨e.key, rfl⟩

@[simp]
theorem keyNamed_action (e : Event) : (keyNamed e).action = e.action := by
  obtain ⟨key, h⟩ := exists_keyNamed_eq e
  rw [h]

@[simp]
theorem keyNamed_frameId (e : Event) : (keyNamed e).frameId = e.frameId := by
  obtain ⟨key, h⟩ := exists_keyNamed_eq e
  rw [h]

@[simp]
theorem targetOf_keyNamed (e : Event) : targetOf (keyNamed e) = targetOf e := by
  obtain ⟨key, h⟩ := exists_keyNamed_eq e
  rw [h]
  rfl

/-- The key of a stroke with its name. -/
theorem keyNamed_key {e : Event} (ha : e.action = .keydown) :
    (keyNamed e).key = e.key.or (e.keyCode.bind codeName?) := by
  unfold keyNamed
  cases hkey : e.key <;> simp [ha, hkey]

/-- Only keystrokes are given names. -/
theorem keyNamed_of_action {e : Event} (h : e.action ≠ .keydown) : keyNamed e = e :=
  if_neg fun hk => h hk.1

/-- A recorded name is kept. -/
theorem keyNamed_of_key {e : Event} {key : String} (h : e.key = some key) : keyNamed e = e :=
  if_neg fun hk => by simp [h] at hk

/-- A stroke without a name is given one only if it stands for no text. -/
theorem keyNamed_eq_or (e : Event) :
    keyNamed e = e ∨ KeyKind.of e.key e.keyCode = .other ∧
      KeyKind.of (keyNamed e).key (keyNamed e).keyCode = .other := by
  by_cases h : e.action = .keydown ∧ e.key = none
  · have hnamed : keyNamed e = { e with key := e.keyCode.bind codeName? } := if_pos h
    cases hname : e.keyCode.bind codeName? with
    | none =>
      left
      rw [hnamed, hname, ← h.2]
    | some name =>
      right
      obtain ⟨code, hcode, hname'⟩ := Option.bind_eq_some_iff.mp hname
      obtain ⟨hcomposing, hcontrol, hother⟩ := codeName?_control hname'
      rw [hnamed, hname, h.2, hcode]
      refine ⟨?_, hother⟩
      simp [KeyKind.of, hcomposing, hcontrol]
  · exact Or.inl (if_neg h)

/-- Names change nothing about which events type. -/
theorem types_keyNamed (e : Event) : Types (keyNamed e) ↔ Types e := by
  rcases keyNamed_eq_or e with h | ⟨h, h'⟩
  · rw [h]
  · exact iff_of_false (fun ht => ht.2 h') fun ht => ht.2 h

/-- Typing is given no names. -/
theorem keyNamed_of_types {e : Event} (ht : Types e) : keyNamed e = e :=
  (keyNamed_eq_or e).resolve_right fun h => ht.2 h.1

/-- When a change of the events goes through the steps of a pass, it goes through the pass. -/
theorem Rule.run_map {p : Rule} {f : Event → Event} (henter : ∀ e, p.enter (f e) = f (p.enter e))
    (habsorb : ∀ last e, p.absorb? (f last) (f e) = (p.absorb? last e).map f)
    (events : List Event) : p.run (events.map f) = (p.run events).map f := by
  have hstep : ∀ kept e, p.step (kept.map f) (f e) = (p.step kept e).map f := by
    intro kept e
    cases kept with
    | nil => exact congrArg (fun x => [x]) (henter e)
    | cons last kept =>
      rw [List.map_cons]
      cases h : p.absorb? last e with
      | some taken =>
        have hf : p.absorb? (f last) (f e) = some (f taken) := by rw [habsorb, h]; rfl
        rw [step_absorbed h, step_absorbed hf, List.map_cons]
      | none =>
        have hf : p.absorb? (f last) (f e) = none := by rw [habsorb, h]; rfl
        rw [step_kept h, step_kept hf, henter, List.map_cons, List.map_cons]
  have hfold : events.foldl (fun kept e => p.step kept (f e)) (([] : List Event).map f) =
      (events.foldl p.step []).map f :=
    List.foldl_hom (List.map f) hstep
  rw [run, run, List.foldl_map, List.map_reverse]
  exact congrArg List.reverse hfold

/-- Typing is taken together in the same way when keys are named. -/
theorem squash_map_keyNamed (events : List Event) :
    squash (events.map keyNamed) = (squash events).map keyNamed := by
  have hfill : ∀ {x : Event}, x.action = .fill → keyNamed x = x :=
    fun hx => keyNamed_of_action (by simp [hx])
  rw [squash_eq_run, squash_eq_run]
  refine Rule.run_map (fun e => ?_) (fun last e => ?_) events
  · change (if Types (keyNamed e) then _ else _) = keyNamed (if Types e then _ else _)
    simp only [types_keyNamed]
    split
    · rename_i ht
      rw [keyNamed_of_types ht, hfill (x := asFill e (typedText e)) rfl]
    · rfl
  · change (if Types (keyNamed e) ∧ _ then _ else _) =
      (if Types e ∧ _ then _ else _ : Option Event).map _
    simp only [types_keyNamed, keyNamed_action, targetOf_keyNamed]
    split
    · rename_i h
      have htext : typedText (keyNamed e) = typedText e := by rw [keyNamed_of_types h.1]
      rw [hfill h.2.1, htext, Option.map_some]
      refine congrArg some (Eq.symm (hfill ?_))
      exact h.2.1
    · rfl

/-- Waits are dropped in the same way when keys are named. -/
theorem dropNavigations_map_keyNamed (events : List Event) :
    dropNavigations (events.map keyNamed) = (dropNavigations events).map keyNamed := by
  rw [dropNavigations_eq_run, dropNavigations_eq_run]
  refine Rule.run_map (f := keyNamed) (fun e => rfl) (fun last e => ?_) events
  have hrepeats : repeatsNavigation (keyNamed last) (keyNamed e) = repeatsNavigation last e := by
    simp only [repeatsNavigation, keyNamed_action]
  change (if _ then _ else _) = (if _ then _ else _ : Option Event).map _
  rw [hrepeats]
  split <;> rfl

/-- Strokes that hold a key down still do when keys are named. -/
theorem BothHold.keyNamed {a b : Event} (h : BothHold a b) :
    BothHold (keyNamed a) (keyNamed b) := by
  obtain ⟨-, ⟨key, -, ha, hb⟩, -⟩ := id h
  rwa [keyNamed_of_key ha, keyNamed_of_key hb]

/-- Strokes that hold the key of one stroke down hold one key down. -/
theorem BothHold.trans {a b c : Event} (h : BothHold a b) (h' : BothHold b c) : BothHold a c := by
  obtain ⟨⟨ha, -⟩, ⟨key, hmod, hakey, hbkey⟩, hframe⟩ := h
  obtain ⟨⟨-, hc⟩, ⟨key', -, hbkey', hckey⟩, hframe'⟩ := h'
  have hkey : key = key' := Option.some.inj (hbkey.symm.trans hbkey')
  exact ⟨⟨ha, hc⟩, ⟨key, hmod, hakey, hkey ▸ hckey⟩, hframe.trans hframe'⟩

/-- With keys named, it makes no difference that held keys have been dropped before. `last` is what
the pass has kept so far, and `early` what the earlier one has: the same stroke, or one of the same
key. -/
theorem keptAfter_map_keyNamed {last early : Event}
    (h : last = keyNamed early ∨ BothHold last (keyNamed early)) (events : List Event) :
    keptAfter repeatsModifier last (events.map keyNamed) =
      keptAfter repeatsModifier last ((keptAfter repeatsModifier early events).map keyNamed) := by
  induction events generalizing last early with
  | nil => rfl
  | cons e events ih =>
    rw [List.map_cons, keptAfter, keptAfter]
    by_cases hearly : repeatsModifier early e = true
    · have hnamed := ((repeatsModifier_iff early e).mp hearly).keyNamed
      have hlast : repeatsModifier last (keyNamed e) = true := by
        rw [repeatsModifier_iff]
        rcases h with rfl | h
        · exact hnamed
        · exact h.trans hnamed
      rw [if_pos hlast, if_pos hearly, ih h]
    · rw [if_neg hearly, List.map_cons, keptAfter]
      by_cases hlast : repeatsModifier last (keyNamed e) = true
      · rw [if_pos hlast, if_pos hlast, ih (Or.inr ((repeatsModifier_iff last _).mp hlast))]
      · rw [if_neg hlast, if_neg hlast, ih (Or.inl rfl)]

/-- Held keys are dropped in the same way when the keys that were held by name are gone. -/
theorem dropModifiers_map_keyNamed (events : List Event) :
    dropModifiers (events.map keyNamed) = dropModifiers ((dropModifiers events).map keyNamed) := by
  cases events with
  | nil => rfl
  | cons e events =>
    simp only [dropModifiers, List.map_cons, dropRepeats_cons]
    rw [keptAfter_map_keyNamed (Or.inl rfl)]

/-- A session with names is shrunk to what the session shrinks to, with names and without the held
keys that these bring out. -/
theorem optimize_map_keyNamed (events : List Event) :
    optimize (events.map keyNamed) = dropModifiers ((optimize events).map keyNamed) := by
  rw [optimize, squash_map_keyNamed, dropNavigations_map_keyNamed, dropModifiers_map_keyNamed]
  rfl

/-- With keys named, strokes hold a key down that is known by its name or by its code. What else the
events carry makes no difference. -/
theorem bothHold_keyNamed_iff (a b : Event) :
    BothHold (keyNamed a) (keyNamed b) ↔
      (a.action = .keydown ∧ b.action = .keydown) ∧
        (∃ key, isModifier key = true ∧ a.key.or (a.keyCode.bind codeName?) = some key ∧
          b.key.or (b.keyCode.bind codeName?) = some key) ∧ a.frameId = b.frameId := by
  simp only [BothHold, keyNamed_action, keyNamed_frameId]
  refine and_congr_right fun h => ?_
  rw [keyNamed_key h.1, keyNamed_key h.2]

/-- What types holds no key down. -/
theorem not_types_of_hold {a b : Event} (h : BothHold a b) : ¬Types a ∧ ¬Types b := by
  obtain ⟨m, ha, hb⟩ := repeatsModifier_mark a b ((repeatsModifier_iff a b).mpr h)
  have hmark : ∀ {e : Event}, markOf? e = some m → ¬Types e := by
    intro e he ht
    rw [markOf?_typing ht] at he
    cases he
  exact ⟨hmark ha, hmark hb⟩

/-- The passes enter strokes that hold a key down as they are. -/
theorem bothHold_enter (a b : Event) (value : Option Payload) :
    BothHold (keyNamed (shrinking.enter a)) (keyNamed { shrinking.enter b with value }) ↔
      BothHold (keyNamed a) (keyNamed b) := by
  rw [bothHold_keyNamed_iff, shrinking_enter, shrinking_enter]
  by_cases ha : Types a
  · rw [if_pos ha]
    refine iff_of_false (fun h => Action.noConfusion h.1.1) fun h => ?_
    exact (not_types_of_hold h).1 ((types_keyNamed a).mpr ha)
  by_cases hb : Types b
  · rw [if_pos hb]
    refine iff_of_false (fun h => Action.noConfusion h.1.2) fun h => ?_
    exact (not_types_of_hold h).2 ((types_keyNamed b).mpr hb)
  rw [if_neg ha, if_neg hb, bothHold_keyNamed_iff]

/-- What shrinks to one event goes on holding what the second of the two holds. -/
theorem bothHold_merged {a b : Event} (h : Merges a b) (value : Option Payload) (e : Event) :
    BothHold (keyNamed (withTextOf a { shrinking.enter b with value })) (keyNamed e) ↔
      BothHold (keyNamed { shrinking.enter b with value }) (keyNamed e) := by
  have hnone : ∀ {x y : Event}, x.action ≠ .keydown → y.action ≠ .keydown →
      (BothHold (keyNamed x) (keyNamed e) ↔ BothHold (keyNamed y) (keyNamed e)) := by
    intro x y hx hy
    rw [bothHold_keyNamed_iff, bothHold_keyNamed_iff]
    exact iff_of_false (fun h => hx h.1.1) fun h => hy h.1.1
  rcases h with (⟨hs, hc⟩ | hhold) | hnav
  · have hb : shrinking.enter b = asFill b (typedText b) := if_pos (of_decide_eq_true hc).1
    have hfill : ∀ x : Event, x.action = .fill → (withTextOf a x).action = .fill := by
      intro x hx
      rw [withTextOf, if_pos hx]
    rw [hb]
    refine hnone ?_ (by simp [asFill])
    rw [hfill _ rfl]
    exact Action.noConfusion
  · obtain ⟨m, -, hm⟩ := repeatsModifier_mark a b ((repeatsModifier_iff a b).mpr hhold)
    obtain ⟨⟨ha, hb⟩, ⟨key, -, hakey, hbkey⟩, hframe⟩ := hhold
    have hkept : withTextOf a { b with value } = a := if_neg (by simp [hb])
    rw [enter_of_mark hm, hkept, bothHold_keyNamed_iff, bothHold_keyNamed_iff]
    simp only [ha, hb, hakey, hbkey, hframe, Option.some_or]
  · obtain ⟨m, -, hm⟩ := repeatsNavigation_mark a b ((repeatsNavigation_iff a b).mpr hnav)
    have hkept : withTextOf a { b with value } = a := if_neg (by simp [hnav.2])
    rw [enter_of_mark hm, hkept]
    exact hnone (by simp [hnav.1]) (by simp [hnav.2])

/-- Neighbours that shrink to one event hold no key down that was recorded by code. -/
theorem bothHold_of_merges {a b : Event} (h : Merges a b) :
    BothHold (keyNamed a) (keyNamed b) → BothHold a b := by
  intro hnamed
  rcases h with (⟨-, hc⟩ | hhold) | hnav
  · have ht := (types_keyNamed b).mpr (of_decide_eq_true hc).1
    exact absurd ht (not_types_of_hold hnamed).2
  · exact hhold
  · have ha := ((bothHold_keyNamed_iff a b).mp hnamed).1.1
    rw [hnav.1] at ha
    cases ha

/-- Names bring out held keys in a shrunk session exactly if the session does not record all of them
by name. -/
theorem isChain_map_keyNamed_iff (events : List Event) :
    ((optimize events).map keyNamed).IsChain (fun a b => ¬BothHold a b) ↔ HeldByName events := by
  induction events with
  | nil => exact iff_of_true List.isChain_nil List.isChain_nil
  | cons a rest ih =>
    cases rest with
    | nil =>
      have hone : optimize [a] = [shrinking.enter a] := optimize_eq_run [a]
      rw [hone]
      exact iff_of_true (List.isChain_singleton _) (List.isChain_singleton a)
    | cons b rest =>
      obtain ⟨value, kept, hkept⟩ := optimize_head b rest
      have hcons : HeldByName (a :: b :: rest) ↔
          (BothHold (keyNamed a) (keyNamed b) → BothHold a b) ∧ HeldByName (b :: rest) :=
        List.isChain_cons_cons
      rw [hkept, List.map_cons] at ih
      rw [hcons, ← ih]
      by_cases hm : Merges a b
      · rw [optimize_merged hm, hkept, List.modifyHead_cons, List.map_cons,
          and_iff_right (bothHold_of_merges hm)]
        -- the first of the two stands in front of what stood behind the second
        cases kept with
        | nil => exact iff_of_true (List.isChain_singleton _) (List.isChain_singleton _)
        | cons e kept =>
          rw [List.map_cons, List.isChain_cons_cons, List.isChain_cons_cons, bothHold_merged hm]
      · have hhold : ¬BothHold a b := fun h => hm (Or.inl (Or.inr h))
        rw [optimize_apart hm, hkept, List.map_cons, List.map_cons, List.isChain_cons_cons,
          bothHold_enter, imp_iff_not hhold]

/-- Held keys are recorded by name exactly if naming keys and shrinking can be exchanged. -/
theorem dropModifiers_eq_self_iff (events : List Event) :
    dropModifiers ((optimize events).map keyNamed) = (optimize events).map keyNamed ↔
      HeldByName events := by
  rw [← isChain_map_keyNamed_iff, ← isChain_iff_of_test repeatsModifier_iff]
  constructor
  · intro h
    rw [← h]
    exact dropRepeats_isChain _
  · exact dropRepeats_eq_self

end SessionScript.Optimizer
