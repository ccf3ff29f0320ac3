import SessionScript.Compilation
import SessionScript.Proofs.Optimizer.Stretches
import SessionScript.Proofs.Script.Thinning

/-!
# Two spellings of the page

The page itself is recorded as an absent frame or as frame zero, and code is written for both in the
same way. Shrinking tells them apart: typing and strokes of a held key go on with what stands in
front of them only if the frame is spelled alike. So a recording that changes the spelling in the
middle of such a stretch leaves more events than one that spells the page in one way, and the script
gets a line more for each change. Everywhere else the spelling makes no difference.
-/

namespace SessionScript.Script

open Optimizer

/-- Events that differ at most in how they spell the page: as an absent frame or as frame zero. -/
def Respells (e e' : Event) : Prop := e.frame = e'.frame ∧ e' = { e with frameId := e'.frameId }

instance (e e' : Event) : Decidable (Respells e e') := inferInstanceAs (Decidable (_ ∧ _))

/-- The event with its frame spelled out. -/
def spelledOut (e : Event) : Event := { e with frameId := some e.frame }

/-- A session in which the spelling of the page never changes between neighbours of which one would
go on with the other. -/
def Steady (events : List Event) : Prop :=
  events.IsChain fun a b => Continues (spelledOut a) (spelledOut b) → a.frameId = b.frameId

instance (events : List Event) : Decidable (Steady events) :=
  inferInstanceAs (Decidable (events.IsChain _))

/-- Spelling frames out does not change whether an event waits for a navigation. -/
theorem bothNavigate_spelledOut (a b : Event) :
    BothNavigate (spelledOut a) (spelledOut b) ↔ BothNavigate a b := Iff.rfl

/-- An event goes on with the one in front of it exactly if it does with frames spelled out, and
both spell their frame alike. -/
theorem continues_iff (a b : Event) :
    Continues a b ↔ Continues (spelledOut a) (spelledOut b) ∧ a.frameId = b.frameId := by
  have hframe : a.frameId = b.frameId → a.frame = b.frame := by
    intro h
    rw [Event.frame, Event.frame, h]
  constructor
  · rintro (⟨hs, hc⟩ | ⟨hk, hkey, hf⟩)
    · obtain ⟨ht, htarget⟩ := of_decide_eq_true hc
      simp only [targetOf, Target.mk.injEq] at htarget
      refine ⟨Or.inl ⟨hs, decide_eq_true ⟨ht, ?_⟩⟩, htarget.1⟩
      simp [targetOf, spelledOut, hframe htarget.1, htarget]
    · exact ⟨Or.inr ⟨hk, hkey, congrArg some (hframe hf)⟩, hf⟩
  · rintro ⟨⟨hs, hc⟩ | ⟨hk, hkey, -⟩, hf⟩
    · obtain ⟨ht, htarget⟩ := of_decide_eq_true hc
      simp only [targetOf, Target.mk.injEq, spelledOut] at htarget
      refine Or.inl ⟨hs, decide_eq_true ⟨ht, ?_⟩⟩
      simp [targetOf, hf, htarget]
    · exact Or.inr ⟨hk, hkey, hf⟩

/-- Neighbours that merge still do with frames spelled out. The others then merge exactly if they
spell their page in both ways. -/
theorem merges_spelledOut_iff (a b : Event) :
    Merges (spelledOut a) (spelledOut b) ↔
      Merges a b ∨ Continues (spelledOut a) (spelledOut b) ∧ a.frameId ≠ b.frameId := by
  rw [Merges, Merges, bothNavigate_spelledOut, continues_iff a b]
  tauto

/-- Neighbours that merge and go on with each other spell their page alike. -/
theorem frameId_of_merges {a b : Event} (hm : Merges a b)
    (hc : Continues (spelledOut a) (spelledOut b)) : a.frameId = b.frameId := by
  refine ((continues_iff a b).mp (hm.resolve_right fun hnav => ?_)).2
  have hkind := hc.action.2
  simp [enter_of_bothNavigate ((bothNavigate_spelledOut a b).mpr hnav)] at hkind

/-- One more event in front keeps a session steady if the next one does not change the spelling. -/
theorem steady_cons_cons (a b : Event) (rest : List Event) :
    Steady (a :: b :: rest) ↔
      (Continues (spelledOut a) (spelledOut b) → a.frameId = b.frameId) ∧ Steady (b :: rest) :=
  List.isChain_cons_cons

/-- Respelled events are alike. -/
theorem Respells.alike {e e' : Event} (h : Respells e e') : Alike e e' := by
  obtain ⟨hframe, he⟩ := h
  rw [he] at hframe ⊢
  exact ⟨rfl, hframe, fun _ => rfl, fun _ _ => rfl, fun _ => ⟨rfl, rfl⟩, fun _ _ => ⟨rfl, rfl⟩⟩

/-- Spelling the frame out is a respelling. -/
theorem respells_spelledOut (e : Event) : Respells e (spelledOut e) := ⟨rfl, rfl⟩

/-- The passes enter an event in the same way when its frame is spelled out. -/
theorem enter_spelledOut (e : Event) :
    shrinking.enter (spelledOut e) = spelledOut (shrinking.enter e) := by
  have htypes : Types (spelledOut e) ↔ Types e := Iff.rfl
  rw [shrinking_enter, shrinking_enter]
  by_cases ht : Types e
  · rw [if_pos ht, if_pos (htypes.mpr ht)]
    rfl
  · rw [if_neg ht, if_neg (mt htypes.mp ht)]

/-- An event gets the text of an alike one when its frame is spelled out. -/
theorem Alike.congr_withTextOf {x y : Event} (h : Alike x y) (a : Event) :
    Alike (withTextOf a x) (withTextOf (spelledOut a) y) := by
  rw [withTextOf, withTextOf]
  by_cases hf : x.action = .fill
  · have hvalue := (h.carried (by simp [hf])).2
    rw [if_pos hf, if_pos (h.action ▸ hf), hvalue]
    exact Respells.alike ⟨rfl, rfl⟩
  · rw [if_neg hf, if_neg (h.action ▸ hf)]
    exact (respells_spelledOut a).alike

/-- On the page, a stretch gives the same code with or without its first event. -/
theorem alike_withTextOf {a b : Event} (h : Continues a b) (hpage : a.frame = 0)
    (value : Option Payload) :
    Alike { shrinking.enter b with value }
      (withTextOf a { shrinking.enter b with value }) := by
  have hframe : a.frame = b.frame := congrArg (·.getD 0) ((continues_iff a b).mp h).2
  rcases h with ⟨-, hc⟩ | hhold
  · obtain ⟨ht, htarget⟩ := of_decide_eq_true hc
    have hb : shrinking.enter b = asFill b (typedText b) := if_pos ht
    have hfill : ∀ x : Event, x.action = .fill →
        withTextOf a x = { a with action := .fill, value := x.value } := fun _ hx => if_pos hx
    simp only [targetOf, Target.mk.injEq] at htarget
    rw [hb, hfill _ rfl]
    exact
      { action := rfl
        frame := hframe.symm
        frameUrl := fun hf => absurd (hframe ▸ hpage) hf
        pressed := fun hk => Action.noConfusion hk
        carried := fun _ => ⟨htarget.2.2.1.symm, rfl⟩
        others := fun _ hf => absurd rfl hf }
  · obtain ⟨m, -, hm⟩ := repeatsModifier_mark a b ((repeatsModifier_iff a b).mpr hhold)
    obtain ⟨⟨ha, hb⟩, ⟨key, -, hakey, hbkey⟩, -⟩ := hhold
    have hkept : ∀ x : Event, x.action = .keydown → withTextOf a x = a :=
      fun x hx => if_neg (by simp [hx])
    rw [enter_of_mark hm, hkept { b with value } hb]
    exact
      { action := hb.trans ha.symm
        frame := hframe.symm
        frameUrl := fun hf => absurd (hframe ▸ hpage) hf
        pressed := fun _ o => by simp [pressedKey, hakey, hbkey]
        carried := fun hk => absurd hb hk
        others := fun hk _ => absurd hb hk }

/-- The passes leave the frame of an event alone. -/
theorem frameId_enter (e : Event) : (shrinking.enter e).frameId = e.frameId := by
  rw [shrinking_enter]
  split <;> rfl

/-- Only the page is spelled in two ways. -/
theorem page_of_spellings {a b : Event} (h : Continues (spelledOut a) (spelledOut b))
    (hne : a.frameId ≠ b.frameId) : a.frame = 0 := by
  have hframe : a.frame = b.frame := Option.some.inj ((continues_iff _ _).mp h).2
  rw [Event.frame, Event.frame] at hframe
  rw [Event.frame]
  cases ha : a.frameId with
  | none => rfl
  | some id =>
    rw [ha] at hframe hne
    cases hb : b.frameId with
    | none =>
      rw [hb] at hframe
      exact hframe
    | some id' =>
      rw [hb] at hframe hne
      exact absurd (congrArg some hframe) hne

section Shrinking

variable {a b : Event} {n : Nat} {value value' : Option Payload} {xs ys : List Event}

/-- Where the spelling of the page changes, the first of two events that go on with each other with
frames spelled out is left out in front of the second. -/
theorem thins_changed (h : Continues (spelledOut a) (spelledOut b)) (hne : a.frameId ≠ b.frameId)
    (hthins : Thins n xs ({ shrinking.enter (spelledOut b) with value } :: ys)) :
    Thins (n + 1) (shrinking.enter a :: xs)
      (withTextOf (spelledOut a) { shrinking.enter (spelledOut b) with value } :: ys) := by
  have hpage : a.frame = 0 := page_of_spellings h hne
  have halike := alike_withTextOf h hpage value
  have hframe : (shrinking.enter a).frame = 0 := by
    rw [Event.frame, frameId_enter]
    exact hpage
  have haction : (shrinking.enter a).action = (shrinking.enter (spelledOut b)).action := by
    rw [← h.action.1, enter_spelledOut]
    rfl
  exact .drop ⟨hframe, haction.trans halike.action, haction ▸ h.action.2⟩ (hthins.replace halike)

/-- Events that merge do so in front of anything that is left out. -/
theorem thins_merged (h : Merges a b)
    (hthins : Thins n ({ shrinking.enter b with value } :: xs)
      ({ shrinking.enter (spelledOut b) with value := value' } :: ys)) :
    Thins n (withTextOf a { shrinking.enter b with value } :: xs)
      (withTextOf (spelledOut a) { shrinking.enter (spelledOut b) with value := value' } ::
        ys) := by
  cases hthins with
  | keep halike hrest => exact .keep (halike.congr_withTextOf a) hrest
  | drop hspare hrest =>
    have hcontinues : Continues a b := by
      refine h.resolve_right fun hnav => ?_
      have hkind := hspare.kind
      simp [enter_of_bothNavigate hnav] at hkind
    have hpage : a.frame = 0 := by
      have hframe : a.frameId = (shrinking.enter b).frameId :=
        ((continues_iff a b).mp hcontinues).2.trans (frameId_enter b).symm
      rw [Event.frame, hframe]
      exact hspare.page
    have hspelled := ((continues_iff a b).mp hcontinues).1
    have hkept := alike_withTextOf hspelled hpage value'
    exact .drop (hspare.congr (alike_withTextOf hcontinues hpage value) hkept) (hrest.replace hkept)

end Shrinking

/-- With frames spelled out, shrinking leaves out what it keeps only because the spelling of the
page changes. -/
theorem thins_optimize (events : List Event) :
    ∃ n, Thins n (optimize events) (optimize (events.map spelledOut)) ∧
      (n = 0 ↔ Steady events) := by
  induction events with
  | nil => exact ⟨0, .nil, iff_of_true rfl List.isChain_nil⟩
  | cons a rest ih =>
    cases rest with
    | nil =>
      have hone : ∀ e, optimize [e] = [shrinking.enter e] := fun e => optimize_eq_run [e]
      refine ⟨0, ?_, iff_of_true rfl (List.isChain_singleton a)⟩
      rw [List.map_cons, List.map_nil, hone, hone, enter_spelledOut]
      exact .keep (respells_spelledOut _).alike .nil
    | cons b rest =>
      obtain ⟨n, hthins, hn⟩ := ih
      rw [List.map_cons] at hthins
      rw [List.map_cons, List.map_cons, steady_cons_cons, ← hn]
      by_cases hm : Merges a b
      · -- the two merge in both spellings, whatever becomes of the rest
        obtain ⟨value, xs, hx⟩ := optimize_head b rest
        obtain ⟨value', ys, hy⟩ := optimize_head (spelledOut b) (rest.map spelledOut)
        have hm' := (merges_spelledOut_iff a b).mpr (Or.inl hm)
        rw [optimize_merged hm, optimize_merged hm', hx, hy]
        rw [hx, hy] at hthins
        exact ⟨n, thins_merged hm hthins, fun h => ⟨frameId_of_merges hm, h⟩, And.right⟩
      · by_cases hc : Continues (spelledOut a) (spelledOut b)
        · -- they merge only with frames spelled out, and `a` is left out
          have hne : a.frameId ≠ b.frameId := fun hf =>
            hm (Or.inl ((continues_iff a b).mpr ⟨hc, hf⟩))
          obtain ⟨value', ys, hy⟩ := optimize_head (spelledOut b) (rest.map spelledOut)
          rw [optimize_apart hm, optimize_merged (Or.inl hc), hy]
          rw [hy] at hthins
          refine ⟨n + 1, thins_changed hc hne hthins, iff_of_false (Nat.succ_ne_zero n) ?_⟩
          exact fun h => hne (h.1 hc)
        · have hm' : ¬Merges (spelledOut a) (spelledOut b) := fun h =>
            ((merges_spelledOut_iff a b).mp h).elim hm fun h => hc h.1
          rw [optimize_apart hm, optimize_apart hm', enter_spelledOut]
          exact ⟨n, .keep (respells_spelledOut _).alike hthins,
            fun h => ⟨fun hspelled => absurd hspelled hc, h⟩, And.right⟩

/-- The script of a shrunk session is the one with frames spelled out exactly if the session is
steady. -/
theorem script_spelledOut_iff (d : Dialect) (o : Options) (events : List Event) :
    script d o (optimize events) = script d o (optimize (events.map spelledOut)) ↔
      Steady events := by
  obtain ⟨n, hthins, hn⟩ := thins_optimize events
  rw [hthins.script_eq_iff, hn]

section Sessions

variable {xs ys : List Event} (h : List.Forall₂ Respells xs ys)

include h

/-- Respelled sessions are the same with frames spelled out. -/
theorem map_spelledOut_eq : xs.map spelledOut = ys.map spelledOut := by
  induction h with
  | nil => rfl
  | cons he _ ih =>
    rw [List.map_cons, List.map_cons, ih, spelledOut, spelledOut, ← he.1, he.2]

/-- Respelled sessions have the same script when they are not shrunk. -/
theorem script_respelled (d : Dialect) (o : Options) : script d o xs = script d o ys := by
  have hthins : Thins 0 xs ys := by
    induction h with
    | nil => exact .nil
    | cons he _ ih => exact .keep he.alike ih
  exact (hthins.script_eq_iff d o).mpr rfl

/-- When one of two respelled sessions is steady, the scripts of both after shrinking are the same
exactly if the other one is steady too. -/
theorem script_optimize_iff (hy : Steady ys) (d : Dialect) (o : Options) :
    script d o (optimize xs) = script d o (optimize ys) ↔ Steady xs := by
  rw [(script_spelledOut_iff d o ys).mpr hy, ← map_spelledOut_eq h, script_spelledOut_iff]

end Sessions

open Compilation (compile)

/-- The spelling of the page changes the code exactly where it changes within a stretch that would
shrink to one event. Of two sessions that differ only in how the page is spelled, one of them with
no such change, both scripts are the same exactly if there is none in the other. The scripts of the
sessions as they were recorded are the same in any case. -/
theorem same_scripts_iff_steady {xs ys : List Event} (h : List.Forall₂ Respells xs ys)
    (hy : Steady ys) (o : Options) :
    ((compile o xs).puppeteer = (compile o ys).puppeteer ↔ Steady xs) ∧
      ((compile o xs).playwright = (compile o ys).playwright ↔ Steady xs) ∧
      ∀ d, script d o xs = script d o ys :=
  ⟨script_optimize_iff h hy puppeteer o, script_optimize_iff h hy playwright o,
    fun d => script_respelled h d o⟩

/-- Typing into two fields with a click between them, in a given spelling of the page for each of
the three events. -/
def twoFields (first click second : Option UInt64) : List Event :=
  [ { action := .keydown, selector := some "#user", key := some "a", frameId := first },
    { action := .click, selector := some "#q", frameId := click },
    { action := .keydown, selector := some "#q", key := some "b", frameId := second } ]

/-- A change of the spelling between different fields makes no difference. -/
theorem twoFields_same_scripts :
    List.Forall₂ Respells (twoFields none (some 0) none) (twoFields none none none) ∧
      Steady (twoFields none none none) ∧
      (compile {} (twoFields none (some 0) none)).playwright =
        (compile {} (twoFields none none none)).playwright := by
  have hrespells : List.Forall₂ Respells (twoFields none (some 0) none)
      (twoFields none none none) := by decide
  have hsteady : Steady (twoFields none none none) := by decide
  exact ⟨hrespells, hsteady, (same_scripts_iff_steady hrespells hsteady {}).2.1.mpr (by decide)⟩

/-- Two keystrokes into one field, the page spelled in a given way for the second. -/
def oneField (second : Option UInt64) : List Event :=
  [ { action := .keydown, selector := some "#q", key := some "a" },
    { action := .keydown, selector := some "#q", value := some (.text "a"), key := some "b",
      frameId := second } ]

/-- A change of the spelling within one field changes both scripts. -/
theorem oneField_other_scripts :
    List.Forall₂ Respells (oneField (some 0)) (oneField none) ∧
      (compile {} (oneField (some 0))).puppeteer ≠ (compile {} (oneField none)).puppeteer ∧
      (compile {} (oneField (some 0))).playwright ≠ (compile {} (oneField none)).playwright := by
  have hrespells : List.Forall₂ Respells (oneField (some 0)) (oneField none) := by decide
  have hsteady : Steady (oneField none) := by decide
  have hchange : ¬Steady (oneField (some 0)) := by decide
  exact ⟨hrespells, mt (script_optimize_iff hrespells hsteady puppeteer {}).mp hchange,
    mt (script_optimize_iff hrespells hsteady playwright {}).mp hchange⟩

end SessionScript.Script
