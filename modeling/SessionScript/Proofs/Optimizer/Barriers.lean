import SessionScript.Proofs.Optimizer.Stretches

/-!
# Events that divide a session

Each pass carries the event kept last from one event to the next, so what stands in front of an
event can decide what becomes of it. An event that none of the rules is about stops all of this: it
is kept as it is, it takes nothing in, and what stands on its two sides is shrunk on its own. No
other event divides every session in this way, since each of them takes some event in.
-/

namespace SessionScript.Optimizer

/-- An event that none of the passes is about. -/
structure IsBarrier (e : Event) : Prop where
  /-- It does not type into an element. -/
  noTyping : ¬Types e
  /-- It fills no element. -/
  noFill : e.action ≠ .fill
  /-- It is no wait for a navigation. -/
  noWait : e.action ≠ .navigation
  /-- It is no stroke of a modifier key. -/
  noHeldKey : ¬StrokesModifier e

namespace Rule

variable {p : Rule} {b : Event}

/-- Behind an event that the rule is not about, a session is gone through as from the start. -/
theorem foldl_step_other (hb : ¬p.Governs b) (events : List Event) :
    events.foldl p.step [b] = events.foldl p.step [] ++ [b] := by
  cases events with
  | nil => rfl
  | cons e events =>
    have hstep : p.step [b] e = [p.enter e, b] := step_kept (absorb_of_last hb e) []
    rw [List.foldl_cons, List.foldl_cons, hstep, foldl_bottom]
    rfl

/-- A pass goes through the two sides of such an event separately. -/
theorem run_append_other (hb : ¬p.Governs b) (xs ys : List Event) :
    p.run (xs ++ b :: ys) = p.run xs ++ b :: p.run ys := by
  rw [run_append, List.foldl_cons, step_other hb, foldl_bottom, foldl_step_other hb,
    List.append_assoc, List.reverse_append, List.reverse_append, List.reverse_reverse]
  exact List.append_assoc _ [b] _

end Rule

/-- The rule of shrinking is about all events but the barriers. -/
theorem not_governs_iff (e : Event) : ¬shrinking.Governs e ↔ IsBarrier e := by
  change ¬(((e.action = .fill ∨ Types e) ∨ e.action = .navigation) ∨ StrokesModifier e) ↔ _
  constructor
  · intro h
    obtain ⟨⟨⟨hfill, htypes⟩, hwait⟩, hheld⟩ := (not_or.mp h).imp_left
      fun h => (not_or.mp h).imp_left not_or.mp
    exact ⟨htypes, hfill, hwait, hheld⟩
  · rintro ⟨htypes, hfill, hwait, hheld⟩ (((h | h) | h) | h)
    exacts [hfill h, htypes h, hwait h, hheld h]

/-- The stroke of a key without name and code, in the element of an event. -/
def strokeBehind (e : Event) : Event := { e with action := .keydown, key := none, keyCode := none }

/-- Every event that is no barrier takes some event in: a fill takes in typing of its element, and
all others take in what repeats them. -/
theorem exists_merges {e : Event} (h : ¬IsBarrier e) : ∃ next, Merges e next := by
  rcases Classical.not_not.mp (mt (not_governs_iff e).mp h) with ((hfill | htypes) | hwait) | hheld
  · have hkind : KeyKind.of none none ≠ .other := by decide
    have htypes : Types (strokeBehind e) := ⟨Or.inl rfl, hkind⟩
    exact ⟨strokeBehind e, Or.inl (Or.inl ⟨decide_eq_true (Or.inl hfill),
      decide_eq_true ⟨htypes, rfl⟩⟩)⟩
  · exact ⟨e, Or.inl (Or.inl ⟨decide_eq_true (Or.inr htypes), decide_eq_true ⟨htypes, rfl⟩⟩)⟩
  · exact ⟨e, Or.inr ⟨hwait, hwait⟩⟩
  · obtain ⟨haction, key, hkey, hmod⟩ := hheld
    exact ⟨e, Or.inl (Or.inr ⟨⟨haction, haction⟩, ⟨key, hmod, hkey, hkey⟩, rfl⟩)⟩

/-- Shrinking is local between barriers, and only between them: an event divides every session into
a part in front of it and a part behind it that are shrunk separately, the event itself being kept
as it is, exactly when it is no typing, no fill, no wait for a navigation and no stroke of a
modifier key. -/
theorem shrinks_apart_iff_isBarrier (b : Event) :
    IsBarrier b ↔
      ∀ xs ys, optimize (xs ++ [b] ++ ys) = optimize xs ++ [b] ++ optimize ys := by
  constructor
  · intro hb xs ys
    rw [List.append_assoc, List.append_assoc, optimize_eq_run, optimize_eq_run, optimize_eq_run]
    exact Rule.run_append_other ((not_governs_iff b).mpr hb) xs ys
  · intro h
    by_contra hb
    obtain ⟨next, hmerges⟩ := exists_merges hb
    -- the two become one event, and apart they would stay two
    have hone := optimize_merged hmerges []
    have htwo : optimize [b, next] = b :: optimize [next] := h [] [next]
    have hlen := congrArg List.length (htwo.symm.trans hone)
    rw [List.length_modifyHead, List.length_cons] at hlen
    omega

end SessionScript.Optimizer
