import SessionScript.Proofs.Optimizer.Runs

/-!
# A session divided into segments

Taking typing together decides by the event kept last, which it has already changed. What it does
can be said of the recorded events alone. A session has exactly one division into segments, each an
event and the typing into the same element behind it, of which none can take in the event after it.
The pass gives one event for each segment: a lone event that does not type stays as it is, and of
any other segment the first event remains, as a fill with the text that the last one leaves.
-/

namespace SessionScript.Optimizer

/-- A part of a session: an event, and typing that follows it directly. -/
structure Segment where
  /-- The event that the segment starts with. -/
  head : Event
  /-- The typing behind it, in order. -/
  followers : List Event

namespace Segment

/-- All events of a segment in order. -/
def events (s : Segment) : List Event := s.head :: s.followers

/-- The last event of a segment. -/
def last (s : Segment) : Event := s.followers.getLastD s.head

/-- The segment with one more event behind it. -/
def extend (s : Segment) (e : Event) : Segment := ⟨s.head, s.followers ++ [e]⟩

/-- The followers of a segment type into the element of its head, and a head that is followed types
or fills itself. -/
structure IsValid (s : Segment) : Prop where
  /-- Every follower types into the element of the head. -/
  followers : ∀ e ∈ s.followers, Types e ∧ targetOf e = targetOf s.head
  /-- A head with followers is a fill or types. -/
  head : s.followers ≠ [] → s.head.action = .fill ∨ Types s.head

/-- The text that a segment leaves: the value recorded with its last event, and the character of the
key if it is printable. -/
def text (s : Segment) : String :=
  s.last.typedValue ++
    if KeyKind.of s.last.key s.last.keyCode = .printable then s.last.key.getD "" else ""

/-- What a segment becomes. -/
def result (s : Segment) : Event :=
  if s.followers = [] ∧ ¬Types s.head then s.head
  else { s.head with action := .fill, value := some (.text s.text) }

end Segment

/-- A division of a session into segments that cannot take in the event after them. -/
structure IsDivision (division : List Segment) (events : List Event) : Prop where
  /-- The segments in a row are the session. -/
  whole : division.flatMap Segment.events = events
  /-- Every segment is valid. -/
  valid : ∀ s ∈ division, s.IsValid
  /-- No segment is valid with the next event too. -/
  maximal : division.IsChain fun s t => ¬(s.extend t.head).IsValid

/-- Does a segment with a given head take an event in? -/
def takesIn (head e : Event) : Bool := startsRun head && continuesRun head e

/-- What a segment with a given head takes in. -/
theorem takesIn_iff (head e : Event) :
    takesIn head e = true ↔
      (head.action = .fill ∨ Types head) ∧ Types e ∧ targetOf e = targetOf head := by
  rw [takesIn, Bool.and_eq_true, startsRun, continuesRun, decide_eq_true_eq, decide_eq_true_eq]
  exact and_congr_right fun _ => and_congr_right fun _ => eq_comm

namespace Segment

/-- A segment is valid exactly if its head takes all followers in. -/
theorem isValid_iff (s : Segment) :
    s.IsValid ↔ ∀ e ∈ s.followers, takesIn s.head e = true := by
  constructor
  · intro h e he
    exact (takesIn_iff s.head e).mpr ⟨h.head (List.ne_nil_of_mem he), h.followers e he⟩
  · intro h
    refine ⟨fun e he => ((takesIn_iff s.head e).mp (h e he)).2, fun hne => ?_⟩
    obtain ⟨e, he⟩ := List.exists_mem_of_ne_nil _ hne
    exact ((takesIn_iff s.head e).mp (h e he)).1

/-- A valid segment can be extended by an event exactly if its head takes the event in. -/
theorem isValid_extend_iff {s : Segment} (hs : s.IsValid) (e : Event) :
    (s.extend e).IsValid ↔ takesIn s.head e = true := by
  have hfollowers := (isValid_iff s).mp hs
  rw [isValid_iff, extend, List.forall_mem_append, List.forall_mem_singleton]
  exact and_iff_right hfollowers

end Segment

/-- The division of a session: each segment takes in all it can. -/
def divide : List Event → List Segment
  | [] => []
  | e :: rest => ⟨e, rest.takeWhile (takesIn e)⟩ :: divide (rest.dropWhile (takesIn e))
termination_by events => events.length
decreasing_by
  have hl := (List.dropWhile_suffix (takesIn e) (l := rest)).length_le
  simp only [List.length_cons]
  omega

/-- The first segment of a division starts with the first event. -/
theorem head?_divide (events : List Event) :
    (divide events).head?.map Segment.head = events.head? := by
  cases events with
  | nil => rw [divide]; rfl
  | cons e rest => rw [divide]; rfl

/-- The first event that a segment leaves behind is one that it does not take in. -/
theorem takesIn_head_dropWhile {head e : Event} {rest : List Event}
    (he : (rest.dropWhile (takesIn head)).head? = some e) : takesIn head e = false := by
  have h := List.head?_dropWhile_not (takesIn head) rest
  rw [he] at h
  simpa using h

/-- Taking in all it can divides a session. -/
theorem isDivision_divide (events : List Event) : IsDivision (divide events) events := by
  induction events using divide.induct with
  | case1 =>
    rw [divide]
    exact ⟨rfl, fun _ h => absurd h List.not_mem_nil, List.isChain_nil⟩
  | case2 e rest ih =>
    rw [divide]
    have hvalid : (⟨e, rest.takeWhile (takesIn e)⟩ : Segment).IsValid :=
      (Segment.isValid_iff _).mpr fun e' he' => List.mem_takeWhile_imp he'
    refine ⟨?_, List.forall_mem_cons.mpr ⟨hvalid, ih.valid⟩, ?_⟩
    · rw [List.flatMap_cons, ih.whole, Segment.events, List.cons_append,
        List.takeWhile_append_dropWhile]
    · refine List.isChain_cons.mpr ⟨fun t ht => ?_, ih.maximal⟩
      have hnext : (rest.dropWhile (takesIn e)).head? = some t.head := by
        rw [← head?_divide, ht]
        rfl
      rw [Segment.isValid_extend_iff hvalid, takesIn_head_dropWhile hnext]
      exact Bool.false_ne_true

/-- A segment that cannot be extended has taken in all it can. -/
theorem takeWhile_takesIn {s : Segment} (hs : s.IsValid) {rest : List Event}
    (hrest : ∀ e ∈ rest.head?, takesIn s.head e = false) :
    (s.followers ++ rest).takeWhile (takesIn s.head) = s.followers ∧
      (s.followers ++ rest).dropWhile (takesIn s.head) = rest := by
  have hfollowers := (Segment.isValid_iff s).mp hs
  rw [List.takeWhile_append_of_pos hfollowers, List.dropWhile_append_of_pos hfollowers]
  cases rest with
  | nil => exact ⟨List.append_nil _, rfl⟩
  | cons e rest =>
    have he : takesIn s.head e = false := hrest e rfl
    rw [List.takeWhile_cons, List.dropWhile_cons, he]
    exact ⟨List.append_nil _, rfl⟩

/-- There is no other division. -/
theorem IsDivision.eq_divide {division : List Segment} {events : List Event}
    (h : IsDivision division events) : division = divide events := by
  induction division generalizing events with
  | nil =>
    obtain rfl := h.whole
    rw [List.flatMap_nil, divide]
  | cons s division ih =>
    obtain ⟨hs, hvalid⟩ := List.forall_mem_cons.mp h.valid
    obtain ⟨hnext, hmaximal⟩ := List.isChain_cons.mp h.maximal
    have hrest : ∀ e ∈ (division.flatMap Segment.events).head?, takesIn s.head e = false := by
      cases division with
      | nil => exact fun e he => nomatch he
      | cons t division =>
        intro e he
        obtain rfl : t.head = e := Option.some.inj he
        exact Bool.eq_false_iff.mpr (mt (Segment.isValid_extend_iff hs t.head).mpr (hnext t rfl))
    obtain ⟨htake, hdrop⟩ := takeWhile_takesIn hs hrest
    obtain rfl := h.whole
    rw [List.flatMap_cons, Segment.events, List.cons_append, divide, htake, hdrop,
      ← ih ⟨rfl, hvalid, hmaximal⟩]

/-- The fill of a run of typing is what its segment becomes. -/
theorem fill_eq_result {e : Event} (hs : startsRun e = true) {more : List Event}
    (hm : ∀ e' ∈ more, continuesRun e e' = true) :
    TypingRun.fill ⟨e, more⟩ = Segment.result ⟨e, more⟩ := by
  rw [fill_more hs hm, Segment.result]
  cases hl : more.getLast? with
  | none =>
    obtain rfl := List.getLast?_eq_none_iff.mp hl
    have hlast : TypingRun.last ⟨e, []⟩ = e := rfl
    rw [Option.elim_none, TypingRun.fill, hlast]
    by_cases ht : Types e
    · rw [if_pos ht, if_neg fun h => h.2 ht]
      rfl
    · rw [if_neg ht, if_pos ⟨rfl, ht⟩]
  | some e' =>
    have hne : more ≠ [] := List.ne_nil_of_mem (List.mem_of_getLast? hl)
    have hlast : Segment.last ⟨e, more⟩ = e' := by
      rw [Segment.last, List.getLastD_eq_getLast?, hl]
      rfl
    rw [Option.elim_some, if_neg fun h => hne h.1, (fill_first hs).2.2, Segment.text, hlast]
    rfl

/-- The pass gives one event for each segment of the division. -/
theorem squash_eq_map_result (events : List Event) :
    squash events = (divide events).map Segment.result := by
  induction events using divide.induct with
  | case1 => rw [divide]; rfl
  | case2 e rest ih =>
    rw [divide, List.map_cons, ← ih]
    cases hs : startsRun e with
    | true =>
      have htakes : takesIn e = continuesRun e := by
        funext e'
        rw [takesIn, hs, Bool.true_and]
      rw [htakes, squash_run hs, fill_eq_result hs fun e' he' => List.mem_takeWhile_imp he']
    | false =>
      have htakes : takesIn e = fun _ => false := by
        funext e'
        rw [takesIn, hs, Bool.false_and]
      have hnone : rest.takeWhile (takesIn e) = [] ∧ rest.dropWhile (takesIn e) = rest := by
        rw [htakes]
        cases rest <;> exact ⟨rfl, rfl⟩
      have htypes : ¬Types e := (not_or.mp (of_decide_eq_false hs)).2
      rw [hnone.1, hnone.2, squash_other hs, Segment.result, if_pos ⟨rfl, htypes⟩]

/-- Every session has exactly one division into segments that cannot be extended, and taking typing
together gives one event for each of them, in order: the head as it is if it stands alone and does
not type, and else the head as a fill with the text that the last event leaves. -/
theorem squash_one_event_per_segment (events : List Event) :
    (∃! division, IsDivision division events) ∧
      ∀ division, IsDivision division events → squash events = division.map Segment.result := by
  refine ⟨⟨divide events, isDivision_divide events, fun _ h => h.eq_divide⟩, fun division h => ?_⟩
  rw [h.eq_divide, squash_eq_map_result]

end SessionScript.Optimizer
