import SessionScript.Proofs.Script.Mentions
import SessionScript.Proofs.Script.Progress

/-!
# Scopes of a script

The lines of a session are read in order. Each name that the script declares for itself is declared
once, and every line that uses one comes after the line that declares it. Declarations do not stand
where they are used: the promise goes to the front after the walk, lookups of frames are put in by a
later pass, and the names of elements rest on a counter. The invariant `Ready` ties these together:
it says what the names known so far must be for the rest of the events.

The remark of a move of the pointer gives the recorded selector as it is, and what a selector has
behind a line break is code that may name anything. So the law asks that remarks are kept.
-/

namespace SessionScript.Script

/-- The name that a mention declares. -/
def Mention.declared? : Mention → Option String
  | .declares name => some name
  | .uses _ => none

/-- The name that a mention uses. -/
def Mention.used? : Mention → Option String
  | .declares _ => none
  | .uses name => some name

/-- The names that a line declares. -/
def Line.declared (line : Line) : List String :=
  (mentions (codeOf line.value)).filterMap Mention.declared?

/-- The names that a line uses. -/
def Line.used (line : Line) : List String :=
  (mentions (codeOf line.value)).filterMap Mention.used?

/-- Names are declared once, and used only behind the line that declares them. -/
structure WellScoped (lines : List Line) : Prop where
  /-- No name is declared twice. -/
  once : (lines.flatMap Line.declared).Nodup
  /-- A name that a line uses is declared by an earlier line. -/
  before : ∀ earlier line later, lines = earlier ++ line :: later →
    ∀ name ∈ line.used, name ∈ earlier.flatMap Line.declared

/-- Lines are in scope behind known names: each uses only what is known in front of it, and declares
only what is not. -/
def ScopedFrom : List String → List Line → Prop
  | _, [] => True
  | known, line :: rest =>
    (∀ name ∈ line.used, name ∈ known) ∧ (∀ name ∈ line.declared, name ∉ known) ∧
      line.declared.Nodup ∧ ScopedFrom (known ++ line.declared) rest

/-- Lines in a row are in scope when the later ones are behind what the earlier ones declare. -/
theorem scopedFrom_append (known : List String) (xs ys : List Line) :
    ScopedFrom known (xs ++ ys) ↔
      ScopedFrom known xs ∧ ScopedFrom (known ++ xs.flatMap Line.declared) ys := by
  induction xs generalizing known with
  | nil => simp [ScopedFrom]
  | cons line xs ih =>
    simp only [List.cons_append, ScopedFrom, ih, List.flatMap_cons, List.append_assoc, and_assoc]

/-- Lines in scope declare no name twice, and none that is known. -/
theorem ScopedFrom.nodup {known : List String} {lines : List Line} (h : ScopedFrom known lines)
    (hk : known.Nodup) : (known ++ lines.flatMap Line.declared).Nodup := by
  induction lines generalizing known with
  | nil => simpa using hk
  | cons line rest ih =>
    obtain ⟨-, hfresh, hline, hrest⟩ := h
    have hnext : (known ++ line.declared).Nodup := by
      refine List.nodup_append.mpr ⟨hk, hline, ?_⟩
      rintro a ha b hb rfl
      exact hfresh a hb ha
    rw [List.flatMap_cons, ← List.append_assoc]
    exact ih hrest hnext

/-- Lines that are in scope behind nothing are well scoped. -/
theorem ScopedFrom.wellScoped {lines : List Line} (h : ScopedFrom [] lines) :
    WellScoped lines := by
  constructor
  · exact h.nodup List.nodup_nil
  · rintro earlier line later rfl name hn
    have hline := ((scopedFrom_append [] earlier (line :: later)).mp h).2.1
    exact hline name hn

/-- Lines in scope use only what is known or what they declare. -/
theorem ScopedFrom.used_mem {known : List String} {lines : List Line} (h : ScopedFrom known lines)
    {line : Line} (hl : line ∈ lines) {name : String} (hn : name ∈ line.used) :
    name ∈ known ++ lines.flatMap Line.declared := by
  obtain ⟨earlier, later, rfl⟩ := List.append_of_mem hl
  have hname := ((scopedFrom_append known earlier (line :: later)).mp h).2.1 name hn
  rw [List.flatMap_append, ← List.append_assoc]
  exact List.mem_append_left _ hname

/-- Lines that declare nothing are in scope when all that they use is known. -/
theorem scopedFrom_of_used {known : List String} {lines : List Line}
    (h : ∀ line ∈ lines, line.declared = [] ∧ ∀ name ∈ line.used, name ∈ known) :
    ScopedFrom known lines ∧ lines.flatMap Line.declared = [] := by
  induction lines with
  | nil => exact ⟨trivial, rfl⟩
  | cons line rest ih =>
    obtain ⟨hdeclared, hused⟩ := h line List.mem_cons_self
    obtain ⟨hrest, hnone⟩ := ih fun l hl => h l (List.mem_cons_of_mem line hl)
    refine ⟨⟨hused, ?_, ?_, ?_⟩, ?_⟩
    · rw [hdeclared]
      exact fun _ h => absurd h List.not_mem_nil
    · rw [hdeclared]
      exact List.nodup_nil
    · rw [hdeclared, List.append_nil]
      exact hrest
    · rw [List.flatMap_cons, hdeclared, hnone, List.append_nil]

/-- What a line declares and uses, when it is known what it mentions. -/
theorem declared_used {l : Line} {ms : List Mention} (h : mentions (codeOf l.value) = ms) :
    l.declared = ms.filterMap Mention.declared? ∧ l.used = ms.filterMap Mention.used? := by
  subst h
  exact ⟨rfl, rfl⟩

/-- What the names known so far must be, in front of the rest of the events: frames that are still
to come are known or can be looked up, and what is still to be declared is not known. -/
structure Ready (o : Options) (known : List String) (table : FrameTable) (bound : Bool)
    (p : Progress) (events : List Event) : Prop where
  /-- The frames of the events can be looked up, or have been. -/
  frames : ∀ e ∈ events, e.frame ≠ 0 →
    (table.url? e.frame).isSome = true ∨ frameVariable e.frame ∈ known
  /-- Frames that can be looked up have not been. -/
  fresh : ∀ id, (table.url? id).isSome = true → frameVariable id ∉ known
  /-- The list of frames is known when it is bound. -/
  list : "frames" ∈ known ↔ bound = true
  /-- The promise is known if it is awaited. -/
  promise : o.waitForNavigation = true → (∃ e ∈ events, e.action = .navigation) →
    "navigationPromise" ∈ known
  /-- Elements of later pictures are not known. -/
  elements : ∀ n, p.pictures.toNat < n → "element" ++ toString n ∉ known
  /-- The counter of pictures does not wrap around. -/
  room : p.pictures.toNat + events.countP (·.action = .screenshot) < 0x100000000

/-- Looking a frame up is in scope, and makes the frame known. -/
theorem Ready.lookup {o : Options} {known : List String} {table : FrameTable} {bound : Bool}
    {p : Progress} {events : List Event} (h : Ready o known table bound p events) {id : UInt64}
    {url : String} (hurl : table.url? id = some url) :
    ScopedFrom known (lookupLines bound id url) ∧
      Ready o (known ++ (lookupLines bound id url).flatMap Line.declared) (table.erase id) true p
        events ∧
      frameVariable id ∈ known ++ (lookupLines bound id url).flatMap Line.declared := by
  have hlist := declared_used (l := ⟨some .frameSet, listFrames bound, id⟩)
    (listFrames_mentions bound)
  have hfind := declared_used (l := ⟨some .frameSet, findFrame id url, id⟩)
    (findFrame_mentions id url)
  have hfresh : frameVariable id ∉ known := h.fresh id (by rw [hurl]; rfl)
  have hframes : ∀ other, frameVariable other ≠ "frames" :=
    fun other => numbered_ne (by decide) _
  have hnew : (lookupLines bound id url).flatMap Line.declared =
      (if bound then [] else ["frames"]) ++ [frameVariable id] := by
    simp only [lookupLines, List.flatMap_cons, List.flatMap_nil, hlist.1, hfind.1]
    cases bound <;> rfl
  rw [hnew]
  refine ⟨?_, ?_, by simp⟩
  · simp only [lookupLines, ScopedFrom, hlist.1, hlist.2, hfind.1, hfind.2]
    have hknown := h.list
    cases bound with
    | true =>
      have hbound : "frames" ∈ known := hknown.mpr rfl
      simp [List.filterMap_cons, Mention.declared?, Mention.used?, hfresh, hbound]
    | false =>
      have hbound : "frames" ∉ known := fun hf => absurd (hknown.mp hf) (by decide)
      simp [List.filterMap_cons, Mention.declared?, Mention.used?, hfresh, hbound, hframes]
  · constructor
    case frames =>
      intro e he hpage
      rw [erase_url?]
      by_cases hid : e.frame = id
      · rw [hid]
        exact Or.inr (by simp)
      · rw [if_neg hid]
        exact (h.frames e he hpage).imp_right (List.mem_append_left _)
    case fresh =>
      intro other ho
      rw [erase_url?] at ho
      split at ho
      · cases ho
      · rename_i hne
        have hother : frameVariable other ≠ frameVariable id :=
          fun heq => hne (frameVariable_injective heq)
        have hold := h.fresh other ho
        split <;> simp [hold, hother, hframes]
    case list =>
      have hknown := h.list
      cases bound <;> simp [hknown]
    case promise =>
      intro hw hn
      exact List.mem_append_left _ (h.promise hw hn)
    case elements =>
      intro n hn
      have hold := h.elements n hn
      have hlist : "element" ++ toString n ≠ "frames" := numbered_ne (by decide) n
      have hframe := element_ne_frameVariable n id
      simp only [List.mem_append, List.mem_singleton, not_or]
      refine ⟨hold, ?_, hframe⟩
      split
      · exact List.not_mem_nil
      · simpa using hlist
    case room => exact h.room

/-- A line that mentions no more than the receiver of an event declares nothing, and uses only the
variable of the event's frame. -/
theorem used_of_receiver {e : Event} {line : Line}
    (h : mentions (codeOf line.value) ⊆ receiverMentions e) :
    line.declared = [] ∧ ∀ name ∈ line.used, e.frame ≠ 0 ∧ name = frameVariable e.frame := by
  have hmention : ∀ m ∈ mentions (codeOf line.value),
      e.frame ≠ 0 ∧ m = .uses (frameVariable e.frame) := by
    intro m hm
    have hr := h hm
    unfold receiverMentions at hr
    split at hr
    · exact absurd hr List.not_mem_nil
    · rename_i hpage
      exact ⟨hpage, List.mem_singleton.mp hr⟩
  constructor
  · refine List.filterMap_eq_nil_iff.mpr fun m hm => ?_
    rw [(hmention m hm).2]
    rfl
  · intro name hname
    obtain ⟨m, hm, hused⟩ := List.mem_filterMap.mp hname
    obtain ⟨hpage, rfl⟩ := hmention m hm
    exact ⟨hpage, (Option.some.inj hused).symm⟩

/-- A line that awaits the promise of a navigation. -/
theorem used_of_navigation {line : Line} (h : codeOf line.value = plain "await navigationPromise") :
    line.declared = [] ∧ line.used = ["navigationPromise"] := by
  have hm : mentions (codeOf line.value) = [.uses "navigationPromise"] := by
    rw [h]
    rfl
  exact declared_used hm

/-- A line that declares a name and a line that uses it. -/
theorem pair_scoped {s t : Line} {name : String} {known : List String}
    (hs : mentions (codeOf s.value) = [.declares name])
    (ht : mentions (codeOf t.value) = [.uses name]) (hname : name ∉ known) :
    ScopedFrom known [s, t] ∧ [s, t].flatMap Line.declared = [name] := by
  obtain ⟨hsdeclared, hsused⟩ := declared_used hs
  obtain ⟨htdeclared, htused⟩ := declared_used ht
  simp [ScopedFrom, hsdeclared, hsused, htdeclared, htused, List.filterMap_cons,
    Mention.declared?, Mention.used?, hname]

/-- The lines of an event are in scope if its frame and the promise that it awaits are known, and
the element of the picture that it takes is not; of these names they declare only the element. -/
theorem eventBlock_scoped {d : Dialect} (hd : d ∈ [puppeteer, playwright]) {o : Options}
    {p : Progress} {e : Event} {next : Option Event} {values : List String} {known : List String}
    (hb : blockOf d o p e next = some (eventBlock e values)) (hk : KeepsRemark e)
    (hframe : values = [] ∨ e.frame = 0 ∨ frameVariable e.frame ∈ known)
    (hpromise : o.waitForNavigation = true → e.action = .navigation → "navigationPromise" ∈ known)
    (helement : e.action = .screenshot →
      "element" ++ toString (p.pictures + 1).toNat ∉ known) :
    ScopedFrom known (eventBlock e values).lines ∧
      ((eventBlock e values).lines.flatMap Line.declared = [] ∨
        e.action = .screenshot ∧ (eventBlock e values).lines.flatMap Line.declared =
          ["element" ++ toString (p.pictures + 1).toNat]) := by
  have hps := eventBlock_code hd hb
  have hmem : ∀ line ∈ (eventBlock e values).lines,
      values ≠ [] ∧ codeOf line.value ∈ eventCode d o p e next := by
    intro line hl
    obtain ⟨value, hv, rfl⟩ := List.mem_map.mp hl
    exact ⟨List.ne_nil_of_mem hv, hps ▸ List.mem_map_of_mem hv⟩
  have hreceiver : (∀ line ∈ (eventBlock e values).lines,
      mentions (codeOf line.value) ⊆ receiverMentions e) →
      ScopedFrom known (eventBlock e values).lines ∧
        (eventBlock e values).lines.flatMap Line.declared = [] := by
    intro hall
    refine scopedFrom_of_used fun line hl => ?_
    obtain ⟨hdeclared, hused⟩ := used_of_receiver (hall line hl)
    refine ⟨hdeclared, fun name hname => ?_⟩
    obtain ⟨hpage, rfl⟩ := hused name hname
    rcases hframe with hv | hp | hk
    · exact absurd hv (hmem line hl).1
    · exact absurd hp hpage
    · exact hk
  by_cases hn : e.action = .navigation
  · have hall : ∀ line ∈ (eventBlock e values).lines,
        line.declared = [] ∧ ∀ name ∈ line.used, name ∈ known := by
      intro line hl
      have hp := (hmem line hl).2
      rw [eventCode_eq (by rw [hn]; decide)] at hp
      simp only [eventPieces, hn] at hp
      split at hp
      · rename_i hw
        obtain ⟨hdeclared, hused⟩ := used_of_navigation (List.mem_singleton.mp hp)
        rw [hused]
        exact ⟨hdeclared, fun name hname => List.mem_singleton.mp hname ▸ hpromise hw hn⟩
      · exact absurd hp List.not_mem_nil
    exact (scopedFrom_of_used hall).imp_right Or.inl
  · by_cases hs : e.action = .screenshot
    · have hpicture : values.map (mentions ∘ codeOf) =
          (screenshotPieces (p.pictures + 1).toNat e).map mentions := by
        rw [← List.map_map, hps, eventCode_eq (by rw [hs]; decide)]
        simp only [eventPieces, hs]
      rcases screenshotPieces_mentions (p.pictures + 1).toNat e with hm | hm
      · have hall : ∀ line ∈ (eventBlock e values).lines,
            mentions (codeOf line.value) ⊆ receiverMentions e := by
          intro line hl
          obtain ⟨value, hv, rfl⟩ := List.mem_map.mp hl
          have hvalue := List.mem_map_of_mem (f := mentions ∘ codeOf) hv
          rw [hpicture, hm] at hvalue
          exact (List.mem_singleton.mp hvalue) ▸ List.Subset.refl _
        exact (hreceiver hall).imp_right Or.inl
      · rw [hm] at hpicture
        obtain ⟨first, rest, rfl, hfirst, hrest⟩ := List.map_eq_cons_iff.mp hpicture
        obtain ⟨second, rest, rfl, hsecond, hrest⟩ := List.map_eq_cons_iff.mp hrest
        rw [List.map_eq_nil_iff.mp hrest]
        obtain ⟨hscoped, hdeclared⟩ := pair_scoped
          (s := ⟨some (.action e.action), first, e.frame⟩)
          (t := ⟨some (.action e.action), second, e.frame⟩) hfirst hsecond (helement hs)
        exact ⟨hscoped, Or.inr ⟨hs, hdeclared⟩⟩
    · have hall := hreceiver fun line hl =>
        eventCode_mentions hd o p next hk hn hs _ (hmem line hl).2
      exact hall.imp_right Or.inl

section Walk

variable {o : Options} {known : List String} {table : FrameTable} {bound : Bool} {p : Progress}
  {e : Event} {rest : List Event}

/-- The number of the picture that an event takes, while the counter has room. -/
theorem Ready.picture (h : Ready o known table bound p (e :: rest)) (hs : e.action = .screenshot) :
    (p.pictures + 1).toNat = p.pictures.toNat + 1 := by
  have hroom := h.room
  simp only [List.countP_cons, hs, decide_true, if_true] at hroom
  simp only [UInt32.toNat_add, UInt32.toNat_one]
  omega

/-- The lines of an event make at most the element of its picture known, and the rest of the events
is ready then. -/
theorem Ready.advance (h : Ready o known table bound p (e :: rest)) {names : List String}
    (hnames : names = [] ∨
      e.action = .screenshot ∧ names = ["element" ++ toString (p.pictures + 1).toNat]) :
    Ready o (known ++ names) table bound ((p.noteFrame e).advance e) rest := by
  have hnew : ∀ name ∈ names, e.action = .screenshot ∧
      name = "element" ++ toString (p.pictures + 1).toNat := by
    intro name hname
    rcases hnames with rfl | ⟨hs, rfl⟩
    · exact absurd hname List.not_mem_nil
    · exact ⟨hs, List.mem_singleton.mp hname⟩
  have hother : ∀ name, (∀ n, "element" ++ toString n ≠ name) → name ∉ names :=
    fun name hname hm => hname _ (hnew name hm).2.symm
  constructor
  case frames =>
    intro e' he' hpage
    exact (h.frames e' (List.mem_cons_of_mem e he') hpage).imp_right (List.mem_append_left _)
  case fresh =>
    intro id hid hm
    rcases List.mem_append.mp hm with hm | hm
    · exact h.fresh id hid hm
    · exact hother _ (fun n => element_ne_frameVariable n id) hm
  case list =>
    rw [List.mem_append, ← h.list]
    refine or_iff_left (hother _ fun n => ?_)
    exact numbered_ne (by decide) n
  case promise =>
    rintro hw ⟨e', he', hn⟩
    exact List.mem_append_left _ (h.promise hw ⟨e', List.mem_cons_of_mem e he', hn⟩)
  case elements =>
    intro n hn hm
    rw [advance_pictures, noteFrame_pictures] at hn
    rcases List.mem_append.mp hm with hm | hm
    · refine h.elements n ?_ hm
      split at hn
      · rename_i hs
        rw [h.picture hs] at hn
        omega
      · exact hn
    · obtain ⟨hs, heq⟩ := hnew _ hm
      rw [if_pos hs, ← eq_of_numbered "element" heq] at hn
      exact absurd hn (Nat.lt_irrefl n)
  case room =>
    have hroom := h.room
    rw [List.countP_cons] at hroom
    rw [advance_pictures, noteFrame_pictures]
    split
    · rename_i hs
      rw [h.picture hs]
      simp only [hs, decide_true, if_true] at hroom
      omega
    · rename_i hs
      simpa only [hs, decide_false, Bool.false_eq_true, if_false, Nat.add_zero] using hroom

/-- Behind known names that are ready for the events, the lines of the walk are in scope once frames
are looked up. -/
theorem walk_scoped {d : Dialect} (hd : d ∈ [puppeteer, playwright]) {events : List Event}
    (h : Ready o known table bound p events) (hk : ∀ e ∈ events, KeepsRemark e) :
    ScopedFrom known (linesOf (declareFrames table bound (walk d o p events).2)) := by
  induction events generalizing known table bound p with
  | nil => trivial
  | cons e rest ih =>
    obtain ⟨hke, hkrest⟩ := List.forall_mem_cons.mp hk
    rw [walk]
    dsimp only
    cases hb : blockOf d o (p.noteFrame e) e rest.head? with
    | none =>
      have hrest := ih (h.advance (Or.inl rfl)) hkrest
      rwa [List.append_nil] at hrest
    | some b =>
      obtain ⟨values, rfl⟩ := blockOf_eq_eventBlock hb
      have hstep : ∀ {known table bound}, Ready o known table bound p (e :: rest) →
          (values = [] ∨ e.frame = 0 ∨ frameVariable e.frame ∈ known) →
          ScopedFrom known ((eventBlock e values).lines ++ linesOf (declareFrames table bound
            (walk d o ((p.noteFrame e).advance e) rest).2)) := by
        intro known table bound h hframe
        have helement : e.action = .screenshot →
            "element" ++ toString ((p.noteFrame e).pictures + 1).toNat ∉ known := by
          intro hs
          rw [noteFrame_pictures]
          exact h.elements _ (by rw [h.picture hs]; omega)
        obtain ⟨hscoped, hdeclared⟩ := eventBlock_scoped hd hb hke hframe
          (fun hw hn => h.promise hw ⟨e, List.mem_cons_self, hn⟩) helement
        rw [noteFrame_pictures] at hdeclared
        rw [scopedFrom_append]
        exact ⟨hscoped, ih (h.advance hdeclared) hkrest⟩
      rw [Option.toList_some, List.singleton_append]
      by_cases hskip : values = [] ∨ e.frame = 0 ∨ table.url? e.frame = none
      · rw [declareFrames_known hskip, linesOf_cons]
        refine hstep h (hskip.imp_right fun hskip => ?_)
        by_cases hpage : e.frame = 0
        · exact Or.inl hpage
        · have hknown := h.frames e List.mem_cons_self hpage
          rw [hskip.resolve_left hpage] at hknown
          exact Or.inr (hknown.resolve_left (by decide))
      · obtain ⟨hvalues, hpage, hsome⟩ := not_or.mp hskip |>.imp_right not_or.mp
        obtain ⟨url, hurl⟩ := Option.ne_none_iff_exists'.mp hsome
        obtain ⟨hlookup, hready, hknown⟩ := h.lookup hurl
        rw [declareFrames_lookup hvalues hpage hurl, linesOf_cons, List.append_assoc,
          scopedFrom_append]
        exact ⟨hlookup, hstep hready (Or.inr (Or.inr hknown))⟩

end Walk

/-- At the start, known names are ready for all events if they hold the promise when it is awaited,
and nothing else. -/
theorem ready_start {d : Dialect} {o : Options} {events : List Event}
    (hs : events.countP (·.action = .screenshot) < 0x100000000) {known : List String}
    (hk : ∀ name ∈ known, name = "navigationPromise")
    (hp : o.waitForNavigation = true → (∃ e ∈ events, e.action = .navigation) →
      "navigationPromise" ∈ known) :
    Ready o known (walk d o {} events).1.frames false {} events := by
  constructor
  case frames =>
    intro e he hpage
    rw [walk_url?_of_mem d o he hpage]
    exact Or.inl rfl
  case fresh =>
    intro id _ hm
    exact numbered_ne (by decide) _ (hk _ hm)
  case list =>
    refine iff_of_false (fun hm => ?_) (by decide)
    exact absurd (hk _ hm) (by decide)
  case promise => exact hp
  case elements =>
    intro n _ hm
    exact numbered_ne (by decide) n (hk _ hm)
  case room =>
    rwa [show ({} : Progress).pictures.toNat = 0 from rfl, Nat.zero_add]

/-- An empty line declares nothing and uses nothing. -/
theorem blank_declared : Line.declared ⟨none, "", 0⟩ = [] ∧ Line.used ⟨none, "", 0⟩ = [] := by
  have hempty : mentions (codeOf "") = [] := by
    rw [codeOf, show "".toList = [] from rfl, scanCode_nil]
    rfl
  exact declared_used (l := ⟨none, "", 0⟩) hempty

/-- A spacer in front of lines declares nothing and uses nothing. -/
theorem spacer_scoped (lines : List Line) (known : List String) :
    (Block.spacer.lines ++ lines).flatMap Line.declared = lines.flatMap Line.declared ∧
      (ScopedFrom known (Block.spacer.lines ++ lines) ↔ ScopedFrom known lines) := by
  obtain ⟨hdeclared, hused⟩ := blank_declared
  simp [Block.spacer, ScopedFrom, hdeclared, hused]

/-- Spacers among blocks declare nothing and use nothing. -/
theorem spaced_scoped (blocks : List Block) (known : List String) :
    (linesOf (spaced blocks)).flatMap Line.declared = (linesOf blocks).flatMap Line.declared ∧
      (ScopedFrom known (linesOf (spaced blocks)) ↔ ScopedFrom known (linesOf blocks)) := by
  rw [spaced, linesOf_cons, (spacer_scoped _ known).1, (spacer_scoped _ known).2]
  induction blocks generalizing known with
  | nil => exact ⟨rfl, Iff.rfl⟩
  | cons b blocks ih =>
    have hlines : linesOf ((b :: blocks).flatMap fun b => [b, Block.spacer]) =
        b.lines ++ (Block.spacer.lines ++ linesOf (blocks.flatMap fun b => [b, Block.spacer])) := by
      simp
    rw [hlines, linesOf_cons]
    constructor
    · rw [List.flatMap_append, (spacer_scoped _ known).1, (ih known).1, ← List.flatMap_append]
    · rw [scopedFrom_append, (spacer_scoped _ _).2, (ih _).2, scopedFrom_append]

/-- The line of the promise declares it and uses nothing. -/
theorem promiseLine_declared :
    promiseLine.declared = ["navigationPromise"] ∧ promiseLine.used = [] := by
  have hm : mentions (codeOf promiseLine.value) = [.declares "navigationPromise"] := by
    rw [promiseLine_code]
    rfl
  exact declared_used hm

/-- Does a line use the promise of a navigation? -/
def Line.usesPromise (line : Line) : Bool := line.used.contains "navigationPromise"

/-- The lines of an event other than a navigation do not use the promise. -/
theorem eventBlock_usesPromise {d : Dialect} (hd : d ∈ [puppeteer, playwright]) {o : Options}
    {p : Progress} {e : Event} {next : Option Event} {values : List String}
    (hb : blockOf d o p e next = some (eventBlock e values)) (hk : KeepsRemark e)
    (hn : e.action ≠ .navigation) :
    (eventBlock e values).lines.filter Line.usesPromise = [] := by
  have hframe : "navigationPromise" ≠ frameVariable e.frame := (numbered_ne (by decide) _).symm
  have helement : "navigationPromise" ≠ "element" ++ toString (p.pictures + 1).toNat :=
    (numbered_ne (by decide) _).symm
  obtain ⟨hscoped, hdeclared⟩ := eventBlock_scoped hd hb hk
    (Or.inr (Or.inr (List.mem_singleton_self (frameVariable e.frame)))) (fun _ h => absurd h hn)
    (fun _ h => element_ne_frameVariable _ _ (List.mem_singleton.mp h))
  refine List.filter_eq_nil_iff.mpr fun line hl huses => ?_
  have hmem := hscoped.used_mem hl (List.contains_iff_mem.mp huses)
  rcases hdeclared with hnone | ⟨-, hpicture⟩
  · rw [hnone, List.append_nil] at hmem
    exact hframe (List.mem_singleton.mp hmem)
  · rw [hpicture] at hmem
    rcases List.mem_append.mp hmem with hmem | hmem
    · exact hframe (List.mem_singleton.mp hmem)
    · exact helement (List.mem_singleton.mp hmem)

/-- Only navigations use the promise, each in one line, and only if the options say so. -/
theorem walk_usesPromise {d : Dialect} (hd : d ∈ [puppeteer, playwright]) (o : Options)
    (p : Progress) {events : List Event} (hk : ∀ e ∈ events, KeepsRemark e) :
    ((linesOf (walk d o p events).2).filter Line.usesPromise).map Line.value =
      if o.waitForNavigation then
        List.replicate (events.countP (·.action = .navigation)) "await navigationPromise"
      else [] := by
  induction events generalizing p with
  | nil => simp [walk]
  | cons e rest ih =>
    obtain ⟨hke, hkrest⟩ := List.forall_mem_cons.mp hk
    have hblock : ((linesOf (blockOf d o (p.noteFrame e) e rest.head?).toList).filter
        Line.usesPromise).map Line.value =
        if o.waitForNavigation = true ∧ e.action = .navigation then ["await navigationPromise"]
        else [] := by
      by_cases hn : e.action = .navigation
      · have hcode : codeOf "await navigationPromise" = plain "await navigationPromise" :=
          codeOf_plain (by decide) (by decide)
        have hawait : Line.usesPromise
            ⟨some (.action .navigation), "await navigationPromise", e.frame⟩ = true := by
          rw [Line.usesPromise, (used_of_navigation hcode).2]
          rfl
        by_cases hw : o.waitForNavigation <;>
          simp [blockOf, hn, navigationBlock, hw, hawait]
      · rw [if_neg fun h => hn h.2]
        cases hb : blockOf d o (p.noteFrame e) e rest.head? with
        | none => rfl
        | some b =>
          obtain ⟨values, rfl⟩ := blockOf_eq_eventBlock hb
          rw [Option.toList_some, linesOf_cons, linesOf_nil, List.append_nil,
            eventBlock_usesPromise hd hb hke hn]
          rfl
    rw [walk]
    dsimp only
    rw [linesOf_append, List.filter_append, List.map_append, ih _ hkrest, hblock, List.countP_cons]
    by_cases hw : o.waitForNavigation <;> by_cases hn : e.action = .navigation <;>
      simp [hw, hn, List.replicate_succ]

/-- Spacers change neither what a session declares, nor its scopes, nor its other lines. -/
theorem blocks_unspaced (d : Dialect) (o : Options) (events : List Event) :
    (linesOf (blocks d o events)).flatMap Line.declared =
        (linesOf (unspaced d o events)).flatMap Line.declared ∧
      (ScopedFrom [] (linesOf (blocks d o events)) ↔
        ScopedFrom [] (linesOf (unspaced d o events))) ∧
      (linesOf (blocks d o events)).filter (!·.isBlank) =
        (linesOf (unspaced d o events)).filter (!·.isBlank) := by
  rw [blocks_eq]
  split
  · exact ⟨(spaced_scoped _ []).1, (spaced_scoped _ []).2, spaced_filter rfl _⟩
  · exact ⟨rfl, Iff.rfl, rfl⟩

/-- Only lines of events use the promise of a navigation. -/
theorem blocks_usesPromise (d : Dialect) (o : Options) (events : List Event) :
    (linesOf (blocks d o events)).filter Line.usesPromise =
      (linesOf (walk d o {} events).2).filter Line.usesPromise := by
  have hnot : ∀ l : Line, "navigationPromise" ∉ l.used → l.usesPromise = false :=
    fun l h => Bool.eq_false_iff.mpr fun hl => h (List.contains_iff_mem.mp hl)
  apply blocks_filter
  · apply hnot
    rw [blank_declared.2]
    exact List.not_mem_nil
  · refine List.filter_cons_of_neg (Bool.eq_false_iff.mp (hnot promiseLine ?_))
    rw [promiseLine_declared.2]
    exact List.not_mem_nil
  · intro bound frame
    have hused := (declared_used (l := ⟨some .frameSet, listFrames bound, frame⟩)
      (listFrames_mentions bound)).2
    apply hnot
    rw [hused]
    cases bound <;> decide
  · intro id url frame
    have hused := (declared_used (l := ⟨some .frameSet, findFrame id url, frame⟩)
      (findFrame_mentions id url)).2
    apply hnot
    rw [hused]
    simp [List.filterMap_cons, Mention.used?]

/-- The script of a session is well scoped, in both libraries and under all options, as long as no
selector of a move of the pointer has a line break: names are declared once and used only
afterwards. The promise of a navigation is declared exactly if there is a navigation to await; then
its declaration is the first line that is not blank, and it is awaited once for each navigation and
not used otherwise. -/
theorem blocks_well_scoped {d : Dialect} (hd : d ∈ [puppeteer, playwright]) (o : Options)
    {events : List Event} (hk : ∀ e ∈ events, KeepsRemark e)
    (hs : events.countP (·.action = .screenshot) < 0x100000000) :
    WellScoped (linesOf (blocks d o events)) ∧
      ("navigationPromise" ∈ (linesOf (blocks d o events)).flatMap Line.declared ↔
        (∃ e ∈ events, e.action = .navigation) ∧ o.waitForNavigation = true) ∧
      ((∃ e ∈ events, e.action = .navigation) → o.waitForNavigation = true →
        ((linesOf (blocks d o events)).find? (!·.isBlank)).map Line.declared =
            some ["navigationPromise"] ∧
          ((linesOf (blocks d o events)).filter Line.usesPromise).map Line.value =
            List.replicate (events.countP (·.action = .navigation)) "await navigationPromise") := by
  obtain ⟨hdeclared, hscoped, hblank⟩ := blocks_unspaced d o events
  have hlines := congrArg linesOf (unspaced_eq d o events)
  rw [linesOf_append] at hlines
  have hwalk : ∀ {known}, Ready o known (walk d o {} events).1.frames false {} events →
      ScopedFrom known (linesOf (declareFrames (walk d o {} events).1.frames false
        (walk d o {} events).2)) := fun h => walk_scoped hd h hk
  generalize linesOf (declareFrames (walk d o {} events).1.frames false
    (walk d o {} events).2) = walked at hlines hwalk
  obtain ⟨hpromise, hnothing⟩ := promiseLine_declared
  have hbehind := hwalk (ready_start hs (by simp) fun _ _ => List.mem_singleton_self _)
  have hundeclared : "navigationPromise" ∉ walked.flatMap Line.declared :=
    (List.nodup_cons.mp (hbehind.nodup (List.nodup_cons.mpr ⟨List.not_mem_nil, List.nodup_nil⟩))).1
  by_cases hawaited : (∃ e ∈ events, e.action = .navigation) ∧ o.waitForNavigation = true
  · rw [if_pos hawaited, show linesOf [promiseBlock] = [promiseLine] from rfl] at hlines
    refine ⟨(hscoped.mpr ?_).wellScoped, iff_of_true ?_ hawaited, fun _ _ => ⟨?_, ?_⟩⟩
    · rw [hlines]
      simpa [ScopedFrom, hpromise, hnothing] using hbehind
    · rw [hdeclared, hlines]
      simp [hpromise]
    · rw [← List.head?_filter, hblank, List.head?_filter, hlines]
      exact congrArg some hpromise
    · rw [blocks_usesPromise, walk_usesPromise hd o {} hk, if_pos hawaited.2]
  · rw [if_neg hawaited, linesOf_nil, List.nil_append] at hlines
    refine ⟨(hscoped.mpr ?_).wellScoped, iff_of_false ?_ hawaited,
      fun hn hw => absurd ⟨hn, hw⟩ hawaited⟩
    · rw [hlines]
      exact hwalk (ready_start hs (by simp) fun hw hn => absurd ⟨hn, hw⟩ hawaited)
    · rwa [hdeclared, hlines]

/-- A session that navigates, moves the pointer and clicks in a frame, and takes a picture of an
element. The remark behind the move speaks of a frame that is not there. -/
def framedSession : List Event :=
  [ { action := .navigation },
    { action := .mouseMove, selector := some "#map // frame_6", frameId := some 5,
      value := some (.point (.whole (.ofUInt32 3)) (.whole (.ofUInt32 4))) },
    { action := .click, selector := some "#send", frameId := some 5 },
    { action := .screenshot, value := some (.text "#map"), frameId := some 5 } ]

/-- The session's script is well scoped, and awaits the promise of its navigation once. -/
theorem framedSession_well_scoped :
    WellScoped (linesOf (blocks playwright {} framedSession)) ∧
      ((linesOf (blocks playwright {} framedSession)).filter Line.usesPromise).map Line.value =
        ["await navigationPromise"] := by
  have hd : playwright ∈ [puppeteer, playwright] := List.mem_cons_of_mem _ List.mem_cons_self
  have hk : ∀ e ∈ framedSession, KeepsRemark e := by
    have hremark : ("#map // frame_6".toList.all fun c => !endsRemark c) = true := rfl
    have hother : ∀ e : Event, e.action ≠ .mouseMove → KeepsRemark e := fun _ h ha => absurd ha h
    simp only [framedSession, List.forall_mem_cons]
    refine ⟨hother _ (by decide), fun _ _ c hc => ?_, hother _ (by decide), hother _ (by decide),
      List.forall_mem_nil _⟩
    simpa using List.all_eq_true.mp hremark c hc
  have hs : framedSession.countP (·.action = .screenshot) < 0x100000000 := by decide
  have h := blocks_well_scoped hd {} hk hs
  exact ⟨h.1, (h.2.2 ⟨_, List.mem_cons_self, rfl⟩ rfl).2⟩

/-- A move of the pointer over an element whose selector goes on behind a line feed. -/
def strayAwait : Event :=
  { action := .mouseMove, selector := some "#a\nawait navigationPromise",
    value := some (.point (.whole (.ofUInt32 0)) (.whole (.ofUInt32 0))) }

/-- What follows the line feed is code, and awaits a promise that the script never declares. -/
theorem strayAwait_not_scoped :
    ¬WellScoped (linesOf (blocks puppeteer { blankLinesBetweenBlocks := false } [strayAwait])) := by
  intro h
  have hlines : linesOf (blocks puppeteer { blankLinesBetweenBlocks := false } [strayAwait]) =
      (mouseMoveBlock strayAwait (.whole (.ofUInt32 0)) (.whole (.ofUInt32 0))).lines := rfl
  rw [hlines] at h
  have hmem := h.before [] _ [] rfl "navigationPromise" (by decide +kernel)
  exact absurd hmem List.not_mem_nil

end SessionScript.Script
