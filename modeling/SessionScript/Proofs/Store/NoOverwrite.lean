import SessionScript.Proofs.Store.Interleaving
import SessionScript.Proofs.Store.Listing

/-!
# Saving never overwrites

Where there is room for a file, its saver comes to its end and gives its path back, after as many
answers as there are names to pass over. The main statement puts this together with what savers keep
to when they work at once, and with what a save does that is left alone.
-/

namespace SessionScript.Store

open Files (Location Program Tree)

namespace Batch

variable {b : Batch} {turns : List Turn} {turn : Turn} {i : Nat} {c : SaveCall} {s next : Stage}
  {answered : Bool} {here : Location} {k : Nat}

/-- There is room for a call: one of its names is accepted, and is free even after some turns. -/
structure Room (b : Batch) (turns : List Turn) (c : SaveCall) (here : Location) (k : Nat) :
    Prop where
  /-- The number of a name begins at one. -/
  pos : 1 ≤ k
  /-- The name is among those that are tried. -/
  le : k ≤ maxCandidates
  /-- The file system accepts the name. -/
  accepted : b.store.Accepts b.tree here (candidate c.stem k)
  /-- Nothing has that name. -/
  free : Tree.entry? (b.treeAfter turns) (here ++ [(candidate c.stem k).toList]) = none

/-- How many requests of a saver were answered. -/
def answers (turns : List Turn) (i : Nat) : Nat := turns.count (.answered i)

/-- How far a saver has come with some answers, where the `k`-th name is free. -/
def Ahead (b : Batch) (turns : List Turn) (i : Nat) (c : SaveCall) (here : Location) (k : Nat) :
    Stage → Prop
  | .trying fuel n => fuel + n = maxCandidates + 1 ∧ n = answers turns i + 1 ∧
      ∀ m, 1 ≤ m → m < n →
        Tree.entry? (b.treeAfter turns) (here ++ [(candidate c.stem m).toList]) ≠ none
  | .writing n => n = answers turns i ∧ n ≤ k
  | .saved _ => True
  | .failed _ => False

/-- Where there is room after a turn, there was room before it. -/
theorem Room.before (h : b.Room (turns ++ [turn]) c here k) : b.Room turns c here k where
  pos := h.pos
  le := h.le
  accepted := h.accepted
  free := by
    by_contra hthere
    exact (b.grows_concat turns turn).present _ hthere h.free

/-- Names up to the free one lead into the directory of the store. -/
theorem Room.locates (h : b.Room turns c here k) {n : Nat} (hn : 1 ≤ n) (hk : n ≤ k) :
    (b.treeAfter turns).Locates (c.path b.store n) (here ++ [(candidate c.stem n).toList]) := by
  have hstem : IsStem c.stem := isStem_stem _ _
  exact ((h.accepted.earlier hstem hn hk).mono (b.grows_append [] turns)).locates hstem

/-- The names before the one that is tried are taken, so it comes no later than the free one. -/
theorem Ahead.le {fuel n : Nat} (h : b.Ahead turns i c here k (.trying fuel n))
    (hroom : b.Room turns c here k) : n ≤ k := by
  by_contra hlt
  exact h.2.2 k hroom.pos (by omega) hroom.free

/-- The free one is among the names that are left. -/
theorem Ahead.fuel_pos {fuel n : Nat} (h : b.Ahead turns i c here k (.trying fuel n))
    (hroom : b.Room turns c here k) : 0 < fuel := by
  have hle := h.le hroom
  have hmax := hroom.le
  have hfuel := h.1
  omega

/-- A saver stays as far as it is in a turn without an answer for it. -/
theorem Ahead.frame (h : b.Ahead turns i c here k s)
    (hanswers : answers (turns ++ [turn]) i = answers turns i) :
    b.Ahead (turns ++ [turn]) i c here k s := by
  cases s with
  | trying fuel n =>
    obtain ⟨hfuel, hn, htaken⟩ := h
    refine ⟨hfuel, by rw [hanswers]; exact hn, fun m hm hmn => ?_⟩
    exact (b.grows_concat turns turn).present _ (htaken m hm hmn)
  | writing n => exact ⟨by rw [hanswers]; exact h.1, h.2⟩
  | saved n => trivial
  | failed e => exact h

/-- With each answer a saver gets ahead. -/
theorem Ahead.moves (h : b.Ahead turns i c here k s) (hknown : b.Known turns i c s)
    (hroom : b.Room turns c here k)
    (hm : Moves b.store c (b.treeAfter turns) answered s next (b.treeAfter (turns ++ [turn])))
    (hanswers : answers (turns ++ [turn]) i = answers turns i + answered.toNat) :
    b.Ahead (turns ++ [turn]) i c here k next := by
  generalize hlater : b.treeAfter (turns ++ [turn]) = later at hm
  cases hm with
  | waits => exact h.frame hanswers
  | @rests s result hdone =>
    cases s with
    | trying fuel n =>
      obtain ⟨fuel, rfl⟩ := Nat.exists_eq_add_one.mpr (h.fuel_pos hroom)
      cases hdone
    | writing n => cases hdone
    | saved n => trivial
    | failed e => exact h
  | @passes fuel n htaken =>
    obtain ⟨hfuel, hn, hbefore⟩ := h
    have hle : n ≤ k := Ahead.le ⟨hfuel, hn, hbefore⟩ hroom
    refine ⟨by omega, by rw [hanswers, hn]; rfl, fun m hm hmn => ?_⟩
    refine (b.grows_concat turns turn).present _ ?_
    -- the name that is passed over is accepted, so the only reason is that it is taken
    rcases Nat.lt_or_ge m n with hlt | hge
    · exact hbefore m hm hlt
    · obtain rfl : m = n := by omega
      intro hfree
      rw [Tree.createNew_eq_ok_iff.mpr ⟨_, hroom.locates hm hle, hfree, rfl⟩] at htaken
      cases htaken
  | @givesUp fuel n e hrefused he =>
    -- an accepted name is either free, and then made, or taken, and then passed over
    have hle := h.le hroom
    have hn : 1 ≤ n := hknown.1
    have hl := hroom.locates hn hle
    by_cases hfree : Tree.entry? (b.treeAfter turns) (here ++ [(candidate c.stem n).toList]) = none
    · rw [Tree.createNew_eq_ok_iff.mpr ⟨_, hl, hfree, rfl⟩] at hrefused
      cases hrefused
    · rw [Tree.createNew_taken hl hfree] at hrefused
      exact absurd (Except.error.inj hrefused).symm he
  | @makes fuel n location hl hfree =>
    refine ⟨?_, h.le hroom⟩
    rw [hanswers, h.2.1]
    rfl
  | writes hl hd bytes => exact h.frame hanswers
  | saves hl hd => trivial
  | loses hrefused =>
    obtain ⟨own, old, howns⟩ := hknown
    exact absurd hrefused howns.write_ne_error

/-- A turn counts for its saver if it brings an answer. -/
theorem answers_concat_self (turns : List Turn) (turn : Turn) :
    answers (turns ++ [turn]) turn.saver = answers turns turn.saver + turn.isAnswer.toNat := by
  rw [answers, List.count_append]
  cases turn with
  | answered i => simp [answers, Turn.saver, Turn.isAnswer]
  | partly i bytes => simp [answers, Turn.saver, Turn.isAnswer]

/-- A turn does not count for other savers. -/
theorem answers_concat_other (turns : List Turn) (hi : i ≠ turn.saver) :
    answers (turns ++ [turn]) i = answers turns i := by
  have hne : Turn.answered i ≠ turn := by
    rintro rfl
    exact hi rfl
  rw [answers, List.count_append, List.count_singleton, if_neg (by simpa using hne.symm)]
  rfl

/-- As long as there is room, a saver gets ahead with every answer. -/
theorem ahead_after (b : Batch) (turns : List Turn) (hc : b.calls[i]? = some c) (here : Location)
    (k : Nat) :
    (b.after turns).Staged b.store b.calls fun j d s => b.Known turns j d s ∧
      (j = i → b.Room turns c here k → b.Ahead turns i c here k s) := by
  refine staged_after (P := fun turns j d s => b.Known turns j d s ∧
    (j = i → b.Room turns c here k → b.Ahead turns i c here k s)) ?_ ?_ ?_ turns
  · intro j d
    refine ⟨b.known_opening j d, fun _ _ => ⟨rfl, rfl, fun m hm hlt => ?_⟩⟩
    omega
  · -- a turn of nobody is not a turn of the saver
    intro turns turn hnone htree j d s hp
    refine ⟨hp.1.same htree, fun hj hroom => (hp.2 hj hroom.before).frame ?_⟩
    refine answers_concat_other turns fun hi => ?_
    rw [← hi, hc] at hnone
    cases hnone
  · intro turns turn d s next hd hp hm
    refine ⟨⟨hp.1.moves hm, fun hi hroom => ?_⟩, fun j e r hj hother => ⟨?_, fun hi hroom => ?_⟩⟩
    · subst hi
      obtain rfl : c = d := Option.some.inj (hc.symm.trans hd)
      exact (hp.2 rfl hroom.before).moves hp.1 hroom.before hm (answers_concat_self turns turn)
    · exact hother.1.unmoved hj fun location hchange => hp.1.own hm hchange
    · subst hi
      exact (hother.2 rfl hroom.before).frame (answers_concat_other turns hj)

/-- Where there is room, no saver gives up, and each one has given a path back when more of its
requests were answered than there are names up to the free one. -/
theorem Room.returns (hroom : b.Room turns c here k) (hc : b.calls[i]? = some c) :
    (∀ e, (b.after turns).savers[i]? ≠ some (.done (.error e))) ∧
      (k < answers turns i → ∃ path, b.Returned turns i path) := by
  obtain ⟨s, hs, hknown, hahead⟩ := (b.ahead_after turns hc here k).stage i c hc
  have h := hahead rfl hroom
  unfold Returned
  rw [hs]
  cases s with
  | trying fuel n =>
    have hle := h.le hroom
    have hn := h.2.1
    obtain ⟨fuel, rfl⟩ := Nat.exists_eq_add_one.mpr (h.fuel_pos hroom)
    refine ⟨fun e hfailed => ?_, fun hanswers => by omega⟩
    cases hfailed
  | writing n =>
    have hn := h.1
    have hle := h.2
    refine ⟨fun e hfailed => ?_, fun hanswers => by omega⟩
    cases hfailed
  | saved n =>
    refine ⟨fun e hfailed => ?_, fun _ => ⟨c.path b.store n, rfl⟩⟩
    cases hfailed
  | failed e => exact absurd h id

/-- What holds of recordings that are saved at once, after some turns. -/
structure KeptApart (b : Batch) (turns : List Turn) : Prop where
  /-- The paths that are given back are different. -/
  distinct : ∀ i j path other, b.Returned turns i path → b.Returned turns j other → i ≠ j →
    path ≠ other
  /-- What stood in the tree before the first turn is as it was. -/
  kept : ∀ location, b.tree.entry? location ≠ none →
    Tree.entry? (b.treeAfter turns) location = b.tree.entry? location
  /-- Each turn changes only what its saver made, in that turn or before. -/
  own : ∀ before turn rest location, turns = before ++ turn :: rest →
    Tree.entry? (b.treeAfter (before ++ [turn])) location ≠
      Tree.entry? (b.treeAfter before) location →
    b.Made (before ++ [turn]) turn.saver location
  /-- A saver makes one file, and a file is made by one saver. -/
  single : ∀ i j location other, b.Made turns i location → b.Made turns j other →
    (i = j ↔ location = other)
  /-- A path that is given back is a name in the directory of the store. Its saver made the file
  there, which holds the whole recording. -/
  stored : ∀ i path, b.Returned turns i path → ∃ c n location, b.calls[i]? = some c ∧ 1 ≤ n ∧
    path = Files.join b.store.dir (candidate (stem c.now c.recording.name) n) ∧
    Files.IsFileName (candidate (stem c.now c.recording.name) n) ∧
    (b.treeAfter turns).Locates path location ∧
    (∀ here, b.tree.resolve b.store.dir = .ok here →
      location = here ++ [(candidate (stem c.now c.recording.name) n).toList]) ∧
    b.Made turns i location ∧
    Tree.entry? (b.treeAfter turns) location =
      some (.file (Text.encode (recordingText c.now c.recording)))
  /-- Where there is room, no saver gives up, and each one comes to its end. -/
  completed : ∀ i c here k, b.calls[i]? = some c → b.Room turns c here k →
    (∀ e, (b.after turns).savers[i]? ≠ some (.done (.error e))) ∧
      (k < answers turns i → ∃ path, b.Returned turns i path)

/-- Savers keep apart, whatever the order of their turns. -/
theorem keptApart (b : Batch) (turns : List Turn) : b.KeptApart turns where
  distinct i j path other hi hj hne heq := by
    obtain ⟨c, n, location, -, rfl, howns⟩ := hi.owns
    obtain ⟨d, m, place, -, hpath, howns'⟩ := hj.owns
    have hleads := howns.leads
    rw [heq, hpath] at hleads
    obtain rfl := hleads.unique howns'.leads
    exact hne (howns.made.unique howns'.made)
  kept location h := b.entry_kept turns h
  own before turn rest location _ hchange := (change_made hchange).2
  single i j location other hi hj := by
    constructor
    · rintro rfl
      exact hi.one hj
    · rintro rfl
      exact hi.unique hj
  stored i path h := by
    obtain ⟨c, n, location, hc, rfl, howns⟩ := h.owns
    exact ⟨c, n, location, hc, howns.pos, rfl, isFileName_candidate (isStem_stem _ _) n,
      howns.leads, fun here hdir => howns.inside hdir, howns.made, howns.entry⟩
  completed i c here k hc hroom := hroom.returns hc

end Batch

/-- Saves never overwrite. At once, in any order of turns, they keep apart. Whatever a recording is
called, the name of its file does not lead out of the directory of the store. A save that is left
alone takes the first free name, changes nothing else, and adds just that name to the list; it does
the same as when it is taken request by request. -/
theorem saves_never_overwrite :
    (∀ (b : Batch) (turns : List Turn), b.KeptApart turns) ∧
    (∀ name, (safeName name).toList ≠ [] ∧ '/' ∉ (safeName name).toList ∧
      '\\' ∉ (safeName name).toList ∧ '.' ∉ (safeName name).toList) ∧
    (∀ (store : Store) (t : Tree) (now : Instant) (r : Recording) (before : List String)
      (here : Location) (k : Nat), (t.entries.map Prod.fst).Nodup →
      (store.list : StateM Tree _) t = (.ok before, t) →
      1 ≤ k → k ≤ maxCandidates → candidate (stem now r.name) k ∉ before →
      store.Accepts t here (candidate (stem now r.name) k) →
      ∃ n later after, n ≤ k ∧ FirstFree (stem now r.name) before n ∧
        (store.save now r : StateM Tree _) t =
          (.ok (Files.join store.dir (candidate (stem now r.name) n)), later) ∧
        later = t.put (here ++ [(candidate (stem now r.name) n).toList])
          (.file (Text.encode (recordingText now r))) ∧
        (later.entries.map Prod.fst).Nodup ∧
        (store.list : StateM Tree _) later = (.ok after, later) ∧
        after.Perm (candidate (stem now r.name) n :: before) ∧ after.Pairwise (· < ·)) ∧
    (∀ (store : Store) (now : Instant) (r : Recording),
      (store.save now r : Program _).alone = (store.save now r : StateM Tree _)) := by
  refine ⟨Batch.keptApart, fun name => ?_, ?_, alone_save⟩
  · have hs := isStem_safeName name
    exact ⟨safeName_ne_nil name, hs.not_mem (by decide), hs.not_mem (by decide),
      hs.not_mem (by decide)⟩
  · intro store t now r before here k hmap hlist hk hmax hfree haccepts
    exact save_alone now r hmap hlist hk hmax hfree haccepts

/-- Two recordings without a name that are saved in the same second, into a store where their first
name is taken. -/
def sameSecond : Batch where
  store := ⟨"/s"⟩
  tree := { entries := [ ([['s']], .directory),
    ([['s'], "recording_20241004_000000.jsonl".toList], .file [7]) ] }
  calls := [ ⟨⟨20000, 0, 0⟩, {}⟩, ⟨⟨20000, 0, 5⟩, {}⟩ ]

/-- Their savers take turns, and the first one gets its bytes into its file bit by bit. -/
def sameSecondTurns : List Turn :=
  (List.replicate 5 [Turn.answered 0, .partly 0 3, .answered 1]).flatten

/-- Both savers come to their ends with different paths; and the first one, if it is left alone,
takes the second name. -/
theorem sameSecond_saved_apart :
    (∃ path other, sameSecond.Returned sameSecondTurns 0 path ∧
      sameSecond.Returned sameSecondTurns 1 other ∧ path ≠ other) ∧
    ∃ later after,
      (sameSecond.store.save ⟨20000, 0, 0⟩ {} : StateM Tree _) sameSecond.tree =
        (.ok (Files.join "/s" (candidate "recording_20241004_000000" 2)), later) ∧
      (sameSecond.store.list : StateM Tree _) later = (.ok after, later) ∧
      after.Perm [candidate "recording_20241004_000000" 2, "recording_20241004_000000.jsonl"] ∧
      after.Pairwise (· < ·) := by
  have hstems : ∀ c ∈ sameSecond.calls, c.stem = "recording_20241004_000000" := by decide +kernel
  have haccepts : sameSecond.store.Accepts sameSecond.tree [['s']]
      (candidate "recording_20241004_000000" 4) :=
    ⟨rfl, rfl, by decide +kernel, by decide +kernel⟩
  have hfree : Tree.entry? (sameSecond.treeAfter sameSecondTurns)
      ([['s']] ++ [(candidate "recording_20241004_000000" 4).toList]) = none := by decide +kernel
  obtain ⟨happart, -, halone, -⟩ := saves_never_overwrite
  constructor
  · have hroom : ∀ c ∈ sameSecond.calls, sameSecond.Room sameSecondTurns c [['s']] 4 := by
      intro c hc
      refine ⟨by decide, by decide, ?_, ?_⟩
      · rw [hstems c hc]
        exact haccepts
      · rw [hstems c hc]
        exact hfree
    have hsaved := happart sameSecond sameSecondTurns
    obtain ⟨path, hpath⟩ := (hsaved.completed 0 _ _ 4 rfl (hroom _ (by simp [sameSecond]))).2
      (by decide)
    obtain ⟨other, hother⟩ := (hsaved.completed 1 _ _ 4 rfl (hroom _ (by simp [sameSecond]))).2
      (by decide)
    exact ⟨path, other, hpath, hother, hsaved.distinct 0 1 path other hpath hother (by decide)⟩
  · have hstem : stem ⟨20000, 0, 0⟩ "" = "recording_20241004_000000" :=
      hstems ⟨⟨20000, 0, 0⟩, {}⟩ List.mem_cons_self
    have hshort : IsStem "recording_20241004_000000" := hstem ▸ isStem_stem _ _
    obtain ⟨n, later, after, hle, hfirst, hsave, -, -, hlist, hperm, hsorted⟩ :=
      halone sameSecond.store sameSecond.tree ⟨20000, 0, 0⟩ {} ["recording_20241004_000000.jsonl"]
        [['s']] 2 (by decide) (list_eq_ok_iff.mpr ⟨[['s']], rfl, rfl, by decide +kernel⟩)
        (by decide) (by decide) (by rw [hstem]; decide +kernel)
        (by rw [hstem]; exact haccepts.earlier hshort (by decide) (by decide))
    rw [hstem] at hfirst hsave hperm
    have hpos := hfirst.pos
    have hne : n ≠ 1 := by
      rintro rfl
      exact hfirst.free (by decide +kernel)
    obtain rfl : n = 2 := by omega
    exact ⟨later, after, hsave, hlist, hperm, hsorted⟩

end SessionScript.Store
