import SessionScript.Proofs.Files.Growth
import SessionScript.Proofs.Files.Program
import SessionScript.Store.Basic

/-!
# Savers that take turns

Any number of recordings are saved at once into one store. In each turn one of the savers has its
request answered, or gets some of its bytes into its file; the turns come in any order. A saver is at
every moment at one of a few stages, and this module says once all that a turn can do: to the stage
of its saver, and to the tree.
-/

namespace SessionScript.Store

open Files (Access Location OsError Program Request Tree)

/-- A recording that is to be saved, and the time at which that is done. -/
structure SaveCall where
  /-- When the recording is saved. -/
  now : Instant
  /-- The recording. -/
  recording : Recording

namespace SaveCall

/-- The part of the file name that the recording and the time decide. -/
def stem (c : SaveCall) : String := Store.stem c.now c.recording.name

/-- The path of the file, if it gets the `n`-th name. -/
def path (c : SaveCall) (store : Store) (n : Nat) : String :=
  Files.join store.dir (candidate c.stem n)

/-- What is written into the file. -/
def content (c : SaveCall) : Text.Bytes := Text.encode (recordingText c.now c.recording)

end SaveCall

/-! ### What a saver has still to do -/

/-- Fill a new file, given its path. -/
def fill (c : SaveCall) : Except StoreError String → Program (Except StoreError String)
  | .error e => return .error e
  | .ok path => do
    match ← Access.write path c.content with
    | .ok () => return .ok path
    | .error e => return .error (.os e)

/-- How far a saver has come. -/
inductive Stage where
  /-- The `n`-th name is tried next, and so many names are left with it. -/
  | trying (fuel n : Nat)
  /-- The file was made under the `n`-th name and is being written. -/
  | writing (n : Nat)
  /-- The file is written, and its path was given back. -/
  | saved (n : Nat)
  /-- The saver gave up. -/
  | failed (e : StoreError)

/-- What a saver has still to do. -/
def Stage.program (store : Store) (c : SaveCall) : Stage → Program (Except StoreError String)
  | .trying fuel n => store.createFree c.stem fuel n >>= fill c
  | .writing n => fill c (.ok (c.path store n))
  | .saved n => .done (.ok (c.path store n))
  | .failed e => .done (.error e)

/-- A saver begins with the first name. -/
theorem save_eq_program (store : Store) (c : SaveCall) :
    (store.save c.now c.recording : Program _) = (Stage.trying maxCandidates 1).program store c :=
  rfl

/-- A saver that gave a path back has saved its file. -/
theorem Stage.eq_saved {store : Store} {c : SaveCall} {s : Stage} {path : String}
    (h : s.program store c = .done (.ok path)) : ∃ n, s = .saved n ∧ path = c.path store n := by
  cases s with
  | trying fuel n => cases fuel <;> cases h
  | writing n => cases h
  | saved n =>
    cases h
    exact ⟨n, rfl, rfl⟩
  | failed e => cases h

/-! ### What a turn can do -/

/-- All that a turn of a saver can do to its stage and to the tree. A turn either has the request of
the saver answered or not. -/
inductive Moves (store : Store) (c : SaveCall) (t : Tree) : Bool → Stage → Stage → Tree → Prop where
  /-- Nothing happens. -/
  | waits (s : Stage) : Moves store c t false s s t
  /-- The saver has no request any more. -/
  | rests {s : Stage} {result : Except StoreError String} (h : s.program store c = .done result) :
    Moves store c t true s s t
  /-- A name is taken, and the next one will be tried. -/
  | passes {fuel n : Nat} (h : t.createNew (c.path store n) = .error .alreadyExists) :
    Moves store c t true (.trying (fuel + 1) n) (.trying fuel (n + 1)) t
  /-- A name cannot be used. -/
  | givesUp {fuel n : Nat} {e : OsError} (h : t.createNew (c.path store n) = .error e)
    (he : e ≠ .alreadyExists) :
    Moves store c t true (.trying (fuel + 1) n) (.failed (.creating (c.path store n) e)) t
  /-- A file is made where nothing stood. -/
  | makes {fuel n : Nat} {location : Location} (hl : t.Locates (c.path store n) location)
    (hfree : t.entry? location = none) :
    Moves store c t true (.trying (fuel + 1) n) (.writing n) (t.put location (.file []))
  /-- A part of the bytes gets into the file. -/
  | writes {n : Nat} {location : Location} (hl : t.Locates (c.path store n) location)
    (hd : t.entry? location ≠ some .directory) (bytes : Nat) :
    Moves store c t false (.writing n) (.writing n) (t.put location (.file (c.content.take bytes)))
  /-- All bytes are in the file. -/
  | saves {n : Nat} {location : Location} (hl : t.Locates (c.path store n) location)
    (hd : t.entry? location ≠ some .directory) :
    Moves store c t true (.writing n) (.saved n) (t.put location (.file c.content))
  /-- The file cannot be written. -/
  | loses {n : Nat} {e : OsError} (h : t.write (c.path store n) c.content = .error e) :
    Moves store c t true (.writing n) (.failed (.os e)) t

/-- A saver whose request is answered moves. -/
theorem resume_moves (store : Store) (c : SaveCall) (s : Stage) (t : Tree) :
    ∃ next later, (s.program store c).resume t = (next.program store c, later) ∧
      Moves store c t true s next later := by
  cases s with
  | trying fuel n =>
    cases fuel with
    | zero => exact ⟨.trying 0 n, t, rfl, .rests rfl⟩
    | succ fuel =>
      have hperform := Request.perform_createNew (c.path store n) t
      cases hmade : t.createNew (c.path store n) with
      | ok later =>
        rw [hmade] at hperform
        obtain ⟨location, hl, hfree, rfl⟩ := Tree.createNew_eq_ok_iff.mp hmade
        exact ⟨.writing n, _, Program.resume_ask hperform _, .makes hl hfree⟩
      | error e =>
        rw [hmade] at hperform
        by_cases he : e = .alreadyExists
        · subst he
          exact ⟨.trying fuel (n + 1), t, Program.resume_ask hperform _, .passes hmade⟩
        · refine ⟨.failed (.creating (c.path store n) e), t, ?_, .givesUp hmade he⟩
          refine (Program.resume_ask hperform _).trans ?_
          cases e with
          | alreadyExists => exact absurd rfl he
          | _ => rfl
  | writing n =>
    have hperform := Request.perform_write (c.path store n) c.content t
    cases hwritten : t.write (c.path store n) c.content with
    | ok later =>
      rw [hwritten] at hperform
      obtain ⟨location, hl, hd, rfl⟩ := Tree.write_eq_ok_iff.mp hwritten
      exact ⟨.saved n, _, Program.resume_ask hperform _, .saves hl hd⟩
    | error e =>
      rw [hwritten] at hperform
      exact ⟨.failed (.os e), t, Program.resume_ask hperform _, .loses hwritten⟩
  | saved n => exact ⟨.saved n, t, rfl, .rests rfl⟩
  | failed e => exact ⟨.failed e, t, rfl, .rests rfl⟩

/-- A saver that gets some of its bytes into its file moves. -/
theorem writePart_moves (store : Store) (c : SaveCall) (s : Stage) (t : Tree) (bytes : Nat) :
    Moves store c t false s s ((s.program store c).writePart bytes t) := by
  cases s with
  | trying fuel n => cases fuel <;> exact .waits _
  | writing n =>
    have hpart : ((Stage.writing n).program store c).writePart bytes t =
        ((Request.write (c.path store n) (c.content.take bytes)).perform t).2 := rfl
    rw [hpart, Request.perform_write]
    cases hwritten : t.write (c.path store n) (c.content.take bytes) with
    | ok later =>
      obtain ⟨location, hl, hd, rfl⟩ := Tree.write_eq_ok_iff.mp hwritten
      exact .writes hl hd bytes
    | error e => exact .waits _
  | saved n => exact .waits _
  | failed e => exact .waits _

namespace Moves

variable {store : Store} {c : SaveCall} {t later : Tree} {answered : Bool} {s next : Stage}

/-- Nothing is removed in a turn. -/
theorem grows (h : Moves store c t answered s next later) : t.Grows later := by
  cases h with
  | waits | rests | passes | givesUp | loses => exact Tree.Grows.refl t
  | makes hl hfree => exact Tree.grows_put hl.ne_nil (by rw [hfree]; exact (Option.some_ne_none _).symm) _
  | writes hl hd bytes => exact Tree.grows_put hl.ne_nil hd _
  | saves hl hd => exact Tree.grows_put hl.ne_nil hd _

/-- A turn changes only what is made in it, or the file that the saver is writing. -/
theorem changes (h : Moves store c t answered s next later) {location : Location}
    (hc : later.entry? location ≠ t.entry? location) :
    t.entry? location = none ∨ ∃ n, s = .writing n ∧ t.Locates (c.path store n) location := by
  -- an entry was put at one location, so the change is there
  have hput : ∀ {place : Location} {entry : Files.Entry}, place ≠ [] →
      Tree.entry? (t.put place entry) location ≠ t.entry? location → location = place := by
    intro place entry hplace hchange
    rw [Tree.lookup_put t hplace] at hchange
    by_contra hne
    exact hchange (if_neg hne)
  cases h with
  | waits | rests | passes | givesUp | loses => exact absurd rfl hc
  | makes hl hfree =>
    obtain rfl := hput hl.ne_nil hc
    exact .inl hfree
  | writes hl hd bytes =>
    obtain rfl := hput hl.ne_nil hc
    exact .inr ⟨_, rfl, hl⟩
  | saves hl hd =>
    obtain rfl := hput hl.ne_nil hc
    exact .inr ⟨_, rfl, hl⟩

end Moves

/-! ### Turn by turn -/

/-- One turn of one saver. -/
inductive Turn where
  /-- The request of a saver is answered. -/
  | answered (saver : Nat)
  /-- A saver that is writing gets its first bytes into its file, and goes on writing. -/
  | partly (saver bytes : Nat)
  deriving DecidableEq

namespace Turn

/-- Whose turn it is. -/
def saver : Turn → Nat
  | .answered i => i
  | .partly i _ => i

/-- Is a request answered? -/
def isAnswer : Turn → Bool
  | .answered _ => true
  | .partly .. => false

end Turn

/-- Savers at work on one tree. -/
structure Scene where
  /-- The files. -/
  tree : Tree
  /-- What each saver has still to do. -/
  savers : List (Program (Except StoreError String))

/-- Take one turn. -/
def Scene.step (scene : Scene) : Turn → Scene
  | .answered i =>
    match scene.savers[i]? with
    | some p => ⟨(p.resume scene.tree).2, scene.savers.set i (p.resume scene.tree).1⟩
    | none => scene
  | .partly i bytes =>
    match scene.savers[i]? with
    | some p => { scene with tree := p.writePart bytes scene.tree }
    | none => scene

/-- Every saver of a scene is at a stage of its call at which something holds. -/
structure Scene.Staged (store : Store) (calls : List SaveCall) (scene : Scene)
    (P : Nat → SaveCall → Stage → Prop) : Prop where
  /-- There is one saver for each call. -/
  length : scene.savers.length = calls.length
  /-- Each one is at a stage. -/
  stage : ∀ i c, calls[i]? = some c →
    ∃ s : Stage, scene.savers[i]? = some (s.program store c) ∧ P i c s

namespace Scene.Staged

variable {store : Store} {calls : List SaveCall} {scene : Scene}
  {P Q : Nat → SaveCall → Stage → Prop}

/-- What holds of all stages may be replaced by what follows from it. -/
theorem imp (h : scene.Staged store calls P) (hpq : ∀ i c s, P i c s → Q i c s) :
    scene.Staged store calls Q := by
  refine ⟨h.length, fun i c hc => ?_⟩
  obtain ⟨s, hs, hp⟩ := h.stage i c hc
  exact ⟨s, hs, hpq i c s hp⟩

/-- One saver moved on, and the others stayed where they were. -/
theorem set (h : scene.Staged store calls P) {i : Nat} {c : SaveCall} (hc : calls[i]? = some c)
    (tree : Tree) {next : Stage} (hnext : Q i c next)
    (hothers : ∀ j d r, j ≠ i → P j d r → Q j d r) :
    Scene.Staged store calls ⟨tree, scene.savers.set i (next.program store c)⟩ Q := by
  refine ⟨by rw [List.length_set]; exact h.length, fun j d hd => ?_⟩
  obtain ⟨r, hr, hp⟩ := h.stage j d hd
  by_cases hji : j = i
  · subst hji
    obtain rfl : c = d := Option.some.inj (hc.symm.trans hd)
    have hlt : j < scene.savers.length := (List.getElem?_eq_some_iff.mp hr).1
    exact ⟨next, List.getElem?_set_self hlt, hnext⟩
  · exact ⟨r, (List.getElem?_set_ne (Ne.symm hji)).trans hr, hothers j d r hji hp⟩

/-- A turn moves its saver, if there is one, and leaves the others at their stages. -/
theorem step (h : scene.Staged store calls P) (turn : Turn) :
    (calls[turn.saver]? = none ∧ scene.step turn = scene) ∨
      ∃ c s next, calls[turn.saver]? = some c ∧ P turn.saver c s ∧
        Moves store c scene.tree turn.isAnswer s next (scene.step turn).tree ∧
        ∀ Q : Nat → SaveCall → Stage → Prop, Q turn.saver c next →
          (∀ j d r, j ≠ turn.saver → P j d r → Q j d r) →
          (scene.step turn).Staged store calls Q := by
  cases hc : calls[turn.saver]? with
  | none =>
    have hnone : scene.savers[turn.saver]? = none := by
      rw [List.getElem?_eq_none_iff, h.length]
      exact List.getElem?_eq_none_iff.mp hc
    refine .inl ⟨rfl, ?_⟩
    cases turn with
    | answered i => simp only [Scene.step, show scene.savers[i]? = none from hnone]
    | partly i bytes => simp only [Scene.step, show scene.savers[i]? = none from hnone]
  | some c =>
    obtain ⟨s, hs, hp⟩ := h.stage _ c hc
    right
    cases turn with
    | answered i =>
      obtain ⟨next, later, hresume, hmoves⟩ := resume_moves store c s scene.tree
      have hstep : scene.step (.answered i) =
          ⟨later, scene.savers.set i (next.program store c)⟩ := by
        simp only [Scene.step, show scene.savers[i]? = _ from hs, hresume]
      rw [hstep]
      exact ⟨c, s, next, rfl, hp, hmoves, fun Q hq hothers => h.set hc later hq hothers⟩
    | partly i bytes =>
      have hstep : scene.step (.partly i bytes) =
          ⟨(s.program store c).writePart bytes scene.tree, scene.savers⟩ := by
        simp only [Scene.step, show scene.savers[i]? = _ from hs]
      have hsame : scene.savers.set i (s.program store c) = scene.savers := by
        obtain ⟨hlt, hsaver⟩ := List.getElem?_eq_some_iff.mp hs
        rw [← hsaver]
        exact List.set_getElem_self hlt
      rw [hstep]
      refine ⟨c, s, s, rfl, hp, writePart_moves store c s scene.tree bytes, fun Q hq hothers => ?_⟩
      rw [← hsame]
      exact h.set hc _ hq hothers

end Scene.Staged

end SessionScript.Store
