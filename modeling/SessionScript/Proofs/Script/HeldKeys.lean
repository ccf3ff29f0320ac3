import SessionScript.Compilation
import SessionScript.Proofs.Optimizer.KeyNames
import SessionScript.Proofs.Script.Height
import SessionScript.Proofs.Script.Thinning

/-!
# Scripts of sessions whose keys have names

A keystroke presses the same key whether it was recorded by its name or by its code, so naming the
keys of a session does not change its script. The passes come first, however, and find held keys by
their names only. A stroke that they drop takes its line out of the script, and leaves the lookups
of frames where they were but for their addresses. So the script gets shorter by each held key that
was recorded by its code, and there is no difference exactly if there is none.
-/

namespace SessionScript.Script

open Optimizer

/-- Some blocks have been taken out of others, which has made these lower by at least a given number
of lines, and no frame has lost all of its lines. -/
structure Trims (n : Nat) (bs cs : List Block) : Prop where
  /-- The same frames are used. -/
  frames : actedIn cs = actedIn bs
  /-- The lines that are left out are missing. -/
  height : blocksHeight cs + n ≤ blocksHeight bs
  /-- No blocks are added. -/
  length : cs.length ≤ bs.length

namespace Trims

variable {m n : Nat} {bs cs ds : List Block}

theorem refl (bs : List Block) : Trims 0 bs bs := ⟨rfl, Nat.le_refl _, Nat.le_refl _⟩

theorem trans (h : Trims m bs cs) (h' : Trims n cs ds) : Trims (n + m) bs ds where
  frames := h'.frames.trans h.frames
  height := by
    have hb := h.height
    have hc := h'.height
    omega
  length := h'.length.trans h.length

/-- Blocks in front stay there. -/
theorem append_left (h : Trims n bs cs) (front : List Block) :
    Trims n (front ++ bs) (front ++ cs) where
  frames := by
    have hfront : ∀ bs, actedIn (front ++ bs) = actedIn front ∪ actedIn bs := by
      intro bs
      rw [actedIn, List.filter_append, List.map_append, List.toFinset_append]
      rfl
    rw [hfront, hfront, h.frames]
  height := by
    have hb := h.height
    rw [blocksHeight_append, blocksHeight_append]
    omega
  length := by
    rw [List.length_append, List.length_append]
    exact Nat.add_le_add_left h.length _

/-- A block with lines is left out in front of another one of its frame. -/
theorem drop {b c : Block} (hb : b.lines ≠ []) (hc : c.lines ≠ []) (hframe : b.frame = c.frame)
    (bs : List Block) : Trims 1 (b :: c :: bs) (c :: bs) where
  frames := by
    simp [actedIn_cons, hb, hc, hframe]
  height := by
    have hpos := blocksHeight_pos hb
    rw [blocksHeight_cons b]
    omega
  length := Nat.le_succ _

end Trims

section Walk

variable {d : Dialect} {o : Options}

/-- A stroke that repeats the one in front of it could as well be the one that is kept. -/
theorem trims_held {last e : Event} (h : BothHold last e) (p : Progress) (rest : List Event) :
    Trims 1 (walk d o p (last :: e :: rest)).2 (walk d o p (last :: rest)).2 := by
  obtain ⟨⟨hl, he⟩, ⟨key, -, hlkey, hekey⟩, hframeId⟩ := h
  have hframe : last.frame = e.frame := by rw [Event.frame, Event.frame, hframeId]
  have hblock : ∀ {x : Event}, x.action = .keydown → ∀ q next,
      blockOf d o q x next = some (keydownBlock o (opensTab next) x) := by
    intro x hx q next
    rw [blockOf, hx]
  have hadvance : ∀ {x : Event}, x.action = .keydown → ∀ q : Progress, q.advance x = q := by
    intro x hx q
    rw [Progress.advance, hx]
  have hsame : ∀ opens, keydownBlock o opens last = keydownBlock o opens e := by
    intro opens
    rw [keydownBlock, keydownBlock, receiver, receiver, pressedKey, pressedKey, hframe, hlkey,
      hekey]
    rfl
  have hwalk : ∀ {x : Event}, x.action = .keydown → ∀ q rest,
      (walk d o q (x :: rest)).2 =
        keydownBlock o (opensTab rest.head?) x :: (walk d o q rest).2 := by
    intro x hx q rest
    have hrest := walk_blocks_congr (noteFrame_tabs q x) (noteFrame_pictures q x) d o rest
    rw [walk, hadvance hx, hblock hx]
    exact congrArg (_ :: ·) hrest
  rw [hwalk hl, hwalk he, hwalk hl, hsame (opensTab rest.head?)]
  exact Trims.drop (List.cons_ne_nil _ _) (List.cons_ne_nil _ _) hframe _

/-- Each stroke that is dropped behind one that is kept takes a line out of the blocks. -/
theorem trims_keptAfter (p : Progress) (last : Event) (events : List Event) :
    ∃ n, (keptAfter repeatsModifier last events).length + n = events.length ∧
      Trims n (walk d o p (last :: events)).2
        (walk d o p (last :: keptAfter repeatsModifier last events)).2 := by
  induction events generalizing p last with
  | nil => exact ⟨0, rfl, .refl _⟩
  | cons e events ih =>
    rw [keptAfter]
    split
    · rename_i hr
      obtain ⟨n, hn, htrims⟩ := ih p last
      refine ⟨n + 1, ?_, (trims_held ((repeatsModifier_iff last e).mp hr) p events).trans htrims⟩
      rw [List.length_cons]
      omega
    · obtain ⟨n, hn, htrims⟩ := ih ((p.noteFrame last).advance last) e
      refine ⟨n, ?_, ?_⟩
      · rw [List.length_cons, List.length_cons]
        omega
      · have hcons : ∀ xs, (walk d o p (last :: xs)).2 =
            (blockOf d o (p.noteFrame last) last xs.head?).toList ++
              (walk d o ((p.noteFrame last).advance last) xs).2 := fun _ => rfl
        rw [hcons, hcons]
        exact htrims.append_left _

/-- Each held key that is dropped takes a line out of the blocks. -/
theorem trims_dropModifiers (events : List Event) :
    ∃ n, (dropModifiers events).length + n = events.length ∧
      Trims n (walk d o {} events).2 (walk d o {} (dropModifiers events)).2 := by
  cases events with
  | nil => exact ⟨0, rfl, .refl _⟩
  | cons e events =>
    obtain ⟨n, hn, htrims⟩ := trims_keptAfter (d := d) (o := o) {} e events
    rw [dropModifiers, dropRepeats_cons]
    refine ⟨n, ?_, htrims⟩
    rw [List.length_cons, List.length_cons]
    omega

/-- Dropping held keys leaves the navigations of a session. -/
theorem navigates_dropModifiers (events : List Event) :
    (∃ e ∈ dropModifiers events, e.action = .navigation) ↔
      ∃ e ∈ events, e.action = .navigation := by
  have hstroke : ∀ last e, repeatsModifier last e = true →
      decide (e.action = .navigation) = false := by
    intro last e h
    simp [((repeatsModifier_iff last e).mp h).1.2]
  have hfilter := dropRepeats_filter hstroke events
  have hmem : ∀ xs : List Event, (∃ e ∈ xs, e.action = .navigation) ↔
      xs.filter (·.action = .navigation) ≠ [] := by
    intro xs
    simp [List.filter_eq_nil_iff]
  rw [hmem, hmem, dropModifiers, hfilter]

/-- A script whose blocks have been trimmed has fewer line breaks. -/
theorem Trims.breaks_script {xs ys : List Event} {n : Nat}
    (h : Trims n (walk d o {} xs).2 (walk d o {} ys).2)
    (hnav : (∃ e ∈ ys, e.action = .navigation) ↔ ∃ e ∈ xs, e.action = .navigation) :
    (breaks (script d o ys)).length + n ≤ (breaks (script d o xs)).length := by
  obtain ⟨hxlength, hxheight⟩ := unspaced_height d o xs
  obtain ⟨hylength, hyheight⟩ := unspaced_height d o ys
  simp only [hnav, h.frames] at hylength hyheight
  have hlength : (unspaced d o ys).length ≤ (unspaced d o xs).length := by
    have hl := h.length
    omega
  have hheight : blocksHeight (unspaced d o ys) + n ≤ blocksHeight (unspaced d o xs) := by
    have hh := h.height
    omega
  have hspacers := Nat.mul_le_mul_left (if o.blankLinesBetweenBlocks then 1 else 0) hlength
  rw [length_breaks_script, length_breaks_script]
  omega

end Walk

/-- Dropping held keys changes the script exactly if there are any. -/
theorem script_dropModifiers_iff (d : Dialect) (o : Options) (events : List Event) :
    script d o (dropModifiers events) = script d o events ↔ dropModifiers events = events := by
  refine ⟨fun hs => ?_, fun h => by rw [h]⟩
  obtain ⟨n, hn, htrims⟩ := trims_dropModifiers (d := d) (o := o) events
  have hbreaks := htrims.breaks_script (navigates_dropModifiers events)
  have hsub : (dropModifiers events).Sublist events := dropRepeats_sublist events
  rw [hs] at hbreaks
  exact hsub.eq_of_length (by omega)

/-- A stroke presses the same key when it is given the name of its code. -/
theorem alike_keyNamed (e : Event) : Alike e (keyNamed e) := by
  obtain ⟨key, h⟩ := exists_keyNamed_eq e
  have hpressed : e.action = .keydown → ∀ o, pressedKey o e = pressedKey o (keyNamed e) := by
    intro ha o
    have hcode : (keyNamed e).keyCode = e.keyCode := by rw [h]
    rw [pressedKey, pressedKey, keyNamed_key ha, hcode]
    cases e.key <;> simp
  rw [h] at hpressed ⊢
  exact ⟨rfl, rfl, fun _ => rfl, hpressed, fun _ => ⟨rfl, rfl⟩, fun _ _ => ⟨rfl, rfl⟩⟩

/-- Naming the keys of a session does not change its script. -/
theorem script_map_keyNamed (d : Dialect) (o : Options) (events : List Event) :
    script d o (events.map keyNamed) = script d o events := by
  have hthins : Thins 0 events (events.map keyNamed) := by
    induction events with
    | nil => exact .nil
    | cons e events ih => exact .keep (alike_keyNamed e) ih
  exact ((hthins.script_eq_iff d o).mpr rfl).symm

/-- Naming the keys of a session changes the script of the shrunk session exactly if a key is held
by its code alone. -/
theorem script_optimize_keyNamed_iff (d : Dialect) (o : Options) (events : List Event) :
    script d o (optimize (events.map keyNamed)) = script d o (optimize events) ↔
      HeldByName events := by
  rw [optimize_map_keyNamed, ← script_map_keyNamed d o (optimize events), script_dropModifiers_iff,
    dropModifiers_eq_self_iff]

open Compilation (compile)

/-- A session whose keys are recorded by code compiles as the session with the names of these codes,
under all options and for both libraries, exactly if no two neighbours are strokes of a modifier key
that is held by its code alone. The scripts of the sessions as they were recorded are the same in
any case. -/
theorem same_scripts_iff_heldByName (o : Options) (events : List Event) :
    ((compile o (events.map keyNamed)).puppeteer = (compile o events).puppeteer ↔
        HeldByName events) ∧
      ((compile o (events.map keyNamed)).playwright = (compile o events).playwright ↔
        HeldByName events) ∧
      ∀ d, script d o (events.map keyNamed) = script d o events :=
  ⟨script_optimize_keyNamed_iff puppeteer o events,
    script_optimize_keyNamed_iff playwright o events, fun d => script_map_keyNamed d o events⟩

example :
    HeldByName
      [ { action := .keydown, keyCode := some 16 },
        { action := .keydown, keyCode := some 13 },
        { action := .keydown, key := some "Shift" },
        { action := .keydown, key := some "Shift" } ] := by
  decide

/-- Shift is held down, and only its code is recorded. -/
def heldShift : List Event :=
  [ { action := .keydown, keyCode := some 16 }, { action := .keydown, keyCode := some 16 } ]

/-- With the name of the key, one of the two strokes is dropped, and both scripts are others. -/
theorem heldShift_other_scripts :
    heldShift.map keyNamed =
        [ { action := .keydown, key := some "Shift", keyCode := some 16 },
          { action := .keydown, key := some "Shift", keyCode := some 16 } ] ∧
      (compile {} (heldShift.map keyNamed)).puppeteer ≠ (compile {} heldShift).puppeteer ∧
      (compile {} (heldShift.map keyNamed)).playwright ≠ (compile {} heldShift).playwright := by
  have hheld : ¬HeldByName heldShift := by decide
  exact ⟨by decide, mt (script_optimize_keyNamed_iff puppeteer {} heldShift).mp hheld,
    mt (script_optimize_keyNamed_iff playwright {} heldShift).mp hheld⟩

end SessionScript.Script
