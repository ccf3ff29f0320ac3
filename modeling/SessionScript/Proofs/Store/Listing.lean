import Mathlib.Data.List.Nodup
import SessionScript.Proofs.Files.Program
import SessionScript.Proofs.Store.FileNames

/-!
# Saving alone

A save that nobody else's requests come between takes the first free name, and afterwards the
recordings are listed as before, with that name among them.
-/

namespace SessionScript.Files.Tree

open Json (bind_eq_ok)

variable {t : Tree} {here location : Location} {dir name : String} {names : List String}

/-- The names of the entries of a directory. -/
def namesIn (entries : List (Location × Entry)) (here : Location) : List String :=
  entries.filterMap fun (location, _) =>
    if location.dropLast = here then location.getLast?.map String.ofList else none

/-- A directory is listed if its path leads to it. -/
theorem names_eq_ok_iff :
    t.names dir = .ok names ↔
      ∃ here, t.resolve dir = .ok here ∧ t.entry? here = some .directory ∧
        names = namesIn t.entries here := by
  unfold Tree.names
  rw [bind_eq_ok]
  constructor
  · rintro ⟨here, hdir, h⟩
    refine ⟨here, hdir, ?_⟩
    dsimp only at h
    split at h
    · exact ⟨‹_›, (Except.ok.inj h).symm⟩
    · cases h
  · rintro ⟨here, hdir, hentry, rfl⟩
    refine ⟨here, hdir, ?_⟩
    dsimp only
    rw [hentry]
    rfl

/-- The location of a name in a directory. -/
theorem location_eq_iff :
    (if location.dropLast = here then location.getLast?.map String.ofList else none) = some name ↔
      location = here ++ [name.toList] := by
  constructor
  · intro h
    split at h
    · rename_i hhere
      obtain ⟨last, hlast, rfl⟩ := Option.map_eq_some_iff.mp h
      rw [String.toList_ofList, ← hhere]
      exact (List.dropLast_append_getLast? _ hlast).symm
    · cases h
  · rintro rfl
    rw [List.dropLast_concat, if_pos rfl, List.getLast?_concat, Option.map_some,
      String.ofList_toList]

/-- A name is listed if something stands at its location. -/
theorem mem_namesIn_iff :
    name ∈ namesIn t.entries here ↔ t.entry? (here ++ [name.toList]) ≠ none := by
  have hne : here ++ [name.toList] ≠ [] := by simp
  rw [namesIn, List.mem_filterMap, entry?, if_neg hne, ne_eq, List.lookup_eq_none_iff]
  simp only [location_eq_iff, bne_iff_ne, ne_eq, not_forall, not_not, exists_prop]
  exact exists_congr fun entry => and_congr_right fun _ => eq_comm

/-- Where every location has one entry, every name is listed once. -/
theorem nodup_namesIn (h : (t.entries.map Prod.fst).Nodup) : (namesIn t.entries here).Nodup := by
  have hmap : namesIn t.entries here = (t.entries.map Prod.fst).filterMap fun location =>
      if location.dropLast = here then location.getLast?.map String.ofList else none := by
    rw [List.filterMap_map]
    rfl
  rw [hmap]
  refine h.filterMap fun location other name hl ho => ?_
  exact (location_eq_iff.mp hl).trans (location_eq_iff.mp ho).symm

/-- A new entry comes after all others. -/
theorem entries_put (hl : location ≠ []) (hfree : t.entry? location = none) (entry : Entry) :
    (t.put location entry).entries = t.entries ++ [(location, entry)] := by
  rw [ entry?, if_neg hl, List.lookup_eq_none_iff] at hfree
  unfold put
  rw [List.filter_eq_self.mpr]
  intro other hother
  have hne : location ≠ other.1 := bne_iff_ne.mp (hfree other hother)
  exact decide_eq_true hne.symm

/-- Where every location has one entry, it has one after an entry was put. -/
theorem nodup_put (h : (t.entries.map Prod.fst).Nodup) (location : Location) (entry : Entry) :
    ((t.put location entry).entries.map Prod.fst).Nodup := by
  unfold put
  rw [List.map_append, List.nodup_append]
  refine ⟨h.sublist (List.filter_sublist.map _), List.nodup_singleton _, ?_⟩
  intro key hkey other hother
  obtain ⟨found, hfound, rfl⟩ := List.mem_map.mp hkey
  obtain rfl := List.mem_singleton.mp hother
  simpa using (List.mem_filter.mp hfound).2

/-- Of two entries at one location the later one counts. -/
theorem put_put (t : Tree) (location : Location) (old new : Entry) :
    (t.put location old).put location new = t.put location new := by
  unfold put
  simp

/-- A file that was just made can be written. -/
theorem write_put {path : String} (hl : t.Locates path location)
    (hfree : t.entry? location = none) (content : Text.Bytes) :
    (t.put location (.file [])).write path content = .ok (t.put location (.file content)) := by
  have hgrows : t.Grows (t.put location (.file [])) :=
    grows_put hl.ne_nil (by rw [hfree]; exact (Option.some_ne_none _).symm) _
  have hfile : Tree.entry? (t.put location (.file [])) location = some (.file []) := by
    rw [lookup_put t hl.ne_nil, if_pos rfl]
  refine write_eq_ok_iff.mpr ⟨location, hl.mono hgrows, ?_, (put_put t location _ _).symm⟩
  rw [hfile]
  simp

end SessionScript.Files.Tree

namespace SessionScript.Store

open Files (Access Location Program Tree)

/-! ### Sorted names -/

/-- A name is entered once. -/
theorem insertName_perm (name : String) (names : List String) :
    (insertName name names).Perm (name :: names) := by
  induction names with
  | nil => exact List.Perm.refl _
  | cons other rest ih =>
    rw [insertName]
    split
    · exact List.Perm.refl _
    · exact (ih.cons other).trans (List.Perm.swap name other rest)

/-- A new name is entered at its place. -/
theorem insertName_sorted {name : String} {names : List String} (hs : names.Pairwise (· < ·))
    (hn : name ∉ names) : (insertName name names).Pairwise (· < ·) := by
  induction names with
  | nil => exact List.pairwise_singleton _ _
  | cons other rest ih =>
    obtain ⟨hother, hrest⟩ := List.pairwise_cons.mp hs
    rw [insertName]
    split
    · rename_i hlt
      refine List.pairwise_cons.mpr ⟨fun later hlater => ?_, hs⟩
      rcases List.mem_cons.mp hlater with rfl | hlater
      · exact hlt
      · exact String.lt_trans hlt (hother later hlater)
    · rename_i hge
      have hne : name ≠ other := fun h => hn (h ▸ List.mem_cons_self)
      have hlt : other < name := Std.lt_of_le_of_ne (String.not_lt.mp hge) hne.symm
      refine List.pairwise_cons.mpr
        ⟨fun later hlater => ?_, ih hrest fun h => hn (List.mem_cons_of_mem other h)⟩
      rcases List.mem_cons.mp ((insertName_perm name rest).mem_iff.mp hlater) with rfl | hlater
      · exact hlt
      · exact hother later hlater

/-- Sorting changes the order of names only. -/
theorem sort_perm (names : List String) : (names.foldr insertName []).Perm names := by
  induction names with
  | nil => exact List.Perm.refl _
  | cons name rest ih => exact (insertName_perm name _).trans (ih.cons name)

/-- Names that are different are sorted strictly. -/
theorem sort_sorted {names : List String} (h : names.Nodup) :
    (names.foldr insertName []).Pairwise (· < ·) := by
  induction names with
  | nil => exact List.Pairwise.nil
  | cons name rest ih =>
    obtain ⟨hname, hrest⟩ := List.nodup_cons.mp h
    exact insertName_sorted (ih hrest) fun hm => hname ((sort_perm rest).mem_iff.mp hm)

/-! ### Making a file under the first free name -/

variable {store : Store} {t : Tree} {here : Location}

/-- A step on a tree, and what is done after it. -/
theorem bind_run {α β : Type} {x : StateM Tree α} {f : α → StateM Tree β} {later : Tree} {a : α}
    (h : x t = (a, later)) : (x >>= f) t = f a later := by
  change f (x t).1 (x t).2 = _
  rw [h]

/-- One name is tried. -/
theorem createFree_succ (store : Store) (stem : String) (fuel n : Nat) (t : Tree) :
    (store.createFree stem (fuel + 1) n : StateM Tree _) t =
      match t.createNew (Files.join store.dir (candidate stem n)) with
      | .ok later => (.ok (Files.join store.dir (candidate stem n)), later)
      | .error .alreadyExists => (store.createFree stem fuel (n + 1) : StateM Tree _) t
      | .error e => (.error (.creating (Files.join store.dir (candidate stem n)) e), t) := by
  have hperform := Files.Request.perform_createNew (Files.join store.dir (candidate stem n)) t
  cases hmade : t.createNew (Files.join store.dir (candidate stem n)) with
  | ok later =>
    rw [hmade] at hperform
    exact bind_run hperform
  | error e =>
    rw [hmade] at hperform
    refine (bind_run hperform).trans ?_
    cases e <;> rfl

/-- The first of the names that are left and are free is taken. -/
theorem createFree_first {stem : String} (hs : IsStem stem) {n : Nat}
    (haccepts : store.Accepts t here (candidate stem n))
    (hfree : t.entry? (here ++ [(candidate stem n).toList]) = none) (fuel k : Nat) (hk : 1 ≤ k)
    (hkn : k ≤ n) (hfuel : n < k + fuel)
    (htaken : ∀ m, k ≤ m → m < n → t.entry? (here ++ [(candidate stem m).toList]) ≠ none) :
    (store.createFree stem fuel k : StateM Tree _) t =
      (.ok (Files.join store.dir (candidate stem n)),
        t.put (here ++ [(candidate stem n).toList]) (.file [])) := by
  induction fuel generalizing k with
  | zero => omega
  | succ fuel ih =>
    rw [createFree_succ]
    rcases Nat.lt_or_ge k n with hlt | hge
    · have hl := (haccepts.earlier hs hk hkn).locates hs
      rw [Tree.createNew_taken hl (htaken k (Nat.le_refl k) hlt)]
      exact ih (k + 1) (by omega) (by omega) (by omega) fun m hm hmn => htaken m (by omega) hmn
    · obtain rfl : k = n := by omega
      rw [Tree.createNew_eq_ok_iff.mpr ⟨_, haccepts.locates hs, hfree, rfl⟩]

/-- A number of the first candidate that is not among some names. -/
structure FirstFree (stem : String) (names : List String) (n : Nat) : Prop where
  /-- Numbers begin at one. -/
  pos : 1 ≤ n
  /-- The candidate is free. -/
  free : candidate stem n ∉ names
  /-- All candidates before it are taken. -/
  taken : ∀ m, 1 ≤ m → m < n → candidate stem m ∈ names

/-- Where some candidate is free, there is a first one. -/
theorem exists_firstFree {stem : String} {names : List String} {k : Nat} (hk : 1 ≤ k)
    (hfree : candidate stem k ∉ names) : ∃ n, n ≤ k ∧ FirstFree stem names n := by
  have hexists : ∃ n, 1 ≤ n ∧ candidate stem n ∉ names := ⟨k, hk, hfree⟩
  classical
  obtain ⟨hpos, hn⟩ := Nat.find_spec hexists
  refine ⟨Nat.find hexists, Nat.find_min' hexists ⟨hk, hfree⟩, hpos, hn, fun m hm hlt => ?_⟩
  by_contra hm'
  exact Nat.find_min hexists hlt ⟨hm, hm'⟩

/-- A save that is left alone makes and writes the file with the first free name. -/
theorem save_first (now : Instant) (r : Recording) {n : Nat} (hn : 1 ≤ n)
    (hmax : n ≤ maxCandidates) (haccepts : store.Accepts t here (candidate (stem now r.name) n))
    (hfree : t.entry? (here ++ [(candidate (stem now r.name) n).toList]) = none)
    (htaken : ∀ m, 1 ≤ m → m < n →
      t.entry? (here ++ [(candidate (stem now r.name) m).toList]) ≠ none) :
    (store.save now r : StateM Tree _) t =
      (.ok (Files.join store.dir (candidate (stem now r.name) n)),
        t.put (here ++ [(candidate (stem now r.name) n).toList])
          (.file (Text.encode (recordingText now r)))) := by
  have hs := isStem_stem now r.name
  have hcreated := createFree_first hs haccepts hfree maxCandidates 1 (Nat.le_refl 1) hn (by omega)
    htaken
  have hwritten := Tree.write_put (haccepts.locates hs) hfree (Text.encode (recordingText now r))
  have hperform := Files.Request.perform_write
    (Files.join store.dir (candidate (stem now r.name) n)) (Text.encode (recordingText now r))
    (t.put (here ++ [(candidate (stem now r.name) n).toList]) (.file []))
  rw [hwritten] at hperform
  refine (bind_run hcreated).trans ?_
  exact bind_run hperform

/-! ### Listing -/

/-- The stored recordings among the entries of a directory. -/
def storedIn (t : Tree) (here : Location) : List String :=
  ((Tree.namesIn t.entries here).filter isStoredName).foldr insertName []

/-- The store is listed if its path leads to a directory. -/
theorem list_eq_ok_iff {listed : List String} :
    (store.list : StateM Tree _) t = (.ok listed, t) ↔
      ∃ here, t.resolve store.dir = .ok here ∧ t.entry? here = some .directory ∧
        listed = storedIn t here := by
  have hperform : (Files.Request.names store.dir).perform t = (t.names store.dir, t) := rfl
  cases hnames : t.names store.dir with
  | ok names =>
    rw [hnames] at hperform
    have hlist : (store.list : StateM Tree _) t =
        (.ok ((names.filter isStoredName).foldr insertName []), t) := bind_run hperform
    obtain ⟨there, hdir, hentry, rfl⟩ := Tree.names_eq_ok_iff.mp hnames
    rw [hlist]
    constructor
    · intro h
      cases h
      exact ⟨there, hdir, hentry, rfl⟩
    · rintro ⟨here, hdir', -, rfl⟩
      obtain rfl : there = here := Except.ok.inj (hdir.symm.trans hdir')
      rfl
  | error e =>
    rw [hnames] at hperform
    have hlist : (store.list : StateM Tree _) t = (.error (.os e), t) := bind_run hperform
    rw [hlist]
    constructor
    · intro h
      cases h
    · rintro ⟨here, hdir, hentry, -⟩
      rw [Tree.names_eq_ok_iff.mpr ⟨here, hdir, hentry, rfl⟩] at hnames
      cases hnames

/-- A candidate is listed if something stands at its location. -/
theorem mem_storedIn_iff {stem : String} {n : Nat} :
    candidate stem n ∈ storedIn t here ↔
      t.entry? (here ++ [(candidate stem n).toList]) ≠ none := by
  rw [storedIn, (sort_perm _).mem_iff, List.mem_filter, Tree.mem_namesIn_iff,
    isStoredName_candidate, and_iff_left rfl]

/-- A new file under the name of a candidate is listed beside those that were listed before. -/
theorem storedIn_put {stem : String} {n : Nat}
    (hfree : t.entry? (here ++ [(candidate stem n).toList]) = none) (entry : Files.Entry) :
    (storedIn (t.put (here ++ [(candidate stem n).toList]) entry) here).Perm
      (candidate stem n :: storedIn t here) := by
  have hnames : Tree.namesIn (t.put (here ++ [(candidate stem n).toList]) entry).entries here =
      Tree.namesIn t.entries here ++ [candidate stem n] := by
    have hlocation : (if (here ++ [(candidate stem n).toList]).dropLast = here then
        (here ++ [(candidate stem n).toList]).getLast?.map String.ofList else none) =
          some (candidate stem n) := Tree.location_eq_iff.mpr rfl
    rw [Tree.entries_put (by simp) hfree, Tree.namesIn, List.filterMap_append]
    simp only [List.filterMap_cons, hlocation, List.filterMap_nil]
    rfl
  rw [storedIn, hnames, List.filter_append, List.filter_singleton, isStoredName_candidate]
  refine (sort_perm _).trans (List.perm_append_comm.trans ?_)
  exact (sort_perm _).symm.cons _

/-- Where every location has one entry, the stored recordings are listed in strict order. -/
theorem storedIn_sorted (h : (t.entries.map Prod.fst).Nodup) :
    (storedIn t here).Pairwise (· < ·) :=
  sort_sorted ((Tree.nodup_namesIn h).filter _)

/-- A save that is left alone takes the first name that is not listed, changes nothing but the file
of that name, and adds just that name to what is listed. -/
theorem save_alone (now : Instant) (r : Recording) {before : List String} {k : Nat}
    (hmap : (t.entries.map Prod.fst).Nodup)
    (hlist : (store.list : StateM Tree _) t = (.ok before, t)) (hk : 1 ≤ k)
    (hmax : k ≤ maxCandidates) (hfree : candidate (stem now r.name) k ∉ before)
    (haccepts : store.Accepts t here (candidate (stem now r.name) k)) :
    ∃ n later after, n ≤ k ∧ FirstFree (stem now r.name) before n ∧
      (store.save now r : StateM Tree _) t =
        (.ok (Files.join store.dir (candidate (stem now r.name) n)), later) ∧
      later = t.put (here ++ [(candidate (stem now r.name) n).toList])
        (.file (Text.encode (recordingText now r))) ∧
      (later.entries.map Prod.fst).Nodup ∧
      (store.list : StateM Tree _) later = (.ok after, later) ∧
      after.Perm (candidate (stem now r.name) n :: before) ∧ after.Pairwise (· < ·) := by
  obtain ⟨there, hdir, hentry, rfl⟩ := list_eq_ok_iff.mp hlist
  obtain rfl : here = there := Except.ok.inj (haccepts.leads.symm.trans hdir)
  obtain ⟨n, hnk, hfirst⟩ := exists_firstFree hk hfree
  have hnone : t.entry? (here ++ [(candidate (stem now r.name) n).toList]) = none := by
    have hnot := hfirst.free
    rwa [mem_storedIn_iff, not_not] at hnot
  have htaken : ∀ m, 1 ≤ m → m < n →
      t.entry? (here ++ [(candidate (stem now r.name) m).toList]) ≠ none :=
    fun m hm hmn => mem_storedIn_iff.mp (hfirst.taken m hm hmn)
  have haccepted := haccepts.earlier (isStem_stem now r.name) hfirst.pos hnk
  have hne := (haccepted.locates (isStem_stem now r.name)).ne_nil
  have hnodup := Tree.nodup_put hmap (here ++ [(candidate (stem now r.name) n).toList])
    (.file (Text.encode (recordingText now r)))
  have hgrows := Tree.grows_put hne (by rw [hnone]; exact (Option.some_ne_none _).symm)
    (Text.encode (recordingText now r))
  refine ⟨n, _, _, hnk, hfirst,
    save_first now r hfirst.pos (Nat.le_trans hnk hmax) haccepted hnone htaken, rfl, hnodup,
    list_eq_ok_iff.mpr ⟨here, hgrows.resolve hdir, hgrows.directory here hentry, rfl⟩,
    storedIn_put hnone _, storedIn_sorted hnodup⟩

/-! ### Left alone and all at once -/

/-- Looking for a free name, request by request, left alone. -/
theorem alone_createFree (store : Store) (stem : String) (fuel n : Nat) :
    (store.createFree stem fuel n : Program _).alone =
      (store.createFree stem fuel n : StateM Tree _) := by
  induction fuel generalizing n with
  | zero => rfl
  | succ fuel ih =>
    funext t
    rw [createFree_succ]
    have hperform := Files.Request.perform_createNew (Files.join store.dir (candidate stem n)) t
    cases hmade : t.createNew (Files.join store.dir (candidate stem n)) with
    | ok later =>
      rw [hmade] at hperform
      exact Program.alone_ask hperform _
    | error e =>
      rw [hmade] at hperform
      refine (Program.alone_ask hperform _).trans ?_
      cases e with
      | alreadyExists => exact congrFun (ih (n + 1)) t
      | _ => rfl

/-- Saving, request by request, left alone. -/
theorem alone_save (store : Store) (now : Instant) (r : Recording) :
    (store.save now r : Program _).alone = (store.save now r : StateM Tree _) := by
  unfold save
  rw [Program.alone_bind, alone_createFree]
  congr 1
  funext created
  cases created with
  | error e => rfl
  | ok path =>
    dsimp only
    rw [Program.alone_bind]
    refine congrArg (_ >>= ·) ?_
    funext written
    cases written <;> rfl

end SessionScript.Store
