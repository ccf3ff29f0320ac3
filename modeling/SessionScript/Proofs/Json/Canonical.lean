import SessionScript.Json.Value

/-!
# Documents whose objects are maps

Where an object is a map, its keys are in order and none stands twice. The reading of objects as
maps gives just such documents, and leaves them as they are.
-/

namespace SessionScript.Json

/-- The members have increasing keys. -/
def KeysIncrease (members : List (String × Json)) : Prop := members.Pairwise fun m n => m.1 < n.1

/-- A document whose objects are maps. -/
inductive Mapped : Json → Prop where
  /-- The word `null`. -/
  | null : Mapped .null
  /-- A truth value. -/
  | bool {b : Bool} : Mapped (.bool b)
  /-- A number. -/
  | num {n : Number} : Mapped (.num n)
  /-- A string. -/
  | str {s : String} : Mapped (.str s)
  /-- An array of such documents. -/
  | arr {items : List Json} : (∀ v ∈ items, Mapped v) → Mapped (.arr items)
  /-- An object of such documents, its keys in order. -/
  | obj {members : List (String × Json)} : KeysIncrease members → (∀ m ∈ members, Mapped m.2) →
      Mapped (.obj members)

section Entering

variable {key : String} {value : Json} {members : List (String × Json)}

/-- A member with a greater key than all others comes last. -/
theorem putMember_of_lt (h : ∀ m ∈ members, m.1 < key) :
    putMember key value members = members ++ [(key, value)] := by
  induction members with
  | nil => rfl
  | cons m members ih =>
    obtain ⟨hm, hmembers⟩ := List.forall_mem_cons.mp h
    rw [putMember, if_neg (String.lt_asymm hm), if_neg (String.ne_of_lt hm).symm, ih hmembers]
    rfl

/-- A member is the one that was entered, or one of the others. -/
theorem mem_putMember {m : String × Json} (h : m ∈ putMember key value members) :
    m = (key, value) ∨ m ∈ members := by
  induction members with
  | nil => exact .inl (List.mem_singleton.mp h)
  | cons n members ih =>
    unfold putMember at h
    split at h
    · exact List.mem_cons.mp h
    · split at h
      · exact (List.mem_cons.mp h).imp_right (List.mem_cons_of_mem n)
      · rcases List.mem_cons.mp h with rfl | h
        · exact .inr List.mem_cons_self
        · exact (ih h).imp_right (List.mem_cons_of_mem n)

/-- Keys still increase when a member has been entered. -/
theorem keysIncrease_putMember (h : KeysIncrease members) :
    KeysIncrease (putMember key value members) := by
  induction members with
  | nil => exact List.pairwise_singleton _ _
  | cons m members ih =>
    obtain ⟨hm, hmembers⟩ := List.pairwise_cons.mp h
    unfold putMember
    split
    · rename_i hlt
      refine List.pairwise_cons.mpr ⟨?_, h⟩
      exact List.forall_mem_cons.mpr ⟨hlt, fun n hn => String.lt_trans hlt (hm n hn)⟩
    · split
      · rename_i heq
        exact List.pairwise_cons.mpr ⟨fun n hn => heq ▸ hm n hn, hmembers⟩
      · rename_i hlt hne
        refine List.pairwise_cons.mpr ⟨fun n hn => ?_, ih hmembers⟩
        rcases mem_putMember hn with rfl | hn
        · exact Std.lt_of_le_of_ne (String.not_lt.mp hlt) (Ne.symm hne)
        · exact hm n hn

end Entering

mutual

/-- A document whose objects are maps is left as it is. -/
theorem canonical_of_mapped : ∀ {v : Json}, Mapped v → v.canonical = v
  | .null, _ => rfl
  | .bool _, _ => rfl
  | .num _, _ => rfl
  | .str _, _ => rfl
  | .arr _, .arr hitems => congrArg Json.arr (canonicalItems_of_mapped hitems)
  | .obj _, .obj hkeys hmembers => congrArg Json.obj (canonicalMembers_of_mapped hkeys hmembers)

/-- Items whose objects are maps are left as they are. -/
theorem canonicalItems_of_mapped : ∀ {items : List Json}, (∀ v ∈ items, Mapped v) →
    canonicalItems items = items
  | [], _ => rfl
  | v :: items, h => by
    rw [canonicalItems, canonical_of_mapped (h v List.mem_cons_self),
      canonicalItems_of_mapped fun w hw => h w (List.mem_cons_of_mem v hw)]

/-- Members with increasing keys are entered one behind the other. -/
theorem canonicalMembers_of_mapped : ∀ {members sorted : List (String × Json)},
    KeysIncrease (sorted ++ members) → (∀ m ∈ members, Mapped m.2) →
    canonicalMembers members sorted = sorted ++ members
  | [], sorted, _, _ => (List.append_nil sorted).symm
  | (k, v) :: members, sorted, hkeys, h => by
    have hlast : ∀ m ∈ sorted, m.1 < k := fun m hm =>
      (List.pairwise_append.mp hkeys).2.2 m hm (k, v) List.mem_cons_self
    rw [List.append_cons] at hkeys ⊢
    rw [canonicalMembers, canonical_of_mapped (h (k, v) List.mem_cons_self), putMember_of_lt hlast,
      canonicalMembers_of_mapped hkeys fun m hm => h m (List.mem_cons_of_mem (k, v) hm)]

end

mutual

/-- In the reading of a document its objects are maps. -/
theorem mapped_canonical : ∀ v : Json, Mapped v.canonical
  | .null => .null
  | .bool _ => .bool
  | .num _ => .num
  | .str _ => .str
  | .arr items => .arr (mapped_canonicalItems items)
  | .obj members =>
    have hmembers := mapped_canonicalMembers members List.Pairwise.nil (List.forall_mem_nil _)
    .obj hmembers.1 hmembers.2

/-- In the reading of items their objects are maps. -/
theorem mapped_canonicalItems : ∀ items : List Json, ∀ v ∈ canonicalItems items, Mapped v
  | [] => List.forall_mem_nil _
  | v :: items => List.forall_mem_cons.mpr ⟨mapped_canonical v, mapped_canonicalItems items⟩

/-- Members are entered in order, and in what is entered the objects are maps. -/
theorem mapped_canonicalMembers : ∀ (members : List (String × Json))
    {sorted : List (String × Json)}, KeysIncrease sorted → (∀ m ∈ sorted, Mapped m.2) →
    KeysIncrease (canonicalMembers members sorted) ∧
      ∀ m ∈ canonicalMembers members sorted, Mapped m.2
  | [], _, hkeys, h => ⟨hkeys, h⟩
  | (k, v) :: members, sorted, hkeys, h => by
    refine mapped_canonicalMembers members (keysIncrease_putMember hkeys) fun m hm => ?_
    rcases mem_putMember hm with rfl | hm
    · exact mapped_canonical v
    · exact h m hm

end

end SessionScript.Json
