import SessionScript.Fault
import SessionScript.Proofs.Json.Arrays
import SessionScript.Proofs.Json.Canonical
import SessionScript.Proofs.Json.Members
import SessionScript.Proofs.Json.Printing

/-!
# Faults and their documents

A fault is decoded from its own text. The members that are left out come back as what they were:
no suggestions, no context. Only a context that is `null` is written in full and yet read as an
absent one, since an optional value takes `null` for its absence. Decoding reads the objects of a
context as maps; they are maps already in every context that a fault is given.
-/

namespace SessionScript

open Json (Decoder Shape Fills Legible fills_nil fills_present)

/-- A code is decoded from its tag. -/
theorem FaultCode.ofJson_tag (code : FaultCode) :
    FaultCode.decoder.ofJson (.str code.tag) = .ok code := by
  cases code <;> rfl

namespace Fault

/-- The objects of a context that is given to a fault are maps. -/
theorem mapped_withContext (f : Fault) (v : Json) : ∀ c ∈ (f.withContext v).context, c.Mapped := by
  intro c hc
  cases hc
  exact Json.mapped_canonical v

section Documents

/-- A context is decoded as what it is, and `null` as an absent one. -/
theorem context_ofJson {c : Json} (h : c.Mapped) : ∃ context,
    Decoder.any.option.ofJson c = .ok context ∧ (context = some c ↔ c ≠ .null) ∧
      (c = .null → context = none) := by
  have hany : Decoder.any.ofJson c = .ok c := congrArg Except.ok (Json.canonical_of_mapped h)
  by_cases hnull : c = .null
  · subst hnull
    exact ⟨none, rfl, by simp, fun _ => rfl⟩
  · exact ⟨some c, Decoder.option_ofJson hnull hany, by simp [hnull], fun h => absurd h hnull⟩

/-- The suggestions of a fault fill their field, also when they are left out. -/
theorem fills_suggestions (code : FaultCode) (message : String) (suggestions : List String) :
    Fills shape
      (if suggestions.isEmpty then [] else [("suggestions", .arr (suggestions.map .str))])
      { code, message } { code, message, suggestions } ["suggestions"] [] := by
  cases suggestions with
  | nil => exact fills_nil
  | cons s rest =>
    have hlist : Decoder.string.list.ofJson (.arr ((s :: rest).map .str)) = .ok (s :: rest) :=
      Decoder.list_ofJson fun _ _ => rfl
    have hpresent : Fills shape [("suggestions", .arr ((s :: rest).map .str))] { code, message }
        { code, message, suggestions := s :: rest } ["suggestions"] ["suggestions"] :=
      fills_present rfl hlist rfl
    exact hpresent.optional

/-- The context of a fault fills its field, unless it is `null`. -/
theorem fills_context (f : Fault) (h : ∀ c ∈ f.context, c.Mapped) : ∃ context,
    Fills shape (Json.member "context" id f.context) { f with context := none } { f with context }
      ["context"] [] ∧ (context = f.context ↔ f.context ≠ some .null) ∧
      (f.context = some .null → context = none) := by
  cases hcontext : f.context with
  | none => exact ⟨none, fills_nil, by simp, nofun⟩
  | some c =>
    obtain ⟨context, hread, hsame, hnull⟩ := context_ofJson (h c hcontext)
    have hpresent : Fills shape [("context", c)] { f with context := none } { f with context }
        ["context"] ["context"] := fills_present rfl hread rfl
    refine ⟨context, hpresent.optional, ?_, ?_⟩
    · simpa using hsame
    · simpa using hnull

/-- A fault is decoded from its own document, with its context unless that is `null`. -/
theorem ofJson_toJson (f : Fault) (h : ∀ c ∈ f.context, c.Mapped) : ∃ context,
    shape.ofJson f.toJson = .ok { f with context } ∧
      (context = f.context ↔ f.context ≠ some .null) ∧
      (f.context = some .null → context = none) := by
  obtain ⟨context, hcontext, hsame, hnull⟩ := fills_context f h
  have hcode : Fills shape [("code", .str f.code.tag)] shape.blank { code := f.code, message := "" }
      ["code"] ["code"] := fills_present rfl f.code.ofJson_tag rfl
  have hmessage : Fills shape [("message", .str f.message)] { code := f.code, message := "" }
      { code := f.code, message := f.message } ["message"] ["message"] := fills_present rfl rfl rfl
  have hoptional := (fills_suggestions f.code f.message f.suggestions).append hcontext (by decide)
  have hneeded := hcode.append hmessage (by decide)
  exact ⟨context, (hneeded.append hoptional (by decide)).ofJson (by decide), hsame, hnull⟩

end Documents

section Texts

/-- Fields of a fault are decoded lawfully. -/
theorem lawfulFields : shape.LawfulFields := by
  have hcode : FaultCode.decoder.Lawful := Decoder.lawful_word _
  have hstring : Decoder.string.Lawful := Decoder.lawful_text _
  simp only [Shape.LawfulFields, shape, List.forall_mem_cons]
  exact ⟨hcode.map _, hstring.map _, hstring.list.map _, Decoder.lawful_any.option.map _,
    List.forall_mem_nil _⟩

/-- The document of a fault can be read back from its text if the context can, inside one bracket
more. -/
theorem legible_toJson (f : Fault) {depth : Nat} (h : ∀ c ∈ f.context, Legible (depth - 1) c)
    (hdepth : 2 < depth) : Legible depth f.toJson := by
  refine .obj (by omega) ?_
  simp only [List.forall_mem_cons, List.forall_mem_append, Json.forall_mem_member]
  refine ⟨.str, .str, ?_, h⟩
  split
  · exact List.forall_mem_nil _
  · refine List.forall_mem_singleton.mpr (.arr (by omega) fun v hv => ?_)
    obtain ⟨s, -, rfl⟩ := List.mem_map.mp hv
    exact .str

/-- A fault comes back from its own text, with the same code, message and suggestions. Its context
comes back as well, unless it is `null`: this one is absent afterwards. Of the context it is asked
that its objects are maps, that its floating-point numbers come back from their own texts, and that
its brackets can all be open inside the one of the fault. -/
theorem comes_back (f : Fault)
    (h : ∀ c ∈ f.context, c.Mapped ∧ Legible (Json.depthLimit - 1) c) : ∃ context,
    Fault.parse f.text = .ok { f with context } ∧
      (context = f.context ↔ f.context ≠ some .null) ∧
      (f.context = some .null → context = none) := by
  obtain ⟨context, hdocument, hsame, hnull⟩ := ofJson_toJson f fun c hc => (h c hc).1
  have hlegible := legible_toJson f (fun c hc => (h c hc).2) (by decide)
  have hread := Json.Layout.tight.reads_ofList hlegible 0
  exact ⟨context, (Shape.lawful lawfulFields).decodeText hread rfl hdocument, hsame, hnull⟩

/-- Two events with actions that are not known, and what to do about them. The context is given with
its keys in no order, and has a fraction and `null` in it. -/
def unknownPair : Fault :=
  withContext (withSuggestions (unknownActions 2) ["drop the events"]) <|
    .obj [("share", .num (.float ⟨4602678819172646912⟩)), ("next", .null),
      ("indices", .arr [Json.ofUInt64 1, Json.ofUInt64 4])]

/-- That fault comes back from its text as it is, and with `null` for its context it comes back
without any. -/
theorem unknownPair_comes_back : Fault.parse unknownPair.text = .ok unknownPair ∧
    Fault.parse (unknownPair.withContext .null).text =
      .ok { unknownPair with context := none } := by
  have hkeys : unknownPair.context =
      some (.obj [("indices", .arr [Json.ofUInt64 1, Json.ofUInt64 4]), ("next", .null),
        ("share", .num (.float ⟨4602678819172646912⟩))]) := rfl
  have hfloat : Json.Number.IsLegible (.float ⟨4602678819172646912⟩) := rfl
  have hlegible : ∀ c ∈ unknownPair.context, Legible (Json.depthLimit - 1) c := by
    intro c hc
    rw [hkeys, Option.mem_some_iff] at hc
    subst hc
    refine .obj (by decide) ?_
    simp only [List.forall_mem_cons]
    refine ⟨.arr (by decide) ?_, .null, .num hfloat, List.forall_mem_nil _⟩
    simp only [List.forall_mem_cons]
    exact ⟨.num trivial, .num trivial, List.forall_mem_nil _⟩
  constructor
  · obtain ⟨context, hparse, hsame, -⟩ :=
      comes_back unknownPair fun c hc => ⟨mapped_withContext _ _ c hc, hlegible c hc⟩
    rw [hsame.mpr (by simp [hkeys])] at hparse
    exact hparse
  · obtain ⟨context, hparse, -, hnull⟩ := comes_back (unknownPair.withContext .null) fun c hc =>
      ⟨mapped_withContext _ _ c hc, by cases hc; exact .null⟩
    rw [hnull rfl] at hparse
    exact hparse

end Texts

end Fault

end SessionScript
