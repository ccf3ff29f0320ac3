import SessionScript.Proofs.Script.Names

/-!
# What was recorded for a statement

A statement takes its object, its text and its key from the event that it stands for. What these
should be is said here from the recorded fields alone, apart from the templates, so that the
templates can be compared with it.
-/

namespace SessionScript.Script

/-- The object of the frame that an event was recorded in. -/
def frameObject (e : Event) : String :=
  match e.frameId with
  | none => "page"
  | some id => if id = 0 then "page" else "frame_" ++ toString id.toNat

/-- The text of a recorded value. Sizes and points have none, as if no value had been recorded. -/
def recordedText : Option Payload → String
  | some (.text s) => s
  | some (.number n) => n.text
  | _ => ""

/-- The key that an event presses: the recorded name, or else the name that belongs to the recorded
code, or else the one that the options give. -/
def recordedKey (o : Options) (e : Event) : String :=
  match e.key, e.keyCode.bind fun code => Keyboard.codeNames.lookup code with
  | some key, _ => key
  | none, some name => name
  | none, none => o.key

/-- The statements of an event act on the object of its frame. -/
theorem receiver_eq_frameObject (e : Event) : receiver e = frameObject e := by
  unfold receiver frameObject Event.frame
  cases e.frameId with
  | none => rfl
  | some id => rfl

/-- Only the page itself is called so. -/
theorem frameObject_eq_page (e : Event) : frameObject e = "page" ↔ e.frame = 0 := by
  rw [← receiver_eq_frameObject, receiver]
  split
  · rename_i h
    exact iff_of_true rfl h
  · rename_i h
    exact iff_of_false (numbered_ne (by decide) _) h

/-- What is typed is the text of the value. -/
theorem typedValue_eq_recordedText (e : Event) : e.typedValue = recordedText e.value := by
  unfold Event.typedValue
  cases e.value with
  | none => rfl
  | some value => cases value <;> rfl

/-- The key that is pressed is the recorded one. -/
theorem pressedKey_eq_recordedKey (o : Options) (e : Event) : pressedKey o e = recordedKey o e := by
  unfold pressedKey recordedKey
  cases e.key with
  | some key => rfl
  | none =>
    change (e.keyCode.bind fun code => Keyboard.codeNames.lookup code).getD o.key = _
    cases e.keyCode.bind fun code => Keyboard.codeNames.lookup code <;> rfl

end SessionScript.Script
