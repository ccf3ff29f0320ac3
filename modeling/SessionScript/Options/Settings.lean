import SessionScript.Fault
import SessionScript.Options
import SessionScript.Toml.Snippet

/-!
# Options from a settings file

A settings file gives options under the same names as a document. Other entries are passed over.
The first entry, in the order of the file, that has a value of the wrong kind is reported with its
place.
-/

namespace SessionScript.Options

/-- Messages about settings write every number positionally. -/
def settingsLayout : Decimal.Layout where
  isPositional _ := true
  positiveMark := "e"
  negativeMark := "e-"
  infinity := "inf"
  notANumber := "NaN"

/-- Why options could not be read from a settings file. -/
inductive SettingsError where
  /-- The text does not follow the format, or defines something twice. -/
  | malformed
  /-- An entry has a value of the wrong kind. -/
  | wrongKind (span : Toml.Span) (found : Found) (expected : String)

/-- Enter the entries of a settings file one after the other. -/
def enterSettings : List (Toml.Key × Toml.Item) → Options → Except SettingsError Options
  | [], o => .ok o
  | (key, item) :: rest, o =>
    match shape.field? key.name with
    | none => enterSettings rest o
    | some f =>
      match f.put.ofJson item.toJson with
      | .ok put => enterSettings rest (put o)
      | .error (.wrongKind found expected) =>
        .error (.wrongKind (Toml.spanOf key item) found expected)
      | .error _ => .error .malformed

/-- Read options from the text of a settings file. -/
def ofSettings (text : String) : Except SettingsError Options :=
  match Toml.parseChars text.toList with
  | none => .error .malformed
  | some t => enterSettings t.entries {}

/-- The fault of a settings file that could not be read. -/
def SettingsError.toFault (text : String) : SettingsError → Fault
  | .malformed => .invalidOptions "malformed settings"
  | .wrongKind span found expected =>
    .invalidOptions (Toml.complaint text.toList span
      ("invalid type: " ++ found.describe settingsLayout ++ ", expected " ++ expected))

end SessionScript.Options
