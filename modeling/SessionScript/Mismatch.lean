import SessionScript.Decimal.Layout
import SessionScript.Text.Quoted

/-!
# What was found in place of what

When a value of the wrong kind stands where a setting or a field is read, the message names the
kind of value that was found and the kind that was wanted.
-/

namespace SessionScript

/-- A value that was found where it does not belong, as far as a message shows it. -/
inductive Found where
  /-- A truth value. -/
  | boolean (b : Bool)
  /-- A whole number. -/
  | integer (n : Int)
  /-- A floating-point number. -/
  | float (x : Binary64)
  /-- A text. -/
  | string (s : String)
  /-- No value. -/
  | null
  /-- A list of values. -/
  | sequence
  /-- Values under keys. -/
  | map

/-- The words for what was found; `layout` is how the format writes floating-point numbers. -/
def Found.describe (layout : Decimal.Layout) : Found → String
  | .boolean true => "boolean `true`"
  | .boolean false => "boolean `false`"
  | .integer n => "integer `" ++ toString n ++ "`"
  | .float x => "floating point `" ++ layout.write x ++ "`"
  | .string s => "string " ++ Text.quoted s
  | .null => "null"
  | .sequence => "sequence"
  | .map => "map"

end SessionScript
