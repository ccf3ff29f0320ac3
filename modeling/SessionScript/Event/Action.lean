/-!
# Actions of a recorded session

An action has a fixed tag in recordings. Tags that name no action are kept as they are, so that a
recording can be written back unchanged; two actions have a second, lower-case tag that is read but
never written.
-/

namespace SessionScript

/-- What the user, or the browser, did. -/
inductive Action where
  /-- A click on an element. -/
  | click
  /-- A double click on an element. -/
  | dblClick
  /-- The value of an element changed. -/
  | change
  /-- A key went down. -/
  | keydown
  /-- Text was selected. -/
  | select
  /-- A form was sent. -/
  | submit
  /-- A page was loaded. -/
  | load
  /-- A page was left. -/
  | unload
  /-- A run of keystrokes, taken together as one assignment. -/
  | fill
  /-- An address was opened. -/
  | goto
  /-- The viewport got a size. -/
  | viewport
  /-- The page moved to another address. -/
  | navigation
  /-- A tab was opened. -/
  | tabCreate
  /-- Another tab came to the front. -/
  | tabChange
  /-- A picture was taken. -/
  | screenshot
  /-- The pointer rested on an element. -/
  | hover
  /-- The pointer moved to a point. -/
  | mouseMove
  /-- An action that is not known, by its tag. -/
  | other (tag : String)
  deriving DecidableEq

namespace Action

/-- The tag that is written for an action. -/
def tag : Action → String
  | .click => "click"
  | .dblClick => "dblclick"
  | .change => "change"
  | .keydown => "keydown"
  | .select => "select"
  | .submit => "submit"
  | .load => "load"
  | .unload => "unload"
  | .fill => "fill"
  | .goto => "GOTO"
  | .viewport => "VIEWPORT"
  | .navigation => "NAVIGATION"
  | .tabCreate => "TAB_CREATE"
  | .tabChange => "TAB_CHANGE"
  | .screenshot => "SCREENSHOT"
  | .hover => "HOVER"
  | .mouseMove => "MOUSEMOVE"
  | .other tag => tag

/-- The action that a tag names. -/
def ofTag (tag : String) : Action :=
  if tag = "click" then .click
  else if tag = "dblclick" then .dblClick
  else if tag = "change" then .change
  else if tag = "keydown" then .keydown
  else if tag = "select" then .select
  else if tag = "submit" then .submit
  else if tag = "load" then .load
  else if tag = "unload" then .unload
  else if tag = "fill" then .fill
  else if tag = "GOTO" then .goto
  else if tag = "VIEWPORT" then .viewport
  else if tag = "NAVIGATION" then .navigation
  else if tag = "TAB_CREATE" then .tabCreate
  else if tag = "TAB_CHANGE" then .tabChange
  else if tag = "SCREENSHOT" then .screenshot
  else if tag = "HOVER" || tag = "hover" then .hover
  else if tag = "MOUSEMOVE" || tag = "mousemove" then .mouseMove
  else .other tag

/-- Is this an action that has a name of its own? -/
def isKnown : Action → Bool
  | .other _ => false
  | _ => true

end Action

end SessionScript
