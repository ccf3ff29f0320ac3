import SessionScript.Event.Basic
import SessionScript.Keyboard
import SessionScript.Script.Dialect
import SessionScript.Script.FrameTable

/-!
# Statements for single events

Each function gives the block of one event. What a statement needs to know besides its event is
passed to it: whether the event opens a tab, the position of a tab, the number of a picture.
-/

namespace SessionScript.Script

/-- The object that the statements of an event act on. -/
def receiver (e : Event) : String := if e.frame = 0 then "page" else frameVariable e.frame

/-- The selector of an event, escaped. -/
def selectorText (e : Event) : String := escape e.target

/-- Run `trigger` while waiting for the page that it opens, then go on with that page. -/
def popup (trigger : String) : String :=
  "\x7b\n  const [newPage] = await Promise.all([\n    page.waitForEvent('popup'),\n    " ++ trigger
    ++ ",\n  ])\n  page = newPage\n\x7d"

/-- Await a call, with the page that it opens if it does. -/
def awaited (opensTab : Bool) (call : String) : String :=
  if opensTab then popup call else "await " ++ call

/-- The key of a keystroke: its name, or the name of its code, or the key given by the options. -/
def pressedKey (o : Options) (e : Event) : String :=
  (e.key.or (e.keyCode.bind Keyboard.codeName?)).getD o.key

/-- Press a key. -/
def keydownBlock (o : Options) (opensTab : Bool) (e : Event) : Block :=
  .single e.frame (.action .keydown)
    (awaited opensTab (receiver e ++ ".keyboard.press('" ++ escape (pressedKey o e) ++ "')"))

/-- Assign a text to a field. -/
def fillBlock (e : Event) : Block :=
  .single e.frame (.action .fill)
    ("await " ++ receiver e ++ ".fill('" ++ selectorText e ++ "', '" ++ escape e.typedValue ++ "')")

/-- Rest the pointer on an element. -/
def hoverBlock (e : Event) : Block :=
  .single e.frame (.action .hover)
    ("await " ++ receiver e ++ ".hover('" ++ selectorText e ++ "')")

/-- Move the pointer; the selector is only a remark. -/
def mouseMoveBlock (e : Event) (x y : Json.Number) : Block :=
  .single e.frame (.action .mouseMove)
    ("await " ++ receiver e ++ ".mouse.move(" ++ x.text ++ ", " ++ y.text
      ++ ", \x7b steps: 100 \x7d) // " ++ e.target)

/-- Click an element, after waiting for it if the options say so. -/
def clickBlock (d : Dialect) (o : Options) (opensTab : Bool) (e : Event) : Block :=
  let lines :=
    (if o.waitForSelectorOnClick then
      ["await " ++ receiver e ++ ".waitForSelector('" ++ selectorText e ++ "')"] else [])
    ++ [awaited opensTab (receiver e ++ ".click('" ++ selectorText e ++ "')")]
    ++ (d.afterClick o).toList
  lines.foldl (fun b line => b.push (.action .click) line) { frame := e.frame }

/-- Choose from a drop-down list. -/
def changeBlock (d : Dialect) (e : Event) : Block :=
  .single e.frame (.action .change)
    (d.selectOption (receiver e) (selectorText e) (escape e.typedValue))

/-- Open an address. -/
def gotoBlock (e : Event) (href : String) : Block :=
  .single e.frame (.action .goto) ("await " ++ receiver e ++ ".goto('" ++ escape href ++ "')")

/-- Set the size of the viewport. -/
def viewportBlock (d : Dialect) (e : Event) (width height : UInt32) : Block :=
  .single e.frame (.action .viewport) (d.viewport (receiver e) width height)

/-- Await the promise of the navigation, if the options say so. -/
def navigationBlock (o : Options) (e : Event) : Block :=
  if o.waitForNavigation then .single e.frame (.action .navigation) "await navigationPromise"
  else { frame := e.frame }

/-- Opening a tab is an effect of the event before it, so the block is empty. -/
def tabCreateBlock (e : Event) : Block := { frame := e.frame }

/-- Bring the tab at a position to the front; without a position there is nothing to do. -/
def tabChangeBlock (e : Event) (position : Option Nat) : Block :=
  match position with
  | none => { frame := e.frame }
  | some n =>
    (Block.single e.frame (.action .tabChange)
      ("page = context.pages()[" ++ toString n ++ "]")).push
      (.action .tabChange) "await page.bringToFront()"

/-- The file of a picture. -/
def pictureFile (n : Nat) : String := "'screenshot_" ++ toString n ++ ".png'"

/-- Take the picture with a number: of an element if the event names one, else of the whole page. -/
def screenshotBlock (n : Nat) (e : Event) : Block :=
  match (e.value.bind Payload.text?).filter (!·.isEmpty) with
  | some target =>
    let element := "element" ++ toString n
    (Block.single e.frame (.action .screenshot)
      ("const " ++ element ++ " = await page.$('" ++ escape target ++ "')")).push
      (.action .screenshot)
      ("await " ++ element ++ ".screenshot(\x7b path: " ++ pictureFile n ++ " \x7d)")
  | none =>
    .single e.frame (.action .screenshot)
      ("await " ++ receiver e ++ ".screenshot(\x7b path: " ++ pictureFile n
        ++ ", fullPage: true \x7d)")

end SessionScript.Script
