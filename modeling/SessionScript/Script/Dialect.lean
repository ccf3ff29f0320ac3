import SessionScript.Options

/-!
# The two browser libraries

Scripts for the two libraries differ in how the library is loaded and started, in the calls that
set the viewport and choose from a drop-down list, and in what may follow a click. Everything else
is shared.
-/

namespace SessionScript.Script

/-- How a browser library spells the code that differs between libraries. -/
structure Dialect where
  /-- The name of the library. -/
  name : String
  /-- The line that loads the library. -/
  load : String
  /-- The object that starts a browser. -/
  launcher : String
  /-- The expression of the browser's context. -/
  context : String
  /-- The method that sets the size of the viewport. -/
  viewportMethod : String
  /-- The method that chooses from a drop-down list. -/
  selectMethod : String
  /-- The line behind each click, if the options ask for one. -/
  afterClick : Options → Option String

/-- The library Puppeteer. -/
def puppeteer : Dialect where
  name := "puppeteer"
  load := "const puppeteer = require('puppeteer');"
  launcher := "puppeteer"
  context := "browser.defaultBrowserContext()"
  viewportMethod := "setViewport"
  selectMethod := "select"
  afterClick _ := none

/-- The library Playwright. -/
def playwright : Dialect where
  name := "playwright"
  load := "const \x7b chromium \x7d = require('playwright');"
  launcher := "chromium"
  context := "await browser.newContext()"
  viewportMethod := "setViewportSize"
  selectMethod := "selectOption"
  afterClick options :=
    if options.waitForNetworkIdleAfterClick then
      some "await page.waitForLoadState('networkidle')"
    else none

namespace Dialect

/-- The arguments of the call that starts the browser. -/
def launchArguments (headless : Bool) : String :=
  if headless then "" else "\x7b headless: false \x7d"

/-- The lines that start the browser and open a page. -/
def opening (d : Dialect) (headless : Bool) : List String :=
  [ "const browser = await " ++ d.launcher ++ ".launch(" ++ launchArguments headless ++ ")",
    "const context = " ++ d.context,
    "let page = await context.newPage()" ]

/-- The lines that end the session. -/
def closing (_ : Dialect) : List String := ["await browser.close()"]

/-- Set the size of the viewport. -/
def viewport (d : Dialect) (receiver : String) (width height : UInt32) : String :=
  "await " ++ receiver ++ "." ++ d.viewportMethod ++ "(\x7b width: " ++ toString width.toNat
    ++ ", height: " ++ toString height.toNat ++ " \x7d)"

/-- Choose from a drop-down list; selector and value are escaped. -/
def selectOption (d : Dialect) (receiver selector value : String) : String :=
  "await " ++ receiver ++ "." ++ d.selectMethod ++ "('" ++ selector ++ "', '" ++ value ++ "')"

end Dialect

end SessionScript.Script
