import SessionScript.Optimizer
import SessionScript.Script.Page

/-!
# Compiling a session

The events of a session are shrunk once, and the scripts for both libraries are written from the
result.
-/

namespace SessionScript

/-- Both scripts of a session, and the events they were written from. -/
structure Compilation where
  /-- The script for Puppeteer. -/
  puppeteer : String
  /-- The script for Playwright. -/
  playwright : String
  /-- The events after shrinking. -/
  events : List Event

namespace Compilation

/-- Compile the events of a session. -/
def compile (o : Options) (events : List Event) : Compilation :=
  let optimized := Optimizer.optimize events
  { puppeteer := Script.script Script.puppeteer o optimized
    playwright := Script.script Script.playwright o optimized
    events := optimized }

/-- The document of a compilation. -/
def toJson (c : Compilation) : Json :=
  .obj
    [ ("puppeteer", .str c.puppeteer),
      ("playwright", .str c.playwright),
      ("optimizedRecording", .arr (c.events.map Event.toJson)) ]

/-- The two scripts with the names of their libraries, in the order of presentation. -/
def ordered (c : Compilation) (playwrightFirst : Bool) : List (String × String) :=
  let puppeteer := (Script.puppeteer.name, c.puppeteer)
  let playwright := (Script.playwright.name, c.playwright)
  if playwrightFirst then [playwright, puppeteer] else [puppeteer, playwright]

end Compilation

end SessionScript
