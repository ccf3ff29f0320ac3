import SessionScript.Script.Block
import SessionScript.Script.Literal

/-!
# Frames of a page

While the events are walked, every frame is entered into a table with the last address recorded for
it. Afterwards each frame is looked up in front of the first block that uses it.
-/

namespace SessionScript.Script

/-- The frames that have been seen and their addresses, each frame once. -/
abbrev FrameTable := List (UInt64 × String)

namespace FrameTable

/-- Enter a frame; an address that comes with it replaces the one known so far. -/
def note (id : UInt64) (url : Option String) : FrameTable → FrameTable
  | [] => [(id, url.getD "")]
  | (i, u) :: rest => if i = id then (i, url.getD u) :: rest else (i, u) :: note id url rest

/-- The address of a frame. -/
def url? (table : FrameTable) (id : UInt64) : Option String := table.lookup id

/-- Remove a frame. -/
def erase (table : FrameTable) (id : UInt64) : FrameTable := table.filter (·.1 ≠ id)

/-- The first frame among lines that is in the table. -/
def firstIn? (table : FrameTable) (lines : List Line) : Option (UInt64 × String) :=
  lines.findSome? fun line =>
    if line.frame = 0 then none else (table.url? line.frame).map fun url => (line.frame, url)

end FrameTable

/-- The variable that holds a frame. -/
def frameVariable (id : UInt64) : String := "frame_" ++ toString id.toNat

/-- The line that lists the frames of the page; `bound` tells whether the list has been declared. -/
def listFrames (bound : Bool) : String :=
  if bound then "frames = await page.frames()" else "let frames = await page.frames()"

/-- The line that finds a frame by its address. -/
def findFrame (id : UInt64) (url : String) : String :=
  "const " ++ frameVariable id ++ " = frames.find(f => f.url() === '" ++ escape url ++ "')"

/-- Put the lookup of each frame of the table in front of the first block that uses the frame. -/
def declareFrames (table : FrameTable) (bound : Bool) : List Block → List Block
  | [] => []
  | b :: rest =>
    match table.firstIn? b.lines with
    | none => b :: declareFrames table bound rest
    | some (id, url) =>
      (b.prepend .frameSet (findFrame id url)).prepend .frameSet (listFrames bound)
        :: declareFrames (table.erase id) true rest

end SessionScript.Script
