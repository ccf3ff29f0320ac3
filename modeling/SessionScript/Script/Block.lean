import SessionScript.Event.Action

/-!
# Blocks of a script

A script is first built as blocks, one for each event that gives code. The lines of a block remember
what produced them and the frame of their block; a line may hold several physical lines.
-/

namespace SessionScript.Script

/-- What produced a line. -/
inductive LineKind where
  /-- An event with this action. -/
  | action (a : Action)
  /-- The declaration of the promise of the next navigation. -/
  | navigationPromise
  /-- The lookup of a frame. -/
  | frameSet
  deriving DecidableEq

/-- A piece of code. -/
structure Line where
  /-- What produced the line; blank lines have no kind. -/
  kind : Option LineKind
  /-- The code. -/
  value : String
  /-- The frame of the block that the line belongs to. -/
  frame : UInt64
  deriving DecidableEq

/-- A line without a kind is blank. -/
def Line.isBlank (line : Line) : Bool := line.kind.isNone

/-- Lines that belong together. -/
structure Block where
  /-- The frame that its lines act in. -/
  frame : UInt64
  /-- The lines in order. -/
  lines : List Line := []
  deriving DecidableEq

namespace Block

/-- Add a line at the end of a block. -/
def push (b : Block) (kind : LineKind) (value : String) : Block :=
  { b with lines := b.lines ++ [⟨some kind, value, b.frame⟩] }

/-- Add a line in front of a block. -/
def prepend (b : Block) (kind : LineKind) (value : String) : Block :=
  { b with lines := ⟨some kind, value, b.frame⟩ :: b.lines }

/-- A block of a single line. -/
def single (frame : UInt64) (kind : LineKind) (value : String) : Block :=
  Block.push { frame } kind value

/-- A block that is shown as one empty line. -/
def spacer : Block := { frame := 0, lines := [⟨none, "", 0⟩] }

/-- Is the block shown as one empty line? -/
def isSpacer (b : Block) : Bool :=
  match b.lines with
  | [line] => line.isBlank
  | _ => false

end Block

end SessionScript.Script
