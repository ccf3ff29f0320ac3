import SessionScript.Script.Walk

/-!
# The text of a script

A script loads its library, starts the browser, runs the blocks and closes the browser. When it is
wrapped into an asynchronous function, every physical line in between that is not empty is indented
by two spaces.
-/

namespace SessionScript.Script

/-- The physical lines of a text. -/
def splitLines : List Char → List (List Char)
  | [] => [[]]
  | c :: cs =>
    match splitLines cs with
    | [] => [[c]]
    | line :: rest => if c = '\n' then [] :: line :: rest else (c :: line) :: rest

/-- The physical lines of a piece of code. -/
def physicalLines (s : String) : List String := (splitLines s.toList).map String.ofList

/-- A line at its indentation; an empty line stays empty. -/
def indented (wrap : Bool) (line : String) : String :=
  if wrap && !line.isEmpty then "  " ++ line else line

/-- The lines of a script before its first block. -/
def headLines (d : Dialect) (o : Options) : List String :=
  let opening := (d.opening o.headless).map (indented o.wrapAsync)
  d.load :: (if o.wrapAsync then "(async () => \x7b" :: opening else opening)

/-- The lines of a script behind its last block. -/
def footLines (d : Dialect) (o : Options) : List String :=
  let closing := d.closing.map (indented o.wrapAsync)
  if o.wrapAsync then closing ++ ["\x7d)()"] else closing

/-- The physical lines of blocks. -/
def bodyLines (o : Options) (blocks : List Block) : List String :=
  blocks.flatMap fun b => b.lines.flatMap fun line =>
    (physicalLines line.value).map (indented o.wrapAsync)

/-- A spacer in front of all blocks ends the line before it, and gives no empty line. -/
def dropLeadingSpacer : List Block → List Block
  | [] => []
  | b :: rest => if b.isSpacer then rest else b :: rest

/-- All physical lines of the script of a session. -/
def scriptLines (d : Dialect) (o : Options) (events : List Event) : List String :=
  headLines d o ++ bodyLines o (dropLeadingSpacer (blocks d o events)) ++ footLines d o

/-- The script of a session, each line ended by a line feed. -/
def script (d : Dialect) (o : Options) (events : List Event) : String :=
  String.join ((scriptLines d o events).map (· ++ "\n"))

end SessionScript.Script
