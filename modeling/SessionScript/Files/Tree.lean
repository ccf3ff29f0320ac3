import SessionScript.Files.Access
import SessionScript.Text.Bytes

/-!
# A file system in memory

A tree of files and directories, on which everything that works on files can be run and reasoned
about without touching a disk. Paths are followed name by name from the root or from the working
directory, and fail at the first name that cannot be followed.
-/

namespace SessionScript.Files

open Text (Bytes)

/-- The names on the way from the root to a file or directory. -/
abbrev Location := List (List Char)

/-- What stands at a location. -/
inductive Entry where
  /-- A file with its bytes. -/
  | file (content : Bytes)
  /-- A directory. -/
  | directory
  deriving DecidableEq

/-- Files and directories, and the directory where relative paths start. -/
structure Tree where
  /-- What stands where; the root is always a directory and is not listed. -/
  entries : List (Location × Entry) := []
  /-- Where relative paths start. -/
  workDir : Location := []

namespace Tree

/-- What stands at a location. -/
def entry? (t : Tree) (location : Location) : Option Entry :=
  if location = [] then some .directory else t.entries.lookup location

/-- Put an entry at a location, in place of what stands there. -/
def put (t : Tree) (location : Location) (entry : Entry) : Tree :=
  { t with entries := t.entries.filter (·.1 ≠ location) ++ [(location, entry)] }

/-- Remove what stands at a location. -/
def erase (t : Tree) (location : Location) : Tree :=
  { t with entries := t.entries.filter (·.1 ≠ location) }

/-- The greatest number of bytes of a name. -/
def maxNameBytes : Nat := 255

/-- The least number of bytes that is too long for a path. -/
def pathLimit : Nat := 4096

/-- Follow one part of a path. -/
def follow (t : Tree) (here : Location) (part : List Char) : Except OsError Location :=
  match t.entry? here with
  | some .directory =>
    if staysHere part then .ok here
    else if part = ['.', '.'] then .ok here.dropLast
    else if maxNameBytes < Text.byteCount part then .error .nameTooLong
    else if (t.entry? (here ++ [part])).isSome then .ok (here ++ [part])
    else .error .notFound
  | _ => .error .notDirectory

/-- Where a path starts, and its parts; some texts are no paths. -/
def start (t : Tree) (path : String) : Except OsError (Location × List (List Char)) :=
  let cs := path.toList
  if cs.contains '\x00' then .error .zeroByte
  else if cs = [] then .error .notFound
  else if pathLimit ≤ Text.byteCount cs then .error .nameTooLong
  else .ok (if isAbsolute path then [] else t.workDir, pathParts cs)

/-- The location that a path leads to. -/
def resolve (t : Tree) (path : String) : Except OsError Location := do
  let (here, parts) ← t.start path
  parts.foldlM t.follow here

/-- Follow all parts but the last, and give the directory and the name that they end in; there may
be nothing of that name. -/
def enter (t : Tree) (here : Location) (parts : List (List Char)) :
    Except OsError (Location × List Char) := do
  let parent ← parts.dropLast.foldlM t.follow here
  let name := parts.getLastD []
  match t.entry? parent with
  | some .directory =>
    if maxNameBytes < Text.byteCount name then .error .nameTooLong else return (parent, name)
  | _ => .error .notDirectory

/-- The directory and the name that a path ends in. -/
def resolveParent (t : Tree) (path : String) : Except OsError (Location × List Char) := do
  let (here, parts) ← t.start path
  t.enter here parts

/-- Is this the name of a file or directory, and not a way of writing one? -/
def isName (part : List Char) : Bool := !staysHere part && part ≠ ['.', '.']

/-- Make a directory in a directory that is there. Slashes at the end of the path do not matter. -/
def makeDir (t : Tree) (path : String) : Except OsError Tree := do
  let (here, parts) ← t.start path
  let parts := (parts.reverse.dropWhile (· = [])).reverse
  let (parent, name) ← t.enter here parts
  if !isName name || (t.entry? (parent ++ [name])).isSome then .error .alreadyExists
  else return t.put (parent ++ [name]) .directory

/-- Make an empty file where there is nothing yet. -/
def createNew (t : Tree) (path : String) : Except OsError Tree := do
  let (parent, name) ← t.resolveParent path
  if !isName name || (t.entry? (parent ++ [name])).isSome then .error .alreadyExists
  else return t.put (parent ++ [name]) (.file [])

/-- Write a file. -/
def write (t : Tree) (path : String) (content : Bytes) : Except OsError Tree := do
  let (parent, name) ← t.resolveParent path
  if !isName name || t.entry? (parent ++ [name]) = some .directory then .error .isDirectory
  else return t.put (parent ++ [name]) (.file content)

/-- Open a file or a directory for reading. -/
def openRead (t : Tree) (path : String) : Except OsError Opened := do
  match t.entry? (← t.resolve path) with
  | some (.file content) => return .file content
  | some .directory => return .directory
  | none => .error .notFound

/-- The names in a directory. -/
def names (t : Tree) (path : String) : Except OsError (List String) := do
  let here ← t.resolve path
  match t.entry? here with
  | some .directory =>
    return t.entries.filterMap fun (location, _) =>
      if location.dropLast = here then location.getLast?.map String.ofList else none
  | _ => .error .notDirectory

/-- Remove a file. -/
def remove (t : Tree) (path : String) : Except OsError Tree := do
  let here ← t.resolve path
  match t.entry? here with
  | some (.file _) => return t.erase here
  | some .directory => .error .isDirectory
  | none => .error .notFound

end Tree

/-- Run a change on the tree, which stays as it is when the change fails. -/
def changeTree (f : Tree → Except OsError Tree) : StateM Tree (Except OsError Unit) := fun t =>
  match f t with
  | .ok t' => (.ok (), t')
  | .error e => (.error e, t)

/-- Look at the tree without changing it. -/
def viewTree {α : Type} (f : Tree → α) : StateM Tree α := fun t => (f t, t)

instance : Access (StateM Tree) where
  makeDir path := changeTree (·.makeDir path)
  createNew path := changeTree (·.createNew path)
  write path content := changeTree (·.write path content)
  openRead path := viewTree (·.openRead path)
  names path := viewTree (·.names path)
  remove path := changeTree (·.remove path)
  exists? path := viewTree fun t => match t.resolve path with
    | .ok _ => true
    | .error _ => false
  isDir path := viewTree fun t => match t.resolve path with
    | .ok location => t.entry? location = some .directory
    | .error _ => false

end SessionScript.Files
