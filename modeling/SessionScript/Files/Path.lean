/-!
# Paths

A path is a text of names divided by slashes. These functions only look at the text, never at a
file.
-/

namespace SessionScript.Files

/-- The parts of a path between its slashes. -/
def pathParts : List Char → List (List Char)
  | [] => [[]]
  | c :: cs =>
    match pathParts cs with
    | [] => [[c]]
    | part :: rest => if c = '/' then [] :: part :: rest else (c :: part) :: rest

/-- Does a path start at the root? -/
def isAbsolute (path : String) : Bool := path.toList.head? = some '/'

/-- A path below a directory. An absolute path stays as it is. -/
def join (dir path : String) : String :=
  if isAbsolute path then path
  else if dir.isEmpty || dir.toList.getLast? = some '/' then dir ++ path
  else dir ++ "/" ++ path

/-- Does a part of a path lead nowhere else? -/
def staysHere (part : List Char) : Bool := part = [] || part = ['.']

/-- The last name of a path, if it ends in a name. -/
def fileName? (path : String) : Option (List Char) :=
  ((pathParts path.toList).filter (!staysHere ·)).getLast?.filter (· ≠ ['.', '.'])

/-- The text of a path, given its first part and the others from the last one on. The parts at its
end that lead nowhere else are left out. -/
def pathText (first : List Char) (reversed : List (List Char)) : String :=
  String.ofList (List.intercalate ['/'] (first :: (reversed.dropWhile staysHere).reverse))

/-- The paths above a path, given its first part and the others from the last one on. -/
def pathsAbove (first : List Char) : List (List Char) → List String
  | [] => []
  | part :: above =>
    let rest := pathsAbove first above
    if staysHere part then rest else pathText first above :: rest

/-- The paths above a path, from the nearest one on, up to the root or to where the path starts; the
empty path is not among them. -/
def ancestors (path : String) : List String :=
  match pathParts path.toList with
  | [] => []
  | first :: rest => (pathsAbove first rest.reverse).filter (!·.isEmpty)

/-- A name up to its last dot and what follows that dot. A dot at the start of the name does not
count. -/
def splitName (name : List Char) : List Char × Option (List Char) :=
  let after := (name.reverse.takeWhile (· ≠ '.')).reverse
  let before := name.take (name.length - after.length - 1)
  if after.length = name.length || before.isEmpty then (name, none) else (before, some after)

/-- The last name of a path without its extension. -/
def stem? (path : String) : Option String :=
  (fileName? path).map fun name => String.ofList (splitName name).1

/-- The extension of the last name of a path. -/
def extension? (path : String) : Option String :=
  (fileName? path).bind fun name => (splitName name).2.map String.ofList

end SessionScript.Files
