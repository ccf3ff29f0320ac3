import SessionScript.Files.Access
import SessionScript.Store.Lines
import SessionScript.Text.WordCharacter

/-!
# The store of recordings

Recordings are kept as files in one directory. The name of a file is made from the name of the
recording and the time, and a number is added when that name is taken, so that saving never
overwrites a file.
-/

namespace SessionScript

open Files (Access OsError)

/-- Why an operation on the store failed. -/
inductive StoreError where
  /-- The directory of the store cannot be made. -/
  | makingDir (path : String) (e : OsError)
  /-- A file cannot be made. -/
  | creating (path : String) (e : OsError)
  /-- All names for a file are taken. -/
  | noFreeName (stem : String)
  /-- A file cannot be opened. -/
  | opening (path : String) (e : OsError)
  /-- A file cannot be removed. -/
  | deleting (path : String) (e : OsError)
  /-- A file cannot be read as a text. -/
  | reading (path : String) (e : OsError)
  /-- The text of a file is not a recording. -/
  | parsing (path : String) (text : String) (refusal : Json.Refusal)
  /-- The lines of a file are not a stored recording. -/
  | lines (e : Store.LineError)
  /-- Any other failure of the file system. -/
  | os (e : OsError)

/-- What went wrong and why, from the outermost message to the innermost cause. -/
def StoreError.chain : StoreError → List String
  | .makingDir path e => ["creating storage dir " ++ path, e.message]
  | .creating path e => ["creating " ++ path, e.message]
  | .noFreeName stem => ["no free file name for " ++ stem]
  | .opening path e => ["opening " ++ path, e.message]
  | .deleting path e => ["deleting " ++ path, e.message]
  | .reading path e => ["reading " ++ path, e.message]
  | .parsing path text refusal => ["parsing " ++ path, refusal.message text.toList]
  | .lines .empty => ["Empty file"]
  | .lines .notText => [OsError.message .notText]
  | .lines (.header text refusal) => ["invalid header line", refusal.message text.toList]
  | .lines (.event line text refusal) =>
    ["invalid event on line " ++ toString line, refusal.message text.toList]
  | .os e => [e.message]

/-- A store of recordings. -/
structure Store where
  /-- The directory of the files. -/
  dir : String

namespace Store

variable {m : Type → Type} [Monad m] [Access m]

/-- Open the store in a directory, which is made if it is missing. -/
def openDir (dir : String) : m (Except StoreError Store) := do
  match ← Files.makeDirs dir with
  | .ok () => return .ok ⟨dir⟩
  | .error e => return .error (.makingDir dir e)

/-- A character of a file name: letters, digits, dashes and underscores stay. -/
def safeChar (c : Char) : Char :=
  if Text.isWordCharacter c || c = '-' || c = '_' then c else '_'

/-- The name of a recording as part of a file name. -/
def safeName (name : String) : String :=
  if name.isEmpty then "recording" else String.ofList (name.toList.map safeChar)

/-- The name of a file before its number and its extension. -/
def stem (now : Instant) (name : String) : String := safeName name ++ "_" ++ now.stamp

/-- The names to try for a file, from one on. -/
def candidate (stem : String) (n : Nat) : String :=
  if n = 1 then stem ++ ".jsonl" else stem ++ "_" ++ toString n ++ ".jsonl"

/-- How many names are tried. -/
def maxCandidates : Nat := 0xffffffff

/-- Make a file with the first free name, beginning with the `n`-th, and give its path. -/
def createFree (store : Store) (stem : String) : (fuel n : Nat) → m (Except StoreError String)
  | 0, _ => return .error (.noFreeName stem)
  | fuel + 1, n => do
    let path := Files.join store.dir (candidate stem n)
    match ← Access.createNew path with
    | .ok () => return .ok path
    | .error .alreadyExists => createFree store stem fuel (n + 1)
    | .error e => return .error (.creating path e)

/-- Save a recording under a free name, and give the path of its file. -/
def save (store : Store) (now : Instant) (r : Recording) : m (Except StoreError String) := do
  match ← store.createFree (stem now r.name) maxCandidates 1 with
  | .error e => return .error e
  | .ok path =>
    match ← Access.write path (Text.encode (recordingText now r)) with
    | .ok () => return .ok path
    | .error e => return .error (.os e)

/-- Read a stored recording from a file. -/
def readLines (path : String) : m (Except StoreError Recording) := do
  match ← Access.openRead path with
  | .error e => return .error (.opening path e)
  | .ok opened =>
    match opened.bytes with
    | .error e => return .error (.os e)
    | .ok bytes =>
      match readRecordingBytes bytes with
      | .ok r => return .ok r
      | .error e => return .error (.lines e)

/-- Load a recording by the name of its file. -/
def load (store : Store) (file : String) : m (Except StoreError Recording) :=
  readLines (Files.join store.dir file)

/-- Is this the name of a stored recording? -/
def isStoredName (name : String) : Bool := ".jsonl".toList.isSuffixOf name.toList

/-- Enter a name into sorted names. -/
def insertName (name : String) : List String → List String
  | [] => [name]
  | other :: rest => if name < other then name :: other :: rest else other :: insertName name rest

/-- The names of the stored recordings, sorted by code points. -/
def list (store : Store) : m (Except StoreError (List String)) := do
  match ← Access.names store.dir with
  | .ok names => return .ok ((names.filter isStoredName).foldr insertName [])
  | .error e => return .error (.os e)

/-- Remove a stored recording. -/
def delete (store : Store) (file : String) : m (Except StoreError Unit) := do
  let path := Files.join store.dir file
  match ← Access.remove path with
  | .ok () => return .ok ()
  | .error e => return .error (.deleting path e)

/-- Read a recording from any file: a stored one by the extension of its name, else a document,
whose fallback name is the name of the file. -/
def readRecording (path : String) : m (Except StoreError Recording) := do
  if Files.extension? path = some "jsonl" then readLines path
  else
    match ← Files.readText path with
    | .error e => return .error (.reading path e)
    | .ok text =>
      match Recording.parse ((Files.stem? path).getD "recording") text with
      | .ok r => return .ok r
      | .error refusal => return .error (.parsing path text refusal)

end Store

end SessionScript
