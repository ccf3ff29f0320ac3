import SessionScript.Files.Path
import SessionScript.Text.Utf8

/-!
# Access to files

What the library needs of a file system, and the ways in which it can fail. The operations are
abstract, so that everything built on them runs on real files as well as on a tree in memory.
-/

namespace SessionScript.Files

open Text (Bytes)

/-- Why an operation on files failed. -/
inductive OsError where
  /-- There is no such file or directory. -/
  | notFound
  /-- There is a file or directory already. -/
  | alreadyExists
  /-- A file stands where a directory is needed. -/
  | notDirectory
  /-- A directory stands where a file is needed. -/
  | isDirectory
  /-- A name or a path is too long. -/
  | nameTooLong
  /-- A path holds the character that ends paths. -/
  | zeroByte
  /-- A file that should be a text is none. -/
  | notText
  /-- Any other failure, in the words of the system. -/
  | other (message : String)
  deriving DecidableEq

/-- The words for a failure. -/
def OsError.message : OsError → String
  | .notFound => "No such file or directory (os error 2)"
  | .alreadyExists => "File exists (os error 17)"
  | .notDirectory => "Not a directory (os error 20)"
  | .isDirectory => "Is a directory (os error 21)"
  | .nameTooLong => "File name too long (os error 36)"
  | .zeroByte => "file name contained an unexpected NUL byte"
  | .notText => "stream did not contain valid UTF-8"
  | .other message => message

/-- What can be opened. -/
inductive Opened where
  /-- A file with its bytes. -/
  | file (content : Bytes)
  /-- A directory, which can be opened but not read as a file. -/
  | directory

/-- The bytes of what was opened. -/
def Opened.bytes : Opened → Except OsError Bytes
  | .file content => .ok content
  | .directory => .error .isDirectory

/-- Operations on files, in a monad. -/
class Access (m : Type → Type) where
  /-- Make a directory in a directory that is there. -/
  makeDir : String → m (Except OsError Unit)
  /-- Make an empty file where there is nothing yet. -/
  createNew : String → m (Except OsError Unit)
  /-- Write a file. -/
  write : String → Bytes → m (Except OsError Unit)
  /-- Open a file or a directory for reading. -/
  openRead : String → m (Except OsError Opened)
  /-- The names in a directory, in any order. -/
  names : String → m (Except OsError (List String))
  /-- Remove a file. -/
  remove : String → m (Except OsError Unit)
  /-- Does a path lead to anything? -/
  exists? : String → m Bool
  /-- Does a path lead to a directory? -/
  isDir : String → m Bool

section

variable {m : Type → Type} [Monad m] [Access m]

/-- The text of a file. -/
def readText (path : String) : m (Except OsError String) := do
  match ← Access.openRead path with
  | .error e => return .error e
  | .ok opened =>
    match opened.bytes with
    | .error e => return .error e
    | .ok bytes =>
      match Text.decode? bytes with
      | some s => return .ok s
      | none => return .error .notText

/-- Make a directory unless it is there. -/
def ensureDir (path : String) : m (Except OsError Unit) := do
  match ← Access.makeDir path with
  | .error .alreadyExists =>
    if ← Access.isDir path then return .ok () else return .error .alreadyExists
  | made => return made

/-- Make the first of some directories, where each one is in the next. Those further on are tried
only when something on the way is missing, and those that could be made stay when a later one
fails. -/
def ensureDirs : List String → m (Except OsError Unit)
  | [] => return .ok ()
  | path :: above => do
    match ← ensureDir path with
    | .error .notFound =>
      match ← ensureDirs above with
      | .ok () => ensureDir path
      | .error e => return .error e
    | made => return made

/-- Make a directory and the directories above it. -/
def makeDirs (path : String) : m (Except OsError Unit) :=
  if path.isEmpty then return .ok () else ensureDirs (path :: ancestors path)

end

end SessionScript.Files
