import SessionScript.CommandLine.Run
import Std.Time.DateTime.Timestamp

/-!
# The program

The command line runs on the files of the system, in the environment of the process. Nothing is
decided here: the words, two variables and the time go in, and two texts and an exit code come out.
-/

namespace SessionScript.CommandLine

open Files (Access OsError Opened)

/-- The number of a failure; some are reported with the sign turned. -/
def failureNumber (code : UInt32) : Nat := min code.toNat (UInt32.size - code.toNat)

/-- The failure that the system reports. -/
def osErrorOf (e : IO.Error) : OsError :=
  match e with
  | .noFileOrDirectory _ _ _ => .notFound
  | .alreadyExists _ _ _ => .alreadyExists
  | .inappropriateType _ code _ => if failureNumber code = 21 then .isDirectory else .notDirectory
  | .invalidArgument _ code _ =>
    if failureNumber code = 36 then .nameTooLong else .other (toString e)
  | other => .other (toString other)

/-- Do something that may fail. -/
def attempt {α : Type} (act : IO α) : IO (Except OsError α) := do
  try
    return .ok (← act)
  catch e =>
    return .error (osErrorOf e)

/-- Open a file and read it; opening a directory succeeds, and reading it does not. -/
def openAndRead (path : String) : IO (Except OsError Opened) := do
  match ← attempt (IO.FS.Handle.mk path .read) with
  | .error e => return .error e
  | .ok handle =>
    match ← attempt handle.readBinToEnd with
    | .ok content => return .ok (.file content.toList)
    | .error .isDirectory => return .ok .directory
    | .error e => return .error e

instance : Access IO where
  makeDir path := attempt (IO.FS.createDir path)
  createNew path := attempt (do discard (IO.FS.Handle.mk path .writeNew))
  write path content := attempt (IO.FS.writeBinFile path ⟨content.toArray⟩)
  openRead path := openAndRead path
  names path := attempt (do
    let entries ← (← IO.FS.realPath path).readDir
    return (entries.map (·.fileName)).toList)
  remove path := attempt (IO.FS.removeFile path)
  exists? path := do
    match ← attempt (IO.FS.realPath path) with
    | .ok _ => return true
    | .error _ => return false
  isDir path := do
    match ← attempt (do (← IO.FS.realPath path).isDir) with
    | .ok there => return there
    | .error _ => return false

/-- The time of the clock. -/
def currentInstant : IO Instant := do
  let elapsed := (← Std.Time.Timestamp.now).val
  return .ofElapsed elapsed.second.val elapsed.nano.val.toNat

/-- Run the program on the words of a command line, and give its exit code. -/
def runProgram (words : List String) : IO UInt32 := do
  let env : Environment :=
    { home := ← IO.getEnv "HOME", logFilter := ← IO.getEnv "RUST_LOG", now := ← currentInstant }
  let outcome ← run env words
  IO.print outcome.out
  IO.eprint outcome.err
  return outcome.code

end SessionScript.CommandLine

/-- The program. -/
def main (words : List String) : IO UInt32 := SessionScript.CommandLine.runProgram words
