import SessionScript.CommandLine.Arguments
import SessionScript.CommandLine.Log
import SessionScript.Compilation
import SessionScript.Options.Settings
import SessionScript.Store.Basic
import SessionScript.Validation

/-!
# Running commands

A command works on files, logs what it does, and ends with a text or with an error. What it needs
of its surroundings besides files is given to it, so that a run depends on nothing else.
-/

namespace SessionScript.CommandLine

open Files (Access OsError)

/-- The surroundings of a run. -/
structure Environment where
  /-- The home directory of the user. -/
  home : Option String
  /-- The filter of the log. -/
  logFilter : Option String
  /-- The time of the run. -/
  now : Instant

/-- What a run leaves behind. -/
structure Outcome where
  /-- The exit code: zero after success, one after a failure, two after a misuse. -/
  code : UInt32
  /-- What was printed. -/
  out : String := ""
  /-- What was logged and complained about. -/
  err : String := ""
  deriving DecidableEq

/-- Why a command failed. -/
inductive CommandError where
  /-- The home directory is not known. -/
  | noHome
  /-- There is neither a file nor a stored recording that can be read. -/
  | noRecording (file : String) (e : StoreError)
  /-- The store failed. -/
  | store (e : StoreError)
  /-- Options or events were not accepted. -/
  | fault (f : Fault)
  /-- Events were not accepted, and the output says so. -/
  | answered (out : String)

/-- What went wrong and why, from the outermost message to the innermost cause. -/
def CommandError.chain : CommandError → List String
  | .noHome => ["HOME not set", "environment variable not found"]
  | .noRecording file e => ("no file or stored recording named " ++ file) :: e.chain
  | .store e => e.chain
  | .fault f => [f.display]
  | .answered _ => []

/-- A text with a margin in front of each line but the first. -/
def hanging (margin : String) (text : String) : String :=
  String.join (text.toList.map fun c => if c = '\n' then "\n" ++ margin else c.toString)

/-- The lines about causes that have a number each. -/
def numberedCauses (causes : List String) : String :=
  String.join (causes.zipIdx.map fun (cause, number) =>
    let digits := toString number
    String.ofList (List.replicate (5 - digits.length) ' ') ++ digits ++ ": "
      ++ hanging "       " cause ++ "\n")

/-- The report of a failure and its causes. A single cause has no number. -/
def failureText : List String → String
  | [] => ""
  | [headline] => "Error: " ++ headline ++ "\n"
  | [headline, cause] =>
    "Error: " ++ headline ++ "\n\nCaused by:\n    " ++ hanging "    " cause ++ "\n"
  | headline :: causes => "Error: " ++ headline ++ "\n\nCaused by:\n" ++ numberedCauses causes

/-- The work of a command: it may fail, and what it logged before remains. -/
abbrev Work (m : Type → Type) := ExceptT CommandError (StateT (List LogEntry) m)

variable {m : Type → Type} [Monad m]

/-- Put an entry into the log. -/
def log (e : LogEntry) : Work m Unit := modify (· ++ [e])

/-- The log entry about shrinking a session. -/
def optimizedEntry (events : List Event) : LogEntry :=
  let squashed := Optimizer.squash events
  let waits := Optimizer.dropNavigations squashed
  let count (es : List Event) := toString es.length
  { severity := .debug
    topic := "recast_codegen::optimizer"
    message := "optimized recording"
    fields := [("input", count events), ("squashed", count squashed), ("waits", count waits),
      ("output", count (Optimizer.dropModifiers waits))] }

/-- The log entry about an event that was passed over. -/
def ignoredEntry (entry : Nat × String) : LogEntry where
  severity := .trace
  topic := "recast_codegen::generator"
  message := "ignoring unknown action"
  fields := [("index", toString entry.1), ("action", entry.2)]

/-- The log entries about writing a script. -/
def generatedEntries (d : Script.Dialect) (o : Options) (events : List Event) : List LogEntry :=
  let summary := Script.summary d o events
  (unknownActions events).map ignoredEntry ++
    [{ severity := .debug
       topic := "recast_codegen::generator"
       message := "generated blocks"
       fields := [("backend", Text.quoted d.name), ("events", toString summary.events),
         ("blocks", toString summary.blocks), ("frames", toString summary.frames),
         ("tabs", toString summary.tabs)] }]

/-- The log entry about reading a settings file. -/
def loadingEntry (path : String) : LogEntry where
  severity := .debug
  topic := "recast"
  message := "loading options"
  fields := [("path", path)]

/-- Shrink a session, and log it. -/
def optimizeLogged (events : List Event) : Work m (List Event) := do
  log (optimizedEntry events)
  return Optimizer.optimize events

/-- Compile a session, and log it. -/
def compileLogged (o : Options) (events : List Event) : Work m Compilation := do
  let c := Compilation.compile o events
  log (optimizedEntry events)
  (generatedEntries Script.puppeteer o c.events).forM log
  (generatedEntries Script.playwright o c.events).forM log
  return c

/-- Do something with the store. -/
def storeWork {α : Type} (act : m (Except StoreError α)) : Work m α := do
  match ← (act : m (Except StoreError α)) with
  | .ok a => return a
  | .error e => throw (.store e)

variable [Access m]

/-- The directory of the store and of the settings, below the home directory. -/
def ownDir (home : String) : String := Files.join home ".recast"

/-- Open the store of the user. -/
def openStore (env : Environment) : Work m Store :=
  match env.home with
  | none => throw .noHome
  | some home => storeWork (Store.openDir (ownDir home))

/-- Read the recording of a file or, when there is no such file, of the store. -/
def openRecording (env : Environment) (file : String) : Work m Recording := do
  if ← (Access.exists? file : m Bool) then storeWork (Store.readRecording file)
  else
    let store ← openStore env
    match ← (store.load file : m (Except StoreError Recording)) with
    | .ok r => return r
    | .error e => throw (.noRecording file e)

/-- Read options from a settings file. -/
def readSettings (path : String) : Work m Options := do
  match ← (Files.readText path : m (Except OsError String)) with
  | .error e => throw (.fault ((Fault.io e.message).withContext (.obj [("path", .str path)])))
  | .ok text =>
    match Options.ofSettings text with
    | .ok o => return o
    | .error e => throw (.fault (e.toFault text))

/-- The options of the settings file that was named, or of the user's own if there is one. -/
def loadOptions (env : Environment) : Option String → Work m Options
  | some path => readSettings path
  | none =>
    match env.home with
    | none => return {}
    | some home => do
      let path := Files.join (ownDir home) "config.toml"
      if ← (Access.exists? path : m Bool) then
        log (loadingEntry path)
        readSettings path
      else return {}

/-- Options as the flags change them. -/
def GenerateFlags.apply (flags : GenerateFlags) (o : Options) : Options :=
  { o with
    wrapAsync := o.wrapAsync || flags.wrapAsync
    headless := o.headless && !flags.headed
    waitForNavigation := o.waitForNavigation && !flags.noWaitForNavigation
    waitForSelectorOnClick := o.waitForSelectorOnClick && !flags.noWaitForSelector
    blankLinesBetweenBlocks := o.blankLinesBetweenBlocks && !flags.noBlankLines
    waitForNetworkIdleAfterClick := o.waitForNetworkIdleAfterClick || flags.networkIdle }

/-- A document as a text with an end of line. -/
def documentText (v : Json) : String := v.pretty ++ "\n"

/-- The document of a success. -/
def successJson (data : Json) : Json := .obj [("success", .bool true), ("data", data)]

/-- The document of a failure. -/
def failureJson (f : Fault) : Json := .obj [("success", .bool false), ("error", f.toJson)]

/-- The scripts that were asked for; both have a heading each and an empty line between them. -/
def scriptsText (c : Compilation) (playwrightFirst : Bool) : Target → String
  | .puppeteer => c.puppeteer
  | .playwright => c.playwright
  | .both =>
    String.intercalate "\n" ((c.ordered playwrightFirst).map fun (name, script) =>
      "// ---- " ++ name ++ " ----\n" ++ script)

/-- Print the scripts of a recording. -/
def generate (env : Environment) (file : String) (flags : GenerateFlags) : Work m String := do
  let o := flags.apply (← loadOptions env flags.config)
  let r ← openRecording env file
  if flags.strict then
    match validate r.events with
    | .ok () => pure ()
    | .error f =>
      throw (if flags.json then .answered (documentText (failureJson f)) else .fault f)
  let c ← compileLogged o r.events
  if flags.json then return documentText (successJson c.toJson)
  else return scriptsText c o.showPlaywrightFirst flags.target

/-- Enter a tag into counts that are sorted by tag. -/
def countTag (tag : String) : List (String × Nat) → List (String × Nat)
  | [] => [(tag, 1)]
  | (other, n) :: rest =>
    if tag = other then (other, n + 1) :: rest
    else if tag < other then (tag, 1) :: (other, n) :: rest
    else (other, n) :: countTag tag rest

/-- How often each action occurs, sorted by tag. -/
def tagCounts (events : List Event) : List (String × Nat) :=
  events.foldl (fun counts e => countTag e.action.tag counts) []

/-- What a recording holds: its name and time, the number of events before and after shrinking, how
often each action occurs, and if asked for all events. -/
def description (r : Recording) (optimized : Nat) (all : Bool) : String :=
  "Name: " ++ r.name ++ "\n"
    ++ (match r.recordedAt with
      | some t => "Recorded: " ++ t.offsetText ++ "\n"
      | none => "")
    ++ "Events: " ++ toString r.events.length
    ++ " (" ++ toString optimized ++ " after optimizing)\n"
    ++ "\nSummary:\n"
    ++ String.join ((tagCounts r.events).map fun (tag, n) =>
      "  " ++ tag ++ ": " ++ toString n ++ "\n")
    ++ (if all then
        "\nEvents:\n" ++ String.join (r.events.zipIdx.map fun (e, index) =>
          toString index ++ ": " ++ e.text ++ "\n")
      else "")

/-- Copy a recording into the store, if wanted under another name. -/
def importRecording (env : Environment) (file : String) (name : Option String) :
    Work m String := do
  let r ← storeWork (Store.readRecording file)
  let r := { r with name := name.getD r.name }
  let store ← openStore env
  let path ← storeWork (store.save env.now r)
  return "Saved " ++ toString r.events.length ++ " events: " ++ path ++ "\n"

/-- The names of stored recordings, one a line. -/
def namesText (names : List String) : String :=
  if names.isEmpty then "No recordings saved.\n" else String.join (names.map (· ++ "\n"))

/-- Do what a command says, and give what it prints. -/
def perform (env : Environment) : Command → Work m String
  | .generate file flags => generate env file flags
  | .optimize file => do
    let r ← openRecording env file
    let events ← optimizeLogged r.events
    return documentText (.arr (events.map Event.toJson))
  | .importFile file name => importRecording env file name
  | .list => do
    let store ← openStore env
    return namesText (← storeWork store.list)
  | .describe file all => do
    let r ← openRecording env file
    let optimized ← optimizeLogged r.events
    return description r optimized.length all
  | .delete file => do
    let store ← openStore env
    storeWork (store.delete file)
    return "Deleted: " ++ file ++ "\n"

/-- The name and version of the program. -/
def versionText : String := "recast 0.1.0\n"

/-- How the program is called. -/
def usageText : String :=
  "Compile recorded browser sessions into Puppeteer and Playwright scripts\n\n"
    ++ "Usage: recast [OPTIONS] <COMMAND>\n\n"
    ++ "Commands:\n"
    ++ "  generate  Generate scripts from a recording\n"
    ++ "  optimize  Print the optimized event list\n"
    ++ "  import    Copy a recording into storage\n"
    ++ "  list      List stored recordings\n"
    ++ "  show      Show recording info\n"
    ++ "  delete    Delete a stored recording\n"
    ++ "  help      Print this message\n\n"
    ++ "Options:\n"
    ++ "  -v, --verbose  Log optimizer and generator details to stderr\n"
    ++ "  -h, --help     Print help\n"
    ++ "  -V, --version  Print version\n"

/-- Run a command with its log. -/
def runCommand (env : Environment) (verbose : Bool) (command : Command) : m Outcome := do
  let (filter, complaints) :=
    LogFilter.ofText (env.logFilter.getD "") (if verbose then .debug else .warn)
  let (result, entries) ← (perform env command).run.run []
  let logged := complaints ++ filter.text env.now entries
  match result with
  | .ok out => return { code := 0, out, err := logged }
  | .error (.answered out) => return { code := 1, out, err := logged }
  | .error e => return { code := 1, err := logged ++ failureText e.chain }

/-- Run the program with the words of a command line. -/
def run (env : Environment) (words : List String) : m Outcome :=
  match parseArguments words with
  | .ok (verbose, command) => runCommand env verbose command
  | .error .version => return { code := 0, out := versionText }
  | .error .help => return { code := 0, out := usageText }
  | .error .misuse => return { code := 2, err := usageText }

end SessionScript.CommandLine
