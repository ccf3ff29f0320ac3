/-!
# Arguments

The words of a command line are sorted into options and operands, one word after the other, and
then taken together as a command. An option has a long form, which may carry its value after an
equals sign, and some have a letter, so that letters can be written together in one word. Options
may stand anywhere; after a lone double dash every word is an operand.
-/

namespace SessionScript.CommandLine

/-- The options of all commands. -/
inductive Switch where
  /-- Log more. -/
  | verbose
  /-- Ask for help. -/
  | help
  /-- Ask for the version. -/
  | version
  /-- Which scripts to print. -/
  | target
  /-- The settings file. -/
  | config
  /-- Wrap the script in a function. -/
  | wrapAsync
  /-- Start the browser with a window. -/
  | headed
  /-- Do not wait for navigations. -/
  | noWaitForNavigation
  /-- Do not wait for elements. -/
  | noWaitForSelector
  /-- Leave out empty lines. -/
  | noBlankLines
  /-- Wait for an idle network. -/
  | networkIdle
  /-- Refuse unknown actions. -/
  | strict
  /-- Print a document. -/
  | json
  /-- The name to store a recording under. -/
  | name
  /-- Print all events. -/
  | all
  deriving DecidableEq

namespace Switch

/-- The long form of an option, without its dashes. -/
def long : Switch → String
  | verbose => "verbose"
  | help => "help"
  | version => "version"
  | target => "target"
  | config => "config"
  | wrapAsync => "wrap-async"
  | headed => "headed"
  | noWaitForNavigation => "no-wait-for-navigation"
  | noWaitForSelector => "no-wait-for-selector"
  | noBlankLines => "no-blank-lines"
  | networkIdle => "network-idle"
  | strict => "strict"
  | json => "json"
  | name => "name"
  | all => "all"

/-- The letter of an option. -/
def letter? : Switch → Option Char
  | verbose => some 'v'
  | help => some 'h'
  | version => some 'V'
  | target => some 't'
  | name => some 'n'
  | _ => none

/-- Does an option take a value? -/
def takesValue : Switch → Bool
  | target | config | name => true
  | _ => false

end Switch

/-- Which scripts are printed. -/
inductive Target where
  /-- The script for Puppeteer. -/
  | puppeteer
  /-- The script for Playwright. -/
  | playwright
  /-- Both scripts. -/
  | both
  deriving DecidableEq

/-- The target that a word names. -/
def Target.ofWord? : String → Option Target
  | "puppeteer" => some .puppeteer
  | "playwright" => some .playwright
  | "both" => some .both
  | _ => none

/-- Can this be the value of an option? A path is never empty. -/
def Switch.accepts : Switch → String → Bool
  | .target, value => (Target.ofWord? value).isSome
  | .config, value => !value.isEmpty
  | _, _ => true

/-- Why the arguments give no command. -/
inductive Early where
  /-- They are not understood. -/
  | misuse
  /-- They ask for help. -/
  | help
  /-- They ask for the version. -/
  | version
  deriving DecidableEq

/-- The words of one level so far, sorted out. -/
structure Sorted where
  /-- The options with their values, in order. -/
  switches : List (Switch × String) := []
  /-- The operands, in order. -/
  operands : List String := []
  /-- The option whose value is the next word. -/
  awaiting : Option Switch := none
  /-- Has there been a lone double dash? -/
  operandsOnly : Bool := false

/-- What a level understands. -/
structure Level where
  /-- The options. -/
  switches : List Switch
  /-- The greatest number of operands. -/
  maxOperands : Nat

namespace Sorted

/-- Is an option given? -/
def has (s : Sorted) (switch : Switch) : Bool := s.switches.any (·.1 = switch)

/-- The value of an option. -/
def value? (s : Sorted) (switch : Switch) : Option String := s.switches.lookup switch

/-- Note an option. Each is given once, and has a value that it accepts; a question for help or for
the version is answered at once. -/
def note (s : Sorted) (switch : Switch) (value : String) : Except Early Sorted :=
  match switch with
  | .help => .error .help
  | .version => .error .version
  | _ =>
    if s.has switch || !switch.accepts value then .error .misuse
    else .ok { s with switches := s.switches ++ [(switch, value)], awaiting := none }

/-- Note an option that takes a value, which is attached or else is the next word. -/
def noteValued (s : Sorted) (switch : Switch) : Option (List Char) → Except Early Sorted
  | some value => s.note switch (String.ofList value)
  | none => .ok { s with awaiting := some switch }

/-- Note an operand. -/
def noteOperand (s : Sorted) (level : Level) (word : String) : Except Early Sorted :=
  if s.operands.length < level.maxOperands then .ok { s with operands := s.operands ++ [word] }
  else .error .misuse

/-- What follows a letter in its word as the value of its option. -/
def attached : List Char → Option (List Char)
  | [] => none
  | '=' :: value => some value
  | value => some value

/-- Read options from the letters of one word. -/
def readLetters (s : Sorted) (level : Level) : List Char → Except Early Sorted
  | [] => .ok s
  | c :: rest =>
    match level.switches.find? (·.letter? = some c) with
    | none => .error .misuse
    | some switch =>
      if switch.takesValue then s.noteValued switch (attached rest)
      else do
        let s ← s.note switch ""
        readLetters s level rest

/-- Read an option in its long form, without the dashes. -/
def readLong (s : Sorted) (level : Level) (word : List Char) : Except Early Sorted :=
  let name := word.takeWhile (· ≠ '=')
  match level.switches.find? (·.long.toList = name), word.dropWhile (· ≠ '=') with
  | none, _ => .error .misuse
  | some switch, [] => if switch.takesValue then s.noteValued switch none else s.note switch ""
  | some switch, _ :: value =>
    if switch.takesValue then s.noteValued switch (some value) else .error .misuse

/-- Read a word. The value of an option does not start with a dash, unless it is a lone dash. -/
def readWord (level : Level) (s : Sorted) (word : String) : Except Early Sorted :=
  if s.operandsOnly then s.noteOperand level word
  else
    match s.awaiting, word.toList with
    | some _, '-' :: _ :: _ => .error .misuse
    | some switch, _ => s.note switch word
    | none, ['-', '-'] => .ok { s with operandsOnly := true }
    | none, '-' :: '-' :: long => s.readLong level long
    | none, '-' :: c :: letters => s.readLetters level (c :: letters)
    | none, _ => s.noteOperand level word

/-- Read all words of a level. -/
def readAll (level : Level) (words : List String) : Except Early Sorted := do
  let s ← words.foldlM (readWord level) {}
  if s.awaiting.isSome then .error .misuse else return s

end Sorted

/-- How scripts are to be generated, as far as the arguments say. -/
structure GenerateFlags where
  /-- Which scripts to print. -/
  target : Target := .both
  /-- The settings file. -/
  config : Option String := none
  /-- Wrap the script in a function. -/
  wrapAsync : Bool := false
  /-- Start the browser with a window. -/
  headed : Bool := false
  /-- Do not wait for navigations. -/
  noWaitForNavigation : Bool := false
  /-- Do not wait for elements. -/
  noWaitForSelector : Bool := false
  /-- Leave out empty lines. -/
  noBlankLines : Bool := false
  /-- Wait for an idle network. -/
  networkIdle : Bool := false
  /-- Refuse unknown actions. -/
  strict : Bool := false
  /-- Print a document. -/
  json : Bool := false
  deriving DecidableEq

/-- A command. -/
inductive Command where
  /-- Print the scripts of a recording. -/
  | generate (file : String) (flags : GenerateFlags)
  /-- Print the events of a recording after shrinking. -/
  | optimize (file : String)
  /-- Copy a recording into the store. -/
  | importFile (file : String) (name : Option String)
  /-- Print the names of the stored recordings. -/
  | list
  /-- Print what a recording holds. -/
  | describe (file : String) (all : Bool)
  /-- Remove a stored recording. -/
  | delete (file : String)
  deriving DecidableEq

/-- The names of the commands. -/
inductive CommandName where
  /-- Print scripts. -/
  | generate
  /-- Print events after shrinking. -/
  | optimize
  /-- Copy a recording into the store. -/
  | importFile
  /-- Print the names of the stored recordings. -/
  | list
  /-- Print what a recording holds. -/
  | describe
  /-- Remove a stored recording. -/
  | delete
  deriving DecidableEq

namespace CommandName

/-- The command that a word names. -/
def ofWord? : String → Option CommandName
  | "generate" => some .generate
  | "optimize" => some .optimize
  | "import" => some .importFile
  | "list" => some .list
  | "show" => some .describe
  | "delete" => some .delete
  | _ => none

/-- The options of a command besides those that every command has. -/
def ownSwitches : CommandName → List Switch
  | generate =>
    [.target, .config, .wrapAsync, .headed, .noWaitForNavigation, .noWaitForSelector, .noBlankLines,
     .networkIdle, .strict, .json]
  | importFile => [.name]
  | describe => [.all]
  | optimize | list | delete => []

/-- What a command understands. -/
def level (name : CommandName) : Level where
  switches := .verbose :: .help :: name.ownSwitches
  maxOperands := if name = .list then 0 else 1

end CommandName

/-- The flags of the sorted words of `generate`. -/
def GenerateFlags.ofSorted (s : Sorted) : GenerateFlags where
  target := ((s.value? .target).bind Target.ofWord?).getD .both
  config := s.value? .config
  wrapAsync := s.has .wrapAsync
  headed := s.has .headed
  noWaitForNavigation := s.has .noWaitForNavigation
  noWaitForSelector := s.has .noWaitForSelector
  noBlankLines := s.has .noBlankLines
  networkIdle := s.has .networkIdle
  strict := s.has .strict
  json := s.has .json

/-- The command of sorted words. Every command but `list` needs a file. -/
def Command.ofSorted (name : CommandName) (s : Sorted) : Except Early Command :=
  match name, s.operands with
  | .list, _ => .ok .list
  | .generate, file :: _ => .ok (.generate file (.ofSorted s))
  | .optimize, file :: _ => .ok (.optimize file)
  | .importFile, file :: _ => .ok (.importFile file (s.value? .name))
  | .describe, file :: _ => .ok (.describe file (s.has .all))
  | .delete, file :: _ => .ok (.delete file)
  | _, [] => .error .misuse

/-- What the words after the word `help` ask for: it explains one command at most. -/
def helpRequest : List String → Early
  | [] => .help
  | [word] => if word = "help" || (CommandName.ofWord? word).isSome then .help else .misuse
  | _ => .misuse

/-- What is understood in front of the command. -/
def topLevel : Level where
  switches := [.verbose, .help, .version]
  maxOperands := 0

/-- Read the words from those in front of the command on: is more to be logged, and which command is
it? -/
def readArguments (s : Sorted) : List String → Except Early (Bool × Command)
  | [] => .error .misuse
  | word :: rest =>
    match s.operandsOnly, CommandName.ofWord? word with
    | false, some name => do
      let own ← Sorted.readAll name.level rest
      let command ← Command.ofSorted name own
      return (s.has .verbose || own.has .verbose, command)
    | _, _ =>
      if !s.operandsOnly && word = "help" then .error (helpRequest rest)
      else do
        let s ← Sorted.readWord topLevel s word
        readArguments s rest

/-- Read the words of a command line. -/
def parseArguments (words : List String) : Except Early (Bool × Command) := readArguments {} words

end SessionScript.CommandLine
