import SessionScript.Instant.Printer
import SessionScript.Pattern.Basic
import SessionScript.Text.Bytes

/-!
# The log

Entries have a level, a topic and fields. A filter, written as directives divided by commas, says
which levels of which topics are shown: of the directives that fit an entry the one with the
longest topic decides, and of two that are alike the later one. A directive that cannot be read is
reported and passed over.
-/

namespace SessionScript.CommandLine

/-- How important an entry is, beginning with the most important. -/
inductive Severity where
  /-- A failure. -/
  | error
  /-- A possible failure. -/
  | warn
  /-- A fact of interest to everybody. -/
  | info
  /-- A fact of interest to developers. -/
  | debug
  /-- Every step. -/
  | trace
  deriving DecidableEq

namespace Severity

/-- The place in the order of importance, from one on. -/
def rank : Severity → Nat
  | error => 1
  | warn => 2
  | info => 3
  | debug => 4
  | trace => 5

/-- The level as five characters. -/
def column : Severity → String
  | error => "ERROR"
  | warn => " WARN"
  | info => " INFO"
  | debug => "DEBUG"
  | trace => "TRACE"

end Severity

/-- An entry of the log. -/
structure LogEntry where
  /-- How important it is. -/
  severity : Severity
  /-- What it is about. -/
  topic : String
  /-- What happened. -/
  message : String
  /-- Data about it: names and texts. -/
  fields : List (String × String)

/-- The time of an entry, to the microsecond. -/
def logTime (t : Instant) : String :=
  let whole : Instant := { t with nano := t.nano / Instant.nanosPerSecond * Instant.nanosPerSecond }
  whole.localText ++ "." ++ Instant.padded 6 (t.nano % Instant.nanosPerSecond / 1000) ++ "Z"

/-- The line of an entry. -/
def LogEntry.line (now : Instant) (e : LogEntry) : String :=
  logTime now ++ " " ++ e.severity.column ++ " " ++ e.topic ++ ": " ++ e.message
    ++ String.join (e.fields.map fun (name, value) => " " ++ name ++ "=" ++ value) ++ "\n"

/-- A directive that concerns entries. -/
structure Directive where
  /-- What the topic of an entry starts with, if that matters. -/
  topic : Option (List Char) := none
  /-- The field that an entry has, if that matters. -/
  field : Option (List Char) := none
  /-- The greatest rank that is shown; none is shown at zero. -/
  threshold : Nat
  deriving DecidableEq

/-- Why a directive cannot be read. -/
inductive DirectiveError where
  /-- It does not follow the format. -/
  | malformed
  /-- What stands in the place of a level is none. -/
  | notALevel
  /-- The value of a field is a pattern that cannot be used. -/
  | badPattern (e : PatternError)
  deriving DecidableEq

/-- The words for a directive that cannot be read. -/
def DirectiveError.message : DirectiveError → String
  | .malformed => "invalid filter directive"
  | .notALevel =>
    "error parsing level filter: expected one of \"off\", \"error\", \"warn\", \"info\", "
      ++ "\"debug\", \"trace\", or a number 0-5"
  | .badPattern e => "invalid field filter: " ++ e.message

/-- The number that a decimal numeral stands for, with an optional plus sign. -/
def numeral? (cs : List Char) : Option Nat :=
  let digits := match cs with
    | '+' :: rest => rest
    | _ => cs
  if digits ≠ [] && digits.all Char.isDigit then
    some (digits.foldl (fun n c => 10 * n + (c.toNat - '0'.toNat)) 0)
  else none

/-- The rank that a level names, in letters of either case or as a number. -/
def threshold? (cs : List Char) : Option Nat :=
  match numeral? cs with
  | some n => if n ≤ 5 then some n else none
  | none =>
    match String.ofList (cs.map Char.toLower) with
    | "off" => some 0
    | "error" => some 1
    | "warn" => some 2
    | "info" => some 3
    | "debug" => some 4
    | "trace" => some 5
    | _ => none

/-- The rank after an equals sign; nothing stands for everything. -/
def thresholdAfter (cs : List Char) : Except DirectiveError Nat :=
  if cs = [] then .ok 5
  else match threshold? cs with
    | some n => .ok n
    | none => .error .notALevel

/-- May a topic start with this character? -/
def startsTopic (c : Char) : Bool := c = '-' || c = ':' || c = '_' || Text.isWordCharacter c

/-- Is this a decimal number without a sign, which may have a fraction and an exponent? -/
def isUnsignedDecimal (cs : List Char) : Bool :=
  let whole := cs.takeWhile Char.isDigit
  let (fraction, rest) := match cs.drop whole.length with
    | '.' :: rest => (rest.takeWhile Char.isDigit, rest.dropWhile Char.isDigit)
    | rest => ([], rest)
  let exponent : List Char → Bool
    | [] => true
    | c :: rest =>
      let digits := if rest.head? = some '+' || rest.head? = some '-' then rest.drop 1 else rest
      (c = 'e' || c = 'E') && digits ≠ [] && digits.all Char.isDigit
  (whole ≠ [] || fraction ≠ []) && exponent rest

/-- Is this a number, or the name of something that is kept as one? -/
def isNumeric (cs : List Char) : Bool :=
  let unsigned := if cs.head? = some '+' || cs.head? = some '-' then cs.drop 1 else cs
  isUnsignedDecimal unsigned
    || ["inf", "infinity", "nan"].contains (String.ofList (unsigned.map Char.toLower))

/-- Check a field of a directive: a name, and after an equals sign a value, which is a number or a
pattern. What follows a second equals sign is passed over. -/
def checkField (field : List Char) : Except DirectiveError Unit :=
  match field.dropWhile (· ≠ '=') with
  | [] => .ok ()
  | _ :: rest =>
    let value := rest.takeWhile (· ≠ '=')
    if isNumeric value then .ok () else (checkPattern value).mapError .badPattern

/-- The rank at the end of a directive, from a position in bytes on. -/
def closingThreshold (text : List Char) (position : Nat) : List Char → Except DirectiveError Nat
  | [] => .ok 5
  | '=' :: _ => thresholdAfter (Text.dropBytes (position + 1) text)
  | _ => .error .malformed

/-- Read the part of a directive in brackets, from a position in bytes on, and what follows it. A
directive that names a span or the value of a field concerns no entry. -/
def readBracket (text : List Char) (topic : Option (List Char)) (position : Nat)
    (body : List Char) : Except DirectiveError (Option Directive) :=
  let span := body.takeWhile fun c => c ≠ ']' && c ≠ '\x7b'
  let position := position + Text.byteCount span + 1
  match body.drop span.length with
  | ']' :: rest => do
    let _ ← closingThreshold text position rest
    return none
  | '\x7b' :: rest =>
    let inner := rest.takeWhile (· ≠ '\x7d')
    let size := Text.byteCount inner
    let field := Text.takeBytes size (Text.dropBytes position text)
    match rest.drop inner.length with
    | [] => .error .malformed
    | _ :: rest => do
      if inner = [] then .error .malformed
      checkField field
      match rest with
      | ']' :: rest =>
        let threshold ← closingThreshold text (position + size + 2) rest
        if span ≠ [] || field.contains '=' then return none
        return some { topic, field := some field, threshold }
      | _ => .error .malformed
  | _ => .error .malformed

/-- Read a directive: a level, or a topic with an optional part in brackets and an optional level.
White space in front of it moves the parts against their places, so that none should be written. -/
def readDirective (text : List Char) : Except DirectiveError (Option Directive) :=
  match Text.trim text with
  | [] => .error .malformed
  | '[' :: body => readBracket text none 1 body
  | c :: cs =>
    if !startsTopic c then .error .malformed
    else
      let name := (c :: cs).takeWhile fun c => c ≠ '=' && c ≠ '['
      let size := Text.byteCount name
      let topic := Text.takeBytes size text
      match (c :: cs).drop name.length with
      | [] =>
        match threshold? text with
        | some threshold => .ok (some { threshold })
        | none => .ok (some { topic := some text, threshold := 5 })
      | '=' :: _ => do
        let threshold ← thresholdAfter (Text.dropBytes (size + 1) text)
        return some { topic := some topic, threshold }
      | _ :: rest => readBracket text (some topic) (size + 1) rest

/-- The directives of a filter, divided by commas. -/
def splitDirectives : List Char → List (List Char)
  | [] => [[]]
  | c :: cs =>
    match splitDirectives cs with
    | [] => [[c]]
    | part :: rest => if c = ',' then [] :: part :: rest else (c :: part) :: rest

/-- The line about a directive that cannot be read. -/
def complaint (text : List Char) (e : DirectiveError) : String :=
  "ignoring `" ++ String.ofList text ++ "`: " ++ e.message ++ "\n"

/-- Read directives: those that concern entries, and the complaints. -/
def readDirectives : List (List Char) → List Directive × String
  | [] => ([], "")
  | text :: rest =>
    let (directives, complaints) := readDirectives rest
    match readDirective text with
    | .ok d => (d.toList ++ directives, complaints)
    | .error e => (directives, complaint text e ++ complaints)

/-- What a log shows. -/
structure LogFilter where
  /-- The directives in order. -/
  directives : List Directive

/-- The filter of a text, in which a level alone has no say, and the complaints about it. -/
def LogFilter.ofText (text : String) (default : Severity) : LogFilter × String :=
  let (directives, complaints) :=
    readDirectives ((splitDirectives text.toList).filter (· ≠ []))
  (⟨directives ++ [{ threshold := default.rank }]⟩, complaints)

/-- Does a directive fit an entry? -/
def Directive.fits (d : Directive) (e : LogEntry) : Bool :=
  (d.topic.all fun topic => topic.isPrefixOf e.topic.toList)
    && (d.field.all fun field => ("message" :: e.fields.map (·.1)).contains (String.ofList field))

/-- The texts of an optional part are ordered by code points, after its absence. -/
def fieldLE : Option (List Char) → Option (List Char) → Bool
  | none, _ => true
  | some _, none => false
  | some a, some b => !(String.ofList b < String.ofList a)

/-- Is the second directive at least as specific as the first? -/
def Directive.yields (d d' : Directive) : Bool :=
  let topicLength (d : Directive) := (d.topic.map List.length).getD 0
  topicLength d < topicLength d'
    || (topicLength d = topicLength d' && fieldLE d.field d'.field)

/-- The directive that decides on an entry, of those that fit it. -/
def LogFilter.deciding? (f : LogFilter) (e : LogEntry) : Option Directive :=
  (f.directives.filter (·.fits e)).foldl
    (fun best d => if best.all (·.yields d) then some d else best) none

/-- Does a log show an entry? -/
def LogFilter.shows (f : LogFilter) (e : LogEntry) : Bool :=
  (f.deciding? e).any fun d => e.severity.rank ≤ d.threshold

/-- The text of the entries that a log shows. -/
def LogFilter.text (f : LogFilter) (now : Instant) (entries : List LogEntry) : String :=
  String.join ((entries.filter f.shows).map (·.line now))

end SessionScript.CommandLine
