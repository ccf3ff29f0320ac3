import SessionScript.Pattern.Class

/-!
# Patterns

A pattern is read from left to right with its open groups on a stack. It can be used if it is well
formed, if the builder can take all of its parts, and if it is not nested too deep; starts and ends
of words are understood but cannot be matched by the kind of machine that is built.

The patterns of this library are parts of directives, which a closing brace would end. So there is
no counted repetition, and an opening brace is always out of place.
-/

namespace SessionScript.Pattern

/-- A part of a sequence. -/
structure Piece where
  /-- How deep it is nested. -/
  depth : Nat
  /-- Can it be repeated? -/
  repeatable : Bool := true

/-- What has been read of a group. -/
structure Level where
  /-- How deep the finished branches are nested. -/
  branches : List Nat := []
  /-- The pieces of the open branch, the last one first. -/
  pieces : List Piece := []

/-- How deep the open branch is nested. -/
def Level.branchDepth (l : Level) : Nat := together (l.pieces.map (·.depth))

/-- How deep the branches are nested. -/
def Level.depth (l : Level) : Nat := together (l.branchDepth :: l.branches)

/-- A pattern that is being read. -/
structure Progress where
  /-- The flags that hold. -/
  flags : Flags := {}
  /-- The innermost open group, or the pattern itself. -/
  level : Level := {}
  /-- What is around it, from the inside out, with the flags that held there. -/
  outer : List (Flags × Level) := []
  /-- The names of the groups. -/
  names : List (List Char) := []
  /-- Is there a start or an end of a word of Unicode characters? -/
  wordEdges : Bool := false

namespace Progress

/-- Add a piece. -/
def push (p : Progress) (piece : Piece) : Progress :=
  { p with level.pieces := piece :: p.level.pieces }

/-- Add an atom, if the builder can take it. -/
def pushAtom (p : Progress) (atom : Atom) : Option Progress :=
  if !p.flags.takes false atom then none
  else
    match atom with
    | .wordEdge => some { p.push ⟨0, true⟩ with wordEdges := p.wordEdges || p.flags.unicode }
    | _ => some (p.push ⟨0, true⟩)

/-- Repeat the last piece. -/
def repeatLast (p : Progress) : Option Progress :=
  match p.level.pieces with
  | [] => none
  | piece :: rest =>
    if piece.repeatable then
      some { p with level.pieces := { piece with depth := 1 + piece.depth } :: rest }
    else none

/-- Begin another branch. -/
def branch (p : Progress) : Progress :=
  { p with level := { branches := p.level.branchDepth :: p.level.branches } }

/-- Open a group in which some flags hold. -/
def openGroup (p : Progress) (flags : Flags) : Progress :=
  { p with flags, level := {}, outer := (p.flags, p.level) :: p.outer }

/-- Close the innermost group. -/
def closeGroup (p : Progress) : Option Progress :=
  match p.outer with
  | [] => none
  | (flags, level) :: outer =>
    some ({ p with flags, level, outer }.push ⟨1 + p.level.depth, true⟩)

end Progress

/-- Is this the name of a group? -/
def isGroupName : List Char → Bool
  | [] => false
  | c :: cs =>
    (c = '_' || Text.isLetter c)
      && cs.all fun c => c = '_' || c = '.' || c = '[' || c = ']' || Text.isWordCharacter c

/-- Read the name of a group up to its closing bracket and open the group. No name is used twice. -/
def readGroupName (p : Progress) (cs : List Char) : Option (Progress × List Char) :=
  let name := cs.takeWhile (· ≠ '>')
  match cs.drop name.length with
  | _ :: rest =>
    if isGroupName name && !p.names.contains name then
      some ({ p with names := name :: p.names }.openGroup p.flags, rest)
    else none
  | [] => none

/-- The letters of the flags. Those without a part in `Flags` only change what is matched. -/
def flagLetters : List Char := ['i', 'm', 's', 'U', 'u', 'R', 'x']

/-- Are these letters of flags, where those behind a dash are turned off? -/
def areFlags (items : List Char) : Bool :=
  items.all (fun c => c = '-' || flagLetters.contains c) && items.eraseDups.length = items.length
    && items.getLast? ≠ some '-'

/-- The flags after some are turned on or off. -/
def Flags.set (f : Flags) (items : List Char) : Flags :=
  let on := items.takeWhile (· ≠ '-')
  let state (c : Char) (before : Bool) : Bool := if items.contains c then on.contains c else before
  { ignoreCase := state 'i' f.ignoreCase, unicode := state 'u' f.unicode,
    spaced := state 'x' f.spaced }

/-- Read flags, which hold up to the end of the group around them or for a group of their own. -/
def readFlags (p : Progress) (cs : List Char) : Option (Progress × List Char) :=
  let items := cs.takeWhile fun c => c ≠ ':' && c ≠ ')'
  if !areFlags items then none
  else
    match cs.drop items.length with
    | ':' :: rest => some (p.openGroup (p.flags.set items), rest)
    | ')' :: rest =>
      if items.isEmpty then none
      else some ({ p with flags := p.flags.set items }.push ⟨0, false⟩, rest)
    | _ => none

/-- Read what stands behind an opening parenthesis. -/
def readGroup (p : Progress) (cs : List Char) : Option (Progress × List Char) :=
  match p.flags.skip cs with
  | '?' :: 'P' :: '<' :: rest => readGroupName p rest
  | '?' :: '<' :: rest => readGroupName p rest
  | '?' :: rest => readFlags p rest
  | rest => some (p.openGroup p.flags, rest)

/-- Read a pattern to its end. -/
def read : (fuel : Nat) → Progress → List Char → Option Progress
  | 0, _, _ => none
  | fuel + 1, p, cs =>
    match p.flags.skip cs with
    | [] => if p.outer.isEmpty then some p else none
    | '(' :: rest => do
      let (p, rest) ← readGroup p rest
      read fuel p rest
    | ')' :: rest => do read fuel (← p.closeGroup) rest
    | '|' :: rest => read fuel p.branch rest
    | '[' :: rest => do
      let (depth, rest) ← readClass p.flags rest
      read fuel (p.push ⟨depth, true⟩) rest
    | '\x7b' :: _ => none
    | '\\' :: rest => do
      let (atom, rest) ← readEscape p.flags rest
      read fuel (← p.pushAtom atom) rest
    | '.' :: rest => if p.flags.unicode then read fuel (p.push ⟨0, true⟩) rest else none
    | '^' :: rest | '$' :: rest => do read fuel (← p.pushAtom .textEdge) rest
    | '?' :: rest | '*' :: rest | '+' :: rest => do
      let rest := if rest.head? = some '?' then rest.drop 1 else rest
      read fuel (← p.repeatLast) rest
    | c :: rest => do read fuel (← p.pushAtom (.literal c false)) rest

/-- How deep a pattern may be nested. -/
def maxDepth : Nat := 250

end Pattern

/-- Why a pattern cannot be used. -/
inductive PatternError where
  /-- It is not well formed, or it is nested too deep, or the builder cannot take a part of it. -/
  | notBuilt
  /-- It has a start or an end of a word. -/
  | wordEdge
  deriving DecidableEq

/-- The words for a pattern that cannot be used. -/
def PatternError.message : PatternError → String
  | .notBuilt => "error building NFA"
  | .wordEdge =>
    "unsupported regex feature for DFAs: cannot build DFAs for regexes with Unicode word "
      ++ "boundaries; switch to ASCII word boundaries, or heuristically enable Unicode word "
      ++ "boundaries or use a different regex engine"

/-- Can a pattern be used? -/
def checkPattern (cs : List Char) : Except PatternError Unit :=
  match Pattern.read (cs.length + 1) {} cs with
  | none => .error .notBuilt
  | some p =>
    if Pattern.maxDepth < p.level.depth then .error .notBuilt
    else if p.wordEdges then .error .wordEdge
    else .ok ()

end SessionScript
