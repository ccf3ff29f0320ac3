import SessionScript.Files.Tree

/-!
# Programs that work on files, request by request

Everything that works on files is written for any way of access to them. Here the access is only
asked for: a program stops at each request, and goes on with the answer. So several programs can take
turns on one tree, with other programs' requests between any two of their own. A program that is left
alone does to the tree what it does without stopping.
-/

namespace SessionScript.Files

/-- What a program can ask of a file system. -/
inductive Request where
  /-- Make a directory. -/
  | makeDir (path : String)
  /-- Make an empty file where there is nothing yet. -/
  | createNew (path : String)
  /-- Write a file. -/
  | write (path : String) (content : Text.Bytes)
  /-- Open a file or a directory for reading. -/
  | openRead (path : String)
  /-- The names in a directory. -/
  | names (path : String)
  /-- Remove a file. -/
  | remove (path : String)
  /-- Does a path lead to anything? -/
  | exists? (path : String)
  /-- Does a path lead to a directory? -/
  | isDir (path : String)

namespace Request

/-- What is answered to a request. -/
def Answer : Request → Type
  | .makeDir _ | .createNew _ | .write .. | .remove _ => Except OsError Unit
  | .openRead _ => Except OsError Opened
  | .names _ => Except OsError (List String)
  | .exists? _ | .isDir _ => Bool

/-- Answer a request from a tree, all at once. -/
def perform : (r : Request) → StateM Tree r.Answer
  | .makeDir path => Access.makeDir (m := StateM Tree) path
  | .createNew path => Access.createNew (m := StateM Tree) path
  | .write path content => Access.write (m := StateM Tree) path content
  | .openRead path => Access.openRead (m := StateM Tree) path
  | .names path => Access.names (m := StateM Tree) path
  | .remove path => Access.remove (m := StateM Tree) path
  | .exists? path => Access.exists? (m := StateM Tree) path
  | .isDir path => Access.isDir (m := StateM Tree) path

/-- A new file, as it is made and answered for. -/
theorem perform_createNew (path : String) (t : Tree) :
    (Request.createNew path).perform t =
      match t.createNew path with
      | .ok later => (.ok (), later)
      | .error e => (.error e, t) := rfl

/-- A file, as it is written and answered for. -/
theorem perform_write (path : String) (content : Text.Bytes) (t : Tree) :
    (Request.write path content).perform t =
      match t.write path content with
      | .ok later => (.ok (), later)
      | .error e => (.error e, t) := rfl

end Request

/-- A program that works on files and stops at each request. -/
inductive Program (α : Type) where
  /-- The program has come to its end. -/
  | done (result : α)
  /-- The program waits for the answer to a request. -/
  | ask (request : Request) (next : request.Answer → Program α)

namespace Program

variable {α β : Type}

/-- Go on with another program at the end of a program. -/
def bind (f : α → Program β) : Program α → Program β
  | .done a => f a
  | .ask r next => .ask r fun answer => bind f (next answer)

instance : Monad Program where
  pure := .done
  bind p f := p.bind f

instance : Access Program where
  makeDir path := .ask (.makeDir path) .done
  createNew path := .ask (.createNew path) .done
  write path content := .ask (.write path content) .done
  openRead path := .ask (.openRead path) .done
  names path := .ask (.names path) .done
  remove path := .ask (.remove path) .done
  exists? path := .ask (.exists? path) .done
  isDir path := .ask (.isDir path) .done

/-- Answer the request that a program waits for, and let it go on to its next one. -/
def resume : Program α → StateM Tree (Program α)
  | .done a => pure (.done a)
  | .ask r next => fun t => (next (r.perform t).1, (r.perform t).2)

/-- A program goes on with the answer. -/
theorem resume_ask {r : Request} {t later : Tree} {answer : r.Answer}
    (h : r.perform t = (answer, later)) (next : r.Answer → Program α) :
    (Program.ask r next).resume t = (next answer, later) := by
  change (next (r.perform t).1, (r.perform t).2) = _
  rw [h]

/-- Write only the first bytes of what a program wants written; it goes on waiting. -/
def writePart (bytes : Nat) : Program α → Tree → Tree
  | .ask (.write path content) _, t => (Request.perform (.write path (content.take bytes)) t).2
  | _, t => t

/-- Run a program to its end with nobody else's requests in between. -/
def alone : Program α → StateM Tree α
  | .done a => pure a
  | .ask r next => fun t => alone (next (r.perform t).1) (r.perform t).2

/-- A program that is left alone goes on with the answer. -/
theorem alone_ask {r : Request} {t later : Tree} {answer : r.Answer}
    (h : r.perform t = (answer, later)) (next : r.Answer → Program α) :
    (Program.ask r next).alone t = (next answer).alone later := by
  change (next (r.perform t).1).alone (r.perform t).2 = _
  rw [h]

/-- Two programs one after the other, left alone. -/
theorem alone_bind (p : Program α) (f : α → Program β) :
    (p >>= f).alone = p.alone >>= fun a => (f a).alone := by
  induction p with
  | done a => rfl
  | ask r next ih =>
    funext t
    exact congrFun (ih (r.perform t).1) (r.perform t).2

end Program

end SessionScript.Files
