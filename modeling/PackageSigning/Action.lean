import PackageSigning.Password.Candidate
import PackageSigning.Path

/-!
# Actions

What the program does with its surroundings is a tree: at each node a question
(`Query`) is asked, and the answer picks the branch. A tree ends with a value or
with a fault. `World.run` follows a tree through a model of the surroundings.
-/

namespace PackageSigning

/-- A question to the surroundings. -/
inductive Query where
  /-- The contents of a file. -/
  | read (path : Path)
  /-- Puts contents into a file, which may be new. -/
  | write (path : Path) (contents : Bytes)
  /-- Whether there is a file or a directory. -/
  | isThere (path : Path)
  /-- The absolute path without detours. -/
  | resolve (path : Path)
  /-- A new empty file for results that are not finished. -/
  | temporary
  /-- Moves a file over another one, or into a directory. -/
  | move (source target : Path)
  | remove (path : Path)
  /-- The value of an environment variable. -/
  | environment (name : String)
  /-- The name of the encoding that the platform prefers. -/
  | nativeEncoding
  /-- Whether the input is a terminal. -/
  | isTerminal
  /-- The next line of input with its line end; nothing at the end of the input. -/
  | line
  /-- A line typed after a prompt without being shown; nothing at the end of the input. -/
  | hiddenLine (prompt : String)
  | print (text : String)
  /-- Shows text where errors are shown. -/
  | complain (text : String)
  /-- Notes a line in the log, which is shown only on demand. -/
  | log (text : String)
  /-- Keeps candidates that are handed out. -/
  | issue (candidates : List Candidate)
  /-- Whether candidates can be handed out. -/
  | vaultIsOpen
  /-- Wipes the candidates that were handed out. -/
  | closeVault
  deriving Repr

/-- What a question is answered with. -/
@[reducible]
def Query.Answer : Query → Type
  | read _ => Except FileFault Bytes
  | write .. | move .. | remove _ => Except FileFault Unit
  | isThere _ | isTerminal | vaultIsOpen => Bool
  | resolve _ | temporary => Except FileFault Path
  | environment _ => Option String
  | line | hiddenLine _ => Except Mishap (Option String)
  | nativeEncoding => String
  | print _ | complain _ | log _ | issue _ | closeVault => Unit

/-- A tree of questions that ends with a value or a fault. -/
inductive Action (α : Type) where
  | done (value : α)
  | fail (fault : Fault)
  | ask (query : Query) (next : query.Answer → Action α)

namespace Action

/-- Goes on with the value that an action ends with. -/
def bind (x : Action α) (f : α → Action β) : Action β :=
  match x with
  | done a => f a
  | fail fault => fail fault
  | ask q next => ask q fun answer => bind (next answer) f

/-- Goes on with the fault that an action ends with. -/
def handle (x : Action α) (f : Fault → Action α) : Action α :=
  match x with
  | done a => done a
  | fail fault => f fault
  | ask q next => ask q fun answer => handle (next answer) f

instance : Monad Action where
  pure := done
  bind := bind

instance : MonadExceptOf Fault Action where
  throw := fail
  tryCatch := handle

/-- One question. -/
def query (q : Query) : Action q.Answer := ask q done

/-- A value that may be a fault. -/
def ofResult : Except Fault α → Action α
  | .ok a => done a
  | .error fault => fail fault

/-- A value that a file operation may refuse. -/
def ofFile : Except FileFault α → Action α
  | .ok a => done a
  | .error fault => fail (.file fault)

/-- A value that the surroundings may not be able to give. -/
def ofMishap : Except Mishap α → Action α
  | .ok a => done a
  | .error mishap => fail (.mishap mishap)

/-- The contents of a file. -/
def contentsOf (path : Path) : Action Bytes := do ofFile (← query (.read path))

/-- Whether the input is a terminal. -/
def isTerminal : Action Bool := query .isTerminal

/-- Whether candidates can be handed out. -/
def vaultIsOpen : Action Bool := query .vaultIsOpen

/-- Whether there is a file or a directory. -/
def isThere (path : Path) : Action Bool := query (.isThere path)

/-- Shows text. -/
def print (text : String) : Action Unit := query (.print text)

/-- Shows text where errors are shown. -/
def complain (text : String) : Action Unit := query (.complain text)

/-- Notes a line in the log. -/
def log (text : String) : Action Unit := query (.log text)

/-- Ends with what an action ends with, value or fault, and runs another in between. -/
def finally_ (x : Action α) (cleanup : Action Unit) : Action α := do
  let result ← handle (x.bind fun a => done (.ok a)) fun fault => done (.error fault)
  cleanup
  ofResult result

end Action
end PackageSigning
