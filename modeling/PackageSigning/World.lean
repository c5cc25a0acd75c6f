import PackageSigning.Action
import PackageSigning.World.Files

/-!
# A model of the surroundings

`World` holds files, environment, input and what was shown, and answers every
question of an action. `World.run` follows an action to its end.

Input is handed over in portions. A portion with bytes in it that are no text is lost as a whole,
and so is what was read of a line before it; reading goes on behind it (`Input.take`).
-/

namespace PackageSigning

/-- Something that was shown. -/
inductive Shown where
  | printed (text : String)
  | complained (text : String)
  /-- A prompt for a hidden line. -/
  | prompted (text : String)
  deriving DecidableEq, Repr

/-- Input that has not been read. -/
structure Input where
  /-- The characters up to the end, or to the first portion that is lost. -/
  stretch : List Char
  /-- The characters behind each of the portions that are lost. -/
  behind : List (List Char)
  deriving DecidableEq, Repr

namespace Input

/-- Input that is a text. -/
def ofText (text : String) : Input := ⟨text.toList, []⟩

/-- Input at its end. -/
def ended : Input := ⟨[], []⟩

/-- The first line with its line feed, and the rest. -/
def splitLine : List Char → List Char × List Char
  | [] => ([], [])
  | '\n' :: rest => (['\n'], rest)
  | c :: rest =>
    let (line, rest) := splitLine rest
    (c :: line, rest)

/-- A line of the stretch in front, with its line feed or without, and the input behind it. -/
def next (i : Input) : Option String × Input :=
  if i.stretch.isEmpty then (none, i)
  else
    let (line, rest) := splitLine i.stretch
    (some (String.ofList line), { i with stretch := rest })

/-- Reads a line, unless a part of it is lost. -/
def take (i : Input) : Except Mishap (Option String) × Input :=
  match i.behind with
  | there :: rest =>
    if i.stretch.contains '\n' then (.ok i.next.1, i.next.2)
    else (.error .undecodable, ⟨there, rest⟩)
  | [] => (.ok i.next.1, i.next.2)

end Input

/-- The surroundings. -/
structure World where
  files : Files
  /-- Where new files for unfinished results are made. -/
  workshop : List String
  environment : List (String × String)
  native : String
  isTerminal : Bool
  input : Input
  /-- What was shown, first one first. -/
  shown : List Shown
  /-- The lines of the log, first one first. -/
  log : List String
  vault : Vault
  deriving DecidableEq, Repr

namespace World

/-- Surroundings with files and nothing else. -/
def ofFiles (files : Files) : World :=
  ⟨files, [], [], "utf-8", false, .ended, [], [], .fresh⟩

/-- Adds to what was shown. -/
def see (w : World) (s : Shown) : World := { w with shown := w.shown ++ [s] }

/-- Keeps the files that an operation leaves, if it succeeds. -/
def keep (w : World) : Except FileFault Files → Except FileFault Unit × World
  | .ok files => (.ok (), { w with files })
  | .error fault => (.error fault, w)

/-- Reads a line of input. -/
def takeLine (w : World) : Except Mishap (Option String) × World :=
  (w.input.take.1, { w with input := w.input.take.2 })

/-- The answer to a question, and the surroundings after it. -/
def answer (w : World) : (q : Query) → q.Answer × World
  | .read path => (w.files.read path, w)
  | .write path b => w.keep (w.files.write path b)
  | .isThere path => (w.files.isThere path, w)
  | .resolve path => (w.files.resolve path, w)
  | .temporary =>
    let made := w.files.newFile w.workshop
    (made.map (·.1), (w.keep (made.map (·.2))).2)
  | .move source target => w.keep (w.files.move source target)
  | .remove path => w.keep (w.files.remove path)
  | .environment name => (w.environment.lookup name, w)
  | .nativeEncoding => (w.native, w)
  | .isTerminal => (w.isTerminal, w)
  | .line => w.takeLine
  | .hiddenLine prompt =>
    let (line, w) := (w.see (.prompted prompt)).takeLine
    (line.map (Option.map fun text => String.ofList (text.toList.filter (· != '\n'))), w)
  | .print text => ((), w.see (.printed text))
  | .complain text => ((), w.see (.complained text))
  | .log text => ((), { w with log := w.log ++ [text] })
  | .issue candidates => ((), { w with vault := w.vault.issue candidates })
  | .vaultIsOpen => (w.vault.isOpen, w)
  | .closeVault => ((), { w with vault := w.vault.close })

/-- What an action ends with, and the surroundings after it. -/
def run (w : World) : Action α → Except Fault α × World
  | .done a => (.ok a, w)
  | .fail fault => (.error fault, w)
  | .ask q next =>
    let (a, w) := w.answer q
    run w (next a)

end World
end PackageSigning
