import PackageSigning.CommandLine
import PackageSigning.Engine.PackageTool
import PackageSigning.Platform.Standard
import PackageSigning.Text.Characters
import PackageSigning.World

/-!
# The program

Follows the action of a command line through the real surroundings, on the standard platform:
every question is passed on to the system. Nothing else is decided here. No packaging tool is at
hand, so only the engine that says so is registered. The log is not kept.
-/

namespace PackageSigning.Program

/-- What a run holds on to between two questions. -/
structure Held where
  vault : Vault
  /-- Input that has been read and not asked for. -/
  pending : List Char

/-- A run. -/
abbrev Run := StateT Held IO

/-- The fault for what the system refuses about a path. -/
def faultOf (path : Path) : IO.Error → FileFault
  | .noFileOrDirectory .. => .missing path.toText
  | .inappropriateType _ code _ =>
    if code.toNat = (FileFault.isDirectory "").code then .isDirectory path.toText
    else .notDirectory path.toText
  | .invalidArgument .. => .nameTooLong path.toText
  | _ => .refused path.toText

/-- Does something with a path, unless no file can have it. -/
def atPath (path : Path) (act : String → IO α) : IO (Except FileFault α) := do
  if path.isUnusable then return .error .unusablePath
  try return .ok (← act path.toText)
  catch e => return .error (faultOf path e)

/-- The contents of a file. -/
def contents (path : String) : IO Bytes := return (← IO.FS.readBinFile path).data.toList

/-- Puts contents into a file. -/
def store (path : String) (b : Bytes) : IO Unit := IO.FS.writeBinFile path ⟨b.toArray⟩

/-- Whether there is a file or a directory. -/
def isThere (path : Path) : IO Bool := do
  match ← atPath path fun text => IO.FS.Handle.mk text .read with
  | .ok _ | .error (.refused _) | .error (.isDirectory _) => return true
  | .error _ => return false

/-- The names of the directory that a path starts from. -/
def startOf (path : Path) : IO (List String) := do
  match path.root with
  | .relative => return (Path.ofText (toString (← IO.currentDir))).names
  | _ => return []

/-- The absolute path without detours; a path to what is not there is kept as far as it goes. -/
def resolve (path : Path) : IO Path := do
  try return Path.ofText (toString (← IO.FS.realPath path.toText))
  catch _ => return ⟨.absolute, Files.simplify (← startOf path) path.names⟩

/-- A new empty file. -/
def temporary : IO Path := do
  let directory := (← IO.getEnv "TMPDIR").getD "/tmp"
  let mark := Bytes.toHex (← IO.getRandomBytes 8).data.toList
  let path := s!"{directory}/apksigner{mark}.apk"
  store path []
  return Path.ofText path

/-- Puts a file under another name, or what it holds where that cannot be done. -/
def rename (source target : Path) : IO (Except FileFault Unit) := do
  match ← atPath target fun text => IO.FS.rename source.toText text with
  | .error (.refused _) =>
    match ← atPath source contents with
    | .error fault => return .error fault
    | .ok b =>
      match ← atPath target (store · b) with
      | .error fault => return .error fault
      | .ok () => atPath source fun text => IO.FS.removeFile text
  | outcome => return outcome

/-- Moves a file over another one, or into a directory. -/
def move (source target : Path) : IO (Except FileFault Unit) := do
  match ← rename source target with
  | .error (.isDirectory _) =>
    rename source { target with names := target.names ++ [source.lastName] }
  | outcome => return outcome

/-- The next line of input with its line feed. -/
def line : Run (Except Mishap (Option String)) := do
  let held ← get
  let input ← if held.pending.isEmpty then
      try pure (Text.plainLineEnds (← (← IO.getStdin).getLine).toList)
      catch _ => return .error .undecodable
    else pure held.pending
  let (first, rest) := Input.splitLine input
  set { held with pending := rest }
  return .ok (if first.isEmpty then none else some (String.ofList first))

/-- Shows text at once. -/
def tell (stream : IO.FS.Stream) (text : String) : IO Unit := do
  stream.putStr text
  stream.flush

/-- The answer of the system to a question. -/
def answer : (q : Query) → Run q.Answer
  | .read path => atPath path contents
  | .write path b => atPath path (store · b)
  | .isThere path => isThere path
  | .resolve path => do
    if path.isUnusable then return .error .unusablePath
    return .ok (← resolve path)
  | .temporary => do
    try return .ok (← temporary)
    catch e => return .error (faultOf ⟨.absolute, []⟩ e)
  | .move source target => move source target
  | .remove path => atPath path fun text => IO.FS.removeFile text
  | .environment name => IO.getEnv name
  | .nativeEncoding => return "utf-8"
  | .isTerminal => do (← IO.getStdin).isTty
  | .line => line
  | .hiddenLine prompt => do
    tell (← IO.getStderr) prompt
    return (← line).map (Option.map fun text => String.ofList (text.toList.filter (· != '\n')))
  | .print text => do tell (← IO.getStdout) text
  | .complain text => do tell (← IO.getStderr) text
  | .log _ => return ()
  | .issue candidates => modify fun held => { held with vault := held.vault.issue candidates }
  | .vaultIsOpen => return (← get).vault.isOpen
  | .closeVault => modify fun held => { held with vault := held.vault.close }

/-- What an action ends with. -/
def follow : Action α → Run (Except Fault α)
  | .done a => return .ok a
  | .fail fault => return .error fault
  | .ask q next => do
    let a ← answer q
    follow (next a)

/-- What the program works with. -/
def equipment (noise : Bytes) : Equipment where
  services := ⟨.builtIn, .standard⟩
  engines := ⟨EngineCatalogue.noEngines,
    [⟨EngineCatalogue.defaultName, .ok (PackageTool.engine none)⟩]⟩
  notary := .standard noise

/-- What the words of a command line ask for. -/
def asked (noise : Bytes) (words : List String) : Action Nat :=
  @CommandLine.run .standard (equipment noise) words

end PackageSigning.Program

open PackageSigning in
/-- Runs the program with the words of the command line. -/
def main (words : List String) : IO UInt32 := do
  let noise := (← IO.getRandomBytes 32).data.toList
  let run := Program.follow (Program.asked noise words)
  match ← run.run' ⟨.fresh, []⟩ with
  | .ok code => return UInt32.ofNat code
  | .error fault => do
    (← IO.getStderr).putStrLn s!"{CommandLine.programName}: {fault.messageWith Text.quoted}"
    return 1
