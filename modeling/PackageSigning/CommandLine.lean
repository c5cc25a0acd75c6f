import PackageSigning.Command.Lineage
import PackageSigning.Command.Rotate
import PackageSigning.Command.Sign
import PackageSigning.Command.Verify
import PackageSigning.CommandLine.Usage

/-!
# The command line

The program is a group of commands. Its own options come before the name of the
command; `sign`, `verify`, `rotate` and `lineage` pass every word that is not theirs
on to the options of the command. A run ends with an exit code, or with a fault
that is not the tool's own and that nothing reports.
-/

namespace PackageSigning.CommandLine
open PackageSigning.Action

variable [Platform]

/-- The exit code of a command line that makes no sense. -/
def usageCode : Nat := 2

/-- Shows a problem with the command line. -/
def refuse (s : Subject) (p : UsageProblem) : Action Nat := do
  complain (p.shown s)
  return usageCode

/-- Shows the usage. -/
def help (s : Subject) : Action Nat := do
  print (s.usage ++ "\n")
  return 0

/-- The option that asks for help. -/
def helpOption : String := "--help"

/-- The option that asks for the version. -/
def versionOption : String := "--version"

/-- The option that sets the level of diagnostics. -/
def levelOption : String := "--log-level"

/-- The option that names an engine. -/
def engineOption : String := "--engine"

/-- The environment variable for `levelOption`. -/
def levelVariable : String := "APKSIGN_LOG_LEVEL"

/-- The environment variable for `engineOption`. -/
def engineVariable : String := "APKSIGN_ENGINE"

/-- The options of the program. -/
def programSyntax : WordSyntax where
  flags := [helpOption, versionOption]
  valued := [levelOption]
  letters := []
  keepsUnknown := false
  stopsAtWord := true

/-- The options of a command. -/
def commandSyntax (c : Command) : WordSyntax where
  flags := [helpOption]
  valued := if c.usesEngine then [engineOption] else []
  letters := if c.takesOptions then [('h', helpOption)] else []
  keepsUnknown := c.takesOptions
  stopsAtWord := false

/-- A value that was given, else that of an environment variable, unless it is empty. -/
def setting (given : Option String) (name : String) : Action (Option String) := do
  match given with
  | some value => return some value
  | none => return (← query (.environment name)).filter (!·.isEmpty)

/-- Ends a run that a fault of the tool's own has ended, with the code for the fault. -/
def reporting (code : Fault → Nat) (x : Action Nat) : Action Nat :=
  tryCatch x fun fault => do
    if fault.isOwn then
      Console.reportFault fault
      return code fault
    else throw fault

/-- The exit code for a fault while signing: a signer that does not load has its own. -/
def signingCode : Fault → Nat
  | .credential .. => 2
  | _ => 1

/-- Lists the engines. -/
def listEngines (e : Equipment) : Action Unit := do
  let registry ← ofResult e.engines.loaded
  Console.say "[bold]Signing engines:[/bold]"
  registry.names.forM fun name =>
    let mark := if name = EngineCatalogue.defaultName then " (default)" else ""
    Console.say s!"  {name}{mark}"

/-- Runs a command with the words that are its own. -/
def runCommand (e : Equipment) (c : Command) (engineName : String) (words : List String) :
    Action Nat :=
  match c with
  | .sign => reporting signingCode do
    SignCommand.run e engineName words
    return 0
  | .verify => reporting (fun _ => 1) do
    return if ← VerifyCommand.run e engineName words then 0 else 1
  | .rotate => reporting (fun _ => 1) do
    RotateCommand.run e words
    return 0
  | .lineage => reporting (fun _ => 1) do
    LineageCommand.run e words
    return 0
  | .version => do
    Console.say s!"[bold]{programName}[/bold] v{version}"
    return 0
  | .engines => do
    listEngines e
    return 0

/-- Runs a command with the words after its name. -/
def command (e : Equipment) (c : Command) (words : List String) : Action Nat := do
  match (commandSyntax c).read words with
  | .error problem => refuse (some c) (.word problem)
  | .ok w =>
    if w.options.any (·.name == helpOption) then help (some c)
    else if !c.takesOptions && !w.kept.isEmpty then refuse (some c) (.surplus w.kept)
    else
      let engine ← setting (w.valueOf? engineOption) engineVariable
      if c.takesOptions && w.kept.isEmpty then help (some c)
      else runCommand e c (engine.getD EngineCatalogue.defaultName) w.kept

/-- Ends a run at the first option that asks for help or for the version. Otherwise the
level of diagnostics has to make sense, and `next` goes on with the other words. -/
def program (words : List String) (next : List String → Action Nat) : Action Nat := do
  match programSyntax.read words with
  | .error problem => refuse none (.word problem)
  | .ok w =>
    match w.options.find? (·.name != levelOption) with
    | some option =>
      if option.name = helpOption then help none
      else
        print s!"{programName}, version {version}\n"
        return 0
    | none =>
      match ← setting (w.valueOf? levelOption) levelVariable with
      | some value =>
        if levels.contains (value.map Char.toLower) then next w.kept
        else refuse none (.badLevel value)
      | none => next w.kept

/-- Whether the name of a command could be an option. -/
def looksLikeOption (name : String) : Bool :=
  match name.toList with
  | [] => false
  | c :: _ => !c.isAlphanum

/-- Runs the words of a command line, of which there is one at least. A name that is not
that of a command, but could be an option, is read as one once more. -/
def runWords (e : Equipment) (words : List String) : Action Nat :=
  program words fun
    | [] => refuse none .commandMissing
    | name :: rest =>
      match Command.named? name with
      | some c => command e c rest
      | none =>
        if looksLikeOption name then
          program (name :: rest) fun _ => refuse none (.unknownCommand name)
        else refuse none (.unknownCommand name)

/-- The exit code of a dialogue that the user has ended. -/
def abortCode : Nat := 1

/-- Runs the program. -/
def run (e : Equipment) (words : List String) : Action Nat :=
  if words.isEmpty then do
    complain (Subject.usage none ++ "\n")
    return usageCode
  else
    tryCatch (runWords e words) fun
      | .mishap .aborted => do
        complain "Aborted!\n"
        return abortCode
      | fault => throw fault

end PackageSigning.CommandLine
