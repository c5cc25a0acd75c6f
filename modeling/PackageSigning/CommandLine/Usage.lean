import PackageSigning.CommandLine.Words
import PackageSigning.Text.Characters

/-!
# Usage of the command line

The commands, how their usage is shown, and what is said of command lines that make
no sense.
-/

namespace PackageSigning.CommandLine

/-- The name of the program. -/
def programName : String := "apksign"

/-- The version of the program. -/
def version : String := "0.1.0"

/-- The commands. -/
inductive Command where
  | sign
  | verify
  | rotate
  | lineage
  | version
  | engines
  deriving DecidableEq, Repr

namespace Command

/-- Every command. -/
def all : List Command := [sign, verify, rotate, lineage, version, engines]

/-- The name of the command. -/
def name : Command → String
  | sign => "sign"
  | verify => "verify"
  | rotate => "rotate"
  | lineage => "lineage"
  | version => "version"
  | engines => "engines"

/-- The command with a name. -/
def named? (name : String) : Option Command := all.find? (·.name == name)

/-- Whether the command has options of its own kind. -/
def takesOptions : Command → Bool
  | version | engines => false
  | _ => true

/-- Whether the command uses an engine. -/
def usesEngine : Command → Bool
  | sign | verify => true
  | _ => false

end Command

/-- What the usage of is shown: the program, or one command. -/
abbrev Subject := Option Command

namespace Subject

/-- The words in front of the options. -/
def path (s : Subject) : String :=
  match s with
  | none => programName
  | some c => s!"{programName} {c.name}"

/-- The line that shows the usage. -/
def usage (s : Subject) : String :=
  match s with
  | none => s!"Usage: {path s} [OPTIONS] COMMAND [ARGS]..."
  | some c =>
    if c.takesOptions then s!"Usage: {path s} [OPTIONS] [ARGS]..."
    else s!"Usage: {path s} [OPTIONS]"

end Subject

/-- Command lines that make no sense. -/
inductive UsageProblem where
  | word (problem : WordProblem)
  | badLevel (value : String)
  | surplus (words : List String)
  | unknownCommand (name : String)
  | commandMissing
  deriving DecidableEq, Repr

/-- The levels of diagnostics. -/
def levels : List String := ["debug", "info", "warning", "error", "critical"]

namespace UsageProblem

/-- The wording of a problem. -/
def message : UsageProblem → String
  | word (.valueMissing option) => s!"Option {Text.quoted option} requires an argument."
  | word (.valueRefused option) => s!"Option {Text.quoted option} does not take a value."
  | word (.unknown option) => s!"No such option {Text.quoted option}."
  | badLevel value =>
    s!"Invalid value for '--log-level': {Text.quoted value} is not one of " ++
      ", ".intercalate (levels.map Text.quoted) ++ "."
  | surplus [only] => s!"Got unexpected extra argument ({only})"
  | surplus words => "Got unexpected extra arguments (" ++ " ".intercalate words ++ ")"
  | unknownCommand name => s!"No such command {Text.quoted name}."
  | commandMissing => "Missing command."

/-- Whether the usage is shown with the problem. -/
def showsUsage : UsageProblem → Bool
  | word (.valueMissing _) | word (.valueRefused _) => false
  | _ => true

/-- The problem as shown, with the usage of what it concerns. -/
def shown (p : UsageProblem) (s : Subject) : String :=
  let hint := if p.showsUsage then s!"{s.usage}\nTry '{s.path} --help' for help.\n\n" else ""
  s!"{hint}Error: {p.message}\n"

end UsageProblem

end PackageSigning.CommandLine
