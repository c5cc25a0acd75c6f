import PackageSigning.Action
import PackageSigning.Options.Reader

/-!
# Options of a command

A command takes its options one by one until they end. Reading an option may ask
the surroundings something, so the reader goes along with an action. An option
that the command does not take is a fault.
-/

namespace PackageSigning

/-- An action along which a reader goes. -/
abbrev OptionAction (α : Type) := StateT OptionReader Action α

namespace OptionAction

/-- One step of the reader. -/
def step (reading : Reading α) : OptionAction α := fun r => Action.ofResult (reading.commit r)

/-- The value of the last option. -/
def value (description : String) : OptionAction String := step (OptionReader.value description)

/-- The value of the last option as a path. -/
def path (description : String) : OptionAction Path := return Path.ofText (← value description)

/-- The value of the last option as a decimal number. -/
def integer (description : String) : OptionAction Int := step (OptionReader.integer description)

/-- The value of a switch, which is on without one. -/
def switch : OptionAction Bool := step (OptionReader.switch true)

/-- Reads options, at most `fuel` of them, into what has been read. `take` reads an
option by its name, or gives nothing if the command has no such option. Beside what
has been read there is the last option as written. -/
def readFrom (take : String → σ → OptionAction (Option σ)) :
    Nat → σ → Option String → OptionAction (σ × Option String)
  | 0, s, last => return (s, last)
  | fuel + 1, s, last => do
    match ← step OptionReader.next with
    | none => return (s, last)
    | some name =>
      let form := (← get).form
      match ← take name s with
      | some s => readFrom take fuel s form
      | none => throw (.configuration (.unknownOption (← get).shownForm))

/-- Reads all options. Each takes at least one token, so there is fuel for them. -/
def readAll (take : String → σ → OptionAction (Option σ)) (s : σ) :
    OptionAction (σ × Option String) := do
  readFrom take ((← get).tokens.length + 1) s none

/-- The tokens after the options. -/
def remaining : OptionAction (List String) := step OptionReader.remaining

/-- The fault of a token after the options where none may be. -/
def surplus (last : Option String) (token : String) : Fault :=
  .configuration (.surplusAfterOption (last.getD "None") token)

/-- The package that an option or the only token after the options names; `package` is
what it is called. -/
def inputPackage (package : String) (input : Option Path) (last : Option String) :
    OptionAction Path := do
  match input, ← remaining with
  | some path, [] => return path
  | some _, token :: _ => throw (surplus last token)
  | none, [] => throw (.configuration (.packageMissing package))
  | none, [token] => return Path.ofText token
  | none, _ :: token :: _ => throw (.configuration (.surplusAfterPackage package token))

/-- Refuses a range of platform versions that is empty. -/
def checkPlatforms (low high : Option Int) : OptionAction Unit :=
  match low, high with
  | some low, some high =>
    if high < low then throw (.configuration (.apiLevelsReversed low high)) else return
  | _, _ => return

end OptionAction

/-- Things described one after the other: those that are finished, and the last one. -/
structure Groups (α : Type) where
  finished : List α
  current : α
  deriving DecidableEq, Repr

namespace Groups
variable {α : Type}

/-- Nothing described. -/
def start (empty : α) : Groups α := ⟨[], empty⟩

/-- Finishes the last thing, unless nothing has been said of it. -/
def next (isEmpty : α → Bool) (empty : α) (g : Groups α) : Groups α :=
  if isEmpty g.current then g else ⟨g.finished ++ [g.current], empty⟩

/-- Everything of which something has been said. -/
def all (isEmpty : α → Bool) (g : Groups α) : List α :=
  if isEmpty g.current then g.finished else g.finished ++ [g.current]

end Groups
end PackageSigning
