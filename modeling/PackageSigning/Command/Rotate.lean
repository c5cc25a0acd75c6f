import PackageSigning.Command.Console
import PackageSigning.Command.Equipment
import PackageSigning.Command.Options
import PackageSigning.Lineage.File
import PackageSigning.Options.Signer
import PackageSigning.Rotation

/-!
# Handing over to a new signer

The command loads both signers, starts a lineage or extends one that is read from a
file, and writes it. Nothing is written unless everything before has succeeded.
-/

namespace PackageSigning

/-- The options of the command. -/
structure RotateOptions where
  output : Option Path := none
  input : Option Path := none
  verbose : Bool := false
  old : Option SignerSettings := none
  new : Option SignerSettings := none
  minSdk : Int := 0
  providers : Groups ProviderRequest := .start .empty

namespace RotateOptions
open OptionAction

/-- No options. -/
def initial : RotateOptions := {}

/-- Reads one option. -/
def take (name : String) (o : RotateOptions) : OptionAction (Option RotateOptions) := do
  match name with
  | "out" => return some { o with output := some (← path "Output file name") }
  | "in" => return some { o with input := some (← path "Input file name") }
  | "old-signer" => return some { o with old := some (← step SignerSettings.scope) }
  | "new-signer" => return some { o with new := some (← step SignerSettings.scope) }
  | "min-sdk-version" => return some { o with minSdk := ← integer "Minimum API Level" }
  | "v" | "verbose" => return some { o with verbose := ← switch }
  | "next-provider" =>
    return some { o with providers := o.providers.next ProviderRequest.isEmpty .empty }
  | _ =>
    match ← step (o.providers.current.option? name) with
    | some p => return some { o with providers := { o.providers with current := p } }
    | none => return none

end RotateOptions

/-- What the command needs. -/
structure RotateRequest where
  old : SignerSettings
  new : SignerSettings
  output : Path
  input : Option Path
  minSdk : Int
  providers : List ProviderRequest
  verbose : Bool

namespace RotateCommand
open PackageSigning.Action

/-- The value of an option that has to be given. -/
def required (problem : ConfigurationProblem) : Option α → Except Fault α
  | some a => .ok a
  | none => .error (.configuration problem)

/-- What the tokens ask for. Nothing may follow the options. -/
def read : OptionAction RotateRequest := do
  let (o, last) ← OptionAction.readAll RotateOptions.take .initial
  let old ← ofResult (required .oldSignerMissing o.old)
  let new ← ofResult (required .newSignerMissing o.new)
  let output ← ofResult (required .outputLineageMissing o.output)
  match ← OptionAction.remaining with
  | token :: _ => throw (OptionAction.surplus last token)
  | [] =>
    return { old, new, output, input := o.input, minSdk := o.minSdk,
             providers := o.providers.all ProviderRequest.isEmpty, verbose := o.verbose }

/-- Loads the old signer and the new one. -/
def loadBoth [Platform] (services : Services) (q : RotateRequest) :
    Action (SignerSettings × SignerSettings) := do
  let old ← q.old.loadAs "old signer" services
  let new ← q.new.loadAs "new signer" services
  return (old, new)

/-- The lineage after the rotation. -/
def rotated [Platform] (e : Equipment) (q : RotateRequest) : Action Lineage := do
  let services ← ofResult (e.equipped q.providers)
  let (old, new) ← SignerSettings.wiping (loadBoth services q)
  let existing ← q.input.mapM fun path => Lineage.load e.notary path.toText
  let oldSigner ← ofResult (old.lineageSigner none)
  let newSigner ← ofResult (new.lineageSigner none)
  ofResult (Rotation.rotate e.notary oldSigner newSigner old.capabilities.freeze
    new.capabilities.freeze existing q.minSdk).1

/-- Hands over as the tokens say. -/
def run [Platform] (e : Equipment) (tokens : List String) : Action Unit := do
  let (q, _) ← read (.start tokens)
  let lineage ← rotated e q
  lineage.save q.output.toText
  if q.verbose then Console.say "Rotation entry generated."

end RotateCommand
end PackageSigning
