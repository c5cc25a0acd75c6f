import PackageSigning.Command.CertificateReport
import PackageSigning.Command.Equipment
import PackageSigning.Command.Options
import PackageSigning.Command.Rotate
import PackageSigning.Lineage.File
import PackageSigning.Rotation

/-!
# Looking at a lineage and changing capabilities

Each signer given is loaded and its capabilities are changed, one after the other.
The lineage is written only when some change made a difference, and after all of
them have been made.
-/

namespace PackageSigning

/-- The options of the command. -/
structure LineageOptions where
  verbose : Bool := false
  certificates : Bool := false
  input : Option Path := none
  output : Option Path := none
  signers : List SignerSettings := []

namespace LineageOptions
open OptionAction

/-- No options. -/
def initial : LineageOptions := {}

/-- Reads one option. -/
def take (name : String) (o : LineageOptions) : OptionAction (Option LineageOptions) := do
  match name with
  | "in" => return some { o with input := some (← path "Input file name") }
  | "out" => return some { o with output := some (← path "Output file name") }
  | "signer" => return some { o with signers := o.signers ++ [← step SignerSettings.scope] }
  | "v" | "verbose" => return some { o with verbose := ← switch }
  | "print-certs" => return some { o with certificates := ← switch }
  | _ => return none

end LineageOptions

namespace LineageCommand
open PackageSigning.Action

variable [Platform]

/-- Shows a line about an update. -/
def showUpdate (changed : Bool) (name : String) : Action Unit :=
  if changed then Console.say s!"Updated signer capabilities for {name}."
  else Console.say s!"The provided signer capabilities for {name} are unchanged."

/-- Changes the capabilities of signers, the first of which has a number, and tells
whether any change made a difference. -/
def updateFrom (services : Services) (verbose : Bool) :
    Nat → List SignerSettings → Lineage → Action (Lineage × Bool)
  | _, [], l => return (l, false)
  | number, s :: rest, l => do
    let loaded ← s.loadAs s!"signer #{number}" services
    let signer ← ofResult (loaded.lineageSigner none)
    let update ← ofResult (Rotation.update l signer loaded.capabilities.freeze)
    if verbose then showUpdate update.changed loaded.shownName
    let (l, changed) ← updateFrom services verbose (number + 1) rest update.lineage
    return (l, update.changed || changed)

/-- Shows the signer with a number. -/
def showSigner (l : Lineage) (verbose : Bool) (number : Nat) (c : Certificate) : Action Unit := do
  CertificateReport.show_ s!"Signer #{number} in lineage" verbose c
  CertificateReport.showCapabilities (← ofResult (l.capabilitiesOf c c.subject.toText))

/-- Writes a lineage that has been changed. -/
def save (o : LineageOptions) (l : Lineage) : Action Unit := do
  match o.output with
  | none => throw (.configuration .updateWithoutOutput)
  | some output =>
    l.save output.toText
    if o.verbose then Console.say s!"Updated lineage saved to {output.toText}."

/-- Looks at a lineage and changes it as the tokens say. -/
def run (e : Equipment) (tokens : List String) : Action Unit := do
  let ((o, _), _) ← OptionAction.readAll LineageOptions.take .initial (.start tokens)
  let input ← ofResult (RotateCommand.required .inputLineageMissing o.input)
  let l ← Lineage.load e.notary input.toText
  let (l, changed) ← SignerSettings.wiping (updateFrom e.services o.verbose 1 o.signers l)
  if o.certificates then CertificateReport.numbered (showSigner l o.verbose) 1 l.certificates
  if changed then save o l

end LineageCommand
end PackageSigning
