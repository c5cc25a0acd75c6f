import PackageSigning.Command.Console
import PackageSigning.Command.Equipment
import PackageSigning.Command.Options
import PackageSigning.Lineage.File

/-!
# Signing a package

Signers are described one after the other, `--next-signer` in between, and
providers likewise. An engine is called once, after every signer has been loaded.
When a package is to be signed in place, the engine writes to a new file, which
takes the place of the package when the engine is done, and is gone in any case.
-/

namespace PackageSigning

/-- The highest platform version that there can be. -/
def highestSdk : Int := 0x7fffffff

/-- The options of the command. -/
structure SignOptions where
  output : Option Path := none
  input : Option Path := none
  verbose : Bool := false
  schemes : Schemes := .all
  debuggable : Bool := true
  minSdk : Option Int := none
  maxSdk : Int := highestSdk
  signers : Groups SignerSettings := .start .empty
  lineage : Option Lineage := none
  providers : Groups ProviderRequest := .start .empty

namespace SignOptions
open OptionAction

/-- No options. -/
def initial : SignOptions := {}

/-- The signers, in order. -/
def allSigners (o : SignOptions) : List SignerSettings := o.signers.all SignerSettings.isEmpty

/-- The providers to install, in order. -/
def allProviders (o : SignOptions) : List ProviderRequest := o.providers.all ProviderRequest.isEmpty

/-- The options after another signer or provider has been described so far. -/
def describe (name : String) (o : SignOptions) : OptionAction (Option SignOptions) := do
  match ← step (o.signers.current.keySource? name) with
  | some s => return some { o with signers := { o.signers with current := s } }
  | none =>
    match ← step (o.providers.current.option? name) with
    | some p => return some { o with providers := { o.providers with current := p } }
    | none => return none

/-- Reads one option. -/
def take (notary : Notary) (name : String) (o : SignOptions) :
    OptionAction (Option SignOptions) := do
  match name with
  | "out" => return some { o with output := some (← path "Output file name") }
  | "in" => return some { o with input := some (← path "Input file name") }
  | "min-sdk-version" => return some { o with minSdk := some (← integer "Minimum API Level") }
  | "max-sdk-version" => return some { o with maxSdk := ← integer "Maximum API Level" }
  | "v1-signing-enabled" => return some { o with schemes := { o.schemes with v1 := ← switch } }
  | "v2-signing-enabled" => return some { o with schemes := { o.schemes with v2 := ← switch } }
  | "v3-signing-enabled" => return some { o with schemes := { o.schemes with v3 := ← switch } }
  | "debuggable-apk-permitted" => return some { o with debuggable := ← switch }
  | "next-signer" =>
    return some { o with signers := o.signers.next SignerSettings.isEmpty .empty }
  | "v1-signer-name" =>
    let text ← value "JAR signature file basename"
    return some { o with signers := { o.signers with
      current := { o.signers.current with v1Name := some text } } }
  | "lineage" =>
    let file ← value "Lineage file"
    return some { o with lineage := some (← Lineage.load notary file) }
  | "v" | "verbose" => return some { o with verbose := ← switch }
  | "next-provider" =>
    return some { o with providers := o.providers.next ProviderRequest.isEmpty .empty }
  | _ => describe name o

end SignOptions

namespace SignCommand
open PackageSigning.Action

/-- The options, and the package to sign. -/
def read (notary : Notary) : OptionAction (SignOptions × Path) := do
  let (o, last) ← OptionAction.readAll (SignOptions.take notary) .initial
  if o.allSigners.isEmpty then throw (.configuration .noSigner)
  let input ← OptionAction.inputPackage "input APK" o.input last
  OptionAction.checkPlatforms o.minSdk (some o.maxSdk)
  return (o, input)

/-- A loaded signer as the engine gets it. -/
def engineSigner (s : SignerSettings) : Except Fault EngineSigner :=
  match s.key, s.certificates with
  | some key, some certificates => do return ⟨← s.v1Basename, key, certificates⟩
  | _, _ => .error (.configuration (.signerNotLoaded s.shownName))

/-- Loads signers one after the other, the first of them having a number. -/
def loadFrom [Platform] (services : Services) : Nat → List SignerSettings → Action (List EngineSigner)
  | _, [] => return []
  | number, s :: rest => do
    let loaded ← s.loadAs s!"signer #{number}" services
    let signer ← ofResult (engineSigner loaded)
    return signer :: (← loadFrom services (number + 1) rest)

/-- Signs a package in place: the engine writes to a new file. -/
def signInPlace (engine : SigningEngine) (request : SignRequest) : Action Unit := do
  let unfinished ← ofFile (← query .temporary)
  finally_
    (do
      engine.sign { request with output := unfinished }
      ofFile (← query (.move unfinished request.output)))
    (do if ← isThere unfinished then ofFile (← query (.remove unfinished)))

/-- Has a request carried out. -/
def deliver (engine : SigningEngine) (request : SignRequest) : Action Unit := do
  let source ← ofFile (← query (.resolve request.input))
  let target ← ofFile (← query (.resolve request.output))
  if source = target then signInPlace engine request else engine.sign request

/-- Signs a package as the tokens say. -/
def run [Platform] (e : Equipment) (engineName : String) (tokens : List String) : Action Unit := do
  let ((o, input), _) ← read e.notary (.start tokens)
  let engine ← ofResult (e.engines.find engineName)
  let services ← ofResult (e.equipped o.allProviders)
  let signers ← SignerSettings.wiping (loadFrom services 1 o.allSigners)
  deliver engine
    { input, output := o.output.getD input, signers, schemes := o.schemes,
      debuggable := o.debuggable, minSdk := o.minSdk, lineage := o.lineage }
  if o.verbose then Console.say "Signed"

end SignCommand
end PackageSigning
