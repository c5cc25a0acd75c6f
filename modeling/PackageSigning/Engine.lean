import PackageSigning.Action
import PackageSigning.Keystore.EntryName
import PackageSigning.Lineage
import PackageSigning.Plugin

/-!
# Signing engines

Packages are signed and checked by engines, which are plugins. An engine is what
it does with a request; it may do anything that an action can do.
-/

namespace PackageSigning

/-- A loaded signer as an engine gets it. -/
structure EngineSigner where
  /-- The name of the signature files in the package. -/
  name : EntryName
  key : PrivateKey
  /-- The certificates, the one of the key first. -/
  certificates : List Certificate
  deriving DecidableEq, Repr

/-- A choice of signature schemes. -/
structure Schemes where
  v1 : Bool
  v2 : Bool
  v3 : Bool
  deriving DecidableEq, Repr

namespace Schemes

/-- Every scheme. -/
def all : Schemes := ⟨true, true, true⟩

/-- No scheme. -/
def none : Schemes := ⟨false, false, false⟩

end Schemes

/-- What an engine needs to sign a package. -/
structure SignRequest where
  input : Path
  output : Path
  signers : List EngineSigner
  schemes : Schemes
  /-- Whether a package that can be debugged may be signed. -/
  debuggable : Bool
  minSdk : Option Int
  lineage : Option Lineage
  deriving DecidableEq, Repr

/-- What an engine needs to check a package. -/
structure VerifyRequest where
  input : Path
  minSdk : Option Int
  maxSdk : Option Int
  deriving DecidableEq, Repr

/-- What checking a package has come to. -/
structure Verdict where
  verified : Bool
  /-- The schemes that the package verifies with. -/
  schemes : Schemes
  /-- The certificates of the signers, in order. -/
  certificates : List Certificate
  errors : List String
  warnings : List String
  deriving DecidableEq, Repr

/-- What signs and checks packages. -/
structure SigningEngine where
  /-- The name of the class of the engine. -/
  className : String
  sign : SignRequest → Action Unit
  verify : VerifyRequest → Action Verdict

/-- The registered engines and those advertised elsewhere. -/
structure EngineCatalogue where
  registered : PluginRegistry SigningEngine
  advertised : List (EntryPoint SigningEngine)

namespace EngineCatalogue

/-- The name of the engine to use when none is given. -/
def defaultName : String := "apksigtool"

/-- A registry without engines. It accepts every engine. -/
def noEngines : PluginRegistry SigningEngine :=
  .empty "signing-engines" "SigningEngine" fun _ => true

/-- The registry with the advertised engines too. -/
def loaded (c : EngineCatalogue) : Except Fault (PluginRegistry SigningEngine) :=
  let (outcome, registry) := PluginRegistry.loadAll c.advertised c.registered
  outcome.map fun () => registry

/-- The names of engines as listed in messages. -/
def listed (names : List String) : String :=
  if names.isEmpty then "none" else ", ".intercalate names

/-- The engine with a name. -/
def find (c : EngineCatalogue) (name : String) : Except Fault SigningEngine := do
  let registry ← c.loaded
  match registry.get name with
  | .ok engine => return engine
  | .error _ => throw (.engine (.unknown name (listed registry.names)))

end EngineCatalogue
end PackageSigning
