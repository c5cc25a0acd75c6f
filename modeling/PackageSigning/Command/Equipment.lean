import PackageSigning.Engine
import PackageSigning.Signer.Loading

/-!
# What commands work with

The providers, engines and notary that are at hand, and the loading of signers,
which ends with every password wiped whether it succeeds or not.
-/

namespace PackageSigning

/-- What commands work with. -/
structure Equipment where
  services : Services
  engines : EngineCatalogue
  notary : Notary

namespace Equipment

/-- The providers after the user's own have been installed. -/
def equipped (e : Equipment) (requests : List ProviderRequest) : Except Fault Services :=
  let (outcome, registry) :=
    ProviderRequest.installAll e.services.catalogue requests e.services.registry
  outcome.map fun () => { e.services with registry }

end Equipment

namespace SignerSettings
open PackageSigning.Action

/-- Loads a signer that goes by a name until then. -/
def loadAs [Platform] (s : SignerSettings) (name : String) (services : Services) :
    Action SignerSettings :=
  { s with name := some name }.load services

/-- Runs an action that uses passwords, and wipes them. -/
def wiping (x : Action α) : Action α := finally_ x (query .closeVault)

end SignerSettings
end PackageSigning
