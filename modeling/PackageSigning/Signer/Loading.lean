import PackageSigning.Lineage.Node
import PackageSigning.Signer.FromFiles

/-!
# Loading signers

A signer comes from a keystore or from files, never from both. Whatever keeps it
from loading is reported together with the name of the signer.
-/

namespace PackageSigning.SignerSettings
open PackageSigning.Action

/-- The key and the certificates that the settings lead to. -/
def source [Platform] (s : SignerSettings) (services : Services) : Action LoadedSigner :=
  match s.keystoreFile, s.keyFile with
  | some store, none =>
    if s.certificateFile.isSome then throw (.configuration .storeAndCertificateFile)
    else s.fromStore services store
  | some _, some _ => throw (.configuration .storeAndKeyFile)
  | none, some file => s.fromFiles services file
  | none, none => throw (.configuration .noKeySource)

/-- Whether a fault says why a signer does not load: the tool's own faults and those of
the file system do. -/
def explainsRefusal : Fault → Bool
  | .file fault => fault.isSystem
  | fault => fault.isOwn

/-- Names the signer in a fault that says why it does not load. -/
def nameRefused (signer : String) (fault : Fault) : Fault :=
  if explainsRefusal fault then .credential signer fault else fault

/-- The settings of a signer that has been loaded, which is called by its key from now on. -/
def completed (s : SignerSettings) (loaded : LoadedSigner) : SignerSettings :=
  let s := { s with
    keystoreAlias := (loaded.keystoreAlias.map EntryName.kept?).getD s.keystoreAlias
    key := some loaded.key
    certificates := some loaded.certificates }
  { s with name := s.keyName }

/-- Loads the key and the certificates of a signer. -/
def load [Platform] (s : SignerSettings) (services : Services) : Action SignerSettings := do
  let loaded ← tryCatch (s.source services) fun fault => throw (nameRefused s.callName fault)
  return s.completed loaded

/-- A loaded signer as one of a lineage, with its first certificate, under a name of its
own or another one. -/
def lineageSigner (s : SignerSettings) (name : Option String) : Except Fault LineageSigner :=
  let name := (name.filter (!·.isEmpty)).orElse fun _ => s.name.map (·.shown)
  match s.key, s.certificates with
  | some key, some (certificate :: _) => .ok ⟨some key, certificate, name⟩
  | _, _ => .error (.configuration (.signerNotLoaded (name.getD "None")))

end PackageSigning.SignerSettings
