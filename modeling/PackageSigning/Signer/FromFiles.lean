import PackageSigning.Certificate.Bundle
import PackageSigning.Key.Encrypted
import PackageSigning.Key.Factory
import PackageSigning.Signer.FromStore

/-!
# Signers from files

A key file holds a private key, encrypted or not, and a certificate file the
certificates that vouch for it. Passwords are asked for only when the key is
encrypted; to name passwords for a key that is not is a fault.
-/

namespace PackageSigning.SignerSettings
open PackageSigning.Action

/-- The private key, not yet decoded, in the contents of a key file. -/
def plainKey [Platform] (s : SignerSettings) (file : String) (contents : Bytes) : Action Bytes :=
  match EncryptedKey.ofBytes contents with
  | .ok k => do
    let passwords ← s.passwords (specOrInput s.keyPassword)
      s!"Private key password for {s.callName}"
    ofResult (k.decryptFirst passwords)
  | .error (.parse _) =>
    if s.keyPassword.isSome then throw (.parse (.encryptedKeyFile file)) else return contents
  | .error fault => throw fault

/-- Names the key file in the report of a key that no factory takes. -/
def nameUndecoded (file : String) : Fault → Fault
  | .unsupportedKey problem =>
    .unsupportedKey (.notLoadable file ((Fault.unsupportedKey problem).messageWith Text.quoted))
  | fault => fault

/-- The key in a key file. -/
def fileKey [Platform] (s : SignerSettings) (services : Services) (file : String) : Action PrivateKey := do
  let contents ← ofResult (Pem.unarmor (← contentsOf (Path.ofText file)))
  let plain ← s.plainKey file contents
  ofResult ((services.registry.decodeKey plain).1.mapError (nameUndecoded file))

/-- The signer in a key file and a certificate file. -/
def fromFiles [Platform] (s : SignerSettings) (services : Services) (file : String) :
    Action LoadedSigner := do
  match s.certificateFile with
  | none => throw (.configuration .certificateFileMissing)
  | some certificateFile =>
    let key ← s.fileKey services file
    let certificates ← ofResult
      (CertificateBundle.read (← contentsOf (Path.ofText certificateFile)))
    if certificates.isEmpty then throw (.noCertificates (.file certificateFile))
    return ⟨none, key, certificates⟩

end PackageSigning.SignerSettings
