import PackageSigning.Certificate.Bundle
import PackageSigning.Command.Console
import PackageSigning.Capabilities
import PackageSigning.Digest
import PackageSigning.Key.Writing

/-!
# Reports on certificates

Whom a certificate names and the digests of its encoding; in detail also its key.
-/

namespace PackageSigning.CertificateReport
open PackageSigning.Action

/-- Lines with the digests of some bytes. -/
def digestLines (what : String) (b : Bytes) : List String :=
  [s!"{what} SHA-256 digest: {Bytes.toHex (DigestAlgorithm.sha256.hash b)}",
   s!"{what} SHA-1 digest: {Bytes.toHex (DigestAlgorithm.sha1.hash b)}",
   s!"{what} MD5 digest: {Bytes.toHex (DigestAlgorithm.md5.hash b)}"]

/-- The algorithm of a key as shown. -/
def algorithmName : PublicKey → String
  | .rsa .. => "RSA"
  | .ec .. => "EC"
  | .dsa .. => "DSA"
  | key => key.typeName

/-- Lines about a key. -/
def keyLines (name : String) (key : PublicKey) : List String :=
  let size := (key.bits?.map toString).getD "n/a"
  [s!"{name} key algorithm: {algorithmName key}", s!"{name} key size (bits): {size}"] ++
    digestLines s!"{name} public key" (KeyWriting.publicKey key)

/-- Shows a certificate under a name, in detail if asked for. -/
def show_ [Platform] (name : String) (detailed : Bool) (c : Certificate) : Action Unit := do
  let subject ← ofResult c.subject.read
  Console.say s!"{name} certificate DN: {Markup.escape subject.toText}"
  (digestLines s!"{name} certificate" c.der).forM Console.say
  if detailed then
    let key ← ofResult c.publicKey
    (keyLines name key).forM Console.say

/-- Lines about what a signer may do. -/
def capabilityLines (c : Capabilities) : List String :=
  [s!"Has installed data capability: {Console.yesNo c.granted.installedData}",
   s!"Has shared UID capability    : {Console.yesNo c.granted.sharedUid}",
   s!"Has permission capability    : {Console.yesNo c.granted.permission}",
   s!"Has rollback capability      : {Console.yesNo c.granted.rollback}",
   s!"Has auth capability          : {Console.yesNo c.granted.auth}"]

/-- Shows what a signer may do. -/
def showCapabilities [Platform] (c : Capabilities) : Action Unit :=
  (capabilityLines c).forM Console.say

/-- Runs an action on each thing with its number, the first of which is given. -/
def numbered (f : Nat → α → Action Unit) : Nat → List α → Action Unit
  | _, [] => return
  | number, a :: rest => do
    f number a
    numbered f (number + 1) rest

end PackageSigning.CertificateReport
