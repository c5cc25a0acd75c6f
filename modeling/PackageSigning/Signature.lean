import PackageSigning.Certificate.Bundle
import PackageSigning.Signature.Algorithm
import PackageSigning.Signature.Group
import PackageSigning.Signature.Rsa

/-!
# Signatures

Signing with a private key and checking with a public one, for every algorithm.
A notary (`Notary`) is what lineages rely on: it reads certificates, tells their
keys, signs and checks.
-/

namespace PackageSigning

namespace SignatureAlgorithm

/-- Salt for a signature, from noise and the message. -/
def saltFor (a : SignatureAlgorithm) (k : RsaKey) (noise message : Bytes) : Option Bytes :=
  if a.isSalted then
    some (a.digest.hmac (Bytes.ofNat (Rsa.size k.modulus) k.privateExponent) (message ++ noise))
  else none

/-- The signature of a message. -/
def sign (a : SignatureAlgorithm) (noise : Bytes) (key : PrivateKey) (message : Bytes) :
    Option Bytes :=
  match key with
  | .rsa k => (Rsa.pad? a.digest (a.saltFor k noise message) k.modulus message).map (Rsa.sign k)
  | .ec curve n =>
    (SigningGroup.ofCurve curve 0 0).sign? n noise (a.digest.hash message)
  | .dsa g x => (SigningGroup.ofDsa g 0).sign? x noise (a.digest.hash message)
  | .edwards .. => none

/-- Whether a key has room for a digest and its padding, as salted padding takes it. -/
def hasRoom (a : SignatureAlgorithm) : PublicKey → Bool
  | .rsa n _ => !a.isSalted || a.digest.size + 2 ≤ Rsa.size n
  | _ => true

/-- Whether a signature is that of a message. -/
def verify (a : SignatureAlgorithm) (key : PublicKey) (signature message : Bytes) : Bool :=
  match key with
  | .rsa n e => Rsa.verify a.digest a.isSalted n e signature message
  | .ec curve x y => (SigningGroup.ofCurve curve x y).verify signature (a.digest.hash message)
  | .dsa g y => (SigningGroup.ofDsa g y).verify signature (a.digest.hash message)
  | .edwards .. => false

end SignatureAlgorithm

/-- What reads certificates, signs and checks signatures. -/
structure Notary where
  readCertificate : Bytes → Except Fault Certificate
  publicKey : Certificate → Except Fault PublicKey
  /-- Signs a message with a key of the kind that the algorithm goes with. -/
  sign : SignatureAlgorithm → PrivateKey → Bytes → Except Fault Bytes
  /-- Checks a signature and a message with a key of the kind that the algorithm goes with. Some
  keys cannot be asked. -/
  check : SignatureAlgorithm → PublicKey → Bytes → Bytes → Except Fault Bool

namespace Notary

/-- The usual notary; `noise` makes its signatures differ from those with other noise. -/
def standard (noise : Bytes) : Notary where
  readCertificate := CertificateBundle.one
  publicKey := Certificate.publicKey
  sign := fun a key message => (a.sign noise key message).elim (.error (.mishap .badValue)) .ok
  check := fun a key signature message =>
    if a.hasRoom key then .ok (a.verify key signature message) else .error (.mishap .badValue)

/-- The algorithm that a key should sign with. -/
def suggested (key : PublicKey) : Except Fault SignatureAlgorithm :=
  match SignatureAlgorithm.suggested? key with
  | some a => .ok a
  | none => .error (.lineage (.unsupportedKeyType key.typeName))

/-- The algorithm with a number. -/
def algorithm (id : Int) : Except Fault SignatureAlgorithm :=
  match SignatureAlgorithm.ofId? id with
  | some a => .ok a
  | none => .error (.lineage (.unknownAlgorithm id))

/-- The name of the type of a key that may be missing. -/
def keyTypeName : Option PrivateKey → String
  | some key => key.typeName
  | none => "NoneType"

/-- Signs a message with an algorithm given by its number. -/
def signWith (n : Notary) (key : Option PrivateKey) (id : Int) (message : Bytes) :
    Except Fault Bytes := do
  let a ← algorithm id
  match key.filter (·.signingKind? = some a.kind) with
  | some key => n.sign a key message
  | none => throw (.lineage (.keyCannotSign (keyTypeName key) id))

/-- Whether a signature under an algorithm, given by its number, is that of a
message. Keys of other kinds check nothing. -/
def checkWith (n : Notary) (key : PublicKey) (id : Int) (signature message : Bytes) :
    Except Fault Bool := do
  let a ← algorithm id
  if key.signingKind? = some a.kind then n.check a key signature message else return false

end Notary
end PackageSigning
