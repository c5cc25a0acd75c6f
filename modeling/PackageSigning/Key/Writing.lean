import PackageSigning.Asn1.Written
import PackageSigning.Key.Algorithm
import PackageSigning.Key.Point

/-!
# Writing keys

The general form of a private key (PKCS #8) names the algorithm and holds the key
in its own form. An EC key is written with its point, and its curve is named
outside only. A public key is written in the form that certificates hold.
-/

namespace PackageSigning.KeyWriting
open Asn1

/-- An RSA key in its own form. -/
def rsaNumbers (k : RsaKey) : Bytes :=
  sequence <| ([0, k.modulus, k.publicExponent, k.privateExponent, k.prime1, k.prime2,
    k.exponent1, k.exponent2, k.coefficient]).map natural

/-- The point of an EC key, as a field. -/
def pointField (curve : Curve) (scalar : Nat) : Bytes :=
  match curve.multiple? scalar with
  | some (x, y) => field 1 [bitString (curve.pointBytes x y)]
  | none => []

/-- An EC key in its own form. -/
def ecParts (curve : Curve) (scalar : Nat) : Bytes :=
  sequence [natural 1, octets (Bytes.ofNat ((Bytes.bitLength curve.order + 7) / 8) scalar),
    pointField curve scalar]

/-- The three numbers of a DSA group. -/
def dsaGroup (g : DsaGroup) : Bytes :=
  sequence [natural g.modulus, natural g.order, natural g.generator]

/-- The algorithm of a key. -/
def algorithmOf : PrivateKey → Bytes
  | .rsa _ => algorithm KeyAlgorithm.rsa.objectId null
  | .ec curve _ => algorithm KeyAlgorithm.ec.objectId (objectId curve.objectId)
  | .dsa group _ => algorithm KeyAlgorithm.dsa.objectId (dsaGroup group)
  | .edwards kind _ => algorithm kind.objectId []

/-- A key in its own form. -/
def ownForm : PrivateKey → Bytes
  | .rsa k => rsaNumbers k
  | .ec curve n => ecParts curve n
  | .dsa _ x => natural x
  | .edwards _ secret => octets secret

/-- A private key in the general form. -/
def privateKey (k : PrivateKey) : Bytes :=
  sequence [natural 0, algorithmOf k, octets (ownForm k)]

/-- A public key together with its algorithm. -/
def publicKey : PublicKey → Bytes
  | .rsa n e =>
    sequence [algorithm KeyAlgorithm.rsa.objectId null,
      bitString (sequence [natural n, natural e])]
  | .ec curve x y =>
    sequence [algorithm KeyAlgorithm.ec.objectId (objectId curve.objectId),
      bitString (curve.pointBytes x y)]
  | .dsa group y =>
    sequence [algorithm KeyAlgorithm.dsa.objectId (dsaGroup group), bitString (natural y)]
  | .edwards kind value => sequence [algorithm kind.objectId [], bitString value]

end PackageSigning.KeyWriting
