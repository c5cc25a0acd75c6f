import PackageSigning.Digest
import PackageSigning.Key

/-!
# Signature algorithms

The algorithms that packages and lineages are signed with, each with the number
that stands for it. An algorithm goes with keys of one kind.
-/

namespace PackageSigning

/-- A signature algorithm. -/
inductive SignatureAlgorithm where
  | rsaPssSha256
  | rsaPssSha512
  | rsaSha256
  | rsaSha512
  | ecdsaSha256
  | ecdsaSha512
  | dsaSha256
  | verityRsaSha256
  | verityEcdsaSha256
  | verityDsaSha256
  deriving DecidableEq, Repr

/-- A kind of keys that can sign. -/
inductive SigningKind where
  | rsa
  | ec
  | dsa
  deriving DecidableEq, Repr

namespace PrivateKey

/-- The kind of a key that can sign. -/
def signingKind? : PrivateKey → Option SigningKind
  | rsa _ => some .rsa
  | ec .. => some .ec
  | dsa .. => some .dsa
  | edwards .. => none

end PrivateKey

namespace PublicKey

/-- The kind of a key that can check signatures. -/
def signingKind? : PublicKey → Option SigningKind
  | rsa .. => some .rsa
  | ec .. => some .ec
  | dsa .. => some .dsa
  | edwards .. => none

end PublicKey

namespace SignatureAlgorithm

/-- Every algorithm. -/
def all : List SignatureAlgorithm :=
  [rsaPssSha256, rsaPssSha512, rsaSha256, rsaSha512, ecdsaSha256, ecdsaSha512, dsaSha256,
   verityRsaSha256, verityEcdsaSha256, verityDsaSha256]

/-- The number that stands for an algorithm. -/
def id : SignatureAlgorithm → Nat
  | rsaPssSha256 => 0x0101
  | rsaPssSha512 => 0x0102
  | rsaSha256 => 0x0103
  | rsaSha512 => 0x0104
  | ecdsaSha256 => 0x0201
  | ecdsaSha512 => 0x0202
  | dsaSha256 => 0x0301
  | verityRsaSha256 => 0x0421
  | verityEcdsaSha256 => 0x0423
  | verityDsaSha256 => 0x0425

/-- The algorithm with a number. -/
def ofId? (id : Int) : Option SignatureAlgorithm := all.find? fun a => (a.id : Int) = id

/-- The kind of keys that an algorithm goes with. -/
def kind : SignatureAlgorithm → SigningKind
  | rsaPssSha256 | rsaPssSha512 | rsaSha256 | rsaSha512 | verityRsaSha256 => .rsa
  | ecdsaSha256 | ecdsaSha512 | verityEcdsaSha256 => .ec
  | dsaSha256 | verityDsaSha256 => .dsa

/-- The digest of what is signed. -/
def digest : SignatureAlgorithm → DigestAlgorithm
  | rsaPssSha512 | rsaSha512 | ecdsaSha512 => .sha512
  | _ => .sha256

/-- Whether the digest is padded with salt. -/
def isSalted : SignatureAlgorithm → Bool
  | rsaPssSha256 | rsaPssSha512 => true
  | _ => false

/-- The largest RSA key, in bits, that signs with the shorter digest. -/
def maxShortRsa : Nat := 3072

/-- The largest EC key, in bits, that signs with the shorter digest. -/
def maxShortEc : Nat := 256

/-- The algorithm that a key should sign with. -/
def suggested? : PublicKey → Option SignatureAlgorithm
  | .rsa n _ => some (if Bytes.bitLength n ≤ maxShortRsa then rsaSha256 else rsaSha512)
  | .ec curve .. => some (if curve.bits ≤ maxShortEc then ecdsaSha256 else ecdsaSha512)
  | .dsa .. => some dsaSha256
  | .edwards .. => none

end SignatureAlgorithm
end PackageSigning
