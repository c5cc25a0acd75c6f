import PackageSigning.Bytes

/-!
# Keys

The numbers and byte strings that make up private and public keys. What can be
done with them is in the modules below `Key`.
-/

namespace PackageSigning

/-- The elliptic curves: over prime fields, and (`t`) over fields of characteristic two. -/
inductive Curve where
  | p192
  | p224
  | p256
  | p384
  | p521
  | k256
  | b256
  | b384
  | b512
  | t163k1
  | t163r2
  | t233k1
  | t233r1
  | t283k1
  | t283r1
  | t409k1
  | t409r1
  | t571k1
  | t571r1
  deriving DecidableEq, Repr

namespace Curve

/-- Every curve. -/
def all : List Curve :=
  [p192, p224, p256, p384, p521, k256, b256, b384, b512,
   t163k1, t163r2, t233k1, t233r1, t283k1, t283r1, t409k1, t409r1, t571k1, t571r1]

/-- The name of the curve. -/
def name : Curve → String
  | p192 => "secp192r1"
  | p224 => "secp224r1"
  | p256 => "secp256r1"
  | p384 => "secp384r1"
  | p521 => "secp521r1"
  | k256 => "secp256k1"
  | b256 => "brainpoolP256r1"
  | b384 => "brainpoolP384r1"
  | b512 => "brainpoolP512r1"
  | t163k1 => "sect163k1"
  | t163r2 => "sect163r2"
  | t233k1 => "sect233k1"
  | t233r1 => "sect233r1"
  | t283k1 => "sect283k1"
  | t283r1 => "sect283r1"
  | t409k1 => "sect409k1"
  | t409r1 => "sect409r1"
  | t571k1 => "sect571k1"
  | t571r1 => "sect571r1"

/-- The length of a field element in bits. -/
def bits : Curve → Nat
  | p192 => 192
  | p224 => 224
  | p256 | k256 | b256 => 256
  | p384 | b384 => 384
  | b512 => 512
  | p521 => 521
  | t163k1 | t163r2 => 163
  | t233k1 | t233r1 => 233
  | t283k1 | t283r1 => 283
  | t409k1 | t409r1 => 409
  | t571k1 | t571r1 => 571

end Curve

/-- The kinds of keys that cannot sign packages but can be read. -/
inductive EdwardsKind where
  | ed25519
  | ed448
  | x25519
  | x448
  deriving DecidableEq, Repr

namespace EdwardsKind

/-- The name used in the names of key types. -/
def name : EdwardsKind → String
  | ed25519 => "Ed25519"
  | ed448 => "Ed448"
  | x25519 => "X25519"
  | x448 => "X448"

/-- The length of a private key in bytes. -/
def keyLength : EdwardsKind → Nat
  | ed25519 | x25519 => 32
  | ed448 => 57
  | x448 => 56

end EdwardsKind

/-- An RSA private key with the values that speed up its use. -/
structure RsaKey where
  modulus : Nat
  publicExponent : Nat
  privateExponent : Nat
  prime1 : Nat
  prime2 : Nat
  exponent1 : Nat
  exponent2 : Nat
  coefficient : Nat
  deriving DecidableEq, Repr

/-- The group of a DSA key: `generator` has order `order` modulo `modulus`. -/
structure DsaGroup where
  modulus : Nat
  order : Nat
  generator : Nat
  deriving DecidableEq, Repr

/-- A private key. -/
inductive PrivateKey where
  | rsa (key : RsaKey)
  | ec (curve : Curve) (scalar : Nat)
  | dsa (group : DsaGroup) (secret : Nat)
  | edwards (kind : EdwardsKind) (secret : Bytes)
  deriving DecidableEq, Repr

/-- A public key. -/
inductive PublicKey where
  | rsa (modulus exponent : Nat)
  | ec (curve : Curve) (x y : Nat)
  | dsa (group : DsaGroup) (value : Nat)
  | edwards (kind : EdwardsKind) (value : Bytes)
  deriving DecidableEq, Repr

namespace PrivateKey

/-- The name of the type of key. -/
def typeName : PrivateKey → String
  | rsa _ => "RSAPrivateKey"
  | ec .. => "ECPrivateKey"
  | dsa .. => "DSAPrivateKey"
  | edwards kind _ => kind.name ++ "PrivateKey"

/-- Whether the key can sign packages. -/
def canSign : PrivateKey → Bool
  | edwards .. => false
  | _ => true

end PrivateKey

namespace PublicKey

/-- The name of the type of key. -/
def typeName : PublicKey → String
  | rsa .. => "RSAPublicKey"
  | ec .. => "ECPublicKey"
  | dsa .. => "DSAPublicKey"
  | edwards kind _ => kind.name ++ "PublicKey"

/-- The size in bits of keys that can sign packages. -/
def bits? : PublicKey → Option Nat
  | rsa modulus _ => some (Bytes.bitLength modulus)
  | ec curve .. => some curve.bits
  | dsa group _ => some (Bytes.bitLength group.modulus)
  | edwards .. => none

end PublicKey
end PackageSigning
