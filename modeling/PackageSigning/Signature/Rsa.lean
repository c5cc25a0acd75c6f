import PackageSigning.Arithmetic.Modular
import PackageSigning.Asn1.Written
import PackageSigning.Digest
import PackageSigning.Key

/-!
# RSA signatures

A digest is padded to the length of the modulus, and the padded number raised to
the private exponent. Of two paddings one is fixed (PKCS #1, version 1.5) and
one holds salt under a mask (PSS).
-/

namespace PackageSigning.Rsa

/-- The identifier of a digest. -/
def digestId : DigestAlgorithm → ObjectId
  | .md5 => [1, 2, 840, 113549, 2, 5]
  | .sha1 => [1, 3, 14, 3, 2, 26]
  | .sha224 => [2, 16, 840, 1, 101, 3, 4, 2, 4]
  | .sha256 => [2, 16, 840, 1, 101, 3, 4, 2, 1]
  | .sha384 => [2, 16, 840, 1, 101, 3, 4, 2, 2]
  | .sha512 => [2, 16, 840, 1, 101, 3, 4, 2, 3]

/-- The length of a modulus in bytes. -/
def size (modulus : Nat) : Nat := (Bytes.bitLength modulus + 7) / 8

/-- The fixed padding of a message's digest to a length, if there is room. -/
def fixedPadding? (digest : DigestAlgorithm) (length : Nat) (message : Bytes) : Option Bytes :=
  let t := Asn1.sequence
    [Asn1.algorithm (digestId digest) Asn1.null, Asn1.octets (digest.hash message)]
  if length < t.length + 11 then none
  else some ([0, 1] ++ List.replicate (length - t.length - 3) 255 ++ 0 :: t)

/-- A mask of some length from a seed. -/
def mask (digest : DigestAlgorithm) (seed : Bytes) (length : Nat) : Bytes :=
  let count := (length + digest.size - 1) / digest.size
  ((List.range count).flatMap fun i => digest.hash (seed ++ Bytes.ofNat 4 i)).take length

/-- The digest of a message's digest with salt. -/
def saltedDigest (digest : DigestAlgorithm) (message salt : Bytes) : Bytes :=
  digest.hash (List.replicate 8 0 ++ digest.hash message ++ salt)

/-- Bytes of which only the last bits are kept, as many as fit `bits`. -/
def keepBits (bits : Nat) (b : Bytes) : Bytes := Bytes.ofNat b.length (Bytes.toNat b % Nat.pow 2 bits)

/-- The salted padding of a message's digest to so many bits, if there is room. -/
def saltedPadding? (digest : DigestAlgorithm) (bits : Nat) (message salt : Bytes) :
    Option Bytes :=
  let length := (bits + 7) / 8
  if length < digest.size + salt.length + 2 then none
  else
    let h := saltedDigest digest message salt
    let room := length - digest.size - 1
    let block := List.replicate (room - salt.length - 1) 0 ++ 1 :: salt
    let masked := Bytes.xor block (mask digest h room)
    some (keepBits bits (masked ++ h ++ [188]))

/-- Whether padded bytes hold a message's digest with salt of some length. -/
def holdsSalted (digest : DigestAlgorithm) (bits saltLength : Nat) (message padded : Bytes) :
    Bool :=
  let length := (bits + 7) / 8
  if length < digest.size + saltLength + 2 then false
  else
    let room := length - digest.size - 1
    let h := (padded.drop room).take digest.size
    let block := Bytes.xor (padded.take room) (mask digest h room)
    let salt := block.drop (room - saltLength)
    saltedPadding? digest bits message salt == some padded

/-- How padded digests are signed: raised to the private exponent. -/
def sign (k : RsaKey) (padded : Bytes) : Bytes :=
  Bytes.ofNat (size k.modulus) (Arithmetic.powMod k.modulus (Bytes.toNat padded) k.privateExponent)

/-- The padded digest of so many bytes that a signature holds. -/
def padded? (modulus exponent length : Nat) (signature : Bytes) : Option Bytes :=
  let s := Bytes.toNat signature
  if signature.length ≠ size modulus ∨ modulus ≤ s then none
  else
    let m := Arithmetic.powMod modulus s exponent
    if m < Nat.pow 256 length then some (Bytes.ofNat length m) else none

/-- The padded digest of a message, with salt or without. -/
def pad? (digest : DigestAlgorithm) (salt : Option Bytes) (modulus : Nat) (message : Bytes) :
    Option Bytes :=
  match salt with
  | none => fixedPadding? digest (size modulus) message
  | some salt => saltedPadding? digest (Bytes.bitLength modulus - 1) message salt

/-- Whether a signature is that of a message. -/
def verify (digest : DigestAlgorithm) (salted : Bool) (modulus exponent : Nat)
    (signature message : Bytes) : Bool :=
  if salted then
    let bits := Bytes.bitLength modulus - 1
    match padded? modulus exponent ((bits + 7) / 8) signature with
    | some padded => holdsSalted digest bits digest.size message padded
    | none => false
  else
    match padded? modulus exponent (size modulus) signature with
    | some padded => fixedPadding? digest (size modulus) message == some padded
    | none => false

end PackageSigning.Rsa
