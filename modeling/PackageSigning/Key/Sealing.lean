import PackageSigning.Asn1.Strict
import PackageSigning.Cipher.Content
import PackageSigning.KeyDerivation.Pkcs12
import PackageSigning.KeyDerivation.Scrypt
import PackageSigning.Text.Encoding

/-!
# Sealed data

Stored keys and certificates can be encrypted under a password. A scheme says
how key and initial value come from the password: by a derivation of its own
(the older schemes), or by one that is named beside the cipher (PBES2). `open?` is what
comes of the numbers, `opened` leaves it to the platform whether they are worked with.
-/

namespace PackageSigning

/-- A derivation that is named beside the cipher. -/
inductive Derivation where
  | pbkdf2 (digest : DigestAlgorithm) (salt : Bytes) (iterations : Nat)
  | scrypt (salt : Bytes) (cost blockSize parallel : Nat)
  deriving DecidableEq, Repr

namespace Derivation

/-- A key from a password, unless the numbers make no sense. -/
def key? (d : Derivation) (password : Bytes) (length : Nat) : Option Bytes :=
  match d with
  | pbkdf2 digest salt iterations =>
    if iterations = 0 then none
    else some (KeyDerivation.pbkdf2 digest password salt iterations length)
  | scrypt salt cost blockSize parallel =>
    if cost < 2 ∨ cost ≠ Nat.pow 2 (Nat.log2 cost) ∨ blockSize = 0 ∨ parallel = 0 then none
    else some (KeyDerivation.Scrypt.derive password salt cost blockSize parallel length)

end Derivation

/-- How data is sealed. -/
inductive SealScheme where
  /-- A named derivation and cipher, with the initial value. -/
  | named (derivation : Derivation) (cipher : ContentCipher) (initial : Bytes)
  /-- The derivation of PKCS #12 for both key and initial value. -/
  | pkcs12 (cipher : ContentCipher) (salt : Bytes) (iterations : Nat)
  /-- One digest, iterated, for both key and initial value of DES. -/
  | digested (digest : DigestAlgorithm) (salt : Bytes) (iterations : Nat)
  deriving DecidableEq, Repr

namespace SealScheme

/-- A password as PKCS #12 digests it: in 16-bit units with a zero unit at the
end. It has to be UTF-8. -/
def wide? (password : Bytes) : Option Bytes := do
  let cs ← Text.Encoding.decodeUtf8 password
  (Text.Encoding.encodeBare (.utf16 (some .big)) (cs ++ [Char.ofNat 0]))

/-- The data that was sealed. Nothing if the password is wrong or empty. -/
def open? (s : SealScheme) (password data : Bytes) : Option Bytes :=
  if password.isEmpty then none
  else match s with
    | named derivation cipher initial => do
      cipher.open? (← derivation.key? password cipher.keyLength) initial data
    | pkcs12 cipher salt iterations => do
      if iterations = 0 then none
      let wide ← wide? password
      let derive (purpose : KeyDerivation.Pkcs12.Purpose) (length : Nat) : Bytes :=
        KeyDerivation.Pkcs12.derive .sha1 purpose wide salt iterations length
      cipher.open? (derive .key cipher.keyLength) (derive .initialValue cipher.initialLength) data
    | digested digest salt iterations => do
      if iterations = 0 then none
      let b := KeyDerivation.pbkdf1 digest password salt iterations
      ContentCipher.des.open? (b.take 8) ((b.drop 8).take 8) data

/-- The derivation that data is sealed with, with the numbers that it may be refused for. -/
def request : SealScheme → DerivationRequest
  | named (.pbkdf2 _ _ iterations) .. => .pbkdf2 iterations
  | named (.scrypt _ cost blockSize parallel) .. => .scrypt cost blockSize parallel
  | pkcs12 _ _ iterations => .pkcs12 iterations
  | digested _ _ iterations => .digested iterations

/-- Whether a password comes to a derivation at all. -/
def derives (s : SealScheme) (password : Bytes) : Bool :=
  !password.isEmpty && (match s with
    | pkcs12 .. => (wide? password).isSome
    | _ => true)

/-- The data that was sealed, unless the platform refuses the derivation. -/
def opened [Platform] (s : SealScheme) (password data : Bytes) : Except Mishap Bytes :=
  match if s.derives password then Platform.refusal s.request else none with
  | some mishap => .error mishap
  | none =>
    match s.open? password data with
    | some plain => .ok plain
    | none => .error .badValue

open Asn1.Strict

/-- A keyed digest by its identifier. -/
def digestOf? : ObjectId → Option DigestAlgorithm
  | [1, 2, 840, 113549, 2, 7] => some .sha1
  | [1, 2, 840, 113549, 2, 8] => some .sha224
  | [1, 2, 840, 113549, 2, 9] => some .sha256
  | [1, 2, 840, 113549, 2, 10] => some .sha384
  | [1, 2, 840, 113549, 2, 11] => some .sha512
  | _ => none

/-- Parameters that are nothing, spelled out or left out. -/
def noParameters : Reader Unit := do
  if (← get).isEmpty then return () else Reader.null

/-- The keyed digest of a derivation. The usual one is left out, never spelled. -/
def keyedDigest : Reader DigestAlgorithm := do
  if (← get).isEmpty then return .sha1
  else Reader.sequence do
    let id ← Reader.objectId
    let parametersGiven := !(← get).isEmpty
    noParameters
    match digestOf? id with
    | some .sha1 => if parametersGiven then failure else return .sha1
    | some d => return d
    | none => failure

/-- A whole number that may be left out. -/
def optionalNatural : Reader (Option Nat) := Reader.optional .integer Reader.natural

/-- A named derivation. -/
def derivation : Reader Derivation :=
  Reader.sequence do
    match ← Reader.objectId with
    | [1, 2, 840, 113549, 1, 5, 12] => Reader.sequence do
      let salt ← Reader.octets
      let iterations ← Reader.natural
      let _ ← optionalNatural
      return .pbkdf2 (← keyedDigest) salt iterations
    | [1, 3, 6, 1, 4, 1, 11591, 4, 11] => Reader.sequence do
      let salt ← Reader.octets
      let cost ← Reader.natural
      let blockSize ← Reader.natural
      let parallel ← Reader.natural
      let _ ← optionalNatural
      return .scrypt salt cost blockSize parallel
    | _ => failure

/-- A string of bytes with a length. -/
def octetsOf (length : Nat) : Reader Bytes := do
  let b ← Reader.octets
  if b.length = length then return b else failure

/-- The version number that stands for 128 bits that count. -/
def rc2Version : Nat := 58

/-- A named cipher and its initial value. -/
def namedCipher : Reader (ContentCipher × Bytes) :=
  Reader.sequence do
    match ← Reader.objectId with
    | [1, 2, 840, 113549, 3, 7] => return (.tripleDes, ← octetsOf 8)
    | [1, 2, 840, 113549, 3, 2] => Reader.sequence do
      let version ← optionalNatural
      if version = some rc2Version then return (.rc2 16 128, ← octetsOf 8) else failure
    | [2, 16, 840, 1, 101, 3, 4, 1, 2] => return (.aes 16, ← octetsOf 16)
    | [2, 16, 840, 1, 101, 3, 4, 1, 22] => return (.aes 24, ← octetsOf 16)
    | [2, 16, 840, 1, 101, 3, 4, 1, 42] => return (.aes 32, ← octetsOf 16)
    | _ => failure

/-- Salt and number of iterations. -/
def saltAndIterations : Reader (Bytes × Nat) :=
  Reader.sequence do
    let salt ← Reader.octets
    let iterations ← Reader.natural
    return (salt, iterations)

/-- The scheme of the derivation of PKCS #12 for a cipher. -/
def pkcs12Scheme (cipher : ContentCipher) : Reader SealScheme := do
  let (salt, iterations) ← saltAndIterations
  return .pkcs12 cipher salt iterations

/-- A scheme: its identifier and parameters. -/
def scheme : Reader SealScheme :=
  Reader.sequence do
    match ← Reader.objectId with
    | [1, 2, 840, 113549, 1, 5, 13] => Reader.sequence do
      let d ← derivation
      let (cipher, initial) ← namedCipher
      return .named d cipher initial
    | [1, 2, 840, 113549, 1, 12, 1, 1] => pkcs12Scheme .rc4
    | [1, 2, 840, 113549, 1, 12, 1, 3] => pkcs12Scheme .tripleDes
    | [1, 2, 840, 113549, 1, 12, 1, 6] => pkcs12Scheme (.rc2 5 40)
    | [1, 2, 840, 113549, 1, 5, 3] => do
      let (salt, iterations) ← saltAndIterations
      if salt.length = 8 then return .digested .md5 salt iterations else failure
    | _ => failure

/-- A scheme and the data that it seals. -/
def sealedData : Reader (SealScheme × Bytes) :=
  Reader.sequence do
    let s ← scheme
    let data ← Reader.octets
    return (s, data)

end SealScheme
end PackageSigning
