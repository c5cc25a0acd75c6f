import PackageSigning.Key.Reading
import PackageSigning.Key.Sealing
import PackageSigning.Key.Writing
import PackageSigning.Pem

/-!
# Keys in PEM

A stored key is a block with the label of its form: the general form, plain or
sealed under a password, or one of the older forms, whose blocks can be
encrypted as a whole. Keys are written in the general form.
-/

namespace PackageSigning

/-- The bytes that make a sealed key differ from any other. -/
structure SealNoise where
  salt : Bytes
  initial : Bytes
  deriving DecidableEq, Repr

namespace SealNoise

/-- Noise that is none. -/
def silent : SealNoise := ⟨List.replicate 16 0, List.replicate 16 0⟩

end SealNoise

namespace KeyArmour

/-- The label of a key in the general form. -/
def plainLabel : String := "PRIVATE KEY"

/-- The label of a sealed key. -/
def sealedLabel : String := "ENCRYPTED PRIVATE KEY"

/-- The labels of keys. -/
def labels : List String :=
  [plainLabel, sealedLabel, "RSA PRIVATE KEY", "EC PRIVATE KEY", "DSA PRIVATE KEY"]

/-- The last header with a name. -/
def header? (block : PemBlock) (name : String) : Option String := block.headers.reverse.lookup name

/-- The ciphers of whole blocks, by name. -/
def blockCipher? : String → Option ContentCipher
  | "AES-128-CBC" => some (.aes 16)
  | "AES-256-CBC" => some (.aes 32)
  | "DES-EDE3-CBC" => some .tripleDes
  | _ => none

/-- Digests of password and salt in a chain, one for each unit of fuel. -/
def digestChain (password salt : Bytes) : Nat → Bytes → Bytes
  | 0, _ => []
  | fuel + 1, last =>
    let next := DigestAlgorithm.md5.hash (last ++ password ++ salt)
    next ++ digestChain password salt fuel next

/-- The contents of a block that is encrypted as a whole, as its headers tell. -/
def openBlock? (block : PemBlock) (password : Bytes) : Option Bytes := do
  let info ← header? block "DEK-Info"
  let name := info.toList.takeWhile (· != ',')
  let initial ← Bytes.ofHexDigits? ((info.toList.dropWhile (· != ',')).drop 1)
  let cipher ← blockCipher? (String.ofList name)
  if initial.length ≠ cipher.initialLength then none
  else
    let key := digestChain password (initial.take 8) 2 []
    cipher.open? (key.take cipher.keyLength) initial block.contents

/-- The refusal of a key as a fault. -/
def refuse : KeyRefusal → Fault
  | .malformed => .mishap .badValue
  | .unknownCurve => .mishap .unsupported

/-- What a reader of keys makes of contents. -/
def readWith (reader : Bytes → Except KeyRefusal PrivateKey) (contents : Bytes) :
    Except Fault PrivateKey :=
  match reader contents with
  | .ok k => .ok k
  | .error refusal => .error (refuse refusal)

/-- The key in a sealed block. -/
def readSealed [Platform] (contents : Bytes) : Option Bytes → Except Fault PrivateKey
  | none => .error (.mishap .wrongType)
  | some password =>
    match SealScheme.sealedData.whole? contents with
    | none => .error (.mishap .badValue)
    | some (scheme, data) =>
      match scheme.opened password data with
      | .error mishap => .error (.mishap mishap)
      | .ok plain => readWith KeyReading.privateKey plain

/-- The reader of the keys with a label. -/
def readerOf (label : String) : Bytes → Except KeyRefusal PrivateKey :=
  if label = "RSA PRIVATE KEY" then KeyReading.rsaKey
  else if label = "EC PRIVATE KEY" then KeyReading.ecKey none
  else if label = "DSA PRIVATE KEY" then KeyReading.oldDsaKey
  else KeyReading.privateKey

/-- The contents of a block, and whether a password was used for them. -/
def contentsOf (block : PemBlock) (password : Option Bytes) : Except Fault (Bytes × Bool) :=
  match header? block "Proc-Type" with
  | none => .ok (block.contents, false)
  | some type =>
    if type ≠ "4,ENCRYPTED" then .error (.mishap .badValue)
    else match password with
      | none => .error (.mishap .wrongType)
      | some password =>
        match openBlock? block password with
        | some contents => .ok (contents, true)
        | none => .error (.mishap .badValue)

/-- The key in a block. A password that is not needed is refused. -/
def readBlock [Platform] (block : PemBlock) (password : Option Bytes) : Except Fault PrivateKey := do
  let (contents, used) ← contentsOf block password
  if block.label = sealedLabel then readSealed contents password
  else
    let key ← readWith (readerOf block.label) contents
    if password.isSome ∧ !used then throw (.mishap .wrongType) else return key

/-- The first key in a text. -/
def read [Platform] (text : Bytes) (password : Option Bytes) : Except Fault PrivateKey :=
  match (Pem.blocks? text).bind (·.find? fun block => labels.contains block.label) with
  | none => .error (.mishap .badValue)
  | some block => readBlock block password

/-- The longest password that a key is sealed under, in bytes. -/
def maxPassword : Nat := 1023

/-- How often the digest is applied when a key is sealed. -/
def iterations : Nat := 2048

open Asn1 in
/-- The scheme that keys are sealed with, as it is written. -/
def sealingScheme (noise : SealNoise) : Bytes :=
  algorithm [1, 2, 840, 113549, 1, 5, 13] <| sequence
    [algorithm [1, 2, 840, 113549, 1, 5, 12] <| sequence
      [octets noise.salt, natural iterations, algorithm [1, 2, 840, 113549, 2, 9] null],
     algorithm [2, 16, 840, 1, 101, 3, 4, 1, 42] (octets noise.initial)]

/-- A key sealed under a password. -/
def sealKey (noise : SealNoise) (k : PrivateKey) (password : Bytes) : Bytes :=
  let key := KeyDerivation.pbkdf2 .sha256 password noise.salt iterations 32
  let keys := Cipher.Aes.roundKeys key
  let data := Cipher.sealChain 16 (Cipher.Aes.encryptBlock keys) noise.initial
    (KeyWriting.privateKey k)
  Asn1.sequence [sealingScheme noise, Asn1.octets data]

/-- A key as text, sealed if there is a password and it is not empty. -/
def write (noise : SealNoise) (k : PrivateKey) (password : Option Bytes) : Except Fault String :=
  match password.filter (!·.isEmpty) with
  | none => .ok (Pem.encode plainLabel (KeyWriting.privateKey k))
  | some password =>
    if maxPassword < password.length then .error (.mishap .badValue)
    else .ok (Pem.encode sealedLabel (sealKey noise k password))

end KeyArmour
end PackageSigning
