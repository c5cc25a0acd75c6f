import PackageSigning.Key.Factory
import PackageSigning.Key.SchemeName
import PackageSigning.Key.Sealing
import PackageSigning.Key.Writing

/-!
# Encrypted private keys

An encrypted key names a scheme and holds the encryption of a private key. The
outside is read loosely, down to the parameters of the scheme.

Keys under PBES2 with PBKDF2 and AES are decrypted as they are: a length in the
derivation wins over that of the cipher, and parameters that the cipher cannot
work with are mishaps. PBES2 may stand in place of its own cipher; then the cipher,
its initial value and its length are looked for inside, whatever derivation is named
there. Keys under other schemes are read strictly, and the key inside is written anew.
-/

namespace PackageSigning

/-- The parameters of PBKDF2 as they stand. -/
structure Pbkdf2Parameters where
  /-- Nothing if the salt is to come from elsewhere. -/
  salt : Option Bytes
  iterations : Int
  keyLength : Option Int
  /-- The name of the keyed digest. -/
  digest : String
  deriving DecidableEq, Repr

/-- The parameters of PBES2 as they stand. -/
structure Pbes2Parameters where
  /-- The name of the derivation. -/
  derivation : String
  pbkdf2 : Option Pbkdf2Parameters
  /-- The parameters of the derivations of each PBES2 that stands in place of a cipher, the
  outermost first. -/
  inner : List (Option Pbkdf2Parameters)
  /-- The name of the cipher inside all of them. -/
  cipher : String
  /-- The initial value. -/
  initial : Option Bytes
  deriving DecidableEq, Repr

/-- An encrypted private key. -/
structure EncryptedKey where
  /-- All of it. -/
  encoded : Bytes
  /-- The name of the scheme. -/
  scheme : String
  /-- The parameters, if the scheme is PBES2 and has some. -/
  pbes2 : Option Pbes2Parameters
  /-- The encryption of the key. -/
  data : Bytes
  deriving DecidableEq, Repr

namespace EncryptedKey
open Asn1 Asn1.Loose

/-- An algorithm with no demands on its parameters but that they can be read. -/
def anyAlgorithm? (e : Element) : Option ObjectId := do
  let (id, parameters) ← algorithm? e
  match parameters with
  | none => return id
  | some p => if isReadable p then some id else none

/-- The salt of PBKDF2: a string of bytes, or an algorithm that makes one. -/
def salt? (e : Element) : Option (Option Bytes) :=
  if e.tag = .sequence then (anyAlgorithm? e).map fun _ => none
  else (octets? e).map some

/-- The parameters of PBKDF2. The keyed digest is SHA-1 when none is named. -/
def pbkdf2Parameters? (e : Element) : Option Pbkdf2Parameters :=
  Fields.inside (do
    let salt ← Fields.required salt?
    let iterations ← Fields.required integer?
    let length ← Fields.optional (·.tag = .integer)
    let digest ← Fields.optional (·.tag = .sequence)
    Fields.finish
    let digest ← match digest with
      | none => pure "sha1"
      | some d => match anyAlgorithm? d with
        | some id => pure (SchemeName.ofDigestId id)
        | none => failure
    return ⟨salt, iterations, length.bind integer?, digest⟩) e

/-- The name of PBKDF2. -/
def pbkdf2Id : ObjectId := [1, 2, 840, 113549, 1, 5, 12]

/-- The name of a derivation, and the parameters if it is PBKDF2. -/
def derivation? (e : Element) : Option (String × Option Pbkdf2Parameters) := do
  let (id, parameters) ← algorithm? e
  match parameters with
  | none => return (if id = pbkdf2Id then "pbkdf2" else id.dotted, none)
  | some p =>
    if id = pbkdf2Id then return ("pbkdf2", some (← pbkdf2Parameters? p))
    else if isReadable p then return (id.dotted, none)
    else none

/-- Ciphers whose parameters are the initial value. -/
def takesInitial (name : String) : Bool :=
  ["des", "tripledes_3key", "aes128_cbc", "aes192_cbc", "aes256_cbc", "aes128_ofb", "aes192_ofb",
    "aes256_ofb"].contains name

/-- Whether parameters are a salt and a number of iterations. -/
def isSaltAndCount (e : Element) : Bool :=
  (Fields.inside (do
    let _ ← Fields.required octets?
    let _ ← Fields.required integer?
    Fields.finish) e).isSome

/-- Whether parameters are those of RC2. -/
def isRc2 (e : Element) : Bool :=
  (Fields.inside (do
    let _ ← Fields.optional (·.tag = .integer)
    let _ ← Fields.required octets?
    Fields.finish) e).isSome

/-- Whether parameters are those of RC5. -/
def isRc5 (e : Element) : Bool :=
  (Fields.inside (do
    let _ ← Fields.required integer?
    let _ ← Fields.required integer?
    let _ ← Fields.required integer?
    let _ ← Fields.optional isOctets
    Fields.finish) e).isSome

/-- Whether parameters are those of a scheme other than PBES2. -/
def fits (name : String) (p : Element) : Bool :=
  if takesInitial name then (octets? p).isSome
  else if name == "rc2" then isRc2 p
  else if name == "rc5" then isRc5 p
  else if name.startsWith "pbes1_" || name.startsWith "pkcs12_" then isSaltAndCount p
  else isReadable p

/-- The name of PBES2. -/
def pbes2Name : String := "pbes2"

/-- What stands in place of a cipher. -/
structure InnerCipher where
  inner : List (Option Pbkdf2Parameters)
  cipher : String
  initial : Option Bytes

/-- What stands in place of a cipher, with fuel for each PBES2 inside. -/
def cipherWithin? : Nat → Element → Option InnerCipher
  | 0, _ => none
  | fuel + 1, e => do
    let (id, parameters) ← algorithm? e
    let name := SchemeName.ofObjectId id
    match parameters with
    | none => return ⟨[], name, none⟩
    | some p =>
      if name == pbes2Name then
        Fields.inside (do
          let (_, pbkdf2) ← Fields.required derivation?
          let c ← Fields.required (cipherWithin? fuel)
          Fields.finish
          return { c with inner := pbkdf2 :: c.inner }) p
      else if fits name p then
        return ⟨[], name, if takesInitial name then octets? p else none⟩
      else none

/-- What stands in place of a cipher. -/
def cipher? (e : Element) : Option InnerCipher := cipherWithin? (e.contents.length + 1) e

/-- The parameters of PBES2. -/
def pbes2Parameters? (e : Element) : Option Pbes2Parameters :=
  Fields.inside (do
    let (derivation, pbkdf2) ← Fields.required derivation?
    let c ← Fields.required cipher?
    Fields.finish
    return ⟨derivation, pbkdf2, c.inner, c.cipher, c.initial⟩) e

/-- The encrypted key that bytes hold. More may stand behind its two members. -/
def ofBytes? (b : Bytes) : Option EncryptedKey := do
  match ← members? (← whole? b) with
  | algorithm :: encrypted :: _ =>
    let (id, parameters) ← algorithm? algorithm
    let name := SchemeName.ofObjectId id
    let data ← octets? encrypted
    match parameters with
    | none => return ⟨b, name, none, data⟩
    | some p =>
      if name == pbes2Name then return ⟨b, name, some (← pbes2Parameters? p), data⟩
      else if fits name p then return ⟨b, name, none, data⟩
      else none
  | _ => none

/-- The parameters of the scheme of what may be an encrypted key. -/
def parameters? (b : Bytes) : Option Element := do
  match ← members? (← whole? b) with
  | algorithm :: encrypted :: _ =>
    let (_, parameters) ← algorithmFront? algorithm
    let _ ← octets? encrypted
    parameters
  | _ => none

/-- Reads an encrypted key. -/
def ofBytes [Platform] (b : Bytes) : Except Fault EncryptedKey :=
  if (parameters? b).any fun p => Platform.overflows p.contents then .error (.mishap .tooDeep)
  else match ofBytes? b with
    | some k => .ok k
    | none => .error (.parse .notEncryptedKey)

/-- The digests that PBKDF2 is used with here. -/
def digestNamed? : String → Option DigestAlgorithm
  | "sha1" => some .sha1
  | "sha224" => some .sha224
  | "sha256" => some .sha256
  | "sha384" => some .sha384
  | "sha512" => some .sha512
  | _ => none

/-- What a cipher inside PBES2 comes to: the key length of AES in a chain, or
nothing for other ciphers. PBES2 without parameters has no cipher. -/
def chainLength (cipher : String) : Except Fault (Option Nat) :=
  if cipher = pbes2Name then .error (.mishap .wrongType)
  else if !SchemeName.isKnown cipher then .error (.mishap .badValue)
  else if SchemeName.unusable.contains cipher then .error (.mishap .missingEntry)
  else .ok (SchemeName.aesChainKeyLength? cipher)

/-- What is needed to decrypt a key as it is. -/
structure DirectScheme where
  digest : DigestAlgorithm
  parameters : Pbkdf2Parameters
  /-- The parameters of the derivations inside, the outermost first. -/
  inner : List (Option Pbkdf2Parameters)
  /-- The length of a key of the cipher. -/
  cipherLength : Nat
  initial : Option Bytes
  deriving DecidableEq, Repr

/-- The scheme of a key that is decrypted as it is; nothing for other schemes. -/
def direct? (k : EncryptedKey) : Except Fault (Option DirectScheme) :=
  if k.scheme ≠ pbes2Name then .ok none
  else match k.pbes2 with
    | none => .error (.mishap .wrongType)
    | some p =>
      if p.derivation ≠ "pbkdf2" then .ok none
      else match p.pbkdf2 with
        | none => .error (.mishap .wrongType)
        | some parameters =>
          match digestNamed? parameters.digest with
          | none => .ok none
          | some digest => do
            match ← chainLength p.cipher with
            | none => return none
            | some length => return some ⟨digest, parameters, p.inner, length, p.initial⟩

/-- The first length that some derivations give, or else that of the cipher. A derivation without
parameters of PBKDF2 cannot be asked for one. -/
def lengthWithin (cipherLength : Nat) : List (Option Pbkdf2Parameters) → Except Fault Int
  | [] => .ok cipherLength
  | none :: _ => .error (.mishap .wrongType)
  | some p :: rest =>
    match p.keyLength with
    | some length => .ok length
    | none => lengthWithin cipherLength rest

/-- The key that a password gives. -/
def DirectScheme.key [Platform] (s : DirectScheme) (password : Bytes) : Except Fault Bytes := do
  let length ← lengthWithin s.cipherLength (some s.parameters :: s.inner)
  match s.parameters.salt with
  | none => .error (.mishap .badValue)
  | some salt =>
    match KeyDerivation.refusal? length s.parameters.iterations with
    | some mishap => .error (.mishap mishap)
    | none =>
      if !([16, 24, 32].contains length) then .error (.mishap .badValue)
      else .ok (KeyDerivation.pbkdf2 s.digest password salt s.parameters.iterations.toNat
        length.toNat)

/-- Decrypts data with a password. -/
def DirectScheme.decrypt [Platform] (s : DirectScheme) (password data : Bytes) : Except Fault Bytes := do
  let key ← s.key password
  match s.initial with
  | none => .error (.mishap .wrongType)
  | some initial =>
    if initial.length ≠ 16 ∨ data.length % 16 ≠ 0 then .error (.mishap .badValue)
    else match (ContentCipher.aes key.length).open? key initial data with
      | some plain => .ok plain
      | none => .error .badDecrypt

/-- What the failure of a library comes to when it unseals a key. -/
def strictFault (k : EncryptedKey) : Mishap → Fault
  | .badValue | .wrongType => .badDecrypt
  | .unsupported => .unsupportedKey (.encryption k.scheme)
  | mishap => .mishap mishap

/-- Decrypts a key whose scheme and key are read strictly, and writes it anew. -/
def decryptStrictly [Platform] (k : EncryptedKey) (password : Bytes) : Except Fault Bytes :=
  match SealScheme.sealedData.whole? k.encoded with
  | none => .error .badDecrypt
  | some (scheme, data) =>
    match scheme.opened password data with
    | .error mishap => .error (k.strictFault mishap)
    | .ok plain =>
      match KeyReading.privateKey plain with
      | .ok key => .ok (KeyWriting.privateKey key)
      | .error .unknownCurve => .error (.unsupportedKey (.encryption k.scheme))
      | .error .malformed => .error .badDecrypt

/-- The private key, not yet decoded, that a password gives. -/
def decrypt [Platform] (k : EncryptedKey) (password : Bytes) : Except Fault Bytes := do
  match ← k.direct? with
  | none => k.decryptStrictly password
  | some s =>
    let plain ← s.decrypt password k.data
    if isPrivateKeyInfo plain then .ok plain else .error (.invalidKey .decryptedNotPkcs8)

/-- What trying passwords in turn has come to: the last failure of each of the
two kinds that the next password may mend. -/
structure Attempts where
  decryption : Option Fault
  invalidKey : Option Fault
  deriving DecidableEq, Repr

/-- The failure to report when no password is left. -/
def Attempts.verdict (a : Attempts) : Fault :=
  (a.decryption.orElse fun _ => a.invalidKey).getD (.noPasswords .key)

/-- The first success of an attempt with each password in turn. A failure that
another password cannot mend ends the trying. -/
def firstSuccess (attempt : α → Except Fault β) (a : Attempts) : List α → Except Fault β
  | [] => .error a.verdict
  | password :: rest =>
    match attempt password with
    | .ok result => .ok result
    | .error (.decryption report) =>
      firstSuccess attempt { a with decryption := some (.decryption report) } rest
    | .error (.invalidKey problem) =>
      firstSuccess attempt { a with invalidKey := some (.invalidKey problem) } rest
    | .error fault => .error fault

/-- Decrypts with the first password that works. -/
def decryptFirst [Platform] (k : EncryptedKey) (passwords : List Bytes) : Except Fault Bytes :=
  firstSuccess k.decrypt ⟨none, none⟩ passwords

end EncryptedKey
end PackageSigning
