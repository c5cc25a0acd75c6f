import PackageSigning.Certificate.Bundle
import PackageSigning.Key.Sealing
import PackageSigning.Text.Encoding

/-!
# Personal information in one file (PKCS #12)

The file is a series of parts, plain or sealed, each a series of bags with a
private key, a certificate or further bags. A keyed digest over the parts tells
whether they are what they were when the password was chosen.
-/

namespace PackageSigning

/-- A certificate and the name it goes by. -/
structure NamedCertificate where
  certificate : Certificate
  friendlyName : Option String
  deriving DecidableEq, Repr

/-- A private key, its own certificate and other certificates. -/
structure Pfx where
  key : Option PrivateKey
  certificate : Option NamedCertificate
  others : List NamedCertificate
  deriving DecidableEq, Repr

namespace Pfx
open Asn1 Asn1.Strict

/-- What a bag holds. -/
inductive Content where
  | key (encoded : Bytes)
  | sealedKey (encoded : Bytes)
  | certificate (encoded : Bytes)
  | bags (encoded : Bytes)
  | other
  deriving DecidableEq, Repr

/-- A bag with the name it goes by and the mark that ties a key to its certificate. -/
structure Bag where
  content : Content
  friendlyName : Option String
  localId : Option Bytes
  deriving DecidableEq, Repr

/-- The type of plain data. -/
def plainData : ObjectId := [1, 2, 840, 113549, 1, 7, 1]

/-- The type of sealed data. -/
def sealedData : ObjectId := [1, 2, 840, 113549, 1, 7, 6]

/-- The attribute with the name of a bag. -/
def friendlyNameId : ObjectId := [1, 2, 840, 113549, 1, 9, 20]

/-- The attribute with the mark of a bag. -/
def localKeyId : ObjectId := [1, 2, 840, 113549, 1, 9, 21]

/-- The type of certificates in bags. -/
def certificateId : ObjectId := [1, 2, 840, 113549, 1, 9, 22, 1]

/-- The element inside a numbered field, whole. -/
def fieldBytes (number : Nat) : Reader Bytes := Reader.contents (.field number)

/-- The certificate in a bag; other types of certificates are passed over. -/
def bagCertificate (b : Bytes) : Option Content :=
  (Reader.sequence do
    let id ← Reader.objectId
    if id = certificateId then
      return .certificate (← Reader.inside (.field 0) Reader.octets)
    else
      let _ ← fieldBytes 0
      return .other).whole? b

/-- The content of a bag by its type. -/
def contentOf (id : ObjectId) (b : Bytes) : Option Content :=
  match id with
  | [1, 2, 840, 113549, 1, 12, 10, 1, 1] => some (.key b)
  | [1, 2, 840, 113549, 1, 12, 10, 1, 2] => some (.sealedKey b)
  | [1, 2, 840, 113549, 1, 12, 10, 1, 3] => bagCertificate b
  | [1, 2, 840, 113549, 1, 12, 10, 1, 6] => some (.bags b)
  | _ => some .other

/-- An attribute: its type and its values. -/
def attribute_ : Reader (ObjectId × List Element) :=
  Reader.sequence do
    let id ← Reader.objectId
    let values ← Reader.inside .set (Reader.many Reader.element)
    return (id, values)

/-- The first value of an attribute. -/
def value? (attributes : List (ObjectId × List Element)) (id : ObjectId) : Option Element :=
  (attributes.lookup id).bind List.head?

/-- Strings with one byte for each character. -/
def narrowStrings : List Nat := [18, 19, 20, 22, 23, 24, 26]

/-- The characters of a string, each a number of `width` bytes. -/
def wideText? (width : Nat) (b : Bytes) : Option String :=
  ((Text.Encoding.numbers .big width b).bind (·.mapM Text.Encoding.char?)).map String.ofList

/-- The name that an element spells, by the kind of its string. Characters that take two 16-bit
units are in no name. -/
def nameOf (e : Element) : Option String :=
  if e.tag.number = 12 then (Text.Encoding.decodeUtf8 e.contents).map String.ofList
  else if narrowStrings.contains e.tag.number then some (Bytes.toLatin e.contents)
  else if e.tag.number = 28 then wideText? 4 e.contents
  else if e.tag.number = 30 then wideText? 2 e.contents
  else none

/-- A bag. -/
def bag : Reader Bag :=
  Reader.sequence do
    let id ← Reader.objectId
    let b ← fieldBytes 0
    let attributes ← Reader.optional .set (Reader.inside .set (Reader.many attribute_))
    let attributes := attributes.getD []
    match contentOf id b with
    | some content =>
      return ⟨content, (value? attributes friendlyNameId).bind nameOf,
        (value? attributes localKeyId).map (·.contents)⟩
    | none => failure

/-- A series of bags. -/
def bags : Reader (List Bag) := Reader.sequence (Reader.many bag)

/-- The bags with those inside them in their place, with fuel for the depth. -/
def flatten : Nat → List Bag → Option (List Bag)
  | 0, _ => none
  | fuel + 1, outer =>
    List.flatten <$> outer.mapM fun b =>
      match b.content with
      | .bags inner => (bags.whole? inner).bind (flatten fuel)
      | _ => some [b]

/-- The check value of a file. -/
structure Mac where
  digest : DigestAlgorithm
  value : Bytes
  salt : Bytes
  iterations : Nat
  deriving DecidableEq, Repr

/-- The digest of a check value, by its identifier. -/
def digestOf? : ObjectId → Option DigestAlgorithm
  | [1, 3, 14, 3, 2, 26] => some .sha1
  | [2, 16, 840, 1, 101, 3, 4, 2, 4] => some .sha224
  | [2, 16, 840, 1, 101, 3, 4, 2, 1] => some .sha256
  | [2, 16, 840, 1, 101, 3, 4, 2, 2] => some .sha384
  | [2, 16, 840, 1, 101, 3, 4, 2, 3] => some .sha512
  | _ => none

/-- A check value. -/
def mac : Reader Mac :=
  Reader.sequence do
    let (digest, value) ← Reader.sequence do
      let (id, _) ← algorithm
      let value ← Reader.octets
      match digestOf? id with
      | some digest => return (digest, value)
      | none => failure
    let salt ← Reader.octets
    let iterations ← Reader.optional .integer Reader.natural
    return ⟨digest, value, salt, iterations.getD 1⟩

/-- The contents of something with a type. -/
def typed : Reader (ObjectId × Bytes) :=
  Reader.sequence do
    let id ← Reader.objectId
    return (id, ← fieldBytes 0)

/-- The parts of a file, still encoded, and their check value. -/
def outline : Reader (Bytes × Option Mac) :=
  Reader.sequence do
    let version ← Reader.natural
    let (id, b) ← typed
    if version ≠ 3 ∨ id ≠ plainData then failure
    match Reader.octets.whole? b with
    | none => failure
    | some parts => if (← get).isEmpty then return (parts, none) else return (parts, some (← mac))

/-- The password of bytes that may be none, as it is digested: with nothing at
the end or with a zero unit, which differ for the empty one only. -/
def digestedForms (password : Bytes) : List Bytes :=
  if password.isEmpty then [[], [0, 0]] else (SealScheme.wide? password).toList

/-- Whether a check value is that of some parts under a password as it is digested. -/
def Mac.fits (m : Mac) (parts wide : Bytes) : Bool :=
  let key := KeyDerivation.Pkcs12.derive m.digest .integrity wide m.salt m.iterations m.digest.size
  0 < m.iterations && m.digest.hmac key parts == m.value

/-- The scheme, and the data that it seals. -/
def sealedPart : Reader (SealScheme × Bytes) :=
  Reader.sequence do
    let _ ← Reader.natural
    Reader.sequence do
      let _ ← Reader.objectId
      let scheme ← SealScheme.scheme
      let data ← Reader.contents (.plainField 0)
      return (scheme, data)

/-- What could be read; anything else is no value to work with. -/
def parsed (found : Option α) : Except Mishap α := found.elim (.error .badValue) .ok

/-- The bags of a part. -/
def bagsOf [Platform] (password : Bytes) (part : ObjectId × Bytes) : Except Mishap (List Bag) :=
  if part.1 = plainData then parsed ((Reader.octets.whole? part.2).bind bags.whole?)
  else if part.1 = sealedData then do
    let (scheme, data) ← parsed (sealedPart.whole? part.2)
    parsed (bags.whole? (← scheme.opened password data))
  else .ok []

/-- How deep bags can be in bags. -/
def maxDepth : Nat := 32

/-- Whether a check value is that of some parts, unless the platform refuses to derive its key. -/
def Mac.check [Platform] (m : Mac) (password parts : Bytes) : Except Mishap Unit :=
  match Platform.refusal (.pkcs12 m.iterations) with
  | some mishap => .error mishap
  | none => if (digestedForms password).any (m.fits parts) then .ok () else .error .badValue

/-- All bags of a file, if the password is right. -/
def openBags [Platform] (password b : Bytes) : Except Mishap (List Bag) := do
  let (parts, mac) ← parsed ((outline.run b).map (·.1))
  mac.forM fun m => m.check password parts
  let parts ← parsed ((Reader.sequence (Reader.many typed)).whole? parts)
  let bags ← parts.mapM (bagsOf password)
  parsed (flatten maxDepth bags.flatten)

/-- Something that does not parse. -/
def unreadable : Fault := .mishap .badValue

/-- The key in a bag; nothing in bags without a key. -/
def keyOf [Platform] (password : Bytes) (content : Content) : Except Fault (Option PrivateKey) :=
  let read (encoded : Bytes) : Except Fault (Option PrivateKey) :=
    match KeyReading.privateKey encoded with
    | .ok k => .ok (some k)
    | .error .malformed => .error unreadable
    | .error .unknownCurve => .error (.mishap .unsupported)
  match content with
  | .key encoded => read encoded
  | .sealedKey encoded =>
    match SealScheme.sealedData.whole? encoded with
    | none => .error unreadable
    | some (scheme, data) =>
      match scheme.opened password data with
      | .ok plain => read plain
      | .error mishap => .error (.mishap mishap)
  | _ => .ok none

/-- The first key with its mark. -/
def firstKey [Platform] (password : Bytes) : List Bag → Except Fault (Option (PrivateKey × Option Bytes))
  | [] => .ok none
  | b :: rest => do
    match ← keyOf password b.content with
    | some k => return some (k, b.localId)
    | none => firstKey password rest

/-- The certificates with their marks. -/
def certificates : List Bag → Except Fault (List (NamedCertificate × Option Bytes))
  | [] => .ok []
  | b :: rest =>
    match b.content with
    | .certificate encoded => do
      let c ← CertificateBundle.one encoded
      return (⟨c, b.friendlyName⟩, b.localId) :: (← certificates rest)
    | _ => certificates rest

/-- Takes the first certificate with a mark out of others. -/
def takeMarked (mark : Bytes) : List (NamedCertificate × Option Bytes) →
    Option NamedCertificate × List NamedCertificate
  | [] => (none, [])
  | (c, m) :: rest =>
    if m = some mark then (some c, rest.map (·.1))
    else
      let (found, others) := takeMarked mark rest
      (found, c :: others)

/-- The contents of a file under a password; no password is an empty one. -/
def read [Platform] (b : Bytes) (password : Option Bytes) : Except Fault Pfx :=
  let password := password.getD []
  match openBags password b with
  | .error mishap => .error (.mishap mishap)
  | .ok bags => do
    let key ← firstKey password bags
    let certificates ← certificates bags
    match key with
    | some (k, some mark) =>
      let (own, others) := takeMarked mark certificates
      return ⟨some k, own, others⟩
    | _ => return ⟨key.map (·.1), none, certificates.map (·.1)⟩

end Pfx
end PackageSigning
