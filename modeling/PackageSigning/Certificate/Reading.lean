import PackageSigning.Asn1.Strict
import PackageSigning.Key.Reading
import PackageSigning.Text.Encoding

/-!
# Reading certificates

A certificate is read strictly and to its end, with one exception: its version
is looked at last, since an unknown version is a refusal of its own.
-/

namespace PackageSigning

/-- Why a certificate cannot be read. -/
inductive CertificateRefusal where
  | malformed
  | unknownVersion
  deriving DecidableEq, Repr

namespace CertificateReading
open Asn1 Asn1.Strict

/-- The kinds of strings that an attribute may hold. -/
def stringKinds : List Tag := [3, 4, 12, 18, 19, 20, 22, 23, 24, 26, 28, 30].map Tag.plain

/-- The attribute that is made of bits. -/
def uniqueIdentifier : ObjectId := [2, 5, 4, 45]

/-- How the text of an attribute is encoded, by the kind of its string. -/
def attributeEncoding (e : Element) : Text.Encoding :=
  match e.tag.number with
  | 30 => .utf16 (some .big)
  | 28 => .utf32 (some .big)
  | _ => .utf8

/-- The value of an attribute of some type. -/
def attributeValue (type : ObjectId) (e : Element) : AttributeValue :=
  if 30 < e.tag.number then .refused .notText
  else if !stringKinds.contains e.tag then .refused .unknownKind
  else if e.tag = .bitString then
    if type = uniqueIdentifier then .bits e.contents else .refused .misplacedBits
  else match (attributeEncoding e).decodeChars e.contents with
    | some cs => .text (String.ofList cs)
    | none => .refused .notText

/-- An attribute of a name. -/
def nameAttribute : Reader NameAttribute :=
  Reader.sequence do
    let type ← Reader.objectId
    return ⟨type, attributeValue type (← Reader.element)⟩

/-- A part of a name: attributes in the order of their encodings. -/
def namePart : Reader (List NameAttribute) := do
  let members ← Reader.inside .set (Reader.many (Reader.withBytes nameAttribute))
  if isOrdered (members.map (·.1)) then return members.map (·.2) else failure

/-- A name. -/
def name : Reader DistinguishedName := do
  return ⟨← Reader.sequence (Reader.many namePart)⟩

/-- Whether a character is a digit. -/
def isDigit (x : UInt8) : Bool := 48 ≤ x && x ≤ 57

/-- The days of a month. -/
def daysIn (year month : Nat) : Nat :=
  if month = 2 then (if year % 4 = 0 ∧ (year % 100 ≠ 0 ∨ year % 400 = 0) then 29 else 28)
  else if [4, 6, 9, 11].contains month then 30 else 31

/-- The number that digits spell. -/
def decimal (b : Bytes) : Nat := b.foldl (fun n x => n * 10 + (x.toNat - 48)) 0

/-- Whether digits are month, day, hour, minute and second of a year. -/
def isMoment (year : Nat) (b : Bytes) : Bool :=
  match (Bytes.blocks 2 b).map decimal with
  | [month, day, hour, minute, second] =>
    1 ≤ month && month ≤ 12 && 1 ≤ day && day ≤ daysIn year month && hour < 24 && minute < 60 &&
      second < 60
  | _ => false

/-- Whether contents are a point in time, the year in so many digits and a `Z` at the end. -/
def isTime (yearDigits : Nat) (b : Bytes) : Bool :=
  let digits := b.take (yearDigits + 10)
  let year := decimal (digits.take yearDigits)
  b.length = yearDigits + 11 && digits.all isDigit && b.getLast? == some 90 &&
    isMoment (if yearDigits = 2 then (if year < 50 then 2000 + year else 1900 + year) else year)
      (digits.drop yearDigits)

/-- A point in time, the year in two digits or in four. -/
def time : Reader Unit := do
  let e ← Reader.element
  if (e.tag = .plain 23 ∧ isTime 2 e.contents) ∨ (e.tag = .plain 24 ∧ isTime 4 e.contents) then
    return ()
  else failure

/-- A public key, the parameters of whose algorithm fit if it is a known one. -/
def publicKeyShape : Reader Unit :=
  Reader.sequence do
    Reader.sequence do
      let id ← Reader.objectId
      if (KeyAlgorithm.ofObjectId? id).isSome then
        let _ ← KeyReading.parameters id
      else if !(← get).isEmpty then
        let _ ← Reader.element
    let _ ← Reader.bitString

/-- An extension. That it is not critical is never spelled. -/
def extension : Reader Unit :=
  Reader.sequence do
    let _ ← Reader.objectId
    if ← Reader.startsWith .boolean then
      if !(← Reader.boolean) then failure
    let _ ← Reader.octets

/-- A string of bits in a numbered field. -/
def bitsField (number : Nat) : Reader Unit := do
  let b ← Reader.optional (.plainField number) (Reader.contents (.plainField number))
  match b with
  | none => return ()
  | some b => if (Reader.bitsOf? b).isSome then return () else failure

/-- The statement that a certificate signs: its version, the issuer and the
bearer, and the key. -/
def statement : Reader (Nat × DistinguishedName × DistinguishedName × Bytes) :=
  Reader.sequence do
    let version ← Reader.field 0 Reader.natural
    if version = some 0 then failure
    let _ ← Reader.integer
    let _ ← algorithm
    let issuer ← name
    Reader.sequence (do time; time)
    let subject ← name
    let (key, _) ← Reader.withBytes publicKeyShape
    bitsField 1
    bitsField 2
    let _ ← Reader.field 3 (Reader.sequence (Reader.many extension))
    let version := version.getD 0
    if version < 256 then return (version, issuer, subject, key) else failure

/-- The statement, the algorithm it is signed with, and the signature. -/
def signedStatement : Reader (Nat × DistinguishedName × DistinguishedName × Bytes) :=
  Reader.sequence do
    let parts ← statement
    let _ ← algorithm
    let _ ← Reader.bitString
    return parts

/-- The certificate that bytes are. -/
def certificate (b : Bytes) : Except CertificateRefusal Certificate :=
  match signedStatement.whole? b with
  | none => .error .malformed
  | some (version, issuer, subject, key) =>
    if version = 0 ∨ version = 2 then .ok ⟨b, subject, issuer, key⟩ else .error .unknownVersion

end CertificateReading

namespace Certificate

/-- The public key of a certificate. -/
def publicKey (c : Certificate) : Except Fault PublicKey :=
  match KeyReading.publicKey c.publicKeyInfo with
  | .ok key => .ok key
  | .error .malformed => .error (.mishap .badValue)
  | .error .unknownCurve => .error (.mishap .unsupported)

end Certificate
end PackageSigning
