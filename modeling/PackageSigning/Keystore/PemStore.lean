import PackageSigning.Certificate.Bundle
import PackageSigning.Json.Reading
import PackageSigning.Json.Writing
import PackageSigning.Key.Armoured
import PackageSigning.Keystore

/-!
# Keystores of PEM texts

A document in JSON with the entries, each a few texts in PEM, and a check value:
a keyed digest of the canonical form of the entries, under a key that comes
from the password of the store. Each key is sealed under a password of its own.
A store that is loaded without a password is not checked.
-/

namespace PackageSigning

/-- How keys and certificates are written as text and read again. -/
structure PemFormats where
  keyText : PrivateKey → Option Bytes → Except Fault String
  readKey : Bytes → Option Bytes → Except Fault PrivateKey
  certificateText : Certificate → String
  readCertificate : Bytes → Except Fault Certificate

namespace PemFormats

/-- The first certificate in a text. -/
def firstCertificate (text : Bytes) : Except Fault Certificate :=
  let isCertificate (block : PemBlock) : Bool := CertificateBundle.labels.contains block.label
  match (Pem.blocks? text).bind (·.find? isCertificate) with
  | some block => CertificateBundle.one block.contents
  | none => .error (.mishap .badValue)

/-- The usual forms; `noise` is used for each key that is sealed. -/
def standard [Platform] (noise : SealNoise) : PemFormats where
  keyText := KeyArmour.write noise
  readKey := KeyArmour.read
  certificateText := fun c => Pem.encode "CERTIFICATE" c.der
  readCertificate := firstCertificate

end PemFormats

namespace JsonValue

/-- A member of an object. Lists and texts have positions and no members, and the
other values have neither. -/
def member (name : String) : JsonValue → Except Fault JsonValue
  | object members =>
    match members.lookup (JsonText.ofString name) with
    | some v => .ok v
    | none => .error (.mishap .missingEntry)
  | _ => .error (.mishap .wrongType)

/-- The member of an object, if it has one. -/
def member? (name : String) : JsonValue → Option JsonValue
  | object members => members.lookup (JsonText.ofString name)
  | _ => none

/-- The bytes that hexadecimal digits spell; blanks may divide the bytes. -/
def spelledBytes? : List Char → Option Bytes
  | [] => some []
  | [c] => if isBlank c then some [] else none
  | a :: b :: rest =>
    if isBlank a then spelledBytes? (b :: rest)
    else do
      let x ← Bytes.hexValue? a
      let y ← Bytes.hexValue? b
      return UInt8.ofNat (x * 16 + y) :: (← spelledBytes? rest)
where
  /-- The blanks of ASCII. -/
  isBlank (c : Char) : Bool := c = ' ' || ('\t' ≤ c && c ≤ '\r')

/-- The bytes that a value spells. -/
def bytes : JsonValue → Except Fault Bytes
  | text t =>
    match t.text?.bind fun s => spelledBytes? s.toList with
    | some b => .ok b
    | none => .error (.mishap .badValue)
  | _ => .error (.mishap .wrongType)

/-- The whole number that a value stands for. -/
def whole : JsonValue → Except Fault Int
  | integer n => .ok n
  | bool b => .ok (if b then 1 else 0)
  | float (.infinite _) => .error (.mishap .tooLarge)
  | float x =>
    match x.whole? with
    | some n => .ok n
    | none => .error (.mishap .badValue)
  | text t =>
    match t.text?.bind Text.integer? with
    | some n => .ok n
    | none => .error (.mishap .badValue)
  | _ => .error (.mishap .wrongType)

/-- The values that a value consists of: those of a list, the characters of a
text, the names in an object. -/
def parts : JsonValue → Except Fault (List JsonValue)
  | list items => .ok items
  | text t => .ok (t.points.map fun n => .text ⟨[n]⟩)
  | object members => .ok (members.map fun m => .text m.1)
  | _ => .error (.mishap .wrongType)

/-- The text of a value in ASCII. -/
def asciiText [Platform] (v : JsonValue) : Except Fault Bytes :=
  if Platform.nesting .display < v.depth then .error (.mishap .tooDeep)
  else if v.shown.all (· < 128) then .ok (v.shown.map UInt8.ofNat)
  else .error (.mishap .unencodable)

/-- The name that a value is. Lists and objects name nothing. -/
def name : JsonValue → Except Fault EntryName
  | null => .ok .null
  | bool b => .ok (.bool b)
  | integer n => .ok (.integer n)
  | float x => .ok (.float x)
  | text t => .ok (.text t)
  | list _ | object _ => .error (.mishap .wrongType)

/-- The name and the value of an entry that is written as a pair. -/
def pair (v : JsonValue) : Except Fault (EntryName × JsonValue) := do
  match ← v.parts with
  | [name, value] => return (← name.name, value)
  | _ => throw (.mishap .badValue)

/-- The entries that a value stands for: an object, or a series of pairs. -/
def entries (v : JsonValue) : Except Fault (OrderedMap EntryName JsonValue) :=
  match v with
  | object members => .ok ⟨members.map fun m => (.text m.1, m.2)⟩
  | _ => return EntryName.merge (← (← v.parts).mapM pair)

end JsonValue

/-- The check value of a store, and how it was made. -/
structure StoreMac where
  salt : Bytes
  iterations : Int
  value : Bytes
  deriving DecidableEq, Repr

namespace StoreMac

/-- The length of the key of a check value. -/
def keyLength : Nat := 32

/-- The check value of some entries under a password. -/
def compute [Platform] (entries : JsonValue) (password salt : Bytes) (iterations : Int) :
    Except Fault Bytes :=
  match KeyDerivation.refusal? keyLength iterations with
  | some mishap => .error (.mishap mishap)
  | none =>
    if Platform.nesting .write < entries.depth then .error (.mishap .tooDeep)
    else
      let key := KeyDerivation.pbkdf2 .sha256 password salt iterations.toNat keyLength
      .ok (DigestAlgorithm.sha256.hmac key (entries.canonical.map fun c => UInt8.ofNat c.toNat))

end StoreMac

/-- A store as it is written. -/
structure StoreDocument where
  /-- The whole document. -/
  document : JsonValue
  entries : JsonValue
  mac : StoreMac
  deriving Repr

namespace StoreDocument

/-- What the format is called. -/
def formatName : String := "apksign-pemks"

/-- The parts of a document. -/
def parts (document : JsonValue) : Except Fault StoreDocument := do
  let entries ← document.member "entries"
  let mac ← document.member "mac"
  let salt ← (← mac.member "salt").bytes
  let iterations ← (← mac.member "iterations").whole
  let value ← (← mac.member "value").bytes
  if iterations < 1 then throw (.mishap .badValue)
  return ⟨document, entries, ⟨salt, iterations, value⟩⟩

/-- The document that bytes hold. -/
def ofBytes [Platform] (b : Bytes) : Except Fault StoreDocument :=
  match JsonReading.ofBytes b with
  | .error .malformed => .error (.store .notPemStore)
  | .error .tooDeep => .error (.mishap .tooDeep)
  | .ok document =>
    match parts document with
    | .error (.mishap .badValue) | .error (.mishap .missingEntry) | .error (.mishap .wrongType) =>
      .error (.store .notPemStore)
    | result => result

/-- Whether the document says that it is of this format, in its only version. -/
def isSupported (d : StoreDocument) : Bool :=
  ((d.document.member? "format").any (·.isText formatName)) &&
    ((d.document.member? "version").any (·.isOne))

/-- Compares the check value with the one that a password gives. -/
def check [Platform] (d : StoreDocument) : Option Bytes → Except Fault Unit
  | none => .ok ()
  | some password => do
    let expected ← StoreMac.compute d.entries password d.mac.salt d.mac.iterations
    if expected = d.mac.value then return () else throw .storeIntegrity

/-- The entries of a store, once format and check value are accepted. -/
def accept [Platform] (b : Bytes) (password : Option Bytes) :
    Except Fault (OrderedMap EntryName JsonValue) := do
  let d ← ofBytes b
  if !d.isSupported then throw (.store .unsupportedFormat)
  d.check password
  d.entries.entries

end StoreDocument

/-- A keystore of PEM texts. -/
structure PemStore where
  /-- The number of iterations for the check value of the store when it is saved. -/
  iterations : Int
  entries : OrderedMap EntryName JsonValue
  deriving Repr

namespace PemStore

/-- The number of iterations when none is given. -/
def defaultIterations : Int := 100000

/-- A store without entries. -/
def empty (iterations : Int) : PemStore := ⟨iterations, .empty⟩

/-- Replaces the entries by those of a document; without one, or if it is refused,
by none. -/
def load [Platform] (data password : Option Bytes) (s : PemStore) : Except Fault Unit × PemStore :=
  match data with
  | none => (.ok (), { s with entries := .empty })
  | some b =>
    match StoreDocument.accept b password with
    | .ok entries => (.ok (), { s with entries })
    | .error fault => (.error fault, { s with entries := .empty })

/-- The members of an entry, if there is one. -/
def entry (s : PemStore) (name : EntryName) : Except Fault (Option JsonValue) :=
  match s.entries.get? name with
  | none | some .null => .ok none
  | some (.object members) => .ok (some (.object members))
  | some _ => .error (.mishap .missingMember)

/-- Whether an entry says that it is of a type. -/
def isOfType (type : String) (entry : JsonValue) : Bool :=
  (entry.member? "type").any (·.isText type)

/-- Whether an entry is a key entry. -/
def isKeyEntry (s : PemStore) (name : EntryName) : Except Fault Bool :=
  return (← s.entry name).any (isOfType "key")

/-- The mark of texts that need a password. -/
def encryptedMark : Bytes := Bytes.ofAscii "ENCRYPTED"

/-- The key in a text. The password does not count for texts without the mark, and
an empty one is none. -/
def unlock (formats : PemFormats) (name : EntryName) (text : Bytes) (password : Option Bytes) :
    Except Fault PrivateKey :=
  let password :=
    if Bytes.includes encryptedMark text then password.filter (!·.isEmpty) else none
  match formats.readKey text password with
  | .error (.mishap .badValue) | .error (.mishap .wrongType) => .error (.lockedKey (.entry name.shown))
  | result => result

/-- The key of an entry, if it is a key entry. -/
def key [Platform] (formats : PemFormats) (s : PemStore) (name : EntryName) (password : Option Bytes) :
    Except Fault (Option PrivateKey) := do
  match ← s.entry name with
  | none => return none
  | some entry =>
    if !isOfType "key" entry then return none
    else
      let text ← (← entry.member "key").asciiText
      return some (← unlock formats name text password)

/-- The certificates of an entry, unless it is a certificate entry. -/
def chain [Platform] (formats : PemFormats) (s : PemStore) (name : EntryName) :
    Except Fault (Option (List Certificate)) := do
  match ← s.entry name with
  | none => return none
  | some entry =>
    if isOfType "certificate" entry then return none
    else match (entry.member? "chain").filter (!·.isEmpty) with
      | none => return some []
      | some chain =>
        return some (← (← chain.parts).mapM fun c => do formats.readCertificate (← c.asciiText))

/-- Stores a key with its certificates, sealed if there is a password. -/
def setKey (formats : PemFormats) (s : PemStore) (name : EntryName) (k : PrivateKey)
    (chain : List Certificate) (password : Option Bytes) : Except Fault PemStore := do
  let text ← formats.keyText k password
  let entry : JsonValue := .object
    [("type", .text "key"), ("key", .text text),
     ("chain", .list (chain.map fun c => .text (formats.certificateText c)))]
  return { s with entries := s.entries.put name entry }

/-- Stores a certificate. -/
def setCertificate (formats : PemFormats) (s : PemStore) (name : EntryName) (c : Certificate) :
    PemStore :=
  let entry : JsonValue := .object
    [("type", .text "certificate"), ("certificate", .text (formats.certificateText c))]
  { s with entries := s.entries.put name entry }

/-- Takes an entry out. -/
def erase (s : PemStore) (name : EntryName) : Except Fault PemStore :=
  if s.entries.contains name then .ok { s with entries := s.entries.erase name }
  else .error (.mishap .missingEntry)

/-- The entries as a value, if all of them go by texts. -/
def written (s : PemStore) : Except Fault JsonValue :=
  return .object (← s.entries.entries.mapM fun e => match e.1 with
    | .text name => .ok (name, e.2)
    | _ => .error (.mishap .wrongType))

/-- The store as a document with a check value under a password. -/
def save [Platform] (s : PemStore) (password salt : Bytes) : Except Fault String := do
  let entries ← s.written
  let value ← StoreMac.compute entries password salt s.iterations
  let mac : JsonValue := .object
    [("salt", .text (Bytes.toHex salt)), ("iterations", .integer s.iterations),
     ("value", .text (Bytes.toHex value))]
  let document : JsonValue := .object
    [("format", .text StoreDocument.formatName), ("version", .integer 1), ("entries", entries),
     ("mac", mac)]
  if Platform.nesting .layOut < document.depth then throw (.mishap .tooDeep)
  return String.ofList (document.indented 0)

/-- The kind of keystore. -/
def kind [Platform] (formats : PemFormats) : KeystoreKind PemStore where
  fresh := empty defaultIterations
  load := load
  aliases := fun s => s.entries.keys
  isKeyEntry := isKeyEntry
  key := key formats
  chain := chain formats

end PemStore
end PackageSigning
