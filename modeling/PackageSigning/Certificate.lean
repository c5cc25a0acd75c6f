import PackageSigning.Bytes
import PackageSigning.Fault

/-!
# Certificates and the names in them

A certificate is its encoding together with the parts of it that matter here:
whom it names, who issued it, and the encoded public key. Two certificates are
the same when their encodings are.

Names are compared part by part, a part being a set of attributes, and written
as text last part first. A certificate may hold a name with values that are of no use; only
who asks for such a name is refused.
-/

namespace PackageSigning

/-- An object identifier, as its numbers. -/
abbrev ObjectId := List Nat

namespace ObjectId

/-- The numbers with full stops between them. -/
def dotted (id : ObjectId) : String := ".".intercalate (id.map toString)

end ObjectId

/-- Why a name cannot be asked for. -/
inductive NameRefusal where
  /-- A value that is no kind of string. -/
  | unknownKind
  /-- Bits as the value of an attribute that is not made of them. -/
  | misplacedBits
  /-- A string that is no text. -/
  | notText
  /-- A part without attributes, or with one of them twice. -/
  | malformedPart
  deriving DecidableEq, Repr

/-- What the refusal of a name comes to. -/
def NameRefusal.mishap : NameRefusal → Mishap
  | unknownKind => .missingEntry
  | misplacedBits => .wrongType
  | notText | malformedPart => .badValue

/-- The value of an attribute. -/
inductive AttributeValue where
  | text (text : String)
  | bits (contents : Bytes)
  /-- A value that cannot be asked for. -/
  | refused (reason : NameRefusal)
  deriving DecidableEq, Repr

instance : Coe String AttributeValue := ⟨AttributeValue.text⟩

/-- One statement about the bearer of a name. -/
structure NameAttribute where
  type : ObjectId
  value : AttributeValue
  deriving DecidableEq, Repr

/-- A name: parts from the most general to the most particular, each one or
more attributes. -/
structure DistinguishedName where
  parts : List (List NameAttribute)
  deriving DecidableEq, Repr

namespace NameAttribute

/-- Attribute types with a short name. -/
def shortNames : List (ObjectId × String) :=
  [([2, 5, 4, 3], "CN"), ([2, 5, 4, 7], "L"), ([2, 5, 4, 8], "ST"), ([2, 5, 4, 10], "O"),
   ([2, 5, 4, 11], "OU"), ([2, 5, 4, 6], "C"), ([2, 5, 4, 9], "STREET"),
   ([0, 9, 2342, 19200300, 100, 1, 25], "DC"), ([0, 9, 2342, 19200300, 100, 1, 1], "UID")]

/-- The short name of a type, or its numbers. -/
def typeText (type : ObjectId) : String := (shortNames.lookup type).getD type.dotted

/-- A character inside a value, with a backslash before those with a meaning. -/
def escapeChar (c : Char) : List Char :=
  if c = Char.ofNat 0 then ['\\', '0', '0']
  else if ['\\', '"', '+', ',', ';', '<', '>'].contains c then ['\\', c]
  else [c]

/-- The last characters of a value: a space at the very end has a backslash before it. -/
def escapeTail : List Char → List Char
  | [] => []
  | [' '] => ['\\', ' ']
  | c :: rest => escapeChar c ++ escapeTail rest

/-- The value as written: a number sign or a space in front has a backslash before it too. -/
def escapeValue (value : String) : String :=
  String.ofList <| match value.toList with
    | '#' :: rest => '\\' :: '#' :: escapeTail rest
    | ' ' :: rest => '\\' :: ' ' :: escapeTail rest
    | cs => escapeTail cs

/-- The value as written; bits are spelled in hexadecimal. -/
def valueText (a : NameAttribute) : String :=
  match a.value with
  | .text value => escapeValue value
  | .bits b => if b.isEmpty then "" else "#" ++ Bytes.toHex b
  | .refused _ => ""

/-- Type and value. -/
def toText (a : NameAttribute) : String := typeText a.type ++ "=" ++ a.valueText

/-- Why the value cannot be asked for, if it cannot. -/
def refusal? (a : NameAttribute) : Option NameRefusal :=
  match a.value with
  | .refused reason => some reason
  | _ => none

end NameAttribute

namespace DistinguishedName

/-- Whether two parts hold the same attributes, in any order. -/
def samePart (a b : List NameAttribute) : Bool :=
  a.all (b.contains ·) && b.all (a.contains ·)

/-- Whether two names are the same part by part. -/
def same (a b : DistinguishedName) : Bool :=
  a.parts.length == b.parts.length && (List.zipWith samePart a.parts b.parts).all id

/-- The name as text, the most particular part first. -/
def toText (name : DistinguishedName) : String :=
  ",".intercalate (name.parts.reverse.map fun part => "+".intercalate (part.map (·.toText)))

/-- Why a part cannot be asked for, if it cannot. -/
def partRefusal? (part : List NameAttribute) : Option NameRefusal :=
  (part.findSome? (·.refusal?)).orElse fun _ =>
    if part.isEmpty ∨ ¬part.Nodup then some .malformedPart else none

/-- The name, unless some part of it cannot be asked for. -/
def read (name : DistinguishedName) : Except Fault DistinguishedName :=
  match name.parts.findSome? partRefusal? with
  | some refusal => .error (.mishap refusal.mishap)
  | none => .ok name

end DistinguishedName

/-- A certificate. -/
structure Certificate where
  /-- The whole encoding. -/
  der : Bytes
  subject : DistinguishedName
  issuer : DistinguishedName
  /-- The encoded public key together with its algorithm. -/
  publicKeyInfo : Bytes
  deriving DecidableEq, Repr

end PackageSigning
