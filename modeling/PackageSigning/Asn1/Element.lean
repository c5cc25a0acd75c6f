import PackageSigning.Certificate

/-!
# Tagged data

Keys and certificates are trees of elements, each a tag and its contents. The
two readers of elements, `Asn1.Loose` and `Asn1.Strict`, differ in the spellings
that they allow.
-/

namespace PackageSigning.Asn1

/-- Who gives the number of a tag its meaning. -/
inductive TagClass where
  | universal
  | application
  | context
  | reserved
  deriving DecidableEq, Repr

/-- The class in the two top bits of a byte. -/
def TagClass.ofBits (n : Nat) : TagClass :=
  match n with
  | 0 => universal
  | 1 => application
  | 2 => context
  | _ => reserved

/-- The top bits for a class. -/
def TagClass.bits : TagClass → Nat
  | universal => 0
  | application => 1
  | context => 2
  | reserved => 3

/-- What an element is, and whether its contents are elements. -/
structure Tag where
  tagClass : TagClass
  constructed : Bool
  number : Nat
  deriving DecidableEq, Repr

namespace Tag

/-- A universal tag with plain contents. -/
def plain (number : Nat) : Tag := ⟨.universal, false, number⟩

/-- Truth values. -/
def boolean : Tag := plain 1
/-- Whole numbers. -/
def integer : Tag := plain 2
/-- Strings of bits. -/
def bitString : Tag := plain 3
/-- Strings of bytes. -/
def octets : Tag := plain 4
/-- Nothing. -/
def null : Tag := plain 5
/-- Object identifiers. -/
def objectId : Tag := plain 6
/-- Lists of elements. -/
def sequence : Tag := ⟨.universal, true, 16⟩
/-- Sets of elements. -/
def set : Tag := ⟨.universal, true, 17⟩

/-- A numbered field with elements in it. -/
def field (number : Nat) : Tag := ⟨.context, true, number⟩

/-- A numbered field with plain contents. -/
def plainField (number : Nat) : Tag := ⟨.context, false, number⟩

end Tag

/-- A tag and its contents. -/
structure Element where
  tag : Tag
  contents : Bytes
  /-- Whether the contents were ended by a mark and not by their length. -/
  openEnded : Bool
  deriving DecidableEq, Repr

/-- Groups of seven bits as numbers; the last group of each has its top bit
clear. Groups that are never ended are lost. -/
def base128 (pending : Nat) : Bytes → List Nat
  | [] => []
  | x :: rest =>
    let n := pending * 128 + x.toNat % 128
    if x < 128 then n :: base128 0 rest else base128 n rest

/-- The object identifier that contents spell: the first number holds two. -/
def objectIdOf (contents : Bytes) : ObjectId :=
  match base128 0 contents with
  | [] => []
  | n :: rest => (if n < 40 then [0, n] else if n < 80 then [1, n - 40] else [2, n - 80]) ++ rest

/-- The number that contents spell in two's complement, most significant byte first. -/
def integerOf : Bytes → Int
  | [] => 0
  | x :: rest =>
    let n := Bytes.toNat (x :: rest)
    if x < 128 then (n : Int) else (n : Int) - (Nat.pow 256 (rest.length + 1) : Nat)

end PackageSigning.Asn1
