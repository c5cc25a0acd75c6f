import PackageSigning.Asn1.Element

/-!
# Writing tagged data

Every value has one spelling here, the one that `Asn1.Strict` reads.
-/

namespace PackageSigning.Asn1

/-- The digits of a number, most significant byte first, as few as it needs. -/
def digits (n : Nat) : Bytes := Bytes.ofNat (Bytes.byteLength n) n

/-- The length of contents. -/
def lengthBytes (n : Nat) : Bytes :=
  if n < 128 then [UInt8.ofNat n] else UInt8.ofNat (128 + Bytes.byteLength n) :: digits n

/-- An element. Only tags with numbers below 31 are written. -/
def element (tag : Tag) (contents : Bytes) : Bytes :=
  UInt8.ofNat (tag.tagClass.bits * 64 + (if tag.constructed then 32 else 0) + tag.number) ::
    lengthBytes contents.length ++ contents

/-- A whole number that is not negative: a zero byte in front keeps the top bit clear. -/
def naturalContents (n : Nat) : Bytes :=
  match digits n with
  | [] => [0]
  | x :: rest => if x < 128 then x :: rest else 0 :: x :: rest

/-- A whole number that is not negative, as an element. -/
def natural (n : Nat) : Bytes := element .integer (naturalContents n)

/-- A number in groups of seven bits, with fuel for their count; `rest` follows. -/
def groups : Nat → Nat → Bytes → Bytes
  | 0, _, rest => rest
  | fuel + 1, n, rest =>
    if n < 128 then UInt8.ofNat (n + 128) :: rest
    else groups fuel (n / 128) (UInt8.ofNat (n % 128 + 128) :: rest)

/-- A number in groups of seven bits, the last of them with its top bit clear. -/
def base128Bytes (n : Nat) : Bytes :=
  if n < 128 then [UInt8.ofNat n] else groups n (n / 128) [UInt8.ofNat (n % 128)]

/-- An object identifier. -/
def objectId (id : ObjectId) : Bytes :=
  element .objectId <| match id with
    | a :: b :: rest => ((a * 40 + b) :: rest).flatMap base128Bytes
    | _ => []

/-- A string of bytes. -/
def octets (b : Bytes) : Bytes := element .octets b

/-- A string of bits that fills its bytes. -/
def bitString (b : Bytes) : Bytes := element .bitString (0 :: b)

/-- Nothing. -/
def null : Bytes := element .null []

/-- A sequence of encoded members. -/
def sequence (members : List Bytes) : Bytes := element .sequence members.flatten

/-- A numbered field around encoded members. -/
def field (number : Nat) (members : List Bytes) : Bytes := element (.field number) members.flatten

/-- An algorithm with encoded parameters. -/
def algorithm (id : ObjectId) (parameters : Bytes) : Bytes := sequence [objectId id, parameters]

end PackageSigning.Asn1
