/-!
# Byte strings

A byte string is a list of bytes. Beside the list operations it has a
hexadecimal text (two lower-case digits a byte) and spells whole numbers: most
significant byte first in certificates and keys, least significant byte first,
in four bytes, in lineage files.
-/

namespace PackageSigning

/-- A string of bytes, first byte first. -/
abbrev Bytes := List UInt8

namespace Bytes

/-- The UTF-8 form of a text. -/
def ofText (s : String) : Bytes := s.toUTF8.data.toList

/-- One ASCII character per byte, for text that is known to be ASCII. -/
def ofAscii (s : String) : Bytes := s.toList.map fun c => UInt8.ofNat c.toNat

/-- Each byte as the character with that code point. -/
def toLatin (b : Bytes) : String := String.ofList (b.map fun x => Char.ofNat x.toNat)

/-- The lower-case hexadecimal digit of a value below sixteen. -/
def hexDigit (n : Nat) : Char :=
  if n < 10 then Char.ofNat (48 + n) else Char.ofNat (87 + n)

/-- The value of a hexadecimal digit of either case. -/
def hexValue? (c : Char) : Option Nat :=
  if '0' ≤ c ∧ c ≤ '9' then some (c.toNat - 48)
  else if 'a' ≤ c ∧ c ≤ 'f' then some (c.toNat - 87)
  else if 'A' ≤ c ∧ c ≤ 'F' then some (c.toNat - 55)
  else none

/-- Two digits for every byte. -/
def toHex (b : Bytes) : String :=
  String.ofList (b.flatMap fun x => [hexDigit (x.toNat / 16), hexDigit (x.toNat % 16)])

/-- Reads pairs of hexadecimal digits with nothing between them. -/
def ofHexDigits? : List Char → Option Bytes
  | [] => some []
  | [_] => none
  | h :: l :: rest => do
    let high ← hexValue? h
    let low ← hexValue? l
    let tail ← ofHexDigits? rest
    return UInt8.ofNat (high * 16 + low) :: tail

/-- The number spelled most significant byte first. -/
def toNat (b : Bytes) : Nat := b.foldl (fun n x => n * 256 + x.toNat) 0

/-- The number spelled least significant byte first. -/
def toNatLittle : Bytes → Nat
  | [] => 0
  | x :: rest => x.toNat + 256 * toNatLittle rest

/-- The last `width` bytes of `n`, least significant first. -/
def ofNatLittle : Nat → Nat → Bytes
  | 0, _ => []
  | width + 1, n => UInt8.ofNat n :: ofNatLittle width (n / 256)

/-- The last `width` bytes of `n`, most significant first. -/
def ofNat (width n : Nat) : Bytes := (ofNatLittle width n).reverse

/-- How many bytes the number needs; none for zero. -/
def byteLength (n : Nat) : Nat := if n = 0 then 0 else Nat.log2 n / 8 + 1

/-- How many binary digits the number has; none for zero. -/
def bitLength (n : Nat) : Nat := if n = 0 then 0 else Nat.log2 n + 1

/-- Bytewise exclusive or, as long as the shorter of the two. -/
def xor (a b : Bytes) : Bytes := List.zipWith (· ^^^ ·) a b

/-- The first `n` bytes and the rest, or nothing when there are fewer. -/
def split? (n : Nat) (b : Bytes) : Option (Bytes × Bytes) :=
  if n ≤ b.length then some (b.take n, b.drop n) else none

/-- Blocks of `size` bytes, the last one possibly shorter. -/
def blocks (size : Nat) (b : Bytes) : List Bytes :=
  let rec go : Nat → Bytes → List Bytes
    | 0, _ => []
    | _ + 1, [] => []
    | fuel + 1, rest => rest.take size :: go fuel (rest.drop size)
  go b.length b

/-- Whether `part` occurs in `b` as a run of neighbouring bytes. -/
def includes (part : Bytes) : Bytes → Bool
  | [] => part.isEmpty
  | x :: rest => part.isPrefixOf (x :: rest) || includes part rest

end Bytes
end PackageSigning
