import PackageSigning.Platform
import PackageSigning.Text.Encoding.Names

/-!
# Character encodings

An `Encoding` turns text into bytes and back. The Unicode encodings, ASCII, the
two western ISO sets and the western Windows set are spelled out. What every other
encoding of text does is up to the platform: it may refuse a text in any way, and it
need not read back what it has written. Encodings that turn bytes into bytes have a
name and can be looked up, but refuse text.

`Encoding.named` finds an encoding by any of its names, `encode` and `decode` convert.
-/

namespace PackageSigning.Text

/-- Which end of a number comes first. -/
inductive ByteOrder where
  | little
  | big
  deriving DecidableEq, Repr

/-- A way to write text as bytes. -/
inductive Encoding where
  | utf8
  /-- UTF-8 with a byte order mark in front. -/
  | utf8Marked
  | ascii
  | latin1
  | latin9
  | windows1252
  /-- UTF-16; with no order given, a byte order mark tells it. -/
  | utf16 (order : Option ByteOrder)
  /-- UTF-32; with no order given, a byte order mark tells it. -/
  | utf32 (order : Option ByteOrder)
  /-- Some other encoding of text, known to the platform. -/
  | other (name : String)
  /-- An encoding of bytes, not of text. -/
  | transform (name : String)
  /-- The encoding that refuses every text. -/
  | undefined
  deriving DecidableEq, Repr

namespace Encoding

/-- The encodings of bytes. -/
def transforms : List String := ["base64", "bz2", "hex", "quopri", "rot-13", "uu", "zlib"]

/-- The encoding with a canonical name. -/
def ofCanonical (name : String) : Encoding :=
  if transforms.contains name then .transform name
  else match name with
    | "utf-8" => .utf8
    | "utf-8-sig" => .utf8Marked
    | "ascii" => .ascii
    | "iso8859-1" => .latin1
    | "iso8859-15" => .latin9
    | "cp1252" => .windows1252
    | "utf-16" => .utf16 none
    | "utf-16-le" => .utf16 (some .little)
    | "utf-16-be" => .utf16 (some .big)
    | "utf-32" => .utf32 none
    | "utf-32-le" => .utf32 (some .little)
    | "utf-32-be" => .utf32 (some .big)
    | "undefined" => .undefined
    | _ => .other name

/-- The canonical name. -/
def name : Encoding → String
  | utf8 => "utf-8"
  | utf8Marked => "utf-8-sig"
  | ascii => "ascii"
  | latin1 => "iso8859-1"
  | latin9 => "iso8859-15"
  | windows1252 => "cp1252"
  | utf16 none => "utf-16"
  | utf16 (some .little) => "utf-16-le"
  | utf16 (some .big) => "utf-16-be"
  | utf32 none => "utf-32"
  | utf32 (some .little) => "utf-32-le"
  | utf32 (some .big) => "utf-32-be"
  | other name | transform name => name
  | undefined => "undefined"

/-- The encoding that a name stands for. A zero character is no part of a name. -/
def named (name : String) : Except Fault Encoding :=
  if name.toList.contains (Char.ofNat 0) then .error (.mishap .badValue)
  else match canonicalName? name with
    | some canonical => .ok (ofCanonical canonical)
    | none => .error (.mishap .unknownName)

/-- The characters of the Windows set at 80 to 9F; five places are empty. -/
def windowsHigh : List (Option Nat) :=
  [some 0x20ac, none, some 0x201a, some 0x0192, some 0x201e, some 0x2026, some 0x2020,
   some 0x2021, some 0x02c6, some 0x2030, some 0x0160, some 0x2039, some 0x0152, none,
   some 0x017d, none, none, some 0x2018, some 0x2019, some 0x201c, some 0x201d, some 0x2022,
   some 0x2013, some 0x2014, some 0x02dc, some 0x2122, some 0x0161, some 0x203a, some 0x0153,
   none, some 0x017e, some 0x0178]

/-- The places where ISO 8859-15 differs from ISO 8859-1. -/
def latin9Changes : List (Nat × Nat) :=
  [(0xa4, 0x20ac), (0xa6, 0x160), (0xa8, 0x161), (0xb4, 0x17d), (0xb8, 0x17e), (0xbc, 0x152),
   (0xbd, 0x153), (0xbe, 0x178)]

/-- The code point at a byte of an encoding with one byte per character. -/
def codePointAt? : Encoding → Nat → Option Nat
  | latin1, n => some n
  | latin9, n => some ((latin9Changes.lookup n).getD n)
  | windows1252, n => if 0x80 ≤ n ∧ n < 0xa0 then (windowsHigh[n - 0x80]?).getD none else some n
  | _, n => if n < 128 then some n else none

/-- The byte for a character in an encoding with one byte per character. -/
def byteFor? (e : Encoding) (c : Char) : Option UInt8 :=
  ((List.range 256).find? fun n => codePointAt? e n == some c.toNat).map UInt8.ofNat

/-- A number of `width` bytes in the given order. -/
def number (order : ByteOrder) (width n : Nat) : Bytes :=
  match order with
  | .little => Bytes.ofNatLittle width n
  | .big => Bytes.ofNat width n

/-- One or two 16-bit units. -/
def units16 (c : Char) : List Nat :=
  let n := c.toNat
  if n < 0x10000 then [n] else [0xd800 + (n - 0x10000) / 0x400, 0xdc00 + (n - 0x10000) % 0x400]

/-- The bytes of a text without any mark in front. -/
def encodeBare (e : Encoding) (cs : List Char) : Option Bytes :=
  match e with
  | utf8 | utf8Marked => some (Bytes.ofText (String.ofList cs))
  | utf16 order =>
    some (cs.flatMap fun c => (units16 c).flatMap (number (order.getD .little) 2))
  | utf32 order => some (cs.flatMap fun c => number (order.getD .little) 4 c.toNat)
  | _ => cs.mapM (byteFor? e)

/-- The mark that goes in front of every text. -/
def mark : Encoding → Bytes
  | utf8Marked => [0xef, 0xbb, 0xbf]
  | utf16 none => [0xff, 0xfe]
  | utf32 none => [0xff, 0xfe, 0, 0]
  | _ => []

/-- The bytes of a text. -/
def encode [Platform] (e : Encoding) (text : String) : Except Fault Bytes :=
  match e with
  | other name => (Platform.encode name text).mapError .mishap
  | transform _ => .error (.mishap .unknownName)
  | undefined => .error (.mishap .badEncoding)
  | _ =>
    match encodeBare e text.toList with
    | some body => .ok (mark e ++ body)
    | none => .error (.mishap .unencodable)

/-- Groups 16-bit units into characters; a half of a pair alone is refused. -/
def charsOfUnits : List Nat → Option (List Char)
  | [] => some []
  | u :: rest =>
    if 0xd800 ≤ u ∧ u < 0xdc00 then
      match rest with
      | v :: rest =>
        if 0xdc00 ≤ v ∧ v < 0xe000 then
          (charsOfUnits rest).map
            (Char.ofNat (0x10000 + (u - 0xd800) * 0x400 + (v - 0xdc00)) :: ·)
        else none
      | [] => none
    else if 0xdc00 ≤ u ∧ u < 0xe000 then none
    else (charsOfUnits rest).map (Char.ofNat u :: ·)

/-- Cuts bytes into numbers of `width` bytes; a remainder is refused. -/
def numbers (order : ByteOrder) (width : Nat) (b : Bytes) : Option (List Nat) :=
  (Bytes.blocks width b).mapM fun block =>
    if block.length = width then
      some (match order with
        | .little => Bytes.toNatLittle block
        | .big => Bytes.toNat block)
    else none

/-- The order that a mark in front tells, and what follows the mark. -/
def readMark (width : Nat) (b : Bytes) : ByteOrder × Bytes :=
  if (number .little width 0xfeff).isPrefixOf b then (.little, b.drop width)
  else if (number .big width 0xfeff).isPrefixOf b then (.big, b.drop width)
  else (.little, b)

/-- A code point that is a character. -/
def char? (n : Nat) : Option Char := if n.isValidChar then some (Char.ofNat n) else none

/-- The text of UTF-8 bytes. -/
def decodeUtf8 (b : Bytes) : Option (List Char) :=
  (String.fromUTF8? ⟨b.toArray⟩).map String.toList

/-- The characters of bytes, or nothing if the bytes are malformed. -/
def decodeChars (e : Encoding) (b : Bytes) : Option (List Char) :=
  match e with
  | utf8 => decodeUtf8 b
  | utf8Marked => decodeUtf8 (if (mark utf8Marked).isPrefixOf b then b.drop 3 else b)
  | utf16 (some order) => numbers order 2 b >>= charsOfUnits
  | utf16 none => let (order, body) := readMark 2 b; numbers order 2 body >>= charsOfUnits
  | utf32 (some order) => numbers order 4 b >>= fun ns => ns.mapM char?
  | utf32 none => let (order, body) := readMark 4 b; numbers order 4 body >>= fun ns => ns.mapM char?
  | _ => b.mapM fun x => codePointAt? e x.toNat >>= char?

/-- The text of bytes. -/
def decode [Platform] (e : Encoding) (b : Bytes) : Except Fault String :=
  match e with
  | other name => (Platform.decode name b).mapError .mishap
  | transform _ => .error (.mishap .unknownName)
  | undefined => .error (.mishap .badEncoding)
  | _ =>
    match decodeChars e b with
    | some cs => .ok (String.ofList cs)
    | none => .error (.mishap .undecodable)

end Encoding
end PackageSigning.Text
