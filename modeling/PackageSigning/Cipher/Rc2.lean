import PackageSigning.Bytes

/-!
# RC2

A block is four 16-bit words, least significant byte first. The key is expanded
to 64 words through a table, after having been cut to its effective length.
-/

namespace PackageSigning.Cipher.Rc2

/-- A permutation of the bytes, from the digits of pi. -/
def table : Array UInt8 :=
  #[0xd9, 0x78, 0xf9, 0xc4, 0x19, 0xdd, 0xb5, 0xed, 0x28, 0xe9, 0xfd, 0x79, 0x4a, 0xa0, 0xd8, 0x9d,
    0xc6, 0x7e, 0x37, 0x83, 0x2b, 0x76, 0x53, 0x8e, 0x62, 0x4c, 0x64, 0x88, 0x44, 0x8b, 0xfb, 0xa2,
    0x17, 0x9a, 0x59, 0xf5, 0x87, 0xb3, 0x4f, 0x13, 0x61, 0x45, 0x6d, 0x8d, 0x09, 0x81, 0x7d, 0x32,
    0xbd, 0x8f, 0x40, 0xeb, 0x86, 0xb7, 0x7b, 0x0b, 0xf0, 0x95, 0x21, 0x22, 0x5c, 0x6b, 0x4e, 0x82,
    0x54, 0xd6, 0x65, 0x93, 0xce, 0x60, 0xb2, 0x1c, 0x73, 0x56, 0xc0, 0x14, 0xa7, 0x8c, 0xf1, 0xdc,
    0x12, 0x75, 0xca, 0x1f, 0x3b, 0xbe, 0xe4, 0xd1, 0x42, 0x3d, 0xd4, 0x30, 0xa3, 0x3c, 0xb6, 0x26,
    0x6f, 0xbf, 0x0e, 0xda, 0x46, 0x69, 0x07, 0x57, 0x27, 0xf2, 0x1d, 0x9b, 0xbc, 0x94, 0x43, 0x03,
    0xf8, 0x11, 0xc7, 0xf6, 0x90, 0xef, 0x3e, 0xe7, 0x06, 0xc3, 0xd5, 0x2f, 0xc8, 0x66, 0x1e, 0xd7,
    0x08, 0xe8, 0xea, 0xde, 0x80, 0x52, 0xee, 0xf7, 0x84, 0xaa, 0x72, 0xac, 0x35, 0x4d, 0x6a, 0x2a,
    0x96, 0x1a, 0xd2, 0x71, 0x5a, 0x15, 0x49, 0x74, 0x4b, 0x9f, 0xd0, 0x5e, 0x04, 0x18, 0xa4, 0xec,
    0xc2, 0xe0, 0x41, 0x6e, 0x0f, 0x51, 0xcb, 0xcc, 0x24, 0x91, 0xaf, 0x50, 0xa1, 0xf4, 0x70, 0x39,
    0x99, 0x7c, 0x3a, 0x85, 0x23, 0xb8, 0xb4, 0x7a, 0xfc, 0x02, 0x36, 0x5b, 0x25, 0x55, 0x97, 0x31,
    0x2d, 0x5d, 0xfa, 0x98, 0xe3, 0x8a, 0x92, 0xae, 0x05, 0xdf, 0x29, 0x10, 0x67, 0x6c, 0xba, 0xc9,
    0xd3, 0x00, 0xe6, 0xcf, 0xe1, 0x9e, 0xa8, 0x2c, 0x63, 0x16, 0x01, 0x3f, 0x58, 0xe2, 0x89, 0xa9,
    0x0d, 0x38, 0x34, 0x1b, 0xab, 0x33, 0xff, 0xb0, 0xbb, 0x48, 0x0c, 0x5f, 0xb9, 0xb1, 0xcd, 0x2e,
    0xc5, 0xf3, 0xdb, 0x47, 0xe5, 0xa5, 0x9c, 0x77, 0x0a, 0xa6, 0x20, 0x68, 0xfe, 0x7f, 0xc1, 0xad]

/-- The table entry of a sum. -/
def look (n : Nat) : UInt8 := table.getD (n % 256) 0

/-- Lengthens a key to 128 bytes, each from the last one and the one `size` before. -/
def lengthen (size : Nat) : Nat → Array UInt8 → Array UInt8
  | 0, key => key
  | fuel + 1, key =>
    if key.size ≥ 128 then key
    else
      let last := (key.getD (key.size - 1) 0).toNat
      lengthen size fuel (key.push (look (last + (key.getD (key.size - size) 0).toNat)))

/-- Recomputes the bytes before the effective end, from the back. -/
def cut (bytes : Nat) : Nat → Array UInt8 → Array UInt8
  | 0, key => key
  | i + 1, key =>
    cut bytes i (key.setIfInBounds i (look ((key.getD (i + 1) 0 ^^^ key.getD (i + bytes) 0).toNat)))

/-- The 64 key words of a key of which `bits` bits are effective. -/
def expand (bits : Nat) (key : Bytes) : Array UInt16 :=
  let long := lengthen key.length 128 key.toArray
  let bytes := (bits + 7) / 8
  let mask := UInt8.ofNat (255 / Nat.pow 2 (8 * bytes - bits))
  let i := 128 - bytes
  let long := long.setIfInBounds i (look (long.getD i 0 &&& mask).toNat)
  ((Bytes.blocks 2 (cut bytes i long).toList).map fun w => UInt16.ofNat (Bytes.toNatLittle w)).toArray

/-- By how much each word of a block turns. -/
def turn : Nat → UInt16
  | 0 => 1
  | 1 => 2
  | 2 => 3
  | _ => 5

/-- The word of a block, counted around. -/
def word (r : Array UInt16) (i : Nat) : UInt16 := r.getD (i % 4) 0

/-- Undoes the mixing of word `i` with key word `j`. -/
def unmix (k : Array UInt16) (j : Nat) (r : Array UInt16) (i : Nat) : Array UInt16 :=
  let s := turn i
  let w := word r i
  let w := w >>> s ||| w <<< (16 - s)
  let d := word r (i + 3)
  r.setIfInBounds i (w - k.getD j 0 - (d &&& word r (i + 2)) - (~~~d &&& word r (i + 1)))

/-- Undoes a mixing round, the first of whose key words is `j`. -/
def unmixRound (k : Array UInt16) (r : Array UInt16) (j : Nat) : Array UInt16 :=
  [3, 2, 1, 0].foldl (fun r i => unmix k (j + i) r i) r

/-- Undoes a mashing round. -/
def unmash (k : Array UInt16) (r : Array UInt16) : Array UInt16 :=
  [3, 2, 1, 0].foldl (fun r i =>
    r.setIfInBounds i (word r i - k.getD ((word r (i + 3)).toNat % 64) 0)) r

/-- Undoes the mixing rounds `last`, `last - 1`, …, `first`. -/
def unmixRounds (k : Array UInt16) (first last : Nat) (r : Array UInt16) : Array UInt16 :=
  (List.range (last + 1 - first)).foldl (fun r n => unmixRound k r (4 * (last - n))) r

/-- Decrypts a block. -/
def decryptBlock (k : Array UInt16) (block : Bytes) : Bytes :=
  let r := ((Bytes.blocks 2 block).map fun w => UInt16.ofNat (Bytes.toNatLittle w)).toArray
  let r := unmash k (unmixRounds k 11 15 r)
  let r := unmash k (unmixRounds k 5 10 r)
  (unmixRounds k 0 4 r).toList.flatMap fun w => Bytes.ofNatLittle 2 w.toNat

end PackageSigning.Cipher.Rc2
