import PackageSigning.Bytes

/-!
# DES and triple DES

A block is 64 bits, numbered from 1 as in the standard. Sixteen rounds mix one
half into the other under 48 bits of the key; decryption takes the round keys in
reverse. Triple DES encrypts, decrypts and encrypts under three keys.
-/

namespace PackageSigning.Cipher.Des

/-- Bits, first bit first. -/
abbrev Bits := List Bool

/-- Takes the bits at the places in a table, counted from 1. -/
def permute (table : List Nat) (bits : Bits) : Bits :=
  let a := bits.toArray
  table.map fun i => a.getD (i - 1) false

/-- The permutation before the rounds. -/
def initial : List Nat :=
  [58, 50, 42, 34, 26, 18, 10, 2, 60, 52, 44, 36, 28, 20, 12, 4,
   62, 54, 46, 38, 30, 22, 14, 6, 64, 56, 48, 40, 32, 24, 16, 8,
   57, 49, 41, 33, 25, 17, 9, 1, 59, 51, 43, 35, 27, 19, 11, 3,
   61, 53, 45, 37, 29, 21, 13, 5, 63, 55, 47, 39, 31, 23, 15, 7]

/-- The permutation after the rounds, which undoes the first one. -/
def final : List Nat :=
  [40, 8, 48, 16, 56, 24, 64, 32, 39, 7, 47, 15, 55, 23, 63, 31,
   38, 6, 46, 14, 54, 22, 62, 30, 37, 5, 45, 13, 53, 21, 61, 29,
   36, 4, 44, 12, 52, 20, 60, 28, 35, 3, 43, 11, 51, 19, 59, 27,
   34, 2, 42, 10, 50, 18, 58, 26, 33, 1, 41, 9, 49, 17, 57, 25]

/-- Widens a half block to 48 bits. -/
def expansion : List Nat :=
  [32, 1, 2, 3, 4, 5, 4, 5, 6, 7, 8, 9, 8, 9, 10, 11,
   12, 13, 12, 13, 14, 15, 16, 17, 16, 17, 18, 19, 20, 21, 20, 21,
   22, 23, 24, 25, 24, 25, 26, 27, 28, 29, 28, 29, 30, 31, 32, 1]

/-- The permutation at the end of a round. -/
def straight : List Nat :=
  [16, 7, 20, 21, 29, 12, 28, 17, 1, 15, 23, 26, 5, 18, 31, 10,
   2, 8, 24, 14, 32, 27, 3, 9, 19, 13, 30, 6, 22, 11, 4, 25]

/-- The key bits in use; every eighth bit of the key is left out. -/
def keyChoice : List Nat :=
  [57, 49, 41, 33, 25, 17, 9, 1, 58, 50, 42, 34, 26, 18, 10, 2,
   59, 51, 43, 35, 27, 19, 11, 3, 60, 52, 44, 36, 63, 55, 47, 39,
   31, 23, 15, 7, 62, 54, 46, 38, 30, 22, 14, 6, 61, 53, 45, 37,
   29, 21, 13, 5, 28, 20, 12, 4]

/-- The 48 bits of a round key. -/
def roundChoice : List Nat :=
  [14, 17, 11, 24, 1, 5, 3, 28, 15, 6, 21, 10, 23, 19, 12, 4,
   26, 8, 16, 7, 27, 20, 13, 2, 41, 52, 31, 37, 47, 55, 30, 40,
   51, 45, 33, 48, 44, 49, 39, 56, 34, 53, 46, 42, 50, 36, 29, 32]

/-- By how much the key halves turn before each round. -/
def turns : List Nat := [1, 1, 2, 2, 2, 2, 2, 2, 1, 2, 2, 2, 2, 2, 2, 1]

/-- The eight substitutions of six bits by four, each as four rows of sixteen. -/
def boxes : List (Array Nat) :=
  [#[14, 4, 13, 1, 2, 15, 11, 8, 3, 10, 6, 12, 5, 9, 0, 7,
     0, 15, 7, 4, 14, 2, 13, 1, 10, 6, 12, 11, 9, 5, 3, 8,
     4, 1, 14, 8, 13, 6, 2, 11, 15, 12, 9, 7, 3, 10, 5, 0,
     15, 12, 8, 2, 4, 9, 1, 7, 5, 11, 3, 14, 10, 0, 6, 13],
   #[15, 1, 8, 14, 6, 11, 3, 4, 9, 7, 2, 13, 12, 0, 5, 10,
     3, 13, 4, 7, 15, 2, 8, 14, 12, 0, 1, 10, 6, 9, 11, 5,
     0, 14, 7, 11, 10, 4, 13, 1, 5, 8, 12, 6, 9, 3, 2, 15,
     13, 8, 10, 1, 3, 15, 4, 2, 11, 6, 7, 12, 0, 5, 14, 9],
   #[10, 0, 9, 14, 6, 3, 15, 5, 1, 13, 12, 7, 11, 4, 2, 8,
     13, 7, 0, 9, 3, 4, 6, 10, 2, 8, 5, 14, 12, 11, 15, 1,
     13, 6, 4, 9, 8, 15, 3, 0, 11, 1, 2, 12, 5, 10, 14, 7,
     1, 10, 13, 0, 6, 9, 8, 7, 4, 15, 14, 3, 11, 5, 2, 12],
   #[7, 13, 14, 3, 0, 6, 9, 10, 1, 2, 8, 5, 11, 12, 4, 15,
     13, 8, 11, 5, 6, 15, 0, 3, 4, 7, 2, 12, 1, 10, 14, 9,
     10, 6, 9, 0, 12, 11, 7, 13, 15, 1, 3, 14, 5, 2, 8, 4,
     3, 15, 0, 6, 10, 1, 13, 8, 9, 4, 5, 11, 12, 7, 2, 14],
   #[2, 12, 4, 1, 7, 10, 11, 6, 8, 5, 3, 15, 13, 0, 14, 9,
     14, 11, 2, 12, 4, 7, 13, 1, 5, 0, 15, 10, 3, 9, 8, 6,
     4, 2, 1, 11, 10, 13, 7, 8, 15, 9, 12, 5, 6, 3, 0, 14,
     11, 8, 12, 7, 1, 14, 2, 13, 6, 15, 0, 9, 10, 4, 5, 3],
   #[12, 1, 10, 15, 9, 2, 6, 8, 0, 13, 3, 4, 14, 7, 5, 11,
     10, 15, 4, 2, 7, 12, 9, 5, 6, 1, 13, 14, 0, 11, 3, 8,
     9, 14, 15, 5, 2, 8, 12, 3, 7, 0, 4, 10, 1, 13, 11, 6,
     4, 3, 2, 12, 9, 5, 15, 10, 11, 14, 1, 7, 6, 0, 8, 13],
   #[4, 11, 2, 14, 15, 0, 8, 13, 3, 12, 9, 7, 5, 10, 6, 1,
     13, 0, 11, 7, 4, 9, 1, 10, 14, 3, 5, 12, 2, 15, 8, 6,
     1, 4, 11, 13, 12, 3, 7, 14, 10, 15, 6, 8, 0, 5, 9, 2,
     6, 11, 13, 8, 1, 4, 10, 7, 9, 5, 0, 15, 14, 2, 3, 12],
   #[13, 2, 8, 4, 6, 15, 11, 1, 10, 9, 3, 14, 5, 0, 12, 7,
     1, 15, 13, 8, 10, 3, 7, 4, 12, 5, 6, 11, 0, 14, 9, 2,
     7, 11, 4, 1, 9, 12, 14, 2, 0, 6, 10, 13, 15, 3, 5, 8,
     2, 1, 14, 7, 4, 10, 8, 13, 15, 12, 9, 0, 3, 5, 6, 11]]

/-- The bits of a number, most significant first. -/
def bitsOf (width n : Nat) : Bits := (List.range width).map fun i => n.testBit (width - 1 - i)

/-- The number that bits spell, most significant first. -/
def ofBits (bits : Bits) : Nat := bits.foldl (fun n b => 2 * n + b.toNat) 0

/-- The bits of bytes. -/
def bitsOfBytes (b : Bytes) : Bits := b.flatMap fun x => bitsOf 8 x.toNat

/-- The bytes that bits spell. -/
def bytesOfBits : Bits → Bytes
  | a :: b :: c :: d :: e :: f :: g :: h :: rest =>
    UInt8.ofNat (ofBits [a, b, c, d, e, f, g, h]) :: bytesOfBits rest
  | _ => []

/-- Substitutes six bits at a time. -/
def substitute : List (Array Nat) → Bits → Bits
  | box :: boxes, a :: b :: c :: d :: e :: f :: rest =>
    bitsOf 4 (box.getD (16 * ofBits [a, f] + ofBits [b, c, d, e]) 0) ++ substitute boxes rest
  | _, _ => []

/-- What a round adds to the other half. -/
def feed (key half : Bits) : Bits :=
  permute straight (substitute boxes (List.zipWith Bool.xor (permute expansion half) key))

/-- The round keys of the turned halves. -/
def roundKeysFrom : Bits → Bits → List Nat → List Bits
  | _, _, [] => []
  | left, right, n :: rest =>
    let left := left.drop n ++ left.take n
    let right := right.drop n ++ right.take n
    permute roundChoice (left ++ right) :: roundKeysFrom left right rest

/-- The round keys of a key of eight bytes. -/
def roundKeys (key : Bytes) : List Bits :=
  let chosen := permute keyChoice (bitsOfBytes key)
  roundKeysFrom (chosen.take 28) (chosen.drop 28) turns

/-- The rounds on two halves, which are exchanged at the end. -/
def rounds : Bits → Bits → List Bits → Bits
  | left, right, [] => right ++ left
  | left, right, key :: rest => rounds right (List.zipWith Bool.xor left (feed key right)) rest

/-- A block under round keys. -/
def crypt (keys : List Bits) (block : Bytes) : Bytes :=
  let bits := permute initial (bitsOfBytes block)
  bytesOfBits (permute final (rounds (bits.take 32) (bits.drop 32) keys))

/-- Encrypts a block under a key of eight bytes. -/
def encryptBlock (key block : Bytes) : Bytes := crypt (roundKeys key) block

/-- Decrypts a block under a key of eight bytes. -/
def decryptBlock (key block : Bytes) : Bytes := crypt (roundKeys key).reverse block

/-- Decrypts a block under three keys of eight bytes each. -/
def tripleDecryptBlock (key : Bytes) : Bytes → Bytes :=
  let first := roundKeys (key.take 8)
  let second := roundKeys ((key.drop 8).take 8)
  let third := roundKeys (key.drop 16)
  fun block => crypt first.reverse (crypt second (crypt third.reverse block))

end PackageSigning.Cipher.Des
