import PackageSigning.KeyDerivation.Pbkdf2

/-!
# Keys from passwords that need memory

scrypt: PBKDF2 makes `parallel` blocks, each block is mixed in a table of
`cost` versions of itself, and PBKDF2 makes the key with the mixed blocks as
salt. The mix is built from the core of the Salsa20 stream cipher, eight rounds.
-/

namespace PackageSigning.KeyDerivation.Scrypt

/-- Sixteen words on which the core works. -/
abbrev Words := Array UInt32

/-- `target` becomes itself xor the sum of two words, rotated. -/
def stir (w : Words) (target a b : Nat) (shift : UInt32) : Words :=
  w.setIfInBounds target (w.getD target 0 ^^^ Digest.rotateLeft32 (w.getD a 0 + w.getD b 0) shift)

/-- Stirs four words in a ring. -/
def quarter (w : Words) (a b c d : Nat) : Words :=
  stir (stir (stir (stir w b a d 7) c b a 9) d c b 13) a d c 18

/-- Two rounds: the columns, then the rows. -/
def doubleRound (w : Words) : Words :=
  let w := quarter (quarter (quarter (quarter w 0 4 8 12) 5 9 13 1) 10 14 2 6) 15 3 7 11
  quarter (quarter (quarter (quarter w 0 1 2 3) 5 6 7 4) 10 11 8 9) 15 12 13 14

/-- The core: eight rounds, added to the input. -/
def core (w : Words) : Words :=
  Array.zipWith (· + ·) (Nat.fold 4 (fun _ _ w => doubleRound w) w) w

/-- Mixes the parts of a block one after the other, each with the one before;
`even` and `odd` collect the results, last one first. -/
def mixParts (last : Words) (even odd : List Words) : List Words → List Words
  | [] => even.reverse ++ odd.reverse
  | [p] => (core (Array.zipWith (· ^^^ ·) last p) :: even).reverse ++ odd.reverse
  | p :: q :: rest =>
    let a := core (Array.zipWith (· ^^^ ·) last p)
    let b := core (Array.zipWith (· ^^^ ·) a q)
    mixParts b (a :: even) (b :: odd) rest

/-- Mixes a block, starting with its last part; results at even places go first. -/
def mixBlock (block : List Words) : List Words :=
  mixParts ((block.getLast?).getD #[]) [] [] block

/-- Two blocks, word by word. -/
def xorBlocks (a b : List Words) : List Words :=
  List.zipWith (fun x y => Array.zipWith (· ^^^ ·) x y) a b

/-- Fills a table with successive mixes of the block. -/
def fillTable (cost : Nat) (block : List Words) : Array (List Words) × List Words :=
  Nat.fold cost (fun _ _ (t, b) => (t.push b, mixBlock b)) (#[], block)

/-- The table entry that a block points to. -/
def pointer (cost : Nat) (block : List Words) : Nat :=
  (((block.getLast?).getD #[]).getD 0 0).toNat % cost

/-- Mixes a block with table entries that it points to itself. -/
def romix (cost : Nat) (block : List Words) : List Words :=
  let (table, block) := fillTable cost block
  Nat.fold cost (fun _ _ b => mixBlock (xorBlocks b (table.getD (pointer cost b) []))) block

/-- The parts of a block of bytes, words least significant byte first. -/
def parts (b : Bytes) : List Words :=
  (Bytes.blocks 64 b).map fun part =>
    ((Bytes.blocks 4 part).map fun w => UInt32.ofNat (Bytes.toNatLittle w)).toArray

/-- The bytes of a block. -/
def bytes (block : List Words) : Bytes :=
  block.flatMap fun part => part.toList.flatMap fun w => (Digest.bytes32 w).reverse

/-- A key of `length` bytes from a password. -/
def derive (password salt : Bytes) (cost blockSize parallel length : Nat) : Bytes :=
  let start := pbkdf2 .sha256 password salt 1 (parallel * 128 * blockSize)
  let mixed := (Bytes.blocks (128 * blockSize) start).flatMap fun b => bytes (romix cost (parts b))
  pbkdf2 .sha256 password mixed 1 length

end PackageSigning.KeyDerivation.Scrypt
