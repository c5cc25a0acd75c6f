import PackageSigning.Digest.Iterated

/-!
# MD5

Sixty-four rounds on four words, with words taken least significant byte first.
The constants are the first 32 bits of the sines of 1 to 64.
-/

namespace PackageSigning.Digest.Md5

/-- The four working words. -/
structure State where
  a : UInt32
  b : UInt32
  c : UInt32
  d : UInt32

/-- One constant for each round. -/
def roundConstants : List UInt32 :=
  [0xd76aa478, 0xe8c7b756, 0x242070db, 0xc1bdceee, 0xf57c0faf, 0x4787c62a, 0xa8304613, 0xfd469501,
   0x698098d8, 0x8b44f7af, 0xffff5bb1, 0x895cd7be, 0x6b901122, 0xfd987193, 0xa679438e, 0x49b40821,
   0xf61e2562, 0xc040b340, 0x265e5a51, 0xe9b6c7aa, 0xd62f105d, 0x02441453, 0xd8a1e681, 0xe7d3fbc8,
   0x21e1cde6, 0xc33707d6, 0xf4d50d87, 0x455a14ed, 0xa9e3e905, 0xfcefa3f8, 0x676f02d9, 0x8d2a4c8a,
   0xfffa3942, 0x8771f681, 0x6d9d6122, 0xfde5380c, 0xa4beea44, 0x4bdecfa9, 0xf6bb4b60, 0xbebfbc70,
   0x289b7ec6, 0xeaa127fa, 0xd4ef3085, 0x04881d05, 0xd9d4d039, 0xe6db99e5, 0x1fa27cf8, 0xc4ac5665,
   0xf4292244, 0x432aff97, 0xab9423a7, 0xfc93a039, 0x655b59c3, 0x8f0ccc92, 0xffeff47d, 0x85845dd1,
   0x6fa87e4f, 0xfe2ce6e0, 0xa3014314, 0x4e0811a1, 0xf7537e82, 0xbd3af235, 0x2ad7d2bb, 0xeb86d391]

/-- By how much a round rotates. -/
def rotation (round : Nat) : UInt32 :=
  let row : List UInt32 := match round / 16 with
    | 0 => [7, 12, 17, 22]
    | 1 => [5, 9, 14, 20]
    | 2 => [4, 11, 16, 23]
    | _ => [6, 10, 15, 21]
  row.getD (round % 4) 0

/-- Which message word a round takes. -/
def wordIndex (round : Nat) : Nat :=
  match round / 16 with
  | 0 => round
  | 1 => (5 * round + 1) % 16
  | 2 => (3 * round + 5) % 16
  | _ => 7 * round % 16

/-- The mix of three words in a round. -/
def mix (round : Nat) (b c d : UInt32) : UInt32 :=
  match round / 16 with
  | 0 => (b &&& c) ||| (~~~b &&& d)
  | 1 => (d &&& b) ||| (~~~d &&& c)
  | 2 => b ^^^ c ^^^ d
  | _ => c ^^^ (b ||| ~~~d)

/-- Runs the rounds from number `round` on, one for each constant. -/
def rounds (block : Array UInt32) (round : Nat) (s : State) : List UInt32 → State
  | [] => s
  | k :: ks =>
    let t := s.a + mix round s.b s.c s.d + k + block.getD (wordIndex round) 0
    rounds block (round + 1) ⟨s.d, s.b + rotateLeft32 t (rotation round), s.b, s.c⟩ ks

/-- The words of a block, least significant byte first. -/
def words (block : Bytes) : List UInt32 :=
  (Bytes.blocks 4 block).map fun b => UInt32.ofNat (Bytes.toNatLittle b)

/-- The state after one more block. -/
def step (s : State) (block : Bytes) : State :=
  let t := rounds (words block).toArray 0 s roundConstants
  ⟨s.a + t.a, s.b + t.b, s.c + t.c, s.d + t.d⟩

/-- The digest of 128 bits. -/
def md5 : Iterated State where
  blockSize := 64
  lengthSize := 8
  littleEndian := true
  start := ⟨0x67452301, 0xefcdab89, 0x98badcfe, 0x10325476⟩
  step := step
  finish s := [s.a, s.b, s.c, s.d].flatMap fun w => (bytes32 w).reverse

end PackageSigning.Digest.Md5
