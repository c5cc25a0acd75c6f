import PackageSigning.Digest.Iterated

/-!
# SHA-1

Eighty rounds on five words. The function that mixes three of the words and the
constant change every twenty rounds.
-/

namespace PackageSigning.Digest.Sha1

/-- The five working words. -/
structure State where
  a : UInt32
  b : UInt32
  c : UInt32
  d : UInt32
  e : UInt32

/-- The mix of three words in a round, with the round's constant. -/
def mix (round : Nat) (b c d : UInt32) : UInt32 :=
  if round < 20 then ((b &&& c) ||| (~~~b &&& d)) + 0x5a827999
  else if round < 40 then (b ^^^ c ^^^ d) + 0x6ed9eba1
  else if round < 60 then ((b &&& c) ||| (b &&& d) ||| (c &&& d)) + 0x8f1bbcdc
  else (b ^^^ c ^^^ d) + 0xca62c1d6

/-- The message words of all rounds, from those of the block. -/
def schedule (block : Array UInt32) : Array UInt32 :=
  Nat.fold 64 (fun _ _ w =>
    let n := w.size
    w.push (rotateLeft32 (w.getD (n - 3) 0 ^^^ w.getD (n - 8) 0 ^^^ w.getD (n - 14) 0 ^^^
      w.getD (n - 16) 0) 1)) block

/-- Runs the rounds from number `round` on, one for each message word. -/
def rounds (round : Nat) (s : State) : List UInt32 → State
  | [] => s
  | w :: ws =>
    let t := rotateLeft32 s.a 5 + mix round s.b s.c s.d + s.e + w
    rounds (round + 1) ⟨t, s.a, rotateLeft32 s.b 30, s.c, s.d⟩ ws

/-- The state after one more block. -/
def step (s : State) (block : Bytes) : State :=
  let t := rounds 0 s (schedule (words32 block).toArray).toList
  ⟨s.a + t.a, s.b + t.b, s.c + t.c, s.d + t.d, s.e + t.e⟩

/-- The digest of 160 bits. -/
def sha1 : Iterated State where
  blockSize := 64
  lengthSize := 8
  littleEndian := false
  start := ⟨0x67452301, 0xefcdab89, 0x98badcfe, 0x10325476, 0xc3d2e1f0⟩
  step := step
  finish s := [s.a, s.b, s.c, s.d, s.e].flatMap bytes32

end PackageSigning.Digest.Sha1
