import PackageSigning.Digest

/-!
# Keys from passwords in PKCS #12

A purpose (`Purpose`), the salt and the password, the latter two repeated to
whole blocks, are digested again and again. For further bytes the repeated
salt and password are advanced by the last digest, block by block.
-/

namespace PackageSigning.KeyDerivation.Pkcs12

/-- What a derived value is for. -/
inductive Purpose where
  | key
  | initialValue
  | integrity
  deriving DecidableEq, Repr

/-- The number that stands for a purpose. -/
def Purpose.id : Purpose → UInt8
  | key => 1
  | initialValue => 2
  | integrity => 3

/-- The first `n` bytes of the endless repetition of `b`. -/
def cycle (b : Bytes) (n : Nat) : Bytes :=
  if b.isEmpty then [] else ((List.replicate (n / b.length + 1) b).flatten).take n

/-- Repetition of `b` to a multiple of the block size. -/
def fill (blockSize : Nat) (b : Bytes) : Bytes :=
  cycle b (blockSize * ((b.length + blockSize - 1) / blockSize))

/-- Digests, one for each unit of fuel, of the purpose and the advancing input. -/
def digests (digest : DigestAlgorithm) (purpose : Purpose) (iterations : Nat) : Nat → Bytes → Bytes
  | 0, _ => []
  | count + 1, input =>
    let v := digest.blockSize
    let first := digest.hash (List.replicate v purpose.id ++ input)
    let a := Nat.fold (iterations - 1) (fun _ _ b => digest.hash b) first
    let addend := Bytes.toNat (cycle a v) + 1
    let advanced := (Bytes.blocks v input).flatMap fun b => Bytes.ofNat v (Bytes.toNat b + addend)
    a ++ digests digest purpose iterations count advanced

/-- `length` bytes for a purpose. The password is given as it is digested: in
16-bit units with a zero unit at the end. -/
def derive (digest : DigestAlgorithm) (purpose : Purpose) (password salt : Bytes)
    (iterations length : Nat) : Bytes :=
  let v := digest.blockSize
  let count := (length + digest.size - 1) / digest.size
  (digests digest purpose iterations count (fill v salt ++ fill v password)).take length

end PackageSigning.KeyDerivation.Pkcs12
