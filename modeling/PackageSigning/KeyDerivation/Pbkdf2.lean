import PackageSigning.Digest
import PackageSigning.Platform

/-!
# Keys from passwords by iterated keyed digests

PBKDF2: each block of the key is the exclusive or of a chain of keyed digests,
the first of the salt and the number of the block, each next one of the one
before it.
-/

namespace PackageSigning.KeyDerivation

/-- Adds `rounds` more links of the chain to the sum. -/
def chain (prf : Bytes → Bytes) : Nat → Bytes → Bytes → Bytes
  | 0, _, sum => sum
  | rounds + 1, last, sum =>
    let next := prf last
    chain prf rounds next (Bytes.xor sum next)

/-- A key of `length` bytes from a password. -/
def pbkdf2 (digest : DigestAlgorithm) (password salt : Bytes) (iterations length : Nat) : Bytes :=
  let prf := digest.hmac password
  let count := (length + digest.size - 1) / digest.size
  let block (i : Nat) : Bytes :=
    let first := prf (salt ++ Bytes.ofNat 4 (i + 1))
    chain prf (iterations - 1) first first
  ((List.range count).flatMap block).take length

/-- Key and start value of the first password-based scheme: the digest of
password and salt, digested again and again. -/
def pbkdf1 (digest : DigestAlgorithm) (password salt : Bytes) (iterations : Nat) : Bytes :=
  Nat.fold (iterations - 1) (fun _ _ b => digest.hash b) (digest.hash (password ++ salt))

/-- Why a key of some length is not derived with some number of iterations; nothing if it is. -/
def refusal? [Platform] (length iterations : Int) : Option Mishap :=
  if length < 0 ∨ iterations < 0 then some .tooLarge
  else
    (Platform.refusal (.direct length.toNat iterations.toNat)).or
      (if iterations = 0 then some .badValue else none)

end PackageSigning.KeyDerivation
