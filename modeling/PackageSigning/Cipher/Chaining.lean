import PackageSigning.Bytes

/-!
# Chains of blocks and their padding

In a chain (CBC) each block is added to the encryption of the one before it. A
message is padded with one to a whole block of bytes, each of which tells their
number.
-/

namespace PackageSigning.Cipher

/-- Encrypts blocks in a chain. -/
def chainEncrypt (encrypt : Bytes → Bytes) : Bytes → List Bytes → List Bytes
  | _, [] => []
  | previous, block :: rest =>
    let c := encrypt (Bytes.xor block previous)
    c :: chainEncrypt encrypt c rest

/-- Decrypts blocks in a chain. -/
def chainDecrypt (decrypt : Bytes → Bytes) : Bytes → List Bytes → List Bytes
  | _, [] => []
  | previous, block :: rest =>
    Bytes.xor (decrypt block) previous :: chainDecrypt decrypt block rest

/-- The message padded to whole blocks of `size` bytes. -/
def pad (size : Nat) (message : Bytes) : Bytes :=
  let n := size - message.length % size
  message ++ List.replicate n (UInt8.ofNat n)

/-- The message without its padding, or nothing if the padding is wrong. -/
def unpad? (size : Nat) (padded : Bytes) : Option Bytes :=
  match padded.getLast? with
  | none => none
  | some last =>
    let n := last.toNat
    if 0 < n ∧ n ≤ size ∧ n ≤ padded.length ∧ padded.length % size = 0 ∧
        (padded.drop (padded.length - n)).all (· == last) then
      some (padded.take (padded.length - n))
    else none

/-- The message in a chain of whole blocks, its padding removed. -/
def openChain? (size : Nat) (decrypt : Bytes → Bytes) (initial data : Bytes) : Option Bytes :=
  if data.length % size = 0 then
    unpad? size (chainDecrypt decrypt initial (Bytes.blocks size data)).flatten
  else none

/-- A chain of whole blocks that holds a padded message. -/
def sealChain (size : Nat) (encrypt : Bytes → Bytes) (initial message : Bytes) : Bytes :=
  (chainEncrypt encrypt initial (Bytes.blocks size (pad size message))).flatten

end PackageSigning.Cipher
