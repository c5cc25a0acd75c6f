import PackageSigning.Bytes

/-!
# Digests made block by block

A digest pads its message to whole blocks: the byte 80, zeros, and the length
of the message in bits at the end of the last block. Each block changes a
state, and the last state is the digest. A keyed digest (HMAC) needs only the
states after one block of the key, so these are computed once per key.
-/

namespace PackageSigning.Digest

/-- A digest by its block step, on states `σ`. -/
structure Iterated (σ : Type) where
  /-- The size of a block in bytes. -/
  blockSize : Nat
  /-- The size of the length field in bytes. -/
  lengthSize : Nat
  /-- Whether the length starts with its least significant byte. -/
  littleEndian : Bool
  start : σ
  step : σ → Bytes → σ
  /-- The digest that a state stands for. -/
  finish : σ → Bytes

namespace Iterated
variable {σ : Type} (d : Iterated σ)

/-- A message of which `before` bytes have been taken already, padded. -/
def pad (before : Nat) (message : Bytes) : Bytes :=
  let total := before + message.length
  let zeros := (d.blockSize - (total + 1 + d.lengthSize) % d.blockSize) % d.blockSize
  let length :=
    if d.littleEndian then Bytes.ofNatLittle d.lengthSize (8 * total)
    else Bytes.ofNat d.lengthSize (8 * total)
  message ++ 0x80 :: List.replicate zeros 0 ++ length

/-- The digest of a message of which `before` bytes have led to `state`. -/
def hashFrom (state : σ) (before : Nat) (message : Bytes) : Bytes :=
  d.finish ((Bytes.blocks d.blockSize (d.pad before message)).foldl d.step state)

/-- The digest of a message. -/
def hash (message : Bytes) : Bytes := d.hashFrom d.start 0 message

/-- The key as one block: a long one is replaced by its digest. -/
def keyBlock (key : Bytes) : Bytes :=
  let short := if key.length > d.blockSize then d.hash key else key
  short ++ List.replicate (d.blockSize - short.length) 0

/-- The keyed digest, as a function of the message. -/
def hmac (key : Bytes) : Bytes → Bytes :=
  let block := d.keyBlock key
  let inner := d.step d.start (block.map (· ^^^ 0x36))
  let outer := d.step d.start (block.map (· ^^^ 0x5c))
  fun message => d.hashFrom outer d.blockSize (d.hashFrom inner d.blockSize message)

end Iterated

/-- The 32-bit words of a block, most significant byte first. -/
def words32 : Bytes → List UInt32
  | a :: b :: c :: d :: rest =>
    (a.toUInt32 <<< 24 ||| b.toUInt32 <<< 16 ||| c.toUInt32 <<< 8 ||| d.toUInt32) :: words32 rest
  | _ => []

/-- The bytes of a 32-bit word, most significant first. -/
def bytes32 (w : UInt32) : Bytes :=
  [(w >>> 24).toUInt8, (w >>> 16).toUInt8, (w >>> 8).toUInt8, w.toUInt8]

/-- The word with its bits moved left by `n`, those falling off coming in again. -/
def rotateLeft32 (w : UInt32) (n : UInt32) : UInt32 := w <<< n ||| w >>> (32 - n)

/-- The word with its bits moved right by `n`, those falling off coming in again. -/
def rotateRight32 (w : UInt32) (n : UInt32) : UInt32 := w >>> n ||| w <<< (32 - n)

/-- The 64-bit word with its bits moved right by `n`, those falling off coming in again. -/
def rotateRight64 (w : UInt64) (n : UInt64) : UInt64 := w >>> n ||| w <<< (64 - n)

end PackageSigning.Digest
