import PackageSigning.Digest.Md5
import PackageSigning.Digest.Sha1
import PackageSigning.Digest.Sha256
import PackageSigning.Digest.Sha512

/-!
# Digests

The digests in use, each with the sizes of its blocks and results, its plain
form and its keyed form.
-/

namespace PackageSigning

/-- A digest algorithm. -/
inductive DigestAlgorithm where
  | md5
  | sha1
  | sha224
  | sha256
  | sha384
  | sha512
  deriving DecidableEq, Repr

namespace DigestAlgorithm

/-- The length of a digest in bytes. -/
def size : DigestAlgorithm → Nat
  | md5 => 16
  | sha1 => 20
  | sha224 => 28
  | sha256 => 32
  | sha384 => 48
  | sha512 => 64

/-- The length of a block in bytes. -/
def blockSize : DigestAlgorithm → Nat
  | sha384 | sha512 => 128
  | _ => 64

/-- The digest of a message. -/
def hash : DigestAlgorithm → Bytes → Bytes
  | md5 => Digest.Md5.md5.hash
  | sha1 => Digest.Sha1.sha1.hash
  | sha224 => Digest.Sha256.sha224.hash
  | sha256 => Digest.Sha256.sha256.hash
  | sha384 => Digest.Sha512.sha384.hash
  | sha512 => Digest.Sha512.sha512.hash

/-- The keyed digest of a message. -/
def hmac : DigestAlgorithm → Bytes → Bytes → Bytes
  | md5, key => Digest.Md5.md5.hmac key
  | sha1, key => Digest.Sha1.sha1.hmac key
  | sha224, key => Digest.Sha256.sha224.hmac key
  | sha256, key => Digest.Sha256.sha256.hmac key
  | sha384, key => Digest.Sha512.sha384.hmac key
  | sha512, key => Digest.Sha512.sha512.hmac key

end DigestAlgorithm
end PackageSigning
