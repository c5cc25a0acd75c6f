import PackageSigning.Certificate

/-!
# Names of encryption schemes

The schemes that can be named as the encryption of a private key, and those that
can stand inside a scheme.
-/

namespace PackageSigning.SchemeName

/-- Schemes with a name, apart from AES. -/
def named : List (ObjectId × String) :=
  [([1, 3, 14, 3, 2, 7], "des"),
   ([1, 2, 840, 113549, 3, 7], "tripledes_3key"),
   ([1, 2, 840, 113549, 3, 2], "rc2"),
   ([1, 2, 840, 113549, 3, 4], "rc4"),
   ([1, 2, 840, 113549, 3, 9], "rc5"),
   ([1, 2, 840, 113549, 1, 5, 13], "pbes2"),
   ([1, 2, 840, 113549, 1, 5, 1], "pbes1_md2_des"),
   ([1, 2, 840, 113549, 1, 5, 3], "pbes1_md5_des"),
   ([1, 2, 840, 113549, 1, 5, 4], "pbes1_md2_rc2"),
   ([1, 2, 840, 113549, 1, 5, 6], "pbes1_md5_rc2"),
   ([1, 2, 840, 113549, 1, 5, 10], "pbes1_sha1_des"),
   ([1, 2, 840, 113549, 1, 5, 11], "pbes1_sha1_rc2"),
   ([1, 2, 840, 113549, 1, 12, 1, 1], "pkcs12_sha1_rc4_128"),
   ([1, 2, 840, 113549, 1, 12, 1, 2], "pkcs12_sha1_rc4_40"),
   ([1, 2, 840, 113549, 1, 12, 1, 3], "pkcs12_sha1_tripledes_3key"),
   ([1, 2, 840, 113549, 1, 12, 1, 4], "pkcs12_sha1_tripledes_2key"),
   ([1, 2, 840, 113549, 1, 12, 1, 5], "pkcs12_sha1_rc2_128"),
   ([1, 2, 840, 113549, 1, 12, 1, 6], "pkcs12_sha1_rc2_40"),
   ([1, 2, 840, 113549, 1, 1, 1], "rsaes_pkcs1v15"),
   ([1, 2, 840, 113549, 1, 1, 7], "rsaes_oaep")]

/-- The uses of AES, in the order of their identifiers. -/
def aesModes : List String := ["ecb", "cbc", "ofb", "cfb", "wrap", "gcm", "ccm", "wrap_pad"]

/-- The key lengths of AES in bits, with what comes before the identifier of the first use. -/
def aesLengths : List (Nat × Nat) := [(128, 0), (192, 20), (256, 40)]

/-- The uses of AES with their identifiers. -/
def aes : List (ObjectId × String) :=
  aesLengths.flatMap fun (bits, before) =>
    aesModes.zipIdx.map fun (mode, i) =>
      ([2, 16, 840, 1, 101, 3, 4, 1, before + i + 1], s!"aes{bits}_{mode}")

/-- The name of a scheme, or the numbers of its identifier. -/
def ofObjectId (id : ObjectId) : String := ((named ++ aes).lookup id).getD id.dotted

/-- Whether a name is that of a known scheme. -/
def isKnown (name : String) : Bool := (named ++ aes).any (·.2 == name)

/-- The key length in bytes of AES in a chain. -/
def aesChainKeyLength? (name : String) : Option Nat :=
  [("aes128_cbc", 16), ("aes192_cbc", 24), ("aes256_cbc", 32)].lookup name

/-- Known names that are no encryption with a password or a key of their own. -/
def unusable : List String := ["rc4", "rsaes_pkcs1v15", "rsaes_oaep"]

/-- Keyed digests with a name. -/
def digests : List (ObjectId × String) :=
  [([1, 3, 14, 3, 2, 10], "des_mac"),
   ([1, 2, 840, 113549, 2, 7], "sha1"),
   ([1, 2, 840, 113549, 2, 8], "sha224"),
   ([1, 2, 840, 113549, 2, 9], "sha256"),
   ([1, 2, 840, 113549, 2, 10], "sha384"),
   ([1, 2, 840, 113549, 2, 11], "sha512")]

/-- The name of a keyed digest, or the numbers of its identifier. -/
def ofDigestId (id : ObjectId) : String := (digests.lookup id).getD id.dotted

end PackageSigning.SchemeName
