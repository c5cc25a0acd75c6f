import PackageSigning.Lineage
import PackageSigning.Proofs.Notary

/-!
# Notaries that look signatures up

A signature on a curve takes a random number and long arithmetic. A recorded notary
reads certificates as the usual one does and has a list in place of the arithmetic: the
signatures that it makes, and accepts, are those in the list. `Sample` has the
certificates of two signers, and signatures with which the older one hands over.
-/

namespace PackageSigning

/-- A signature that was made once. -/
structure SignatureRecord where
  algorithm : SignatureAlgorithm
  key : PrivateKey
  publicKey : PublicKey
  message : Bytes
  signature : Bytes

namespace Notary

/-- The usual notary, with recorded signatures in place of made ones. -/
def recorded (records : List SignatureRecord) : Notary :=
  { standard [] with
    sign := fun a key message =>
      match records.find? fun r => r.algorithm == a && r.key == key && r.message == message with
      | some r => .ok r.signature
      | none => .error (.mishap .badValue)
    check := fun a key signature message => .ok (records.any fun r =>
      r.algorithm == a && r.publicKey == key && r.message == message && r.signature == signature) }

variable {records : List SignatureRecord}

theorem recorded_faithful : (recorded records).Faithful := standard_faithful []

/-- A recorded signature checks with the public key that is recorded beside its private key. -/
theorem recorded_signsFor : (recorded records).SignsFor
    fun key pub => ∀ r ∈ records, r.key = key → r.publicKey = pub := by
  intro a key pub message signature hpub hsign
  simp only [recorded] at hsign ⊢
  split at hsign
  · next r hr =>
    cases hsign
    have hmem := List.mem_of_find?_eq_some hr
    have hmatch := List.find?_some hr
    simp only [Bool.and_eq_true, beq_iff_eq] at hmatch
    obtain ⟨⟨ha, hkey⟩, hmessage⟩ := hmatch
    simp only [Except.ok.injEq, List.any_eq_true, Bool.and_eq_true, beq_iff_eq]
    exact ⟨r, hmem, ⟨⟨ha, hpub r hmem hkey⟩, hmessage⟩, rfl⟩
  · cases hsign

end Notary

/-! ## Two signers -/

namespace Sample

/-- A signer with a key on a curve. -/
def older : LineageSigner where
  key := some (.ec .p224 9629161932045569973303862973910898311779528236248199072844965279169)
  certificate.der :=
    [48, 129, 249, 48, 129, 168, 160, 3, 2, 1, 2, 2, 1, 1, 48, 10, 6, 8, 42, 134, 72, 206, 61, 4,
     3, 2, 48, 15, 49, 13, 48, 11, 6, 3, 85, 4, 3, 12, 4, 80, 50, 50, 52, 48, 32, 23, 13, 50, 48,
     48, 49, 48, 49, 48, 48, 48, 48, 48, 48, 90, 24, 15, 50, 48, 53, 48, 48, 49, 48, 49, 48, 48,
     48, 48, 48, 48, 90, 48, 15, 49, 13, 48, 11, 6, 3, 85, 4, 3, 12, 4, 80, 50, 50, 52, 48, 78, 48,
     16, 6, 7, 42, 134, 72, 206, 61, 2, 1, 6, 5, 43, 129, 4, 0, 33, 3, 58, 0, 4, 207, 54, 193, 93,
     129, 2, 188, 253, 247, 104, 213, 203, 155, 91, 128, 116, 67, 85, 110, 190, 221, 66, 83, 61,
     134, 110, 20, 18, 27, 154, 16, 219, 119, 133, 133, 245, 223, 217, 246, 225, 139, 225, 116, 96,
     136, 198, 92, 10, 85, 124, 114, 24, 34, 135, 50, 100, 48, 10, 6, 8, 42, 134, 72, 206, 61, 4,
     3, 2, 3, 64, 0, 48, 61, 2, 29, 0, 251, 242, 112, 123, 222, 143, 188, 124, 221, 123, 29, 137,
     170, 255, 102, 77, 113, 123, 160, 143, 232, 70, 72, 28, 139, 26, 49, 21, 2, 28, 46, 79, 111,
     168, 116, 159, 56, 77, 162, 150, 42, 246, 103, 121, 97, 56, 95, 168, 190, 93, 88, 106, 230,
     178, 67, 60, 215, 3]
  certificate.subject := ⟨[[⟨[2, 5, 4, 3], "P224"⟩]]⟩
  certificate.issuer := ⟨[[⟨[2, 5, 4, 3], "P224"⟩]]⟩
  certificate.publicKeyInfo :=
    [48, 78, 48, 16, 6, 7, 42, 134, 72, 206, 61, 2, 1, 6, 5, 43, 129, 4, 0, 33, 3, 58, 0, 4, 207,
     54, 193, 93, 129, 2, 188, 253, 247, 104, 213, 203, 155, 91, 128, 116, 67, 85, 110, 190, 221,
     66, 83, 61, 134, 110, 20, 18, 27, 154, 16, 219, 119, 133, 133, 245, 223, 217, 246, 225, 139,
     225, 116, 96, 136, 198, 92, 10, 85, 124, 114, 24, 34, 135, 50, 100]
  name := none

/-- A signer whose key signs no packages, so nobody can take over from it. -/
def younger : LineageSigner where
  key := none
  certificate.der :=
    [48, 129, 199, 48, 123, 160, 3, 2, 1, 2, 2, 1, 1, 48, 5, 6, 3, 43, 101, 112, 48, 13, 49, 11,
     48, 9, 6, 3, 85, 4, 3, 12, 2, 69, 68, 48, 32, 23, 13, 50, 48, 48, 49, 48, 49, 48, 48, 48, 48,
     48, 48, 90, 24, 15, 50, 48, 53, 48, 48, 49, 48, 49, 48, 48, 48, 48, 48, 48, 90, 48, 13, 49,
     11, 48, 9, 6, 3, 85, 4, 3, 12, 2, 69, 68, 48, 42, 48, 5, 6, 3, 43, 101, 112, 3, 33, 0, 235,
     18, 198, 13, 42, 95, 7, 108, 165, 156, 238, 3, 230, 198, 237, 39, 165, 151, 155, 15, 212, 174,
     243, 101, 167, 211, 94, 162, 234, 59, 187, 254, 48, 5, 6, 3, 43, 101, 112, 3, 65, 0, 38, 157,
     149, 239, 186, 229, 142, 202, 73, 171, 68, 36, 160, 141, 247, 194, 14, 9, 101, 175, 128, 171,
     231, 212, 108, 159, 169, 167, 184, 57, 8, 183, 107, 240, 16, 154, 63, 144, 51, 115, 64, 186,
     0, 225, 26, 149, 100, 90, 234, 64, 169, 243, 208, 195, 79, 52, 155, 76, 54, 226, 167, 112,
     106, 8]
  certificate.subject := ⟨[[⟨[2, 5, 4, 3], "ED"⟩]]⟩
  certificate.issuer := ⟨[[⟨[2, 5, 4, 3], "ED"⟩]]⟩
  certificate.publicKeyInfo :=
    [48, 42, 48, 5, 6, 3, 43, 101, 112, 3, 33, 0, 235, 18, 198, 13, 42, 95, 7, 108, 165, 156, 238,
     3, 230, 198, 237, 39, 165, 151, 155, 15, 212, 174, 243, 101, 167, 211, 94, 162, 234, 59, 187,
     254]
  name := none

/-- The older signer handing over to the younger one. -/
def handover : SignatureRecord where
  algorithm := .ecdsaSha256
  key := .ec .p224 9629161932045569973303862973910898311779528236248199072844965279169
  publicKey := .ec .p224 21822169412891510372735591618164415535312212347411074654181780231186
    2906810889132559166539963798495693714426487073660168005102955082340
  message := [202, 0, 0, 0] ++ younger.certificate.der ++ [1, 2, 0, 0]
  signature :=
    [48, 61, 2, 29, 0, 206, 244, 212, 88, 127, 87, 20, 181, 177, 236, 67, 84, 71, 33, 40, 105, 228,
     43, 69, 34, 235, 162, 243, 1, 47, 59, 67, 3, 2, 28, 41, 97, 48, 150, 174, 158, 33, 184, 169,
     106, 227, 230, 72, 113, 67, 154, 206, 8, 166, 210, 57, 73, 248, 52, 91, 173, 209, 14]

/-- The older signer handing over to itself. -/
def again : SignatureRecord :=
  { handover with
    message := [252, 0, 0, 0] ++ older.certificate.der ++ [1, 2, 0, 0]
    signature :=
     [48, 61, 2, 28, 119, 167, 230, 116, 100, 91, 69, 210, 158, 56, 68, 118, 11, 230, 95, 49, 69,
     238, 15, 218, 170, 231, 156, 108, 8, 27, 244, 94, 2, 29, 0, 220, 152, 100, 5, 140, 101, 229,
     238, 172, 179, 72, 150, 153, 117, 79, 187, 102, 157, 80, 225, 58, 193, 151, 103, 223, 205, 26,
     249] }

/-- A notary who knows of these two signatures. -/
def notary : Notary := .recorded [handover, again]

/-- The private key of the records belongs to the public key beside it. -/
def belongs (key : PrivateKey) (pub : PublicKey) : Prop :=
  ∀ r ∈ [handover, again], r.key = key → r.publicKey = pub

/-- The lineage of the two, neither of them granted anything. -/
def nodes : List LineageNode :=
  [⟨older.certificate, 0, 0x201, [], 0⟩, ⟨younger.certificate, 0x201, 0, handover.signature, 0⟩]

/-- The file of that lineage. -/
def file : Bytes :=
  [0xd1, 0x39, 0xff, 0x3e] ++ [1, 0, 0, 0] ++ [65, 2, 0, 0] ++ [1, 0, 0, 0] ++
  [20, 1, 0, 0] ++ [4, 1, 0, 0] ++ [252, 0, 0, 0] ++ older.certificate.der ++ [0, 0, 0, 0] ++
  [0, 0, 0, 0] ++ [1, 2, 0, 0] ++ [0, 0, 0, 0] ++
  [33, 1, 0, 0] ++ [210, 0, 0, 0] ++ [202, 0, 0, 0] ++ younger.certificate.der ++ [1, 2, 0, 0] ++
  [0, 0, 0, 0] ++ [0, 0, 0, 0] ++ [63, 0, 0, 0] ++ handover.signature

end Sample
end PackageSigning
