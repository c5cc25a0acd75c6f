import PackageSigning.Proofs.Outcome
import PackageSigning.Signature

/-!
# What notaries are relied on for

A notary is faithful when the certificates that it reads have the bytes they were read
from as their encoding. The certificates that a faithful notary has read are *known* to
it: it reads them back from their encodings, so their encodings tell them apart.
-/

namespace PackageSigning

/-- A certificate is read whole. -/
theorem CertificateBundle.der_of_one {b : Bytes} {c : Certificate} (h : one b = .ok c) :
    c.der = b := by
  unfold one CertificateReading.certificate at h
  split at h
  · next c' hread =>
    split at hread
    · cases hread
    · split at hread
      · cases hread; cases h; rfl
      · cases hread
  · cases h

namespace Notary

/-- A way to sign. The usual one takes random numbers for some keys, so one notary may sign
differently from one time to the next. -/
abbrev Signing := SignatureAlgorithm → PrivateKey → Bytes → Except Fault Bytes

/-- Certificates that are read have the bytes they were read from as their encoding. -/
def Faithful (n : Notary) : Prop := ∀ b c, n.readCertificate b = .ok c → c.der = b

/-- Reading the encoding of a certificate gives that certificate back. -/
def Knows (n : Notary) (c : Certificate) : Prop := n.readCertificate c.der = .ok c

instance (n : Notary) (c : Certificate) : Decidable (n.Knows c) :=
  inferInstanceAs (Decidable (_ = _))

/-- Signatures that are made with a private key check with the public keys it belongs to. -/
def SignsFor (n : Notary) (belongs : PrivateKey → PublicKey → Prop) : Prop :=
  ∀ a key pub message signature, belongs key pub → n.sign a key message = .ok signature →
    n.check a pub signature message = .ok true

theorem Faithful.knows {n : Notary} (h : n.Faithful) {b : Bytes} {c : Certificate}
    (hc : n.readCertificate b = .ok c) : n.Knows c := by
  unfold Knows
  rw [h b c hc]
  exact hc

theorem Knows.eq {n : Notary} {c d : Certificate} (hc : n.Knows c) (hd : n.Knows d)
    (h : c.der = d.der) : c = d := by
  unfold Knows at hc hd
  rw [h, hd] at hc
  cases hc
  rfl

theorem standard_faithful (noise : Bytes) : (standard noise).Faithful :=
  fun _ _ h => CertificateBundle.der_of_one h

end Notary
end PackageSigning
