import PackageSigning.Certificate.Bundle
import PackageSigning.Key.Armoured
import PackageSigning.Key.Encrypted
import PackageSigning.Proofs.Failure

/-!
# What readers of keys and certificates fail with

Readers fail with faults of the tool, and with the mishaps that nobody has given a better
name. For each reader these are listed.
-/

namespace PackageSigning

/-! ## Certificates -/

namespace CertificateBundle

/-- What a file of certificates comes to beside being malformed: a version that is not known,
and a bag of something else. -/
def mishaps : List Mishap := [.unknownVersion, .unsupported]

theorem one_fails (b : Bytes) : FailsOnly (OwnOr [.badValue, .unknownVersion]) (one b) := by
  unfold one
  split
  · exact .ok _
  · next refusal _ => cases refusal <;> exact .mishap (by decide)

theorem bag_fails (b : Bytes) :
    FailsOnly (OwnOr (.badValue :: mishaps)) (bag b) := by
  unfold bag
  split
  · split
    · exact .mishap (by decide)
    · split
      · exact .mishap (by decide)
      · split
        · exact .mapM fun b _ => (one_fails b).widen (by decide)
        · exact .mishap (by decide)
  · exact .mishap (by decide)

theorem bagOfText_fails (b : Bytes) :
    FailsOnly (OwnOr (.badValue :: mishaps)) (bagOfText b) := by
  unfold bagOfText
  split
  · split
    · exact bag_fails _
    · exact .mishap (by decide)
  · exact .mishap (by decide)

theorem ofText_fails (b : Bytes) :
    FailsOnly (OwnOr (.badValue :: mishaps)) (ofText b) := by
  unfold ofText
  split
  · exact .mishap (by decide)
  · refine .bind (.mapM fun p _ => (one_fails _).widen (by decide)) fun _ _ => ?_
    split
    · exact .mishap (by decide)
    · exact .pure _

theorem binaryFrom_fails (all : Bytes) (isFirst : Bool) (fuel : Nat) (b : Bytes) :
    FailsOnly (OwnOr (.badValue :: mishaps))
      (binaryFrom all isFirst fuel b) := by
  induction fuel generalizing isFirst b with
  | zero =>
    cases b with
    | nil => exact .ok _
    | cons _ _ => exact .mishap (by decide)
  | succ fuel ih =>
    cases b with
    | nil => exact .ok _
    | cons x b =>
      unfold binaryFrom
      split
      · exact .mishap (by decide)
      · split
        · exact .map (ih _ _) _
        · split
          · exact bag_fails _
          · exact .mishap (by decide)
        · next fault _ hone =>
          exact .error ((one_fails _ fault hone).mono (by decide))

/-- A file of certificates that is malformed is a fault of the tool; that a version is not
known, or that a bag holds something else, is not. -/
theorem read_fails (b : Bytes) : FailsOnly (OwnOr mishaps) (read b) := by
  unfold read
  split
  · exact .ok _
  · have hresult : FailsOnly (OwnOr (.badValue :: mishaps))
        (if Bytes.includes bagOpening b then bagOfText b
          else if Bytes.includes (Bytes.ofAscii "-----BEGIN") b then ofText b
          else binaryFrom b true b.length b) := by
      split
      · exact bagOfText_fails b
      · split
        · exact ofText_fails b
        · exact binaryFrom_fails b true b.length b
    dsimp only
    split
    · exact .error (.own rfl)
    · next hne => exact fun fault hfault => (hresult fault hfault).erase fun h => hne (h ▸ hfault)

end CertificateBundle

/-! ## Keys -/

/-- Sealed data is refused by the platform, or it does not open. -/
theorem SealScheme.eq_of_opened_error [Platform] {s : SealScheme} {password data : Bytes} {m : Mishap}
    (h : s.opened password data = .error m) :
    m = .badValue ∨ (s.derives password = true ∧ Platform.refusal s.request = some m) := by
  unfold opened at h
  split at h
  · next hrefused =>
    cases h
    split at hrefused
    · next hderives => exact .inr ⟨hderives, hrefused⟩
    · cases hrefused
  · split at h
    · cases h
    · exact .inl (Except.error.inj h).symm

namespace KeyArmour

/-- What a key in PEM comes to that does not open. -/
def mishaps : List Mishap := [.badValue, .wrongType, .unsupported]

theorem readWith_fails (reader : Bytes → Except KeyRefusal PrivateKey) (b : Bytes) :
    FailsOnly (OwnOr mishaps) (readWith reader b) := by
  unfold readWith
  split
  · exact .ok _
  · next refusal _ => cases refusal <;> exact .mishap (by decide)

theorem readSealed_fails [Platform] (b : Bytes) (password : Option Bytes) :
    FailsOnly (OrRefused (OwnOr mishaps)) (readSealed b password) := by
  unfold readSealed
  split
  · exact .orRefused (.mishap (by decide))
  · split
    · exact .orRefused (.mishap (by decide))
    · split
      · next m hopened =>
        obtain rfl | ⟨-, hrefused⟩ := SealScheme.eq_of_opened_error hopened
        · exact .orRefused (.mishap (by decide))
        · exact .error (.refused hrefused)
      · exact .orRefused (readWith_fails _ _)

theorem contentsOf_fails (block : PemBlock) (password : Option Bytes) :
    FailsOnly (OwnOr mishaps) (contentsOf block password) := by
  unfold contentsOf
  split
  · exact .ok _
  · split
    · exact .mishap (by decide)
    · split
      · exact .mishap (by decide)
      · split
        · exact .ok _
        · exact .mishap (by decide)

/-- A key in PEM that does not open is a mishap. -/
theorem read_fails [Platform] (text : Bytes) (password : Option Bytes) :
    FailsOnly (OrRefused (OwnOr mishaps)) (read text password) := by
  unfold read
  split
  · exact .orRefused (.mishap (by decide))
  · refine .bind (contentsOf_fails _ _).orRefused fun _ _ => ?_
    dsimp only
    split
    · exact readSealed_fails _ _
    · refine .bind (readWith_fails _ _).orRefused fun _ _ => ?_
      split
      · exact .orRefused (.mishap (by decide))
      · exact .pure _

end KeyArmour

namespace KeyFactory

/-- A key that a factory does not take is a fault of the tool. -/
theorem decode_fails (f : KeyFactory) (b : Bytes) :
    FailsOnly (fun fault => fault.isOwn = true) (f.decode b) := by
  unfold decode
  split
  · exact .error rfl
  · split
    · exact .error rfl
    · split
      · exact .error rfl
      · split
        · exact .ok _
        · exact .error rfl

theorem decodeFirst_fails {lookups : List (Except Fault KeyFactory)}
    (h : ∀ lookup ∈ lookups, FailsOnly (fun fault => fault.isOwn = true) lookup) (b : Bytes) :
    FailsOnly (fun fault => fault.isOwn = true) (decodeFirst lookups b).1 := by
  induction lookups with
  | nil => exact .error rfl
  | cons lookup rest ih =>
    obtain ⟨hlookup, hrest⟩ := List.forall_mem_cons.mp h
    cases lookup with
    | error fault => exact .error (hlookup fault rfl)
    | ok f =>
      unfold decodeFirst
      split
      · exact .ok _
      · exact ih hrest
      · next fault _ hfault => exact .error (decode_fails f b fault hfault)

end KeyFactory

/-- Bytes that are no private key are a fault of the tool, whatever the providers are. -/
theorem ProviderRegistry.decodeKey_fails (r : ProviderRegistry) (b : Bytes) :
    FailsOnly (fun fault => fault.isOwn = true) (r.decodeKey b).1 := by
  refine KeyFactory.decodeFirst_fails (fun lookup hlookup => ?_) b
  obtain ⟨name, -, rfl⟩ := List.mem_map.mp hlookup
  unfold ProviderRegistry.factory
  split
  · exact .ok _
  · exact .error rfl

namespace EncryptedKey

/-- What parameters come to that cannot be worked with. -/
def mishaps : List Mishap := [.badValue, .wrongType, .tooLarge, .missingEntry]

theorem chainLength_fails (cipher : String) : FailsOnly (OwnOr mishaps) (chainLength cipher) := by
  unfold chainLength
  split
  · exact .mishap (by decide)
  · split
    · exact .mishap (by decide)
    · split
      · exact .mishap (by decide)
      · exact .ok _

theorem direct?_fails (k : EncryptedKey) :
    FailsOnly (OwnOr mishaps) k.direct? := by
  unfold direct?
  split
  · exact .ok _
  · split
    · exact .mishap (by decide)
    · split
      · exact .ok _
      · split
        · exact .mishap (by decide)
        · split
          · exact .ok _
          · refine .bind (chainLength_fails _) fun length _ => ?_
            cases length <;> exact .pure _

theorem lengthWithin_fails (cipherLength : Nat) (ps : List (Option Pbkdf2Parameters)) :
    FailsOnly (OwnOr mishaps) (lengthWithin cipherLength ps) := by
  induction ps with
  | nil => exact .ok _
  | cons p rest ih =>
    cases p with
    | none => exact .mishap (by decide)
    | some p =>
      unfold lengthWithin
      split
      · exact .ok _
      · exact ih

section Derived
variable [Platform]

theorem DirectScheme.key_fails (s : DirectScheme) (password : Bytes) :
    FailsOnly (OrRefused (OwnOr mishaps)) (s.key password) := by
  refine .bind (lengthWithin_fails _ _).orRefused fun length _ => ?_
  split
  · exact .orRefused (.mishap (by decide))
  · split
    · next hrefused => exact .refusal hrefused (by decide)
    · split
      · exact .orRefused (.mishap (by decide))
      · exact .ok _

theorem DirectScheme.decrypt_fails (s : DirectScheme) (password data : Bytes) :
    FailsOnly (OrRefused (OwnOr mishaps)) (s.decrypt password data) := by
  refine .bind (DirectScheme.key_fails s password) fun key _ => ?_
  split
  · exact .orRefused (.mishap (by decide))
  · split
    · exact .orRefused (.mishap (by decide))
    · split
      · exact .ok _
      · exact .error (.other (.own rfl))

theorem decryptStrictly_fails (k : EncryptedKey) (password : Bytes) :
    FailsOnly (OrRefused fun fault => fault.isOwn = true) (k.decryptStrictly password) := by
  unfold decryptStrictly
  split
  · exact .error (.other rfl)
  · split
    · next m hopened =>
      obtain rfl | ⟨-, hrefused⟩ := SealScheme.eq_of_opened_error hopened
      · exact .error (.other rfl)
      · unfold strictFault
        split
        · exact .error (.other rfl)
        · exact .error (.other rfl)
        · exact .error (.other rfl)
        · exact .error (.refused hrefused)
    · split
      · exact .ok _
      · exact .error (.other rfl)
      · exact .error (.other rfl)

/-- A password that does not decrypt a key is a fault of the tool, but parameters that cannot
be worked with are mishaps. -/
theorem decrypt_fails (k : EncryptedKey) (password : Bytes) :
    FailsOnly (OrRefused (OwnOr mishaps)) (k.decrypt password) := by
  refine .bind (direct?_fails k).orRefused fun scheme _ => ?_
  cases scheme with
  | none => exact (decryptStrictly_fails k password).mono fun _ => .mono fun _ => .own
  | some s =>
    refine .bind (DirectScheme.decrypt_fails s password k.data) fun plain _ => ?_
    split
    · exact .ok _
    · exact .error (.other (.own rfl))

end Derived

/-- The failures of some attempts are faults of the tool. -/
def Attempts.Own (a : Attempts) : Prop :=
  (∀ fault ∈ a.decryption, fault.isOwn = true) ∧ ∀ fault ∈ a.invalidKey, fault.isOwn = true

theorem Attempts.Own.verdict {a : Attempts} (h : a.Own) : a.verdict.isOwn = true := by
  obtain ⟨decryption, invalidKey⟩ := a
  cases decryption with
  | some fault => exact h.1 fault rfl
  | none =>
    cases invalidKey with
    | some fault => exact h.2 fault rfl
    | none => rfl

/-- Trying passwords in turn fails with a fault of the tool, or as one of them does. -/
theorem decryptFirst_fails [Platform] (k : EncryptedKey) (passwords : List Bytes) :
    FailsOnly (fun fault => fault.isOwn = true ∨ ∃ password, k.decrypt password = .error fault)
      (k.decryptFirst passwords) := by
  have htry (a : Attempts) (ha : a.Own) :
      FailsOnly (fun fault => fault.isOwn = true ∨ ∃ password, k.decrypt password = .error fault)
        (firstSuccess k.decrypt a passwords) := by
    induction passwords generalizing a with
    | nil => exact .error (.inl ha.verdict)
    | cons password rest ih =>
      unfold firstSuccess
      split
      · exact .ok _
      · exact ih _ ⟨by rintro _ ⟨⟩; rfl, ha.2⟩
      · exact ih _ ⟨ha.1, by rintro _ ⟨⟩; rfl⟩
      · next hfault => exact .error (.inr ⟨password, hfault⟩)
  exact htry ⟨none, none⟩ ⟨nofun, nofun⟩

end EncryptedKey

end PackageSigning
