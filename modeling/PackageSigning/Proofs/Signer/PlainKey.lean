import PackageSigning.Platform.Standard
import PackageSigning.Proofs.Outcome
import PackageSigning.Proofs.World.Asked
import PackageSigning.Signer.FromFiles

/-!
# Keys that are not encrypted

No bytes are both a private key and an encrypted one: the second member of the one is a
sequence, that of the other a string of bytes (`EncryptedKey.ofBytes_of_isPrivateKeyInfo`). So a
key file that is not encrypted costs no password, and passwords that are named for it are refused
before anyone asks for them (`SignerSettings.plain_key_costs_no_password`).
-/

namespace PackageSigning

namespace Asn1.Loose

theorem tag_of_members? {e : Element} {members : List Element} (h : members? e = some members) :
    e.tag = .sequence := by
  unfold members? at h
  split at h
  · assumption
  · cases h

theorem isOctets_of_octets? {e : Element} {data : Bytes} (h : octets? e = some data) :
    isOctets e = true := by
  unfold octets? octetsFrom? at h
  split at h
  · next htag => simp [isOctets, htag]
  · split at h
    · cases h
    · next hoctets => simpa using hoctets

theorem not_isOctets_of_sequence {e : Element} (h : e.tag = .sequence) : isOctets e = false := by
  unfold isOctets
  rw [h]
  rfl

end Asn1.Loose

open Asn1 Asn1.Loose

theorem members_of_outline? {b : Bytes} {found : KeyAlgorithm × Element}
    (h : outline? b = some found) :
    ∃ e version algorithm key rest, whole? b = some e ∧
      members? e = some (version :: algorithm :: key :: rest) ∧ algorithm.tag = .sequence := by
  unfold outline? at h
  simp only [Option.bind_eq_bind, Option.bind_eq_some_iff] at h
  obtain ⟨e, hwhole, members, hmembers, h⟩ := h
  split at h
  · next version algorithm key rest =>
    obtain ⟨numbers, hnumbers, -⟩ := Option.bind_eq_some_iff.mp h
    exact ⟨e, version, algorithm, key, rest, hwhole, hmembers, tag_of_members? hnumbers⟩
  · cases h

namespace EncryptedKey

theorem members_of_ofBytes? {b : Bytes} {k : EncryptedKey} (h : ofBytes? b = some k) :
    ∃ e algorithm encrypted rest, whole? b = some e ∧
      members? e = some (algorithm :: encrypted :: rest) ∧ isOctets encrypted = true := by
  unfold ofBytes? at h
  simp only [Option.bind_eq_bind, Option.bind_eq_some_iff] at h
  obtain ⟨e, hwhole, members, hmembers, h⟩ := h
  split at h
  · next algorithm encrypted rest =>
    obtain ⟨named, -, h⟩ := Option.bind_eq_some_iff.mp h
    obtain ⟨data, hdata, -⟩ := Option.bind_eq_some_iff.mp h
    exact ⟨e, algorithm, encrypted, rest, hwhole, hmembers, isOctets_of_octets? hdata⟩
  · cases h

theorem members_of_parameters? {b : Bytes} {p : Element} (h : parameters? b = some p) :
    ∃ e algorithm encrypted rest, whole? b = some e ∧
      members? e = some (algorithm :: encrypted :: rest) ∧ isOctets encrypted = true := by
  unfold parameters? at h
  simp only [Option.bind_eq_bind, Option.bind_eq_some_iff] at h
  obtain ⟨e, hwhole, members, hmembers, h⟩ := h
  split at h
  · next algorithm encrypted rest =>
    obtain ⟨front, -, h⟩ := Option.bind_eq_some_iff.mp h
    obtain ⟨data, hdata, -⟩ := Option.bind_eq_some_iff.mp h
    exact ⟨e, algorithm, encrypted, rest, hwhole, hmembers, isOctets_of_octets? hdata⟩
  · cases h

/-- The second member of what looks like a private key is no string of bytes. -/
theorem second_of_isPrivateKeyInfo {b : Bytes} (h : isPrivateKeyInfo b = true) :
    ¬∃ e first second rest, whole? b = some e ∧ members? e = some (first :: second :: rest) ∧
      isOctets second = true := by
  rintro ⟨e, first, second, rest, hwhole, hmembers, hoctets⟩
  unfold isPrivateKeyInfo at h
  split at h
  · next found =>
    obtain ⟨e', version, algorithm, key, rest', hwhole', hmembers', htag⟩ :=
      members_of_outline? found
    obtain rfl := Option.some.inj (hwhole.symm.trans hwhole')
    have heq : second = algorithm := by
      have := hmembers.symm.trans hmembers'
      simp only [Option.some.injEq, List.cons.injEq] at this
      exact this.2.1
    rw [heq, not_isOctets_of_sequence htag] at hoctets
    cases hoctets
  · cases h

/-- Bytes that look like a private key are no encrypted one. -/
theorem ofBytes_of_isPrivateKeyInfo [Platform] {b : Bytes} (h : isPrivateKeyInfo b = true) :
    ofBytes b = .error (.parse .notEncryptedKey) := by
  have hsecond := second_of_isPrivateKeyInfo h
  have hparameters : parameters? b = none :=
    Option.eq_none_iff_forall_ne_some.mpr fun p hp => hsecond (members_of_parameters? hp)
  have hnone : ofBytes? b = none :=
    Option.eq_none_iff_forall_ne_some.mpr fun k hk => hsecond (members_of_ofBytes? hk)
  unfold ofBytes
  rw [hparameters, hnone]
  rfl

end EncryptedKey

namespace SignerSettings
open PackageSigning.Action

variable {s : SignerSettings} {services : Services} {w : World} {file certificateFile : String}
  {contents b : Bytes}

/-- The signer that bytes make which are a key as they stand, with the certificates of a file. -/
def fromPlain (services : Services) (file certificateFile : String) (b : Bytes) :
    Action LoadedSigner := do
  let key ← ofResult ((services.registry.decodeKey b).1.mapError (nameUndecoded file))
  let certificates ← ofResult
    (CertificateBundle.read (← contentsOf (Path.ofText certificateFile)))
  if certificates.isEmpty then throw (.noCertificates (.file certificateFile))
  return ⟨none, key, certificates⟩

/-- Reading one of two files. -/
def ReadsEither (file certificateFile : String) (q : Query) : Prop :=
  q = .read (Path.ofText file) ∨ q = .read (Path.ofText certificateFile)

theorem fromPlain_only :
    (fromPlain services file certificateFile b).Only (ReadsEither file certificateFile) :=
  .bind (.ofResult _) fun _ => .bind (.bind (.query (.inr rfl)) fun _ => .ofFile _) fun _ =>
    .bind (.ofResult _) fun _ => .refuse_if fun _ => .pure _

section General
variable [Platform]

/-- Loading a signer from files, with the key that is not yet decoded in the middle. -/
theorem fromFiles_eq (certified : s.certificateFile = some certificateFile) :
    s.fromFiles services file = (do
      let b ← ofResult (Pem.unarmor (← contentsOf (Path.ofText file)))
      let plain ← s.plainKey file b
      fromPlain services file certificateFile plain) := by
  unfold fromFiles fileKey fromPlain
  rw [certified]
  simp only [bind_assoc]

theorem plainKey_of_plain (plain : isPrivateKeyInfo b = true) :
    s.plainKey file b =
      if s.keyPassword.isSome then throw (.parse (.encryptedKeyFile file)) else pure b := by
  unfold plainKey
  rw [EncryptedKey.ofBytes_of_isPrivateKeyInfo plain]

omit [Platform] in
theorem run_contentsOf (held : w.files.read (Path.ofText file) = .ok contents) :
    w.run (contentsOf (Path.ofText file)) = (.ok contents, w) := by
  show w.run (ofFile (w.files.read (Path.ofText file))) = _
  rw [held]
  rfl

omit [Platform] in
theorem asked_contentsOf (w : World) (path : Path) : w.asked (contentsOf path) = [.read path] := by
  show .read path :: w.asked (ofFile (w.files.read path)) = _
  cases w.files.read path <;> rfl

/-- A run that loads a signer from files goes on with the key when the key file is read. -/
theorem run_fromFiles (services : Services) (certified : s.certificateFile = some certificateFile)
    (held : w.files.read (Path.ofText file) = .ok contents)
    (unarmoured : Pem.unarmor contents = .ok b) :
    w.run (s.fromFiles services file) =
        w.run (s.plainKey file b >>= fromPlain services file certificateFile) ∧
      w.asked (s.fromFiles services file) = .read (Path.ofText file) ::
        w.asked (s.plainKey file b >>= fromPlain services file certificateFile) := by
  have hcontents := run_contentsOf held
  have hasked := asked_contentsOf w (Path.ofText file)
  rw [fromFiles_eq certified]
  constructor
  · rw [World.run_bind_of_ok hcontents, World.run_ofResult_bind unarmoured]
  · rw [World.asked_bind_of_ok hcontents, hasked, unarmoured]
    rfl

/-- A key that is not encrypted is not taken for one that is, and costs no password: with a
certificate file, only the two files are read, and the bytes are decoded as they stand. Passwords
that are named for such a key are refused before anyone asks for them, when only the key file has
been read. Without a certificate file nothing is read at all. -/
theorem plain_key_costs_no_password {b : Bytes} (plain : isPrivateKeyInfo b = true) :
    EncryptedKey.ofBytes b = .error (.parse .notEncryptedKey) ∧
    ∀ (s : SignerSettings) (services : Services) (w : World) (file : String) (contents : Bytes),
      w.files.read (Path.ofText file) = .ok contents → Pem.unarmor contents = .ok b →
      (s.certificateFile = none →
        w.run (s.fromFiles services file) =
            (.error (.configuration .certificateFileMissing), w) ∧
          w.asked (s.fromFiles services file) = []) ∧
      ∀ certificateFile, s.certificateFile = some certificateFile →
        (s.keyPassword = none →
          w.run (s.fromFiles services file) =
              w.run (fromPlain services file certificateFile b) ∧
            (w.run (s.fromFiles services file)).2 = w ∧
            ∀ q ∈ w.asked (s.fromFiles services file), ReadsEither file certificateFile q) ∧
        (s.keyPassword ≠ none →
          w.run (s.fromFiles services file) = (.error (.parse (.encryptedKeyFile file)), w) ∧
            w.asked (s.fromFiles services file) = [.read (Path.ofText file)]) := by
  refine ⟨EncryptedKey.ofBytes_of_isPrivateKeyInfo plain, ?_⟩
  intro s services w file contents held unarmoured
  constructor
  · intro uncertified
    unfold fromFiles
    rw [uncertified]
    exact ⟨rfl, rfl⟩
  · intro certificateFile certified
    obtain ⟨hrun, hasked⟩ := run_fromFiles services certified held unarmoured
    rw [plainKey_of_plain plain] at hrun hasked
    constructor
    · intro unnamed
      rw [unnamed] at hrun hasked
      have honly : (fromPlain services file certificateFile b).Only _ := fromPlain_only
      refine ⟨hrun, ?_, ?_⟩
      · rw [hrun]
        exact World.run_of_looks (honly.mono fun q hq => by obtain rfl | rfl := hq <;> trivial)
      · rw [hasked]
        exact List.forall_mem_cons.mpr ⟨.inl rfl, World.asked_of_only honly⟩
    · intro named
      obtain ⟨spec, hspec⟩ := Option.ne_none_iff_exists'.mp named
      rw [hspec] at hrun hasked
      exact ⟨hrun, hasked⟩

end General

section Samples
attribute [local instance] Platform.standard

/-- A private key that is not encrypted, down to what its outside tells. -/
def samplePlainKey : Bytes := [0x30, 12, 2, 1, 0, 0x30, 5, 6, 3, 0x2b, 0x65, 0x70, 4, 0]

/-- Surroundings with that key in a file. -/
def samplePlainFile : World := .ofFiles (.ofContents [(["k"], samplePlainKey)])

/-- Passwords for a key that is not encrypted are refused; they would come from the input. -/
theorem sample_passwords_for_plain_key :
    let s : SignerSettings := { certificateFile := some "c", keyPassword := some "stdin" }
    isPrivateKeyInfo samplePlainKey = true ∧
    samplePlainFile.files.read (Path.ofText "k") = .ok samplePlainKey ∧
    Pem.unarmor samplePlainKey = .ok samplePlainKey ∧
    samplePlainFile.run (s.fromFiles ⟨.builtIn, .standard⟩ "k") =
      (.error (.parse (.encryptedKeyFile "k")), samplePlainFile) := by
  intro s
  have plain : isPrivateKeyInfo samplePlainKey = true := by decide +kernel
  have held : samplePlainFile.files.read (Path.ofText "k") = .ok samplePlainKey := by
    decide +kernel
  have unarmoured : Pem.unarmor samplePlainKey = .ok samplePlainKey := by decide +kernel
  obtain ⟨-, hfiles⟩ := plain_key_costs_no_password plain
  obtain ⟨-, certified⟩ := hfiles s ⟨.builtIn, .standard⟩ samplePlainFile "k" _ held unarmoured
  obtain ⟨-, named⟩ := certified "c" rfl
  exact ⟨plain, held, unarmoured, (named nofun).1⟩

/-- Without a certificate file it is not the passwords that are refused. -/
theorem sample_passwords_without_certificates :
    let s : SignerSettings := { keyPassword := some "stdin" }
    isPrivateKeyInfo samplePlainKey = true ∧
    samplePlainFile.files.read (Path.ofText "k") = .ok samplePlainKey ∧
    Pem.unarmor samplePlainKey = .ok samplePlainKey ∧
    (samplePlainFile.run (s.fromFiles ⟨.builtIn, .standard⟩ "k")).1 =
      .error (.configuration .certificateFileMissing) ∧
    (samplePlainFile.run (s.fromFiles ⟨.builtIn, .standard⟩ "k")).1 ≠
      .error (.parse (.encryptedKeyFile "k")) := by
  refine ⟨?_, ?_, ?_, rfl, nofun⟩ <;> decide +kernel

end Samples
end SignerSettings
end PackageSigning
