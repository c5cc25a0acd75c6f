import PackageSigning.Platform.Standard
import PackageSigning.Proofs.Failure.Readers
import PackageSigning.Proofs.Outcome

/-!
# What decrypting a key fails with

Decrypting a key is documented to fail when the password is wrong, when what comes out is no
private key, and when the scheme is not supported (`EncryptedKey.Documented`). It fails in
another way exactly when the key is under PBES2 with parameters that cannot be worked with, or when
the platform refuses the derivation of another scheme in a way that has no documented name
(`EncryptedKey.Unworkable`). The first password for which this is so ends the trying
(`EncryptedKey.decrypts_as_documented_iff`), and with parameters that cannot be worked with, it is
so for every password.
-/

namespace PackageSigning.EncryptedKey

/-- The ways in which decrypting a key is documented to fail. -/
inductive Documented (k : EncryptedKey) : Fault → Prop
  | wrongPassword : Documented k .badDecrypt
  | noPrivateKey : Documented k (.invalidKey .decryptedNotPkcs8)
  | unsupported : Documented k (.unsupportedKey (.encryption k.scheme))

/-- The key is under PBES2, with PBKDF2 over a digest that is known; these are the parameters. -/
structure Names (k : EncryptedKey) (p : Pbes2Parameters) (q : Pbkdf2Parameters)
    (digest : DigestAlgorithm) : Prop where
  scheme : k.scheme = pbes2Name
  parameters : k.pbes2 = some p
  derivation : p.derivation = "pbkdf2"
  pbkdf2 : p.pbkdf2 = some q
  digest : digestNamed? q.digest = some digest

/-- The key is decrypted as it is, in this scheme. -/
def IsUnder (k : EncryptedKey) (s : DirectScheme) : Prop :=
  ∃ p, k.Names p s.parameters s.digest ∧
    SchemeName.aesChainKeyLength? p.cipher = some s.cipherLength ∧ p.inner = s.inner ∧
    p.initial = s.initial

/-- Nothing can be done with a cipher: it is PBES2 without parameters, it is not known, or it is of
no use to the library. -/
inductive Useless : String → Prop
  | nested : Useless pbes2Name
  | unknown {cipher : String} (h : SchemeName.isKnown cipher = false) : Useless cipher
  | unusable {cipher : String} (h : cipher ∈ SchemeName.unusable) : Useless cipher

/-- The key is under PBES2, and what is said of the derivation or of the cipher is not enough to
tell the scheme. -/
inductive Untold (k : EncryptedKey) : Prop
  | parameters (scheme : k.scheme = pbes2Name) (missing : k.pbes2 = none)
  | derivation {p : Pbes2Parameters} (scheme : k.scheme = pbes2Name)
      (parameters : k.pbes2 = some p) (derivation : p.derivation = "pbkdf2")
      (missing : p.pbkdf2 = none)
  | cipher {p : Pbes2Parameters} {q : Pbkdf2Parameters} {digest : DigestAlgorithm}
      (names : k.Names p q digest) (useless : Useless p.cipher)

/-- Derivations, the outermost first, give a length: the first one that names one does, and each of
those before it has parameters. When none does, it is the length of the cipher. -/
inductive GivesLength (cipherLength : Nat) : List (Option Pbkdf2Parameters) → Int → Prop
  | cipher : GivesLength cipherLength [] cipherLength
  | named {p : Pbkdf2Parameters} {rest : List (Option Pbkdf2Parameters)} {length : Int}
      (h : p.keyLength = some length) : GivesLength cipherLength (some p :: rest) length
  | next {p : Pbkdf2Parameters} {rest : List (Option Pbkdf2Parameters)} {length : Int}
      (unnamed : p.keyLength = none) (h : GivesLength cipherLength rest length) :
      GivesLength cipherLength (some p :: rest) length

variable {k : EncryptedKey} {s : DirectScheme} {password : Bytes}

/-! ## The scheme of a key -/

theorem chainLength_of_aes {cipher : String} {length : Nat}
    (h : SchemeName.aesChainKeyLength? cipher = some length) :
    chainLength cipher = .ok (some length) := by
  have huses : ∀ use ∈ [("aes128_cbc", 16), ("aes192_cbc", 24), ("aes256_cbc", 32)],
      chainLength use.1 = .ok (some use.2) := by
    decide +kernel
  obtain ⟨before, after, hlist, -⟩ := List.lookup_eq_some_iff.mp h
  exact huses (cipher, length) (by rw [hlist]; simp)

theorem chainLength_of_useful {cipher : String} (h : ¬Useless cipher) :
    chainLength cipher = .ok (SchemeName.aesChainKeyLength? cipher) := by
  unfold chainLength
  split
  · next hnested => exact absurd (hnested ▸ .nested) h
  · split
    · next hunknown => exact absurd (.unknown (by simpa using hunknown)) h
    · split
      · next hunusable => exact absurd (.unusable (by simpa using hunusable)) h
      · rfl

theorem chainLength_useless {cipher : String} (h : Useless cipher) :
    ∃ m, chainLength cipher = .error (.mishap m) := by
  unfold chainLength
  split
  · exact ⟨_, rfl⟩
  · next hnested =>
    split
    · exact ⟨_, rfl⟩
    · next hknown =>
      cases h with
      | nested => exact absurd rfl hnested
      | unknown h => simp [h] at hknown
      | unusable h => exact ⟨_, if_pos (List.contains_iff_mem.mpr h)⟩

/-- Once the derivation is told, the cipher decides. -/
theorem Names.direct?_eq {p : Pbes2Parameters} {q : Pbkdf2Parameters} {digest : DigestAlgorithm}
    (h : k.Names p q digest) : k.direct? = (do
      let length ← chainLength p.cipher
      return length.map fun length => ⟨digest, q, p.inner, length, p.initial⟩) := by
  unfold direct?
  simp only [h.scheme, h.parameters, h.derivation, h.pbkdf2, h.digest, ne_eq, not_true_eq_false,
    if_false]
  cases chainLength p.cipher with
  | error fault => rfl
  | ok length => cases length <;> rfl

theorem Untold.direct? (h : k.Untold) : ∃ m, k.direct? = .error (.mishap m) := by
  cases h with
  | parameters scheme missing =>
    exact ⟨.wrongType, by simp [EncryptedKey.direct?, scheme, missing]⟩
  | derivation scheme parameters derivation missing =>
    exact ⟨.wrongType, by simp [EncryptedKey.direct?, scheme, parameters, derivation, missing]⟩
  | cipher names useless =>
    obtain ⟨m, hm⟩ := chainLength_useless useless
    exact ⟨m, by rw [names.direct?_eq, hm]; rfl⟩

theorem IsUnder.direct? (h : k.IsUnder s) : k.direct? = .ok (some s) := by
  obtain ⟨p, names, hlength, hinner, hinitial⟩ := h
  rw [names.direct?_eq, chainLength_of_aes hlength, hinner, hinitial]
  rfl

/-- What the scheme of a key comes to: too little is told of it, it is another one, or it is known
in full. -/
theorem direct?_cases (k : EncryptedKey) :
    k.Untold ∨ k.direct? = .ok none ∨ ∃ s, k.IsUnder s := by
  by_cases scheme : k.scheme = pbes2Name
  case neg =>
    refine .inr (.inl ?_)
    unfold EncryptedKey.direct?
    rw [if_pos scheme]
  cases parameters : k.pbes2 with
  | none => exact .inl (.parameters scheme parameters)
  | some p =>
    by_cases derivation : p.derivation = "pbkdf2"
    case neg =>
      exact .inr (.inl (by simp [EncryptedKey.direct?, scheme, parameters, derivation]))
    cases pbkdf2 : p.pbkdf2 with
    | none => exact .inl (.derivation scheme parameters derivation pbkdf2)
    | some q =>
      cases digest : digestNamed? q.digest with
      | none =>
        refine .inr (.inl ?_)
        simp [EncryptedKey.direct?, scheme, parameters, derivation, pbkdf2, digest]
      | some d =>
        have names : k.Names p q d := ⟨scheme, parameters, derivation, pbkdf2, digest⟩
        by_cases useless : Useless p.cipher
        · exact .inl (.cipher names useless)
        · have hchain := chainLength_of_useful useless
          cases hlength : SchemeName.aesChainKeyLength? p.cipher with
          | none =>
            refine .inr (.inl ?_)
            rw [names.direct?_eq, hchain, hlength]
            rfl
          | some length =>
            exact .inr (.inr ⟨⟨d, q, p.inner, length, p.initial⟩, p, names, hlength, rfl, rfl⟩)

/-! ## The length of the derived key -/

theorem lengthWithin_eq_ok_iff {cipherLength : Nat} {ps : List (Option Pbkdf2Parameters)}
    {length : Int} :
    lengthWithin cipherLength ps = .ok length ↔ GivesLength cipherLength ps length := by
  induction ps with
  | nil =>
    constructor
    · rintro ⟨⟩
      exact .cipher
    · rintro ⟨⟩
      rfl
  | cons p rest ih =>
    cases p with
    | none => exact ⟨nofun, nofun⟩
    | some p =>
      cases hp : p.keyLength with
      | some named =>
        rw [lengthWithin, hp]
        constructor
        · rintro ⟨⟩
          exact .named hp
        · rintro (_ | h | ⟨h, _⟩)
          · rw [← Option.some.inj (hp.symm.trans h)]
          · cases hp.symm.trans h
      | none =>
        rw [lengthWithin, hp]
        refine ih.trans ⟨.next hp, ?_⟩
        rintro (_ | h | ⟨_, h⟩)
        · cases hp.symm.trans h
        · exact h

theorem lengthWithin_cases (cipherLength : Nat) (ps : List (Option Pbkdf2Parameters)) :
    (∃ length, lengthWithin cipherLength ps = .ok length) ∨
      ∃ m, lengthWithin cipherLength ps = .error (.mishap m) := by
  induction ps with
  | nil => exact .inl ⟨_, rfl⟩
  | cons p rest ih =>
    cases p with
    | none => exact .inr ⟨_, rfl⟩
    | some p =>
      unfold lengthWithin
      split
      · exact .inl ⟨_, rfl⟩
      · exact ih

section General
variable [Platform]

/-- The derivation can work with its parameters and gives a key for AES, and the platform carries
it out. -/
structure DirectScheme.Derives (s : DirectScheme) : Prop where
  salt : s.parameters.salt.isSome
  iterations : 0 < s.parameters.iterations
  keyLength : ∃ length : Nat, length ∈ [16, 24, 32] ∧
    GivesLength s.cipherLength (some s.parameters :: s.inner) length ∧
    Platform.refusal (.direct length s.parameters.iterations.toNat) = none

/-- Moreover AES can work with the initial value, and the data consists of whole blocks. -/
structure DirectScheme.Fits (s : DirectScheme) (data : Bytes) : Prop extends s.Derives where
  initial : ∃ b ∈ s.initial, b.length = 16
  blocks : 16 ∣ data.length

/-- The refusals of the platform that have a documented name. -/
def namedRefusals : List Mishap := [.badValue, .wrongType, .unsupported]

/-- The key cannot be decrypted with a password, in a way that is not documented. -/
inductive Unworkable (k : EncryptedKey) (password : Bytes) : Prop
  /-- It is under PBES2, and too little is told of the scheme. -/
  | untold (h : k.Untold)
  /-- It is under PBES2, with parameters that cannot be worked with. -/
  | misfit {s : DirectScheme} (under : k.IsUnder s) (h : ¬s.Fits k.data)
  /-- It is under another scheme, which comes to a derivation that the platform refuses. -/
  | refused {scheme : SealScheme} {data : Bytes} {m : Mishap} (other : k.direct? = .ok none)
      (isSealed : SealScheme.sealedData.whole? k.encoded = some (scheme, data))
      (derives : scheme.derives password = true)
      (refusal : Platform.refusal scheme.request = some m) (unnamed : m ∉ namedRefusals)

/-! ## Keys that are decrypted as they are -/

theorem refusal?_eq_none_iff {length iterations : Int} :
    KeyDerivation.refusal? length iterations = none ↔ 0 ≤ length ∧ 0 < iterations ∧
      Platform.refusal (.direct length.toNat iterations.toNat) = none := by
  unfold KeyDerivation.refusal?
  split
  · next houtside => exact ⟨nofun, fun h => by omega⟩
  · next hinside =>
    rw [Option.or_eq_none_iff]
    split
    · next hzero => exact ⟨nofun, fun h => by omega⟩
    · next hnonzero => exact ⟨fun h => ⟨by omega, by omega, h.1⟩, fun h => ⟨h.2.2, rfl⟩⟩

theorem DirectScheme.key_of_length {length : Int}
    (h : lengthWithin s.cipherLength (some s.parameters :: s.inner) = .ok length)
    (password : Bytes) : s.key password =
      match s.parameters.salt with
      | none => .error (.mishap .badValue)
      | some salt =>
        match KeyDerivation.refusal? length s.parameters.iterations with
        | some mishap => .error (.mishap mishap)
        | none =>
          if !([16, 24, 32].contains length) then .error (.mishap .badValue)
          else .ok (KeyDerivation.pbkdf2 s.digest password salt s.parameters.iterations.toNat
            length.toNat) := by
  unfold DirectScheme.key
  rw [h]
  rfl

theorem DirectScheme.key_cases (s : DirectScheme) (password : Bytes) :
    (s.Derives ∧ ∃ key, s.key password = .ok key) ∨
      (¬s.Derives ∧ ∃ m, s.key password = .error (.mishap m)) := by
  obtain ⟨length, hlength⟩ | ⟨m, hlength⟩ :=
    lengthWithin_cases s.cipherLength (some s.parameters :: s.inner)
  case inr =>
    refine .inr ⟨fun h => ?_, m, ?_⟩
    · obtain ⟨length, -, hgives, -⟩ := h.keyLength
      cases hlength.symm.trans (lengthWithin_eq_ok_iff.mpr hgives)
    · unfold DirectScheme.key
      rw [hlength]
      rfl
  -- the length that the derivations give is the one that is asked of them
  have hgiven (h : s.Derives) : ∃ n ∈ [16, 24, 32], length = (n : Nat) ∧
      Platform.refusal (.direct n s.parameters.iterations.toNat) = none := by
    obtain ⟨n, hn, hgives, hrefusal⟩ := h.keyLength
    exact ⟨n, hn, Except.ok.inj (hlength.symm.trans (lengthWithin_eq_ok_iff.mpr hgives)), hrefusal⟩
  rw [key_of_length hlength]
  split
  · next missing => exact .inr ⟨fun h => by simpa [missing] using h.salt, _, rfl⟩
  · next salt hsalt =>
    split
    · next m hrefused =>
      refine .inr ⟨fun h => ?_, m, rfl⟩
      obtain ⟨n, -, rfl, hnone⟩ := hgiven h
      have haccepted : KeyDerivation.refusal? n s.parameters.iterations = none :=
        refusal?_eq_none_iff.mpr ⟨by omega, h.iterations, hnone⟩
      cases hrefused.symm.trans haccepted
    · next haccepted =>
      obtain ⟨hpositive, hiterations, hnone⟩ := refusal?_eq_none_iff.mp haccepted
      split
      · next hnot =>
        refine .inr ⟨fun h => ?_, _, rfl⟩
        obtain ⟨n, hn, rfl, -⟩ := hgiven h
        simp only [List.mem_cons, List.not_mem_nil, or_false] at hn
        obtain rfl | rfl | rfl := hn <;> cases hnot
      · next hfits =>
        refine .inl ⟨⟨by simp [hsalt], hiterations, length.toNat, ?_, ?_, hnone⟩, _, rfl⟩
        · rw [Bool.not_eq_true', Bool.not_eq_false, List.contains_iff_mem] at hfits
          simp only [List.mem_cons, List.not_mem_nil, or_false] at hfits ⊢
          omega
        · rw [Int.toNat_of_nonneg hpositive]
          exact lengthWithin_eq_ok_iff.mp hlength

theorem DirectScheme.decrypt_of_key {key : Bytes} (h : s.key password = .ok key) (data : Bytes) :
    s.decrypt password data =
      match s.initial with
      | none => .error (.mishap .wrongType)
      | some initial =>
        if initial.length ≠ 16 ∨ data.length % 16 ≠ 0 then .error (.mishap .badValue)
        else match (ContentCipher.aes key.length).open? key initial data with
          | some plain => .ok plain
          | none => .error .badDecrypt := by
  unfold DirectScheme.decrypt
  rw [h]
  rfl

/-- Parameters that fit leave nothing but a wrong password to fail with; others fail with every
password. -/
theorem DirectScheme.decrypt_cases (s : DirectScheme) (password data : Bytes) :
    (s.Fits data ∧ FailsOnly (· = .badDecrypt) (s.decrypt password data)) ∨
      (¬s.Fits data ∧ ∃ m, s.decrypt password data = .error (.mishap m)) := by
  obtain ⟨hderives, key, hkey⟩ | ⟨hderives, m, hkey⟩ := s.key_cases password
  · rw [decrypt_of_key hkey]
    cases hinitial : s.initial with
    | none => exact .inr ⟨fun h => by simpa [hinitial] using h.initial, _, rfl⟩
    | some b =>
      by_cases hlengths : b.length ≠ 16 ∨ data.length % 16 ≠ 0
      · refine .inr ⟨fun h => ?_, _, if_pos hlengths⟩
        have hb : b.length = 16 := by simpa [hinitial] using h.initial
        have hdata := h.blocks
        omega
      · refine .inl ⟨⟨hderives, ⟨b, hinitial, by omega⟩, by omega⟩, ?_⟩
        dsimp only
        rw [if_neg hlengths]
        split
        · exact .ok _
        · exact .error rfl
  · refine .inr ⟨fun h => hderives h.toDerives, m, ?_⟩
    unfold DirectScheme.decrypt
    rw [hkey]
    rfl

theorem decrypt_of_isUnder (h : k.IsUnder s) (password : Bytes) : k.decrypt password = (do
    let plain ← s.decrypt password k.data
    if isPrivateKeyInfo plain then .ok plain else .error (.invalidKey .decryptedNotPkcs8)) := by
  unfold EncryptedKey.decrypt
  rw [h.direct?]
  rfl

/-- What comes out of a key that is decrypted as it is looks like a private key. -/
theorem isPrivateKeyInfo_of_decrypt (h : k.IsUnder s) {plain : Bytes}
    (decrypted : k.decrypt password = .ok plain) : isPrivateKeyInfo plain = true := by
  rw [decrypt_of_isUnder h] at decrypted
  obtain ⟨opened, -, decrypted⟩ := bind_eq_ok.mp decrypted
  split at decrypted
  · next hopened =>
    cases decrypted
    exact hopened
  · cases decrypted

/-! ## Keys under any scheme -/

omit [Platform] in
theorem strictFault_of_named {m : Mishap} (h : m ∈ namedRefusals) (k : EncryptedKey) :
    k.Documented (k.strictFault m) := by
  simp only [namedRefusals, List.mem_cons, List.not_mem_nil, or_false] at h
  obtain rfl | rfl | rfl := h
  · exact .wrongPassword
  · exact .wrongPassword
  · exact .unsupported

omit [Platform] in
theorem strictFault_of_unnamed {m : Mishap} (h : m ∉ namedRefusals) (k : EncryptedKey) :
    k.strictFault m = .mishap m := by
  unfold strictFault
  split
  · exact absurd (by decide) h
  · exact absurd (by decide) h
  · exact absurd (by decide) h
  · rfl

/-- A key that is read strictly fails as documented, unless the platform refuses its derivation in
a way of its own. -/
theorem decryptStrictly_cases (k : EncryptedKey) (password : Bytes) :
    FailsOnly k.Documented (k.decryptStrictly password) ∨
      ∃ scheme data m, SealScheme.sealedData.whole? k.encoded = some (scheme, data) ∧
        scheme.derives password = true ∧ Platform.refusal scheme.request = some m ∧
        m ∉ namedRefusals ∧ k.decryptStrictly password = .error (.mishap m) := by
  unfold decryptStrictly
  split
  · exact .inl (.error .wrongPassword)
  · next scheme data isSealed =>
    split
    · next m hopened =>
      by_cases hnamed : m ∈ namedRefusals
      · exact .inl (.error (strictFault_of_named hnamed k))
      · obtain rfl | ⟨derives, refusal⟩ := SealScheme.eq_of_opened_error hopened
        · exact absurd (by decide) hnamed
        · exact .inr ⟨scheme, data, m, isSealed, derives, refusal, hnamed,
            congrArg Except.error (strictFault_of_unnamed hnamed k)⟩
    · left
      split
      · exact .ok _
      · exact .error .unsupported
      · exact .error .wrongPassword

theorem decryptStrictly_of_refused {scheme : SealScheme} {data : Bytes} {m : Mishap}
    (isSealed : SealScheme.sealedData.whole? k.encoded = some (scheme, data))
    (derives : scheme.derives password = true) (refusal : Platform.refusal scheme.request = some m)
    (unnamed : m ∉ namedRefusals) : k.decryptStrictly password = .error (.mishap m) := by
  have hopened : scheme.opened password data = .error m := by
    unfold SealScheme.opened
    rw [if_pos derives, refusal]
  unfold decryptStrictly
  simp only [isSealed, hopened, strictFault_of_unnamed unnamed k]

theorem decrypt_of_other (other : k.direct? = .ok none) (password : Bytes) :
    k.decrypt password = k.decryptStrictly password := by
  unfold EncryptedKey.decrypt
  rw [other]
  rfl

/-- Nothing else can be said of a key of which too little is told. -/
theorem Untold.decrypt (h : k.Untold) : ∃ m, ∀ password, k.decrypt password = .error (.mishap m) := by
  obtain ⟨m, hm⟩ := h.direct?
  refine ⟨m, fun password => ?_⟩
  unfold EncryptedKey.decrypt
  rw [hm]
  rfl

theorem exists_mishap_of_unworkable (h : k.Unworkable password) :
    ∃ m, k.decrypt password = .error (.mishap m) := by
  cases h with
  | untold h =>
    obtain ⟨m, hm⟩ := h.decrypt
    exact ⟨m, hm password⟩
  | misfit under h =>
    obtain ⟨fits, -⟩ | ⟨-, m, hm⟩ := DirectScheme.decrypt_cases _ password k.data
    · exact absurd fits h
    · exact ⟨m, by rw [decrypt_of_isUnder under, hm]; rfl⟩
  | refused other isSealed derives refusal unnamed =>
    exact ⟨_, (decrypt_of_other other password).trans
      (decryptStrictly_of_refused isSealed derives refusal unnamed)⟩

/-- Decrypting fails as documented, unless the key is unworkable. -/
theorem documented_of_workable (h : ¬k.Unworkable password) :
    FailsOnly k.Documented (k.decrypt password) := by
  obtain untold | other | ⟨s, under⟩ := direct?_cases k
  · exact absurd (.untold untold) h
  · rw [decrypt_of_other other]
    obtain documented | ⟨scheme, data, m, isSealed, derives, refusal, unnamed, -⟩ :=
      k.decryptStrictly_cases password
    · exact documented
    · exact absurd (.refused other isSealed derives refusal unnamed) h
  · obtain ⟨-, hdecrypt⟩ | ⟨misfit, -⟩ := s.decrypt_cases password k.data
    · rw [decrypt_of_isUnder under]
      refine .bind (hdecrypt.mono ?_) fun plain _ => ?_
      · rintro _ rfl
        exact .wrongPassword
      · split
        · exact .ok _
        · exact .error .noPrivateKey
    · exact absurd (.misfit under misfit) h

/-- What no documented failure tells ends the trying of passwords. -/
theorem decryptFirst_of_mishap {m : Mishap} (h : k.decrypt password = .error (.mishap m))
    (rest : List Bytes) : k.decryptFirst (password :: rest) = .error (.mishap m) := by
  unfold decryptFirst firstSuccess
  rw [h]

/-- Decrypting a key with a password fails as documented exactly when the key is not under PBES2
with parameters that cannot be worked with, and the platform does not refuse its derivation in a way
that has no documented name. Otherwise it fails with a mishap, and the password ends the trying if
it comes to it; parameters that cannot be worked with do so whatever the password is. What is
decrypted as it is looks like a private key. -/
theorem decrypts_as_documented_iff (k : EncryptedKey) (password : Bytes) :
    (FailsOnly k.Documented (k.decrypt password) ↔ ¬k.Unworkable password) ∧
    (k.Unworkable password → ∃ m, (m ∈ mishaps ∨ ∃ request, Platform.refusal request = some m) ∧
      k.decrypt password = .error (.mishap m) ∧
      ∀ rest, k.decryptFirst (password :: rest) = .error (.mishap m)) ∧
    ∀ s plain, k.IsUnder s → k.decrypt password = .ok plain → isPrivateKeyInfo plain = true := by
  refine ⟨⟨fun documented unworkable => ?_, documented_of_workable⟩, fun unworkable => ?_,
    fun s plain under => isPrivateKeyInfo_of_decrypt under⟩
  · obtain ⟨m, hm⟩ := exists_mishap_of_unworkable unworkable
    cases documented _ hm
  · obtain ⟨m, hm⟩ := exists_mishap_of_unworkable unworkable
    refine ⟨m, ?_, hm, decryptFirst_of_mishap hm⟩
    cases decrypt_fails k password _ hm with
    | other h =>
      cases h with
      | own h => cases h
      | mishap h => exact .inl h
    | refused h => exact .inr ⟨_, h⟩

end General

section Samples
attribute [local instance] Platform.standard

/-- A key under PBES2, with AES, whose data ends within a block. -/
def cutKey : Bytes :=
  [48, 84, 48, 65, 6, 9, 42, 134, 72, 134, 247, 13, 1, 5, 13, 48, 52, 48, 19, 6, 9, 42, 134, 72,
   134, 247, 13, 1, 5, 12, 48, 6, 4, 1, 115, 2, 1, 1, 48, 29, 6, 9, 96, 134, 72, 1, 101, 3, 4, 1,
   2, 4, 16, 0, 0, 0, 0, 0, 0, 0, 0, 0, 0, 0, 0, 0, 0, 0, 0, 4, 15, 0, 0, 0, 0, 0, 0, 0, 0, 0, 0,
   0, 0, 0, 0, 0]

/-- That key is read, and decrypting it fails in a way that is not documented. -/
theorem sample_fails_otherwise :
    ∃ k, ofBytes cutKey = .ok k ∧ k.decrypt (Bytes.ofAscii "x") = .error (.mishap .badValue) ∧
      ¬FailsOnly k.Documented (k.decrypt (Bytes.ofAscii "x")) := by
  have hread : ofBytes cutKey = .ok ⟨cutKey, "pbes2",
      some ⟨"pbkdf2", some ⟨some [115], 1, none, "sha1"⟩, [], "aes128_cbc",
        some (List.replicate 16 0)⟩, List.replicate 15 0⟩ := by
    decide +kernel
  have hfails : ∀ k, ofBytes cutKey = .ok k →
      k.decrypt (Bytes.ofAscii "x") = .error (.mishap .badValue) := by
    intro k hk
    cases hread.symm.trans hk
    decide +kernel
  refine ⟨_, hread, hfails _ hread, fun documented => ?_⟩
  cases documented _ (hfails _ hread)

end Samples

end PackageSigning.EncryptedKey
