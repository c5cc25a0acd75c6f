import PackageSigning.Platform.Standard
import PackageSigning.Proofs.Keystore.Unlocking
import PackageSigning.Proofs.Password.Asking

/-!
# Which passwords a key is recovered with

The key of an entry is recovered with the passwords that the user names for it, and with no
others. When the user names none, it is recovered with those of the store, and only when all of
these leave it locked is a line of input asked for, once
(`SignerSettings.key_is_recovered_with_documented_passwords`).
-/

namespace PackageSigning

open PackageSigning.Action

section General
variable [Platform] {w v : World}

namespace SignerSettings
variable (s : SignerSettings) {σ : Type} (kind : KeystoreKind σ) (state : σ) (store : String)
  (entry : EntryName) (storePasswords : List Bytes)

/-- What the password of an entry is asked for with. -/
def keyLabel : String := s!"Key \"{entry.shown}\" password for {s.callName}"

/-- The key of an entry, with the entry and the store named when it stays locked. -/
def recovery : Action (Option PrivateKey) :=
  tryCatch (s.entryKey kind state entry storePasswords) fun fault =>
    throw (nameLocked store entry.shown fault)

/-- What is made of the key of an entry. Nothing more is asked for. -/
def vouched : Option PrivateKey → Except Fault LoadedSigner
  | none => .error (.aliasNotFound store (some entry.shown))
  | some key =>
    if key.canSign then do
      match ← kind.chain state entry with
      | none | some [] => .error (.noCertificates (.storeEntry store entry.shown))
      | some chain => .ok ⟨some entry, key, chain⟩
    else .error (.store (.notAPrivateKey store entry.shown key.typeName))

theorem fromEntry_eq (isKey : kind.isKeyEntry state entry = .ok true) :
    s.fromEntry kind state store entry storePasswords = (do
      let found ← s.recovery kind state store entry storePasswords
      ofResult (vouched kind state store entry found)) := by
  unfold fromEntry
  rw [isKey]
  show (s.recovery kind state store entry storePasswords >>= _) = _
  refine congrArg (s.recovery kind state store entry storePasswords >>= ·) (funext fun found => ?_)
  cases found with
  | none => rfl
  | some key =>
    unfold vouched
    dsimp only
    cases key.canSign with
    | false => rfl
    | true =>
      rw [if_pos rfl, if_neg (by simp)]
      cases kind.chain state entry with
      | error fault => rfl
      | ok chain =>
        cases chain with
        | none => rfl
        | some chain => cases chain <;> rfl

/-- These are passwords that the signer was given before, in surroundings like these. -/
def WasGiven (w : World) (passwords : List Bytes) : Prop :=
  ∃ (v : World) (spec label : String),
    v.Alike w ∧ (v.run (s.passwords spec label)).1 = .ok passwords

/-- The passwords that a specification stands for, if it stands for any. -/
def given (w : World) (spec : String) : List Bytes :=
  match (w.run (s.passwords spec (s.keyLabel entry))).1 with
  | .ok passwords => passwords
  | .error _ => []

/-- The passwords that the key of an entry is tried with, first one first: those that the user
names, or else those of the store, and behind them the one from the input if all of these leave
the key locked. -/
def tries (w : World) : List Bytes :=
  match s.keyPassword with
  | some spec => kind.tried state entry (s.given entry w spec)
  | none =>
    kind.tried state entry storePasswords ++
      if storePasswords.all (kind.locks state entry) then
        kind.tried state entry (s.given entry w PasswordSource.inputSpec)
      else []

variable {s kind state store entry storePasswords}

/-- Where a signer was given passwords, it can be given more. -/
theorem WasGiven.ready (h : s.WasGiven w storePasswords) (hne : storePasswords ≠ []) :
    ∃ encodings, Password.Ready w s.extraEncodings encodings := by
  obtain ⟨v, spec, label, hv, h⟩ := h
  obtain ⟨candidates, u, hcandidates, h⟩ := World.run_bind_eq_ok.mp h
  cases h
  have hcandidates' : (v.run (Password.candidates spec label s.extraEncodings)).1 =
      .ok candidates := by
    rw [hcandidates]
  obtain ⟨encodings, ready⟩ := Password.ready_of_candidates hcandidates' (by simpa using hne)
  exact ⟨encodings, ready.alike hv⟩

/-- What trying the passwords of a specification in turn is reported as. -/
theorem run_asked (spec : String) (w : World) :
    w.run (tryCatch
        (do ofResult (kind.recoverKey state entry (← s.passwords spec (s.keyLabel entry))))
        fun fault => throw (nameLocked store entry.shown fault)) =
      match w.run (s.passwords spec (s.keyLabel entry)) with
      | (.ok passwords, v) => (kind.settled state entry store passwords, v)
      | (.error fault, v) => (.error (nameLocked store entry.shown fault), v) := by
  rw [World.run_tryCatch, World.run_bind]
  obtain ⟨result, v⟩ := w.run (s.passwords spec (s.keyLabel entry))
  cases result with
  | error fault => rfl
  | ok passwords =>
    dsimp only
    rw [World.run_ofResult, ← KeystoreKind.recoverKey_settled]
    cases kind.recoverKey state entry passwords <;> rfl

theorem run_recovery_of_spec {spec : String} (named : s.keyPassword = some spec) :
    w.run (s.recovery kind state store entry storePasswords) =
      match w.run (s.passwords spec (s.keyLabel entry)) with
      | (.ok passwords, v) => (kind.settled state entry store passwords, v)
      | (.error fault, v) => (.error (nameLocked store entry.shown fault), v) := by
  unfold recovery entryKey
  rw [named]
  exact run_asked spec w

theorem run_recovery_of_locked (unnamed : s.keyPassword = none) (hne : storePasswords ≠ [])
    (locked : storePasswords.all (kind.locks state entry) = true) :
    w.run (s.recovery kind state store entry storePasswords) =
      match w.run (s.passwords PasswordSource.inputSpec (s.keyLabel entry)) with
      | (.ok passwords, v) => (kind.settled state entry store passwords, v)
      | (.error fault, v) => (.error (nameLocked store entry.shown fault), v) := by
  obtain ⟨problem, hproblem⟩ := (KeystoreKind.recoverKey_locked_iff hne).mpr locked
  unfold recovery entryKey
  rw [unnamed, hproblem]
  exact run_asked PasswordSource.inputSpec w

theorem run_recovery_of_unlocked (unnamed : s.keyPassword = none) (hne : storePasswords ≠ [])
    (unlocked : storePasswords.all (kind.locks state entry) = false) :
    w.run (s.recovery kind state store entry storePasswords) =
      (kind.settled state entry store storePasswords, w) := by
  have hlocked : ¬∃ problem,
      kind.recoverKey state entry storePasswords = .error (.lockedKey problem) := by
    rw [KeystoreKind.recoverKey_locked_iff hne, unlocked]
    exact Bool.false_ne_true
  rw [← KeystoreKind.recoverKey_settled]
  unfold recovery entryKey
  rw [unnamed]
  generalize kind.recoverKey state entry storePasswords = outcome at hlocked ⊢
  cases outcome with
  | ok key => rfl
  | error fault =>
    cases fault with
    | lockedKey problem => exact absurd ⟨problem, rfl⟩ hlocked
    | _ => rfl

/-! ## Which passwords are tried -/

theorem given_of_run {spec : String} {passwords : List Bytes}
    (h : w.run (s.passwords spec (s.keyLabel entry)) = (.ok passwords, v)) :
    s.given entry w spec = passwords := by
  unfold given
  rw [h]

theorem run_passwords (s : SignerSettings) (w : World) (spec label : String) :
    w.run (s.passwords spec label) = ((do
      let candidates ← (w.run (Password.candidates spec label s.extraEncodings)).1
      return candidates.map (·.value)),
      (w.run (Password.candidates spec label s.extraEncodings)).2) := by
  unfold passwords
  rw [World.run_bind]
  obtain ⟨result, v⟩ := w.run (Password.candidates spec label s.extraEncodings)
  cases result <;> rfl

/-- The password from the input can be asked for, and no more than one line is taken for it. -/
theorem run_passwords_input (noTerminal : w.isTerminal = false) (hne : storePasswords ≠ [])
    (wasGiven : s.WasGiven w storePasswords) :
    ∃ encodings v, Password.encodings w s.extraEncodings = .ok encodings ∧
      w.run (s.passwords PasswordSource.inputSpec (s.keyLabel entry)) = ((do
        let candidates ← Candidate.all encodings (← w.lineAt 0)
        return candidates.map (·.value)), v) ∧
      v.input = w.takeLine.2.input ∧
      v.shown = w.shown ++ [.complained s!"{s.keyLabel entry}: "] ∧
      ((∀ e ∈ encodings, e.IsKnown) → ∀ texts, w.lineAt 0 = .ok texts → ∃ passwords,
        (w.run (s.passwords PasswordSource.inputSpec (s.keyLabel entry))).1 = .ok passwords) := by
  obtain ⟨encodings, ready⟩ := wasGiven.ready hne
  have hcandidates := Password.run_candidates w PasswordSource.inputSpec (s.keyLabel entry)
    s.extraEncodings
  rw [if_pos ready.isOpen, ready.found, Password.run_lines_input noTerminal] at hcandidates
  refine ⟨encodings, _, ready.found, (run_passwords s w _ _).trans (Prod.ext ?_ rfl), ?_, ?_, ?_⟩
  · rw [hcandidates]
    cases w.lineAt 0 with
    | error fault => rfl
    | ok texts =>
      dsimp only
      rw [Password.handOut_fst]
      rfl
  · rw [hcandidates]
    cases w.lineAt 0 with
    | error fault => rfl
    | ok texts => exact Password.handOut_input ..
  · rw [hcandidates]
    cases w.lineAt 0 with
    | error fault => rfl
    | ok texts => exact Password.handOut_shown ..
  · intro known texts htexts
    obtain ⟨candidates, hall⟩ := ready.exists_all known texts
    rw [run_passwords, hcandidates, htexts]
    dsimp only
    rw [Password.handOut_fst, hall]
    exact ⟨_, rfl⟩

/-- What a store makes of passwords that are not tried makes no difference. -/
theorem run_recovery_congr {other : KeystoreKind σ} (hne : storePasswords ≠ [])
    (h : ∀ p ∈ s.tries kind state entry storePasswords w,
      other.key state entry (some p) = kind.key state entry (some p)) :
    w.run (s.recovery other state store entry storePasswords) =
      w.run (s.recovery kind state store entry storePasswords) := by
  unfold tries at h
  cases hspec : s.keyPassword with
  | some spec =>
    -- The passwords of the store are left alone.
    rw [hspec] at h
    dsimp only at h
    rw [run_recovery_of_spec hspec, run_recovery_of_spec hspec]
    cases hrun : w.run (s.passwords spec (s.keyLabel entry)) with
    | mk result v =>
      cases result with
      | error fault => rfl
      | ok passwords =>
        rw [given_of_run hrun] at h
        exact congrArg (·, v) (KeystoreKind.settled_congr store h).1
  | none =>
    rw [hspec] at h
    dsimp only at h
    obtain ⟨hstore, hinput⟩ := List.forall_mem_append.mp h
    -- Both stores are left locked by the same passwords, so that both ask for a line or neither.
    obtain ⟨hsettled, hlocks⟩ := KeystoreKind.settled_congr store hstore
    cases hlocked : storePasswords.all (kind.locks state entry) with
    | false =>
      rw [run_recovery_of_unlocked hspec hne hlocked,
        run_recovery_of_unlocked hspec hne (hlocks.trans hlocked), hsettled]
    | true =>
      rw [run_recovery_of_locked hspec hne hlocked,
        run_recovery_of_locked hspec hne (hlocks.trans hlocked)]
      rw [if_pos hlocked] at hinput
      cases hrun : w.run (s.passwords PasswordSource.inputSpec (s.keyLabel entry)) with
      | mk result v =>
        cases result with
        | error fault => rfl
        | ok passwords =>
          rw [given_of_run hrun] at hinput
          exact congrArg (·, v) (KeystoreKind.settled_congr store hinput).1

theorem run_of_mem_given {spec : String} {p : Bytes} (h : p ∈ s.given entry w spec) :
    ∃ v, w.run (s.passwords spec (s.keyLabel entry)) = (.ok (s.given entry w spec), v) := by
  cases hrun : w.run (s.passwords spec (s.keyLabel entry)) with
  | mk result v =>
    cases result with
    | ok passwords => exact ⟨v, by rw [given_of_run hrun]⟩
    | error fault =>
      -- A specification that fails stands for no passwords.
      unfold given at h
      rw [hrun] at h
      cases h

/-- A password that is tried decides, if it unlocks the key. -/
theorem run_recovery_answering (hne : storePasswords ≠ []) (key : Option PrivateKey) {p : Bytes}
    (h : p ∈ s.tries kind state entry storePasswords w) :
    (w.run (s.recovery (kind.answering p (.ok key)) state store entry storePasswords)).1 =
      .ok key := by
  unfold tries at h
  cases hspec : s.keyPassword with
  | some spec =>
    rw [hspec] at h
    dsimp only at h
    obtain ⟨v, hrun⟩ := run_of_mem_given (KeystoreKind.mem_of_mem_tried h)
    rw [run_recovery_of_spec hspec, hrun]
    exact KeystoreKind.settled_answering store key h
  | none =>
    rw [hspec] at h
    dsimp only at h
    by_cases hstore : p ∈ kind.tried state entry storePasswords
    · -- A password of the store unlocks the key now, so that nothing is asked for.
      have unlocked :
          storePasswords.all ((kind.answering p (.ok key)).locks state entry) = false :=
        List.all_eq_false.mpr ⟨p, KeystoreKind.mem_of_mem_tried hstore, by
          simp [KeystoreKind.locks_answering]⟩
      rw [run_recovery_of_unlocked hspec hne unlocked]
      exact KeystoreKind.settled_answering store key hstore
    · have hinput := (List.mem_append.mp h).resolve_left hstore
      split at hinput
      · next locked =>
        -- All passwords of the store were tried, and this is none of them: they stay locked.
        have hlocks := List.all_eq_true.mp locked
        rw [KeystoreKind.tried_of_locks hlocks] at hstore
        have stillLocked :
            storePasswords.all ((kind.answering p (.ok key)).locks state entry) = true := by
          refine List.all_eq_true.mpr fun q hq => ?_
          have hqp : q ≠ p := fun heq => hstore (heq ▸ hq)
          simp [KeystoreKind.locks_answering, hqp, hlocks q hq]
        obtain ⟨v, hrun⟩ := run_of_mem_given (KeystoreKind.mem_of_mem_tried hinput)
        rw [run_recovery_of_locked hspec hne stillLocked, hrun]
        exact KeystoreKind.settled_answering store key hinput
      · cases hinput

/-- A key is recovered with the documented passwords, and nothing else is tried: with those that
the user names for it, whatever the passwords of the store are; or with those of the store and,
only if all of these leave it locked, with the one line of input that is asked for then. What
comes out is what the first password makes of it that does not leave it locked; when none does,
the entry and the store are named. The last two parts tell that the passwords of `tries` are the
ones that matter. -/
theorem key_is_recovered_with_documented_passwords (s : SignerSettings) {σ : Type}
    (kind : KeystoreKind σ) (state : σ) (store : String) (entry : EntryName)
    (storePasswords : List Bytes) (w : World) (isKey : kind.isKeyEntry state entry = .ok true)
    (noTerminal : w.isTerminal = false) (nonempty : storePasswords ≠ []) :
    (s.fromEntry kind state store entry storePasswords = (do
      let found ← s.recovery kind state store entry storePasswords
      ofResult (vouched kind state store entry found))) ∧
    (∀ spec, s.keyPassword = some spec →
      w.run (s.recovery kind state store entry storePasswords) =
        match w.run (s.passwords spec (s.keyLabel entry)) with
        | (.ok passwords, v) => (kind.settled state entry store passwords, v)
        | (.error fault, v) => (.error (nameLocked store entry.shown fault), v)) ∧
    (s.keyPassword = none → storePasswords.all (kind.locks state entry) = false →
      w.run (s.recovery kind state store entry storePasswords) =
        (kind.settled state entry store storePasswords, w)) ∧
    (s.keyPassword = none → storePasswords.all (kind.locks state entry) = true →
      w.run (s.recovery kind state store entry storePasswords) =
        (match w.run (s.passwords PasswordSource.inputSpec (s.keyLabel entry)) with
        | (.ok passwords, v) => (kind.settled state entry store passwords, v)
        | (.error fault, v) => (.error (nameLocked store entry.shown fault), v)) ∧
      (s.WasGiven w storePasswords → ∃ encodings v,
        Password.encodings w s.extraEncodings = .ok encodings ∧
        w.run (s.passwords PasswordSource.inputSpec (s.keyLabel entry)) = ((do
          let candidates ← Candidate.all encodings (← w.lineAt 0)
          return candidates.map (·.value)), v) ∧
        v.input = w.takeLine.2.input ∧
        v.shown = w.shown ++ [.complained s!"{s.keyLabel entry}: "] ∧
        ((∀ e ∈ encodings, e.IsKnown) → ∀ texts, w.lineAt 0 = .ok texts → ∃ passwords,
          (w.run (s.passwords PasswordSource.inputSpec (s.keyLabel entry))).1 = .ok passwords))) ∧
    (∀ other : KeystoreKind σ,
      (∀ p ∈ s.tries kind state entry storePasswords w,
        other.key state entry (some p) = kind.key state entry (some p)) →
      w.run (s.recovery other state store entry storePasswords) =
        w.run (s.recovery kind state store entry storePasswords)) ∧
    (∀ p ∈ s.tries kind state entry storePasswords w, ∀ key,
      (w.run (s.recovery (kind.answering p (.ok key)) state store entry storePasswords)).1 =
        .ok key) := by
  refine ⟨fromEntry_eq s kind state store entry storePasswords isKey, ?_, ?_, ?_, ?_, ?_⟩
  · intro spec named
    exact run_recovery_of_spec named
  · intro unnamed unlocked
    exact run_recovery_of_unlocked unnamed nonempty unlocked
  · intro unnamed locked
    exact ⟨run_recovery_of_locked unnamed nonempty locked,
      run_passwords_input noTerminal nonempty⟩
  · intro other h
    exact run_recovery_congr nonempty h
  · intro p hp key
    exact run_recovery_answering nonempty key hp

end SignerSettings
end General

section Samples
attribute [local instance] Platform.standard

namespace SignerSettings

/-- A store with one key, which the password `b` unlocks. -/
def sampleKind : KeystoreKind Unit where
  fresh := ()
  load _ _ _ := (.ok (), ())
  aliases _ := ["key"]
  isKeyEntry _ _ := .ok true
  key _ name password :=
    if password = some (Bytes.ofAscii "b") then .ok (some (.edwards .ed25519 []))
    else .error (.lockedKey (.keyFrom name.shown "store"))
  chain _ _ := .ok none

/-- Surroundings with two lines of input. -/
def sampleInput : World := { World.ofFiles (.ofContents []) with input := .ofText "b\nc\n" }

/-- The password of the store leaves the key locked, and one line is taken for the key. -/
theorem sample_key_is_recovered_with_the_line :
    let s : SignerSettings := {}
    let passwords := [Bytes.ofAscii "a"]
    sampleKind.isKeyEntry () "key" = .ok true ∧ sampleInput.isTerminal = false ∧
    passwords ≠ [] ∧ s.WasGiven sampleInput passwords ∧
    ∃ v, sampleInput.run (s.recovery sampleKind () "store" "key" passwords) =
        (.ok (some (.edwards .ed25519 [])), v) ∧
      v.input = .ofText "c\n" := by
  intro s passwords
  have hgiven : s.WasGiven sampleInput passwords :=
    ⟨sampleInput, "pass:a", "", .refl _, by decide +kernel⟩
  obtain ⟨-, -, -, hlocked, -, -⟩ := key_is_recovered_with_documented_passwords s sampleKind ()
    "store" "key" passwords sampleInput rfl rfl (by decide)
  obtain ⟨hrecovery, hline⟩ := hlocked rfl (by decide)
  obtain ⟨encodings, v, hencodings, hrun, hinput, -⟩ := hline hgiven
  have hfound : encodings = [.utf8] :=
    Except.ok.inj (hencodings.symm.trans (by decide +kernel))
  have hline : (do
      let candidates ← Candidate.all encodings (← sampleInput.lineAt 0)
      return candidates.map (·.value)) = Except.ok [Bytes.ofAscii "b"] := by
    rw [hfound]
    decide +kernel
  refine ⟨rfl, rfl, by decide, hgiven, v, ?_, hinput.trans (by decide +kernel)⟩
  rw [hrecovery, hrun, hline]
  exact congrArg (·, v) (by decide +kernel)

end SignerSettings
end Samples
end PackageSigning
