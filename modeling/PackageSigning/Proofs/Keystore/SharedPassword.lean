import PackageSigning.Platform.Standard
import PackageSigning.Proofs.Failure.Stores
import PackageSigning.Proofs.Keystore.Aliases
import PackageSigning.Proofs.Keystore.Opening
import PackageSigning.Proofs.Signer.Recovery

/-!
# One password for a store and its key

A store of one key is opened and its key is recovered by trying passwords in turn, each time with
the same reader of the same data. The passwords that are turned down and those that leave the key
locked are the same ones, so that passwords that open the store yield its key, and no other is
asked for (`PfxStore.passwords_that_open_unlock`).
-/

namespace PackageSigning

/-- A fault of what the tool works with, not of the tool. -/
def Fault.IsForeign (fault : Fault) : Prop := ∃ m, fault = .mishap m

namespace Pfx

section
variable [Platform]

theorem keyOf_foreign (password : Bytes) (content : Content) :
    FailsOnly Fault.IsForeign (keyOf password content) := by
  have hread (encoded : Bytes) : FailsOnly Fault.IsForeign (keyOf password (.key encoded)) := by
    unfold keyOf
    dsimp only
    split
    · exact .ok _
    · exact .error ⟨_, rfl⟩
    · exact .error ⟨_, rfl⟩
  cases content with
  | key encoded => exact hread encoded
  | sealedKey encoded =>
    unfold keyOf
    dsimp only
    split
    · exact .error ⟨_, rfl⟩
    · split
      -- what was sealed is read as a plain key is
      · exact hread _
      · exact .error ⟨_, rfl⟩
  | certificate | bags | other => exact .ok _

theorem firstKey_foreign (password : Bytes) (bags : List Bag) :
    FailsOnly Fault.IsForeign (firstKey password bags) := by
  induction bags with
  | nil => exact .ok _
  | cons b rest ih =>
    refine .bind (keyOf_foreign password b.content) fun key _ => ?_
    cases key with
    | none => exact ih
    | some k => exact .pure _

omit [Platform] in
theorem certificates_foreign (bags : List Bag) : FailsOnly Fault.IsForeign (certificates bags) := by
  have hone (encoded : Bytes) : FailsOnly Fault.IsForeign (CertificateBundle.one encoded) := by
    unfold CertificateBundle.one
    split
    · exact .ok _
    · next refusal _ => cases refusal <;> exact .error ⟨_, rfl⟩
  induction bags with
  | nil => exact .ok _
  | cons b rest ih =>
    unfold certificates
    split
    · exact .bind (hone _) fun _ _ => .bind ih fun _ _ => .pure _
    · exact ih

end

end Pfx

namespace PfxStore

/-- What reads files fails for reasons of its own: as decoding does, never as a store does. -/
def PfxReader.Foreign (reader : PfxReader) : Prop :=
  ∀ b password, FailsOnly Fault.IsForeign (reader b password)

/-- The usual reader is one. -/
theorem read_foreign [Platform] : PfxReader.Foreign Pfx.read := by
  intro b password
  unfold Pfx.read
  dsimp only
  split
  · exact .error ⟨_, rfl⟩
  · refine .bind (Pfx.firstKey_foreign _ _) fun key _ =>
      .bind (Pfx.certificates_foreign _) fun _ _ => ?_
    split
    · exact .pure _
    · exact .pure _

/-- What a reader makes of a file with a password; an empty one is none. -/
def PfxReader.reads (reader : PfxReader) (b password : Bytes) : Except Fault Pfx :=
  reader b ((some password).filter (!·.isEmpty))

/-- Some of the passwords reads a file, and those before it are turned down. -/
inductive OpensFirst (reader : PfxReader) (b : Bytes) : List Bytes → Pfx → Prop
  | here {password : Bytes} {pfx : Pfx} (read : reader.reads b password = .ok pfx)
    (rest : List Bytes) : OpensFirst reader b (password :: rest) pfx
  | later {password : Bytes} {rest : List Bytes} {pfx : Pfx} {m : Mishap}
    (refused : reader.reads b password = .error (.mishap m))
    (known : m = .badValue ∨ m = .wrongType) (h : OpensFirst reader b rest pfx) :
    OpensFirst reader b (password :: rest) pfx

section General
variable {reader : PfxReader} {b : Bytes} {passwords : List Bytes} {pfx : Pfx} {s t : PfxStore}
  {name : EntryName}

/-! ## What a reader makes of a password -/

theorem parse_of_ok {password : Bytes} (h : reader.reads b password = .ok pfx) (refusal : Fault) :
    parse reader refusal b (some password) = .ok pfx := by
  unfold PfxReader.reads at h
  rw [parse, h]

theorem parse_of_refused {password : Bytes} {m : Mishap}
    (h : reader.reads b password = .error (.mishap m)) (known : m = .badValue ∨ m = .wrongType)
    (refusal : Fault) : parse reader refusal b (some password) = .error refusal := by
  unfold PfxReader.reads at h
  rw [parse, h]
  obtain rfl | rfl := known <;> rfl

theorem load_of_error {password : Bytes} {m : Mishap}
    (h : reader.reads b password = .error (.mishap m)) (s : PfxStore) :
    (kindWith reader).load (some b) (some password) s =
      (.error (if m = .badValue ∨ m = .wrongType then .storeIntegrity else .mishap m),
        holding (some b)) := by
  have hparse : parse reader .storeIntegrity b (some password) =
      .error (if m = .badValue ∨ m = .wrongType then .storeIntegrity else .mishap m) := by
    unfold PfxReader.reads at h
    rw [parse, h]
    cases m <;> rfl
  show PfxStore.load reader (some b) (some password) s = _
  rw [PfxStore.load]
  simp only [hparse]

/-- What a reader accepts is loaded, unless there is a name in it that cannot be read. -/
theorem load_of_ok {password : Bytes} (h : reader.reads b password = .ok pfx) (s : PfxStore) :
    (kindWith reader).load (some b) (some password) s = (.ok (), made b pfx) ∨
      ∃ m, ((kindWith reader).load (some b) (some password) s).1 = .error (.mishap m) := by
  cases hload : ((kindWith reader).load (some b) (some password) s).1 with
  | ok _ => exact .inl (load_eq (s := s) h hload)
  | error fault =>
    refine .inr ?_
    change (load reader (some b) (some password) s).1 = _ at hload
    rw [load, parse_of_ok h] at hload
    dsimp only at hload
    split at hload
    · next hkey =>
      obtain ⟨refusal, rfl⟩ := withKey_fails _ _ _ hkey
      exact ⟨_, hload.symm⟩
    · cases hload

/-- A password is turned down when the reader cannot make anything of the data with it. -/
theorem refused_of_refuses (foreign : reader.Foreign) {password : Bytes}
    (h : (kindWith reader).refuses (some b) password s = true) :
    ∃ m, reader.reads b password = .error (.mishap m) ∧ (m = .badValue ∨ m = .wrongType) := by
  cases hread : reader.reads b password with
  | ok pfx =>
    unfold KeystoreKind.refuses at h
    obtain hload | ⟨m, hload⟩ := load_of_ok hread s <;> rw [hload] at h <;> cases h
  | error fault =>
    obtain ⟨m, rfl⟩ := foreign _ _ _ hread
    refine ⟨m, rfl, ?_⟩
    by_contra hother
    -- Another mishap comes through as it is, and it is no refusal of a store.
    rw [KeystoreKind.refuses, load_of_error hread, if_neg hother] at h
    cases h

/-! ## Two ways of trying passwords -/

theorem opensFirst_of_loadFirst (foreign : reader.Foreign)
    (h : (kindWith reader).loadFirst (some b) passwords s = (.ok (), t)) :
    ∃ pfx, OpensFirst reader b passwords pfx ∧ t = made b pfx := by
  induction passwords generalizing s with
  | nil => cases h
  | cons password rest ih =>
    rw [KeystoreKind.loadFirst_cons] at h
    split at h
    · next hrefuses =>
      obtain ⟨m, refused, known⟩ := refused_of_refuses foreign hrefuses.1
      obtain ⟨pfx, hopens, rfl⟩ := ih h
      exact ⟨pfx, .later refused known hopens, rfl⟩
    · cases hread : reader.reads b password with
      | ok pfx =>
        obtain hload | ⟨m, hload⟩ := load_of_ok hread s
        · rw [hload] at h
          cases h
          exact ⟨pfx, .here hread rest, rfl⟩
        · rw [h] at hload
          cases hload
      | error fault =>
        obtain ⟨m, rfl⟩ := foreign _ _ _ hread
        rw [load_of_error hread] at h
        cases h

/-- The passwords that are turned down leave the key locked, and the one that opens the store
unlocks it. -/
theorem OpensFirst.recoverKey (h : OpensFirst reader b passwords pfx) (hdata : t.data = some b)
    (hname : t.keyAlias = some name) :
    (kindWith reader).recoverKey t name passwords = .ok pfx.key := by
  have hkey (password : Bytes) : (kindWith reader).key t name (some password) = (do
      return (← parse reader (.lockedKey .tampered) b (some password)).key) := by
    show key reader t name (some password) = _
    simp only [key, hdata, hname, if_true]
  induction h with
  | @here password pfx read rest =>
    have hopen : (kindWith reader).key t name (some password) = .ok pfx.key := by
      rw [hkey, parse_of_ok read]
      rfl
    have unlocked : (kindWith reader).locks t name password = false := by
      rw [KeystoreKind.locks, hopen]
    rw [KeystoreKind.recoverKey_cons, unlocked, if_neg (by simp), hopen]
  | @later password rest pfx m refused known h ih =>
    have locked : (kindWith reader).locks t name password = true := by
      rw [KeystoreKind.locks, hkey, parse_of_refused refused known]
      rfl
    have hne : rest ≠ [] := by
      rintro rfl
      cases h
    rw [KeystoreKind.recoverKey_cons, locked, if_pos ⟨rfl, hne⟩, ih]

/-- The key entry of a file has a key, and the certificate of the key in front. -/
theorem exists_of_keyAlias_made (h : (made b pfx).keyAlias = some name) : ∃ k c,
    pfx.key = some k ∧ pfx.certificate = some c ∧ (made b pfx).chains.get? name =
      some (c.certificate.chainAmong (pfx.others.map (·.certificate))) := by
  obtain ⟨⟨found, chain⟩, hentry, rfl⟩ := Option.map_eq_some_iff.mp h
  have hchains : (made b pfx).chains = ⟨[(found, chain)]⟩ := by
    show OrderedMap.mk (keyAndChain? pfx).toList = _
    rw [hentry]
    rfl
  have hget : (made b pfx).chains.get? found = some chain := by
    simp [hchains, OrderedMap.get?]
  unfold keyAndChain? at hentry
  split at hentry
  · next k c hk hc =>
    cases hentry
    exact ⟨k, c, hk, hc, hget⟩
  · cases hentry

/-- What a file is opened from has been read. -/
theorem exists_read {path? : Option Path} {w v : World} {opened : Except Fault Unit × PfxStore}
    (hne : passwords ≠ [])
    (h : w.run ((kindWith reader).openFile path? passwords s) = (.ok opened, v)) :
    ∃ data, path?.mapM w.files.read = .ok data ∧
      (kindWith reader).loadFirst data passwords s = opened := by
  have hread : ∃ data, path?.mapM w.files.read = .ok data := by
    cases path? with
    | none => exact ⟨none, rfl⟩
    | some path =>
      cases hpath : w.files.read path with
      | ok b => exact ⟨some b, by rw [Option.mapM_some, hpath]; rfl⟩
      | error fault =>
        have hanswer : w.answer (.read path) = (.error fault, w) := congrArg (·, w) hpath
        unfold KeystoreKind.openFile at h
        rw [if_neg (by simpa using hne)] at h
        change w.run (.ask (.read path) _) = _ at h
        rw [World.run_ask, hanswer] at h
        cases h
  obtain ⟨data, hdata⟩ := hread
  rw [KeystoreKind.run_openFile hdata hne] at h
  exact ⟨data, hdata, Except.ok.inj (congrArg Prod.fst h)⟩

/-- Without data there are no entries. -/
theorem loadFirst_none (hne : passwords ≠ []) (s : PfxStore) :
    (kindWith reader).loadFirst none passwords s = (.ok (), holding none) := by
  obtain ⟨password, rest, rfl⟩ := List.exists_cons_of_ne_nil hne
  have hload : (kindWith reader).load none (some password) s = (.ok (), holding none) := rfl
  have accepted : (kindWith reader).refuses none password s = false := by
    rw [KeystoreKind.refuses, hload]
  rw [KeystoreKind.loadFirst_cons, accepted, if_neg (by simp), hload]

variable [Platform]

/-- Passwords that open a store yield the key of its entry: the one in the bundle that the first
accepted password reads, with the certificate of the key in front of the chain. With them at hand
the signer asks for nothing more. -/
theorem passwords_that_open_unlock (foreign : reader.Foreign) {path? : Option Path} {w v : World}
    (opened : w.run ((kindWith reader).openFile path? passwords s) = (.ok (.ok (), t), v))
    (isKey : (kindWith reader).isKeyEntry t name = .ok true) :
    ∃ b pfx k c rest, path?.mapM w.files.read = .ok (some b) ∧
      OpensFirst reader b passwords pfx ∧ pfx.key = some k ∧ pfx.certificate = some c ∧
      (kindWith reader).recoverKey t name passwords = .ok (some k) ∧
      (kindWith reader).chain t name = .ok (some (c.certificate :: rest)) ∧
      ∀ (settings : SignerSettings) (store : String) (u : World), settings.keyPassword = none →
        u.run (settings.fromEntry (kindWith reader) t store name passwords) =
          (if k.canSign then .ok ⟨some name, k, c.certificate :: rest⟩
            else .error (.store (.notAPrivateKey store name.shown k.typeName)), u) := by
  have hname : t.keyAlias = some name := eq_of_beq (Except.ok.inj isKey)
  have hne : passwords ≠ [] := by
    rintro rfl
    cases opened
  obtain ⟨data, read, hload⟩ := exists_read hne opened
  cases data with
  | none =>
    rw [loadFirst_none hne] at hload
    cases hload
    cases hname
  | some b =>
    obtain ⟨pfx, hopens, rfl⟩ := opensFirst_of_loadFirst foreign hload
    obtain ⟨k, c, hk, hc, hget⟩ := exists_of_keyAlias_made hname
    have hrecover := hopens.recoverKey rfl hname
    rw [hk] at hrecover
    have hchain : (kindWith reader).chain (made b pfx) name = .ok (some (c.certificate :: _)) :=
      congrArg Except.ok hget
    refine ⟨b, pfx, k, c, _, read, hopens, hk, hc, hrecover, hchain, ?_⟩
    intro settings store u unnamed
    have hrecovery : u.run (settings.recovery (kindWith reader) (made b pfx) store name passwords) =
        (.ok (some k), u) := by
      unfold SignerSettings.recovery SignerSettings.entryKey
      rw [unnamed, hrecover]
      rfl
    rw [SignerSettings.fromEntry_eq settings _ _ store name passwords isKey,
      World.run_bind_of_ok hrecovery, World.run_ofResult, SignerSettings.vouched, hchain]
    rfl

end General

section Samples
attribute [local instance] Platform.standard

/-- Passwords of which the third opens the file with two entries of one name. -/
def samplePasswords : List Bytes := ["a", "", "x", "b"].map Bytes.ofAscii

/-- Files with that file. -/
def sharedNameWorld : World := .ofFiles (.ofContents [(["store"], sharedNameFile)])

/-- The first two passwords neither open the store nor unlock its key, the third does both. -/
theorem sample_passwords_unlock :
    let kind := kindWith sharedNameReader
    let t := made sharedNameFile sharedName
    PfxReader.Foreign sharedNameReader ∧
    sharedNameWorld.run
        (kind.openFile (some (Path.ofText "store")) samplePasswords (holding none)) =
      (.ok (.ok (), t), sharedNameWorld) ∧
    kind.isKeyEntry t "a" = .ok true ∧
    ∃ (k : PrivateKey) (c : NamedCertificate) (rest : List Certificate), sharedName.key = some k ∧
      kind.recoverKey t "a" samplePasswords = .ok (some k) ∧
      kind.chain t "a" = .ok (some (c.certificate :: rest)) := by
  intro kind t
  have foreign : PfxReader.Foreign sharedNameReader := by
    intro b password
    unfold sharedNameReader
    split
    · exact .ok _
    · exact .error ⟨_, rfl⟩
  have read : (some (Path.ofText "store")).mapM sharedNameWorld.files.read =
      .ok (some sharedNameFile) := by
    decide +kernel
  have hload : kind.loadFirst (some sharedNameFile) samplePasswords (holding none) =
      (.ok (), t) := by
    decide +kernel
  have opened : sharedNameWorld.run
      (kind.openFile (some (Path.ofText "store")) samplePasswords (holding none)) =
        (.ok (.ok (), t), sharedNameWorld) := by
    rw [KeystoreKind.run_openFile read (by decide), hload]
  have isKey : kind.isKeyEntry t "a" = .ok true := by
    decide +kernel
  have hkey : kind.recoverKey t "a" samplePasswords = .ok sharedName.key := by
    decide +kernel
  obtain ⟨-, -, k, c, rest, -, -, -, -, hrecover, hchain, -⟩ :=
    passwords_that_open_unlock foreign opened isKey
  exact ⟨foreign, opened, isKey, k, c, rest, Except.ok.inj (hkey.symm.trans hrecover), hrecover,
    hchain⟩

end Samples
end PfxStore
end PackageSigning
