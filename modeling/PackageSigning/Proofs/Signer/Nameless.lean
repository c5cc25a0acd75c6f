import PackageSigning.Platform.Standard
import PackageSigning.Proofs.Keystore.OwnPassword
import PackageSigning.Proofs.Password.Asking
import PackageSigning.Proofs.Signer.InPlace

/-!
# Signers that go by no name

A document may give its entries as a series of pairs, and a pair may name its entry `null`. A store
with such an entry is loaded, and the entry is a key entry like others (`PemStore.Nameless`). A
signer that is loaded from there has a key and certificates, but no name, and nothing names its
signature files (`SignerSettings.sample_filled_without_name`).
-/

namespace PackageSigning

open JsonValue (Legible)

namespace PemStore

/-- The only entry of a store is a key with its certificates, and it is named by nothing. -/
def Nameless (formats : PemFormats) (text : String) (chain : List Certificate) (s : PemStore) :
    Prop :=
  s.entries = ⟨[(.null, keyEntry formats text chain)]⟩

/-- That entry, as a document may give it. -/
def namelessPairs (formats : PemFormats) (text : String) (chain : List Certificate) : JsonValue :=
  .list [.list [.null, keyEntry formats text chain]]

section General
variable [Platform] {formats : PemFormats} {text : String} {chain : List Certificate}
  {s : PemStore}

omit [Platform] in
theorem legible_namelessPairs (formats : PemFormats) (text : String) (chain : List Certificate)
    (depth : Nat) : Legible (depth + 4) (namelessPairs formats text chain) := by
  have hpair : Legible (depth + 3) (.list [.null, keyEntry formats text chain]) := by
    refine .list ?_
    simp only [List.forall_mem_cons]
    exact ⟨.null, legible_keyEntry formats text chain depth, nofun⟩
  exact .list (List.forall_mem_singleton.mpr hpair)

/-- A file with such an entry is loaded, if the platform reads five levels. -/
theorem exists_nameless_file (formats : PemFormats) (text : String) (chain : List Certificate)
    (deep : 5 ≤ Platform.nesting .read) (accepted : Accepts 1) (password : Bytes) :
    ∃ file, ∀ s : PemStore, ∃ t, Nameless formats text chain t ∧
      s.load (some file) (some password) = (.ok (), t) := by
  have shallow := (legible_namelessPairs formats text chain 0).depth_le
  obtain ⟨value, hvalue⟩ := StoreMac.exists_compute shallow password [] (Int.le_refl 1) accepted
  obtain ⟨more, hnesting⟩ := Nat.exists_eq_add_of_le' deep
  have legible : Legible (Platform.nesting .read)
      (StoreDocument.ofParts (namelessPairs formats text chain) ⟨[], 1, value⟩).document := by
    rw [hnesting]
    exact StoreDocument.legible_ofParts (legible_namelessPairs formats text chain more)
      (show (Nat.toDigits 10 1).length ≤ Text.maxDigits by decide)
  have haccept := StoreDocument.accept_fileOf legible (Int.le_refl 1) hvalue
  exact ⟨_, fun s => ⟨{ s with entries := ⟨[(.null, keyEntry formats text chain)]⟩ }, rfl,
    load_of_accept haccept s⟩⟩

theorem Nameless.sight (h : Nameless formats text chain s) :
    s.sight formats .null = .ofKey formats .null text chain := by
  refine sight_keyEntry ?_
  rw [h]
  rfl

theorem Nameless.onlyKeyAlias (h : Nameless formats text chain s) (store : String) :
    (kind formats).onlyKeyAlias s store = .ok .null := by
  have hnames : (kind formats).aliases s = [.null] := by
    show s.entries.keys = _
    rw [h]
    rfl
  have hkey : (kind formats).isKeyEntry s .null = .ok true := congrArg Sight.isKeyEntry h.sight
  have hkeys : [EntryName.null].filterM ((kind formats).isKeyEntry s) = .ok [.null] := by
    show ((kind formats).isKeyEntry s .null >>= _) >>= _ = _
    rw [hkey]
    rfl
  unfold KeystoreKind.onlyKeyAlias
  rw [hnames, hkeys]
  rfl

end General
end PemStore

namespace SignerSettings
open PackageSigning.Action

section General
variable [Platform] {s : SignerSettings} {w v : World} {σ : Type} {kind : KeystoreKind σ}
  {state : σ} {store : String} {entry : EntryName} {password : Bytes} {key : PrivateKey}
  {certificates : List Certificate}

/-- Filling in comes to what is found, if something is. -/
theorem run_fill_of_source {services : Services} {found : LoadedSigner}
    (h : w.run (s.source services) = (.ok found, v)) :
    w.run ((fill services).run.run s) = (.ok (.ok (), s.completed found), v) := by
  have hload : w.run (s.load services) = (.ok (s.completed found), v) := by
    unfold load
    rw [World.run_bind, World.run_tryCatch, h]
    rfl
  rw [run_fill, hload]

/-- A store that the only password opens gives its only key entry. -/
theorem run_fromKind_of_opened {data : Option Bytes} (unnamed : s.keystoreAlias = none)
    (asked : w.run (s.passwords (specOrInput s.keystorePassword)
      s!"Keystore password for {s.callName}") = (.ok [password], v))
    (read : (storePath store).mapM v.files.read = .ok data)
    (opens : kind.load data (some password) kind.fresh = (.ok (), state))
    (only : kind.onlyKeyAlias state store = .ok entry) :
    w.run (s.fromKind kind store) = v.run (s.fromEntry kind state store entry [password]) := by
  have hopen : v.run (kind.openFile (storePath store) [password] kind.fresh) =
      (.ok (.ok (), state), v) := by
    have hload : kind.loadFirst data [password] kind.fresh = (.ok (), state) := opens
    rw [KeystoreKind.run_openFile read (List.cons_ne_nil _ _), hload]
  unfold fromKind
  rw [World.run_bind_of_ok asked]
  refine (World.run_bind_of_ok hopen).trans ?_
  dsimp only
  rw [World.run_ofResult_bind rfl, unnamed]
  exact World.run_ofResult_bind only

/-- A key entry that the only password unlocks gives its key and its certificates. -/
theorem run_fromEntry_of_unlocked (unnamed : s.keyPassword = none)
    (isKey : kind.isKeyEntry state entry = .ok true)
    (unlocks : kind.key state entry (some password) = .ok (some key)) (signs : key.canSign = true)
    (vouches : kind.chain state entry = .ok (some certificates)) (certified : certificates ≠ []) :
    w.run (s.fromEntry kind state store entry [password]) =
      (.ok ⟨some entry, key, certificates⟩, w) := by
  have hrecover : kind.recoverKey state entry [password] = .ok (some key) := unlocks
  have hrecovery : w.run (s.recovery kind state store entry [password]) = (.ok (some key), w) := by
    unfold recovery entryKey
    rw [unnamed, World.run_tryCatch]
    dsimp only
    rw [hrecover]
    rfl
  have hvouched : vouched kind state store entry (some key) = .ok ⟨some entry, key, certificates⟩ := by
    obtain ⟨c, rest, rfl⟩ := List.exists_cons_of_ne_nil certified
    unfold vouched
    dsimp only
    rw [if_pos signs, vouches]
    rfl
  rw [fromEntry_eq s kind state store entry [password] isKey, World.run_bind_of_ok hrecovery,
    World.run_ofResult, hvouched]

end General

section Samples
attribute [local instance] Platform.standard

/-- A signer in a store. -/
def namelessSettings : SignerSettings :=
  { keystoreFile := some "store", keystoreType := some "PEMKS", keystorePassword := some "pass:x" }

theorem run_namelessPasswords (files : Files) (label : String) : ∃ v, (World.ofFiles files).run
    (namelessSettings.passwords (specOrInput namelessSettings.keystorePassword) label) =
      (.ok [[120]], v) := by
  have hnamed : specOrInput namelessSettings.keystorePassword = "pass:x" := by decide +kernel
  have hspec : PasswordSource.ofSpec? "pass:x" = some (.literal "x") := by decide +kernel
  have hnative : Text.Encoding.named "utf-8" = .ok .utf8 := by decide +kernel
  have hlines : ((World.ofFiles files).run (Password.lines "pass:x" label)).1 = .ok ["x"] := by
    unfold Password.lines
    rw [hspec]
    rfl
  have hencodings : Password.encodings (World.ofFiles files) [] = .ok [.utf8] := by
    show (Text.Encoding.named "utf-8" >>= _) = _
    rw [hnative]
    rfl
  have hcandidates : ((World.ofFiles files).run (Password.candidates "pass:x" label
      namelessSettings.extraEncodings)).1 = Candidate.all [.utf8] ["x"] := by
    rw [Password.run_candidates_fst, hlines]
    show (Password.encodings (World.ofFiles files) [] >>= _) = _
    rw [hencodings]
    rfl
  have hvalues : (do
      let candidates ← Candidate.all [.utf8] ["x"]
      return candidates.map (·.value)) = Except.ok [[120]] := by
    decide +kernel
  rw [hnamed, run_passwords, hcandidates, hvalues]
  exact ⟨_, rfl⟩

/-- A signer that is filled in may have no name, and nothing names its signature files then. -/
theorem sample_filled_without_name : ¬∀ (s : SignerSettings) (services : Services) (w : World)
    (s' : SignerSettings), (w.run ((fill services).run.run s)).1 = .ok (.ok (), s') →
    ∃ name, s'.v1Basename = .ok name := by
  intro h
  obtain ⟨file, hfile⟩ := PemStore.exists_nameless_file (.standard .silent)
    (Bytes.toLatin (Pem.armour KeyArmour.plainLabel (KeyWriting.privateKey PemStore.sampleKey)))
    [Sample.older.certificate] (show 5 ≤ 980 by decide) rfl [120]
  obtain ⟨t, hnameless, hload⟩ := hfile (PemStore.kind (.standard .silent)).fresh
  let w := World.ofFiles (.ofContents [(["store"], file)])
  let services : Services := ⟨.builtIn, .standard⟩
  let kind := PemStore.kind (.standard .silent)
  obtain ⟨v, hasked⟩ := run_namelessPasswords (.ofContents [(["store"], file)])
    s!"Keystore password for {namelessSettings.callName}"
  have hfiles : v.files = w.files :=
    (World.alike_of_run (passwords_gathering namelessSettings _ _) hasked).files
  have hread : (storePath "store").mapM v.files.read = .ok (some file) := by
    rw [hfiles]
    rfl
  -- The store gives its only entry, and the entry its key and its certificates.
  have hkey : kind.key t .null (some [120]) = .ok (some PemStore.sampleKey) := by
    rw [PemStore.key_eq_unlock PemStore.sampleKey_kept.ascii hnameless.sight,
      PemStore.unlock_plain PemStore.sampleKey_kept rfl, PemStore.sampleKey_unmarked]
    rfl
  have hchain : kind.chain t .null = .ok (some [Sample.older.certificate]) :=
    (congrArg PemStore.Sight.chain hnameless.sight).trans
      (PemStore.ofKey_chain PemStore.sampleChain_kept _ _)
  have hkind : w.run (namelessSettings.fromKind kind "store") =
      (.ok ⟨some .null, PemStore.sampleKey, [Sample.older.certificate]⟩, v) := by
    rw [run_fromKind_of_opened rfl hasked hread hload (hnameless.onlyKeyAlias "store")]
    exact run_fromEntry_of_unlocked rfl (congrArg PemStore.Sight.isKeyEntry hnameless.sight) hkey rfl
      hchain (List.cons_ne_nil _ _)
  have htype : namelessSettings.storeType services = .ok .pem := by decide +kernel
  have hsource : w.run (namelessSettings.source services) =
      (.ok ⟨some .null, PemStore.sampleKey, [Sample.older.certificate]⟩, v) := by
    show w.run (namelessSettings.fromStore services "store") = _
    unfold fromStore
    rw [World.run_ofResult_bind htype]
    exact hkind
  obtain ⟨name, hname⟩ := h namelessSettings services w _
    (congrArg Prod.fst (run_fill_of_source hsource))
  cases hname

end Samples
end SignerSettings
end PackageSigning
