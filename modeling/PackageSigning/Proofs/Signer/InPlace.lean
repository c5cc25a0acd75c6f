import PackageSigning.Platform.Standard
import PackageSigning.Proofs.Command.Lineage
import PackageSigning.Proofs.Failure.Actions
import PackageSigning.Proofs.Keystore.Opening
import PackageSigning.Proofs.Signer.Recovery

/-!
# Loading a signer wholly or not at all

Settings that are shared are filled in one after the other while a signer is being loaded
(`SignerSettings.fill`): the entry of the keystore, the key, the certificates and the name.
Nevertheless nobody sees them half filled (`SignerSettings.fills_wholly_or_not_at_all`). They
are what they were if anything goes wrong, and otherwise all that is done with a loaded signer
can be done (`SignerSettings.Filled`), but for one thing: a document may name an entry `null`, and
a signer from there goes by no name (`SignerSettings.sample_filled_without_name`).
-/

namespace PackageSigning

open PackageSigning.Action

/-! ## Keys from factories -/

theorem PrivateKey.canSign_iff {key : PrivateKey} : key.canSign = true ↔
    (∃ k, key = .rsa k) ∨ (∃ curve scalar, key = .ec curve scalar) ∨
      ∃ group secret, key = .dsa group secret := by
  cases key <;> simp [PrivateKey.canSign]

/-- Factories make keys of their own kind only, and those can sign. -/
theorem KeyFactory.canSign_of_decode {f : KeyFactory} {b : Bytes} {key : PrivateKey}
    (h : f.decode b = .ok key) : key.canSign = true := by
  unfold decode at h
  split at h
  · cases h
  · split at h
    · cases h
    · split at h
      · cases h
      · split at h
        · next hmakes =>
          cases h
          cases f <;> cases key <;> first | rfl | cases hmakes
        · cases h

theorem KeyFactory.canSign_of_decodeFirst {lookups : List (Except Fault KeyFactory)} {b : Bytes}
    {key : PrivateKey} (h : (decodeFirst lookups b).1 = .ok key) : key.canSign = true := by
  induction lookups with
  | nil => cases h
  | cons lookup rest ih =>
    cases lookup with
    | error fault => cases h
    | ok f =>
      unfold decodeFirst at h
      split at h
      · next key' hkey =>
        cases h
        exact canSign_of_decode hkey
      · exact ih h
      · cases h

/-- What is needed of a signer to sign with it. -/
structure LoadedSigner.Usable (found : LoadedSigner) : Prop where
  canSign : found.key.canSign = true
  certified : found.certificates ≠ []

namespace SignerSettings

/-- Steps that change the settings of a signer, each of which may fail. -/
abbrev Filling (α : Type) := ExceptT Fault (StateT SignerSettings Action) α

/-- A step that does not change the settings. -/
def Filling.act {α : Type} (x : Action α) : Filling α := ExceptT.mk (StateT.lift (attempt x))

/-- Finds the key and the certificates that the settings lead to, and puts the entry of the
keystore into them. -/
def find [Platform] (services : Services) : Filling LoadedSigner := do
  let s ← get
  let found ← Filling.act (s.source services)
  if let some entry := found.keystoreAlias then
    modify fun s => { s with keystoreAlias := entry.kept? }
  return found

/-- Loads the key and the certificates of a signer, putting what is found into its settings
as it comes. -/
def fill [Platform] (services : Services) : Filling Unit := do
  let signer := (← get).callName
  let found ← tryCatch (find services) fun fault => throw (nameRefused signer fault)
  modify fun s => { s with key := some found.key }
  modify fun s => { s with certificates := some found.certificates }
  modify fun s => { s with name := s.keyName }

section General
variable [Platform] {s s' : SignerSettings} {services : Services} {w v : World} {found : LoadedSigner}

theorem run_find (s : SignerSettings) (services : Services) (w : World) :
    w.run ((find services).run.run s) = match w.run (s.source services) with
      | (.ok found, v) => (.ok (.ok found, { s with
          keystoreAlias := (found.keystoreAlias.map EntryName.kept?).getD s.keystoreAlias }), v)
      | (.error fault, v) => (.ok (.error fault, s), v) := by
  show w.run ((attempt (s.source services) >>= _) >>= _) = _
  rw [World.run_bind, World.run_bind, World.run_attempt]
  obtain ⟨result, v⟩ := w.run (s.source services)
  cases result with
  | error fault => rfl
  | ok found =>
    obtain ⟨entry, key, certificates⟩ := found
    cases entry <;> rfl

/-- Filling settings in comes to loading the signer, but that settings are left in any case: the
loaded ones, or those from before. -/
theorem run_fill (s : SignerSettings) (services : Services) (w : World) :
    w.run ((fill services).run.run s) = match w.run (s.load services) with
      | (.ok s', v) => (.ok (.ok (), s'), v)
      | (.error fault, v) => (.ok (.error fault, s), v) := by
  have hload : w.run (s.load services) = _ := World.run_bind w _ _
  rw [hload, World.run_tryCatch]
  show w.run (((find services).run.run s >>= _) >>= _) = _
  rw [World.run_bind, World.run_bind, run_find]
  obtain ⟨result, v⟩ := w.run (s.source services)
  cases result <;> rfl

/-! ## What is found -/

theorem canSign_of_fileKey {file : String} {key : PrivateKey}
    (h : (w.run (s.fileKey services file)).1 = .ok key) : key.canSign = true := by
  obtain ⟨_, _, -, h⟩ := World.run_bind_eq_ok.mp h
  obtain ⟨_, _, -, h⟩ := World.run_bind_eq_ok.mp h
  obtain ⟨plain, _, -, h⟩ := World.run_bind_eq_ok.mp h
  rw [World.run_ofResult] at h
  cases hkey : (services.registry.decodeKey plain).1 with
  | error fault =>
    rw [hkey] at h
    cases h
  | ok decoded =>
    rw [hkey] at h
    cases h
    exact KeyFactory.canSign_of_decodeFirst hkey

theorem usable_of_fromFiles {file : String} (h : (w.run (s.fromFiles services file)).1 = .ok found) :
    found.keystoreAlias = none ∧ found.Usable := by
  unfold fromFiles at h
  split at h
  · cases h
  · obtain ⟨key, v, hkey, h⟩ := World.run_bind_eq_ok.mp h
    obtain ⟨_, _, -, h⟩ := World.run_bind_eq_ok.mp h
    obtain ⟨certificates, _, -, h⟩ := World.run_bind_eq_ok.mp h
    split at h
    · cases h
    · next hne =>
      cases h
      exact ⟨rfl, canSign_of_fileKey (congrArg Prod.fst hkey), by simpa using hne⟩

section Kind
variable {σ : Type} {kind : KeystoreKind σ} {state : σ} {store : String} {entry : EntryName}
  {passwords : List Bytes}

omit [Platform] in
theorem usable_of_vouched {key? : Option PrivateKey}
    (h : vouched kind state store entry key? = .ok found) :
    found.keystoreAlias = some entry ∧ found.Usable := by
  unfold vouched at h
  split at h
  · cases h
  · split at h
    · next hsigns =>
      obtain ⟨chain, -, h⟩ := bind_eq_ok.mp h
      split at h
      · cases h
      · cases h
      · next hne =>
        cases h
        exact ⟨rfl, hsigns, hne⟩
    · cases h

/-- A signer comes from a key entry only. -/
theorem usable_of_fromEntry
    (h : (w.run (s.fromEntry kind state store entry passwords)).1 = .ok found) :
    kind.isKeyEntry state entry = .ok true ∧ found.keystoreAlias = some entry ∧ found.Usable := by
  cases hkey : kind.isKeyEntry state entry with
  | error fault =>
    unfold fromEntry at h
    rw [hkey] at h
    cases h
  | ok isKey =>
    cases isKey with
    | false =>
      unfold fromEntry at h
      rw [hkey] at h
      cases h
    | true =>
      rw [fromEntry_eq s kind state store entry passwords hkey] at h
      obtain ⟨key?, _, -, h⟩ := World.run_bind_eq_ok.mp h
      rw [World.run_ofResult] at h
      exact ⟨rfl, usable_of_vouched h⟩

omit [Platform] in
theorem read_of_contentsOf {path : Path} {b : Bytes} (h : (w.run (contentsOf path)).1 = .ok b) :
    w.files.read path = .ok b := by
  change (w.run (ofFile (w.files.read path))).1 = _ at h
  cases hread : w.files.read path with
  | ok c =>
    rw [hread] at h
    cases h
    rfl
  | error fault =>
    rw [hread] at h
    cases h

omit [Platform] in
/-- A store that has been opened was opened over what its file holds. -/
theorem opened_of_openFile {path? : Option Path} {s t : σ}
    (h : (w.run (kind.openFile path? passwords s)).1 = .ok (.ok (), t)) :
    ∃ data, path?.mapM w.files.read = .ok data ∧ kind.loadFirst data passwords s = (.ok (), t) := by
  unfold KeystoreKind.openFile at h
  split at h
  · cases h
  · obtain ⟨data, v, hdata, h⟩ := World.run_bind_eq_ok.mp h
    refine ⟨data, ?_, Except.ok.inj h⟩
    cases path? with
    | none =>
      cases hdata
      rfl
    | some path =>
      obtain ⟨b, u, hb, hdata⟩ := World.run_bind_eq_ok.mp (congrArg Prod.fst hdata)
      cases hdata
      rw [Option.mapM_some, read_of_contentsOf (congrArg Prod.fst hb)]
      rfl

/-- The file of a store, unless it is a store without one. -/
def storePath (store : String) : Option Path :=
  if store = noFile then none else some (Path.ofText store)

/-- An entry is a key entry of a store that was opened, with some passwords, over what its file
holds. -/
def IsKeyOf (w : World) (kind : KeystoreKind σ) (store : String) (entry : EntryName) : Prop :=
  ∃ data passwords state, (storePath store).mapM w.files.read = .ok data ∧
    kind.loadFirst data passwords kind.fresh = (.ok (), state) ∧
    kind.isKeyEntry state entry = .ok true

theorem usable_of_fromKind (h : (w.run (s.fromKind kind store)).1 = .ok found) :
    ∃ entry, IsKeyOf w kind store entry ∧ (∀ named, s.keystoreAlias = some named → entry = named) ∧
      found.keystoreAlias = some entry ∧ found.Usable := by
  obtain ⟨passwords, v, hpasswords, h⟩ := World.run_bind_eq_ok.mp h
  have hv : v.files = w.files :=
    (World.alike_of_run (passwords_gathering s _ _) hpasswords).files
  obtain ⟨⟨result, state⟩, u, hopen, h⟩ := World.run_bind_eq_ok.mp h
  obtain ⟨_, u', hresult, hrest⟩ := World.run_bind_eq_ok.mp h
  rw [World.run_ofResult] at hresult
  obtain rfl : result = .ok () := congrArg Prod.fst hresult
  obtain ⟨data, hdata, hload⟩ := opened_of_openFile (congrArg Prod.fst hopen)
  rw [hv] at hdata
  have hentry (entry : EntryName)
      (h : (u'.run (s.fromEntry kind state store entry passwords)).1 = .ok found) :
      IsKeyOf w kind store entry ∧ found.keystoreAlias = some entry ∧ found.Usable := by
    obtain ⟨hkey, hfound⟩ := usable_of_fromEntry h
    exact ⟨⟨data, passwords, state, hdata, hload, hkey⟩, hfound⟩
  dsimp only at hrest
  split at hrest
  · next entry hnamed =>
    obtain ⟨hkey, hfound⟩ := hentry entry hrest
    exact ⟨entry, hkey, fun named h => Option.some.inj (hnamed.symm.trans h), hfound⟩
  · next hunnamed =>
    obtain ⟨entry, -, hrest⟩ := World.run_ofResult_bind_eq_ok.mp hrest
    obtain ⟨hkey, hfound⟩ := hentry entry hrest
    exact ⟨entry, hkey, fun named h => absurd (hunnamed.symm.trans h) nofun, hfound⟩

end Kind

/-- What a signer in a keystore comes from. -/
theorem usable_of_fromStore {store : String}
    (h : (w.run (s.fromStore services store)).1 = .ok found) :
    ∃ type entry, s.storeType services = .ok type ∧
      IsKeyOf w (type.kindWith Pfx.read (.standard .silent)) store entry ∧
      (∀ named, s.keystoreAlias = some named → entry = named) ∧
      found.keystoreAlias = some entry ∧ found.Usable := by
  rw [fromStore_eq] at h
  obtain ⟨type, htype, h⟩ := World.run_ofResult_bind_eq_ok.mp h
  obtain ⟨entry, hentry⟩ := usable_of_fromKind h
  exact ⟨type, entry, htype, hentry⟩

/-! ## What is left in the settings -/

/-- Settings that have been filled in: they differ from those before in the key, the
certificates, the name and the entry only, the last only for a keystore, and they will do for
everything that is done with a loaded signer. Only an entry that is named `null` leaves the signer
without a name, and then nothing names its signature files, unless that was done before. -/
structure Filled (s : SignerSettings) (services : Services) (w : World) (s' : SignerSettings) :
    Prop where
  others : s' = { s with
    key := s'.key, certificates := s'.certificates, name := s'.name,
    keystoreAlias := s'.keystoreAlias }
  fromFiles : s.keystoreFile = none → s'.keystoreAlias = s.keystoreAlias
  fromStore : ∀ store, s.keystoreFile = some store → ∃ type entry,
    s.storeType services = .ok type ∧
    IsKeyOf w (type.kindWith Pfx.read (.standard .silent)) store entry ∧
    s'.keystoreAlias = entry.kept? ∧ s'.name = entry.kept?
  /-- An entry that was named is the one that is taken. -/
  entry : ∀ store named, s.keystoreFile = some store → s.keystoreAlias = some named →
    s'.keystoreAlias = named.kept?
  name : s'.name = s'.keyName
  key : ∃ key, s'.key = some key ∧ ((∃ k, key = .rsa k) ∨
    (∃ curve scalar, key = .ec curve scalar) ∨ ∃ group secret, key = .dsa group secret)
  certificates : ∃ first rest, s'.certificates = some (first :: rest)
  named : s.keystoreFile = none → s'.name ≠ none
  v1Basename : (∃ name, s'.v1Basename = .ok name) ↔ s.v1Name ≠ none ∨ s'.name ≠ none
  lineageSigner : ∀ name, ∃ signer, s'.lineageSigner name = .ok signer

omit [Platform] in
theorem exists_v1Basename_iff :
    (∃ name, s.v1Basename = .ok name) ↔ s.v1Name ≠ none ∨ s.keyName ≠ none := by
  unfold v1Basename
  cases s.v1Name with
  | some given => simp
  | none => cases s.keyName <;> simp

/-- A signer from a keystore, or from a key file, that can be used fills settings in. -/
theorem filled_of_usable (usable : found.Usable)
    (fromFiles : s.keystoreFile = none → found.keystoreAlias = none ∧ ∃ file, s.keyFile = some file)
    (fromStore : ∀ store, s.keystoreFile = some store → s.keyFile = none ∧ ∃ type entry,
      s.storeType services = .ok type ∧
      IsKeyOf w (type.kindWith Pfx.read (.standard .silent)) store entry ∧
      (∀ named, s.keystoreAlias = some named → entry = named) ∧
      found.keystoreAlias = some entry) :
    s.Filled services w (s.completed found) := by
  obtain ⟨alias?, key, certificates⟩ := found
  obtain ⟨first, rest, rfl⟩ := List.exists_cons_of_ne_nil usable.certified
  constructor
  case others => rfl
  case fromFiles =>
    intro hnone
    obtain ⟨rfl, -⟩ := fromFiles hnone
    rfl
  case fromStore =>
    intro store hstore
    obtain ⟨hfile, type, entry, htype, hkey, -, rfl⟩ := fromStore store hstore
    refine ⟨type, entry, htype, hkey, rfl, ?_⟩
    show (entry.kept?.orElse fun _ => s.keyFile.map _) = entry.kept?
    rw [hfile]
    cases entry.kept? <;> rfl
  case entry =>
    intro store named hstore hnamed
    obtain ⟨-, _, entry, -, -, hentry, rfl⟩ := fromStore store hstore
    exact congrArg EntryName.kept? (hentry named hnamed)
  case name => rfl
  case key => exact ⟨key, rfl, PrivateKey.canSign_iff.mp usable.canSign⟩
  case certificates => exact ⟨first, rest, rfl⟩
  case named =>
    intro hnone
    obtain ⟨rfl, file, hfile⟩ := fromFiles hnone
    show (s.keystoreAlias.orElse fun _ => s.keyFile.map _) ≠ none
    rw [hfile]
    cases s.keystoreAlias <;> nofun
  case v1Basename => exact exists_v1Basename_iff
  case lineageSigner => exact fun _ => ⟨_, rfl⟩

theorem filled_of_source (h : (w.run (s.source services)).1 = .ok found) :
    s.Filled services w (s.completed found) := by
  unfold source at h
  split at h
  · next store hstore hnone =>
    split at h
    · cases h
    · obtain ⟨type, entry, htype, hkey, hnamed, hentry, husable⟩ := usable_of_fromStore h
      refine filled_of_usable husable (fun hfiles => ?_) fun store' hstore' => ?_
      · cases hstore.symm.trans hfiles
      · cases hstore.symm.trans hstore'
        exact ⟨hnone, type, entry, htype, hkey, hnamed, hentry⟩
  · cases h
  · next file hnone hfile =>
    obtain ⟨hentry, husable⟩ := usable_of_fromFiles h
    refine filled_of_usable husable (fun _ => ⟨hentry, file, hfile⟩) fun store hstore => ?_
    cases hnone.symm.trans hstore
  · cases h

/-- Whatever the settings are, an earlier loading included, loading a signer either fills in all
that is to be filled in or leaves the settings as they are. -/
theorem fills_wholly_or_not_at_all (s : SignerSettings) (services : Services) (w : World) :
    ∃ result s', (w.run ((fill services).run.run s)).1 = .ok (result, s') ∧
      (w.run (s.load services)).1 = result.map (fun _ => s') ∧
      ((∃ fault, result = .error fault) → s' = s) ∧
      (result = .ok () → s.Filled services w s') := by
  rw [run_fill]
  have hload : w.run (s.load services) = _ := World.run_bind w _ _
  rw [hload, World.run_tryCatch]
  have hsource (found : LoadedSigner) (h : (w.run (s.source services)).1 = .ok found) :
      s.Filled services w (s.completed found) := filled_of_source h
  generalize w.run (s.source services) = outcome at hsource
  obtain ⟨result, v⟩ := outcome
  cases result with
  | ok found => exact ⟨.ok (), s.completed found, rfl, rfl, nofun, fun _ => hsource found rfl⟩
  | error fault => exact ⟨.error _, s, rfl, rfl, fun _ => rfl, nofun⟩

end General

section Samples
attribute [local instance] Platform.standard

/-- A signer from files is called by its key file from then on, and one whose certificate file is
missing keeps its settings. -/
example :
    let fills (s : SignerSettings) := (LineageCommand.sampleWorld.run
      ((fill LineageCommand.sampleEquipment.services).run.run s)).1.map fun (result, s') =>
        (result.isOk, s'.shownName, s'.key.isSome)
    let s := LineageCommand.sampleSettings true
    fills s = .ok (true, "key", true) ∧
      fills { s with certificateFile := some "none" } = .ok (false, "None", false) := by
  decide +kernel

end Samples
end SignerSettings
end PackageSigning
