import PackageSigning.Proofs.Failure.Passwords
import PackageSigning.Proofs.Failure.Stores
import PackageSigning.Platform.Standard

/-!
# Signers that do not load

Whatever keeps a signer from loading is to be reported together with its name. It is, but for
the mishaps and the unusable paths that `SignerSettings.Escapes` lists, each with what in the
settings, in the files or in the input it comes from. Among them are the derivations of keys that
the platform refuses, and the data that is nested too deep for it.
-/

namespace PackageSigning

open PackageSigning.Action

section General
variable [Platform]

namespace SignerSettings

/-- The paths that the settings name. -/
def paths (s : SignerSettings) : List String :=
  (s.keystoreFile.filter (· != noFile)).toList ++ s.keyFile.toList ++ s.certificateFile.toList ++
    (s.keystorePassword.toList ++ s.keyPassword.toList).filterMap Password.path?

/-- What keeps a signer from loading and is not reported with its name, with what it comes
from. -/
inductive Escapes (s : SignerSettings) (services : Services) (w : World) : Fault → Prop
  /-- A path with a zero character in it. -/
  | path {path : String} (named : path ∈ s.paths)
      (unusable : (Path.ofText path).isUnusable = true) :
      Escapes s services w (.file .unusablePath)
  /-- A provider class in a module that is named relative to another one, or a provider class that
  gets into trouble of its own. -/
  | providerClass {name : String} {m : Mishap} (named : s.providerClass = some name)
      (troubled : services.catalogue.make name s.providerArgument = .error (.mishap m)) :
      Escapes s services w (.mishap m)
  /-- A line of input that is lost. -/
  | input {m : Mishap} (lost : .error m ∈ w.inputLines) : Escapes s services w (.mishap m)
  /-- The encoding that the platform prefers, if there is none of that name or it fails in a way of
  its own. -/
  | nativeEncoding {m : Mishap}
      (balks : Text.Encoding.Balks (Text.Encoding.named w.native) m) :
      Escapes s services w (.mishap m)
  /-- A password file that this encoding fails to read in a way of its own. -/
  | passwordFile {path : String} {m : Mishap} (named : path ∈ s.paths)
      (misread : Password.Misread w path m) : Escapes s services w (.mishap m)
  /-- An encoding that the user wants tried, if its name cannot be one or it fails in a way of its
  own. -/
  | extraEncoding {name : String} {m : Mishap} (named : name ∈ s.extraEncodings)
      (balks : Text.Encoding.Balks (Password.encodingNamed name) m) :
      Escapes s services w (.mishap m)
  /-- An encrypted key with parameters that are nested too deep. -/
  | nestedKey {file : String} {contents b : Bytes} (named : s.keyFile = some file)
      (read : w.files.read (Path.ofText file) = .ok contents)
      (unarmored : Pem.unarmor contents = .ok b)
      (key : EncryptedKey.ofBytes b = .error (.mishap .tooDeep)) :
      Escapes s services w (.mishap .tooDeep)
  /-- An encrypted key whose parameters cannot be worked with. -/
  | encryptedKey {file : String} {contents b : Bytes} {k : EncryptedKey} {password : Bytes}
      {m : Mishap} (named : s.keyFile = some file)
      (read : w.files.read (Path.ofText file) = .ok contents)
      (unarmored : Pem.unarmor contents = .ok b) (key : EncryptedKey.ofBytes b = .ok k)
      (decrypt : k.decrypt password = .error (.mishap m))
      (hm : m ∈ EncryptedKey.mishaps ∨ ∃ request, Platform.refusal request = some m) :
      Escapes s services w (.mishap m)
  /-- A file of certificates with one of an unknown version, or a bag of something else. -/
  | certificates {file : String} {b : Bytes} {m : Mishap} (named : s.certificateFile = some file)
      (read : w.files.read (Path.ofText file) = .ok b)
      (certificates : CertificateBundle.read b = .error (.mishap m))
      (hm : m ∈ CertificateBundle.mishaps) : Escapes s services w (.mishap m)
  /-- A store of one key with a certificate of an unknown version, a key on an unknown curve, an
  issuer that cannot be read, or numbers that no key is derived with. -/
  | pfxStore {store : String} {b : Bytes} {m : Mishap} (named : s.keystoreFile = some store)
      (type : s.storeType services = .ok .pkcs12)
      (read : w.files.read (Path.ofText store) = .ok b)
      (faults : PfxStore.kind.Faults (some b) (.mishap m))
      (hm : m ∈ PfxStore.mishaps ∨ ∃ request, Platform.refusal request = some m) :
      Escapes s services w (.mishap m)
  /-- A store of PEM texts whose numbers or entries cannot be worked with. -/
  | pemStore {store : String} {b : Bytes} {m : Mishap} (named : s.keystoreFile = some store)
      (type : s.storeType services = .ok .pem) (read : w.files.read (Path.ofText store) = .ok b)
      (faults : (PemStore.kind (.standard .silent)).Faults (some b) (.mishap m))
      (hm : m ∈ StoreDocument.mishaps ++ PemStore.mishaps ∨
        ∃ request, Platform.refusal request = some m) : Escapes s services w (.mishap m)

/-- What keeps a signer from loading: a fault that is reported with its name, or one that
escapes. -/
inductive Obstacle (s : SignerSettings) (services : Services) (w : World) (fault : Fault) : Prop
  | explained (h : explainsRefusal fault = true)
  | escapes (h : s.Escapes services w fault)

variable {s : SignerSettings} {services : Services} {w : World}

omit [Platform] in
theorem explainsRefusal_of_own {fault : Fault} (h : fault.isOwn = true) :
    explainsRefusal fault = true := by
  cases fault <;> first | exact h | cases h

theorem Obstacle.own {fault : Fault} (h : fault.isOwn = true) : s.Obstacle services w fault :=
  .explained (explainsRefusal_of_own h)

/-- A file that cannot be read keeps a signer from loading. -/
theorem Obstacle.file {path : String} {fault : FileFault} (named : path ∈ s.paths)
    (h : w.files.read (Path.ofText path) = .error fault) : s.Obstacle services w (.file fault) := by
  obtain hsystem | ⟨rfl, unusable⟩ := Files.refusal_of_read h
  · exact .explained hsystem
  · exact .escapes (.path named unusable)

/-- What escapes is neither a fault of the tool nor one of the file system. -/
theorem Escapes.not_explains {fault : Fault} (h : s.Escapes services w fault) :
    ¬explainsRefusal fault = true := by
  cases h <;> nofun

/-! ## Passwords -/

omit [Platform] in
theorem mem_paths_of_spec {spec path : String}
    (hspec : spec ∈ s.keystorePassword.toList ++ s.keyPassword.toList)
    (hpath : Password.path? spec = some path) : path ∈ s.paths :=
  List.mem_append_right _ (List.mem_filterMap.mpr ⟨spec, hspec, hpath⟩)

omit [Platform] in
theorem mem_paths_of_specOrInput {spec? : Option String} {path : String}
    (hspec : ∀ spec ∈ spec?, spec ∈ s.keystorePassword.toList ++ s.keyPassword.toList)
    (hpath : Password.path? (specOrInput spec?) = some path) : path ∈ s.paths := by
  unfold specOrInput at hpath
  cases hgiven : spec?.filter (!·.isEmpty) with
  | none =>
    rw [hgiven] at hpath
    cases hpath
  | some spec =>
    rw [hgiven] at hpath
    exact mem_paths_of_spec (hspec spec (Option.mem_filter_iff.mp hgiven).1) hpath

/-- What asking for passwords comes to, when they can be handed out and nobody types them. -/
theorem passwords_fails (isOpen : w.vault.isOpen = true) (noTerminal : w.isTerminal = false)
    {spec label : String} (named : ∀ path, Password.path? spec = some path → path ∈ s.paths) :
    w.FailsOnly (s.Obstacle services w) (s.passwords spec label) := by
  refine .bind (Password.candidates_gathering spec label _) (Password.candidates_fails isOpen
    noTerminal (fun _ => .own) ?_ ?_ ?_ ?_ ?_) fun _ => .pure _
  · exact fun m lost => .escapes (.input lost)
  · exact fun path hpath unusable => .escapes (.path (named path hpath) unusable)
  · exact fun m balks => .escapes (.nativeEncoding balks)
  · exact fun path hpath m misread => .escapes (.passwordFile (named path hpath) misread)
  · exact fun name hname m balks => .escapes (.extraEncoding hname balks)

/-! ## Keystores -/

section Kind
variable {σ : Type} {kind : KeystoreKind σ} {data : Option Bytes} {state : σ}

theorem entryKey_fails (isOpen : w.vault.isOpen = true) (noTerminal : w.isTerminal = false)
    (opened : kind.Opened data state)
    (faults : ∀ fault, kind.Faults data fault → s.Obstacle services w fault) (entry : EntryName)
    (passwords : List Bytes) :
    w.FailsOnly (s.Obstacle services w) (s.entryKey kind state entry passwords) := by
  have hrecover (passwords : List Bytes) :
      FailsOnly (s.Obstacle services w) (kind.recoverKey state entry passwords) :=
    (KeystoreKind.recoverKey_fails opened entry passwords).mono fun fault =>
      Or.rec .own (faults fault)
  unfold entryKey
  dsimp only
  split
  · next spec hspec =>
    refine .bind (passwords_gathering s _ _) (passwords_fails isOpen noTerminal fun path hpath =>
      mem_paths_of_spec ?_ hpath) fun _ => .ofResult (hrecover _)
    rw [hspec]
    exact List.mem_append_right _ List.mem_cons_self
  · split
    · exact .bind (passwords_gathering s _ _) (passwords_fails isOpen noTerminal nofun) fun _ =>
        .ofResult (hrecover _)
    · exact .ofResult (hrecover _)

theorem Obstacle.nameLocked {fault : Fault} (h : s.Obstacle services w fault)
    (store entry : String) :
    s.Obstacle services w (SignerSettings.nameLocked store entry fault) := by
  unfold SignerSettings.nameLocked
  split
  · exact .own rfl
  · exact h

theorem fromEntry_fails (isOpen : w.vault.isOpen = true) (noTerminal : w.isTerminal = false)
    (opened : kind.Opened data state)
    (faults : ∀ fault, kind.Faults data fault → s.Obstacle services w fault) (store : String)
    (entry : EntryName) (passwords : List Bytes) :
    w.FailsOnly (s.Obstacle services w) (s.fromEntry kind state store entry passwords) := by
  refine .ofResult_bind (fun fault hfault => faults fault (.isKeyEntry opened hfault))
    fun isKey _ => .refuse_if (.own rfl) fun _ => ?_
  refine .bind (.tryCatch (entryKey_gathering s kind state entry passwords) fun _ => .throw _)
    (.tryCatch (entryKey_gathering s kind state entry passwords)
      (entryKey_fails isOpen noTerminal opened faults entry passwords)
      fun _ h => .throw (h.nameLocked store entry.shown)) fun found => ?_
  cases found with
  | none => exact .throw (.own rfl)
  | some key =>
    refine .refuse_if (.own rfl) fun _ =>
      .ofResult_bind (fun fault hfault => faults fault (.chain opened hfault)) fun chain _ => ?_
    split
    · exact .throw (.own rfl)
    · exact .throw (.own rfl)
    · exact .pure _

omit [Platform] in
/-- Opening a store comes to what it opens to over the contents of its file. -/
theorem openFile_bind {β : Type} {E : Fault → Prop} {path? : Option Path} {passwords : List Bytes}
    {f : Except Fault Unit × σ → Action β}
    (missing : ∀ path ∈ path?, ∀ fault, w.files.read path = .error fault → E (.file fault))
    (refused : w.FailsOnly E (f (.error (.noPasswords .store), state)))
    (hf : ∀ data, path?.mapM w.files.read = .ok data →
      w.FailsOnly E (f (kind.loadFirst data passwords state))) :
    w.FailsOnly E (kind.openFile path? passwords state >>= f) := by
  unfold KeystoreKind.openFile
  split
  · exact refused
  · cases path? with
    | none => exact hf none rfl
    | some path =>
      have hread : (do
          let data ← (some path).mapM contentsOf
          return kind.loadFirst data passwords state) >>= f =
          contentsOf path >>= fun b => f (kind.loadFirst (some b) passwords state) := by
        rw [Action.bind_assoc]
        exact Action.bind_assoc _ _ _
      rw [hread]
      refine .contentsOf_bind (missing path rfl) fun b hb => hf (some b) ?_
      rw [Option.mapM_some, hb]
      rfl

omit [Platform] in
theorem mem_paths_of_keystoreFile {store : String} (named : s.keystoreFile = some store)
    (h : store ≠ noFile) : store ∈ s.paths := by
  unfold paths
  simp [named, Option.filter, h]

theorem fromKind_fails (isOpen : w.vault.isOpen = true) (noTerminal : w.isTerminal = false)
    {store : String} (named : s.keystoreFile = some store)
    (without : ∀ fault, kind.Faults none fault → s.Obstacle services w fault)
    (within : ∀ b, w.files.read (Path.ofText store) = .ok b → ∀ fault, kind.Faults (some b) fault →
      s.Obstacle services w fault) :
    w.FailsOnly (s.Obstacle services w) (s.fromKind kind store) := by
  refine .bind (passwords_gathering s _ _) (passwords_fails isOpen noTerminal fun path hpath =>
    mem_paths_of_specOrInput (fun spec hspec => ?_) hpath) fun passwords => openFile_bind ?_ ?_ ?_
  · exact List.mem_append_left _ (Option.mem_toList.mpr hspec)
  · intro path hpath fault hfault
    split at hpath
    · cases hpath
    · next hstore =>
      cases hpath
      exact .file (mem_paths_of_keystoreFile named hstore) hfault
  · exact .ofResult_bind (.error (.own rfl)) nofun
  · intro data hdata
    have faults (fault : Fault) (hfault : kind.Faults data fault) :
        s.Obstacle services w fault := by
      split at hdata
      · cases hdata
        exact without fault hfault
      · rw [Option.mapM_some] at hdata
        obtain ⟨b, hb, hdata⟩ := bind_eq_ok.mp hdata
        cases hdata
        exact within b hb fault hfault
    have hload := kind.loadFirst_fails data passwords kind.fresh
    refine .ofResult_bind (hload.mono fun fault => Or.rec .own (faults fault)) fun _ hopened => ?_
    have opened : kind.Opened data (kind.loadFirst data passwords kind.fresh).2 :=
      KeystoreKind.opened_of_loadFirst (Prod.ext hopened rfl)
    dsimp only
    split
    · exact fromEntry_fails isOpen noTerminal opened faults store _ passwords
    · refine .ofResult_bind ?_ fun entry _ =>
        fromEntry_fails isOpen noTerminal opened faults store entry passwords
      exact (KeystoreKind.onlyKeyAlias_fails opened store).mono fun fault =>
        Or.rec .own (faults fault)

end Kind

omit [Platform] in
theorem store_fails (r : ProviderRegistry) (name : String) (choice : ProviderChoice) :
    FailsOnly (fun fault => fault.isOwn = true) (r.store name choice) := by
  have hasked : FailsOnly (fun fault => fault.isOwn = true) (r.asked choice) := by
    unfold ProviderRegistry.asked
    split
    · exact .ok _
    · exact .ok _
    · split
      · exact .ok _
      · exact .error rfl
  refine .bind hasked fun providers _ => ?_
  split
  · exact .pure _
  · exact .error rfl

omit [Platform] in
theorem make_fails (c : Catalogue) (name : String) (argument : Option String) :
    FailsOnly (fun fault => fault.isOwn = true ∨ ∃ m, fault = .mishap m)
      (c.make name argument) := by
  have hload : FailsOnly (fun fault => fault.isOwn = true ∨ ∃ m, fault = .mishap m)
      (c.load name) := by
    unfold Catalogue.load
    dsimp only
    split
    · exact .error (.inl rfl)
    · split
      · exact .error (.inr ⟨_, rfl⟩)
      · split
        · exact .error (.inl rfl)
        · exact .error (.inl rfl)
        · exact .error (.inr ⟨_, rfl⟩)
        · exact .ok _
  refine .bind hload fun found _ => ?_
  split
  · exact .pure _
  · exact .error (.inl rfl)
  · exact .error (.inr ⟨_, rfl⟩)

theorem storeType_fails : FailsOnly (s.Obstacle services w) (s.storeType services) := by
  have hstore (name : String) (choice : ProviderChoice) :
      FailsOnly (s.Obstacle services w) (services.registry.store name choice) :=
    (store_fails services.registry name choice).mono fun _ => .own
  unfold storeType
  dsimp only
  split
  · exact hstore _ _
  · next name _ named =>
    refine .bind (fun fault hfault => ?_) fun _ _ => hstore _ _
    obtain hown | ⟨m, rfl⟩ := make_fails _ _ _ fault hfault
    · exact .own hown
    · exact .escapes (.providerClass named hfault)
  · exact hstore _ _

theorem fromStore_fails (isOpen : w.vault.isOpen = true) (noTerminal : w.isTerminal = false)
    {store : String} (named : s.keystoreFile = some store) :
    w.FailsOnly (s.Obstacle services w) (s.fromStore services store) := by
  refine .ofResult_bind storeType_fails fun type htype => ?_
  cases type with
  | pkcs12 =>
    refine fromKind_fails isOpen noTerminal named
      (fun fault hfault => absurd hfault PfxStore.not_faults_none) fun b read fault hfault => ?_
    cases PfxStore.orRefused_of_faults hfault with
    | refused hrefused =>
      exact .escapes (.pfxStore named htype read hfault (.inr ⟨_, hrefused⟩))
    | other hother =>
      cases hother with
      | own hown => exact .own hown
      | mishap hm => exact .escapes (.pfxStore named htype read hfault (.inl hm))
  | pem =>
    refine fromKind_fails isOpen noTerminal named
      (fun fault hfault => absurd hfault PemStore.not_faults_none) fun b read fault hfault => ?_
    cases PemStore.orRefused_of_faults hfault with
    | refused hrefused =>
      exact .escapes (.pemStore named htype read hfault (.inr ⟨_, hrefused⟩))
    | other hother =>
      cases hother with
      | own hown => exact .own hown
      | mishap hm => exact .escapes (.pemStore named htype read hfault (.inl hm))

/-! ## Files -/

theorem plainKey_fails (isOpen : w.vault.isOpen = true) (noTerminal : w.isTerminal = false)
    {file : String} {contents b : Bytes} (named : s.keyFile = some file)
    (read : w.files.read (Path.ofText file) = .ok contents)
    (unarmored : Pem.unarmor contents = .ok b) :
    w.FailsOnly (s.Obstacle services w) (s.plainKey file b) := by
  unfold plainKey
  split
  · next k hkey =>
    refine .bind (passwords_gathering s _ _) (passwords_fails isOpen noTerminal fun path hpath =>
      mem_paths_of_specOrInput (fun spec hspec => ?_) hpath) fun passwords => .ofResult ?_
    · exact List.mem_append_right _ (Option.mem_toList.mpr hspec)
    · intro fault hfault
      obtain hown | ⟨password, hdecrypt⟩ := EncryptedKey.decryptFirst_fails k passwords fault hfault
      · exact .own hown
      · cases EncryptedKey.decrypt_fails k password fault hdecrypt with
        | refused hrefused =>
          exact .escapes (.encryptedKey named read unarmored hkey hdecrypt (.inr ⟨_, hrefused⟩))
        | other hother =>
          cases hother with
          | own hown => exact .own hown
          | mishap hm =>
            exact .escapes (.encryptedKey named read unarmored hkey hdecrypt (.inl hm))
  · split
    · exact .throw (.own rfl)
    · exact .pure _
  · next fault hother hkey =>
    unfold EncryptedKey.ofBytes at hkey
    split at hkey
    · next hdeep =>
      cases hkey
      exact .throw (.escapes (.nestedKey named read unarmored (if_pos hdeep)))
    · split at hkey
      · cases hkey
      · cases hkey
        exact absurd rfl (hother _)

theorem fileKey_fails (isOpen : w.vault.isOpen = true) (noTerminal : w.isTerminal = false)
    {file : String} (named : s.keyFile = some file) :
    w.FailsOnly (s.Obstacle services w) (s.fileKey services file) := by
  have hunarmor (contents : Bytes) :
      FailsOnly (s.Obstacle services w) (Pem.unarmor contents) := by
    unfold Pem.unarmor
    split
    · split
      · exact .ok _
      · exact .error (.own rfl)
    · exact .ok _
  refine .contentsOf_bind (fun fault hfault => .file ?_ hfault) fun contents read =>
    .ofResult_bind (hunarmor contents) fun b unarmored => .bind (plainKey_gathering s file b)
      (plainKey_fails isOpen noTerminal named read unarmored) fun plain => .ofResult ?_
  · simp [paths, named]
  · have hdecode := services.registry.decodeKey_fails plain
    intro fault hfault
    cases hresult : (services.registry.decodeKey plain).1 with
    | ok key =>
      rw [hresult] at hfault
      cases hfault
    | error problem =>
      rw [hresult] at hfault
      cases hfault
      have hown := hdecode problem hresult
      unfold nameUndecoded
      split
      · exact .own rfl
      · exact .own hown

theorem fromFiles_fails (isOpen : w.vault.isOpen = true) (noTerminal : w.isTerminal = false)
    {file : String} (named : s.keyFile = some file) :
    w.FailsOnly (s.Obstacle services w) (s.fromFiles services file) := by
  unfold fromFiles
  split
  · exact .throw (.own rfl)
  · next certificateFile hcertificate =>
    refine .bind (fileKey_gathering s services file) (fileKey_fails isOpen noTerminal named)
      fun key => .contentsOf_bind (fun fault hfault => .file ?_ hfault) fun b read =>
      .ofResult_bind (fun fault hfault => ?_) fun certificates _ =>
      .refuse_if (.own rfl) fun _ => .pure _
    · simp [paths, hcertificate]
    · cases CertificateBundle.read_fails b fault hfault with
      | own hown => exact .own hown
      | mishap hm => exact .escapes (.certificates hcertificate read hfault hm)

/-- Whatever keeps a signer from being found is reported with its name or escapes. -/
theorem source_fails (isOpen : w.vault.isOpen = true) (noTerminal : w.isTerminal = false) :
    w.FailsOnly (s.Obstacle services w) (s.source services) := by
  unfold source
  split
  · next store _ named _ =>
    split
    · exact .throw (.own rfl)
    · exact fromStore_fails isOpen noTerminal named
  · exact .throw (.own rfl)
  · next file _ named => exact fromFiles_fails isOpen noTerminal named
  · exact .throw (.own rfl)

/-- Loading is finding the key and the certificates, and naming the signer in what keeps it
from that. -/
theorem run_load (s : SignerSettings) (services : Services) (w : World) :
    (w.run (s.load services)).1 = match (w.run (s.source services)).1 with
      | .ok found => .ok (s.completed found)
      | .error fault => .error (nameRefused s.callName fault) := by
  unfold load
  rw [World.run_bind, World.run_tryCatch]
  obtain ⟨result, v⟩ := w.run (s.source services)
  cases result <;> rfl

/-- When passwords can be handed out and nobody types them, a signer loads, or what keeps it
from loading is reported with its name, or it is one of the faults that escape. -/
theorem loads_or_is_refused (isOpen : w.vault.isOpen = true) (noTerminal : w.isTerminal = false)
    (s : SignerSettings) (services : Services) :
    (∃ found, (w.run (s.source services)).1 = .ok found ∧
      (w.run (s.load services)).1 = .ok (s.completed found)) ∨
    (∃ cause, (w.run (s.source services)).1 = .error cause ∧ explainsRefusal cause = true ∧
      (w.run (s.load services)).1 = .error (.credential s.callName cause)) ∨
    ∃ fault, (w.run (s.source services)).1 = .error fault ∧ s.Escapes services w fault ∧
      (w.run (s.load services)).1 = .error fault := by
  rw [run_load]
  cases hsource : (w.run (s.source services)).1 with
  | ok found => exact .inl ⟨found, rfl, rfl⟩
  | error fault =>
    right
    cases source_fails isOpen noTerminal w (.refl w) fault hsource with
    | explained h => exact .inl ⟨fault, rfl, h, congrArg Except.error (if_pos h)⟩
    | escapes h => exact .inr ⟨fault, rfl, h, congrArg Except.error (if_neg h.not_explains)⟩

end SignerSettings
end General

section Samples
attribute [local instance] Platform.standard

namespace SignerSettings

/-- A store of PEM texts whose check value takes forever. -/
def sampleStore : Bytes :=
  Bytes.ofAscii
    "\x7b\"entries\":\x7b\x7d,\"mac\":\x7b\"salt\":\"\",\"iterations\":Infinity,\"value\":\"\"\x7d\x7d"

/-- Files with that store. -/
def sampleWorld : World := .ofFiles (.ofContents [(["store"], sampleStore)])

/-- The usual providers. -/
def sampleServices : Services := ⟨.builtIn, .standard⟩

/-- A signer in a store of PEM texts. -/
def sampleSettings (store : String) : SignerSettings :=
  { keystoreFile := some store, keystoreType := some "PEMKS", keystorePassword := some "pass:x" }

theorem sample_loads_or_is_refused :
    sampleWorld.vault.isOpen = true ∧ sampleWorld.isTerminal = false ∧
    ((∃ found, (sampleWorld.run ((sampleSettings "none").source sampleServices)).1 = .ok found ∧
      (sampleWorld.run ((sampleSettings "none").load sampleServices)).1 =
        .ok ((sampleSettings "none").completed found)) ∨
    (∃ cause, (sampleWorld.run ((sampleSettings "none").source sampleServices)).1 = .error cause ∧
      explainsRefusal cause = true ∧
      (sampleWorld.run ((sampleSettings "none").load sampleServices)).1 =
        .error (.credential "signer" cause)) ∨
    ∃ fault, (sampleWorld.run ((sampleSettings "none").source sampleServices)).1 = .error fault ∧
      (sampleSettings "none").Escapes sampleServices sampleWorld fault ∧
      (sampleWorld.run ((sampleSettings "none").load sampleServices)).1 = .error fault) :=
  ⟨rfl, rfl, loads_or_is_refused rfl rfl (sampleSettings "none") sampleServices⟩

/-- A store that asks for infinitely many iterations comes to a mishap that nobody reports with
the name of the signer. -/
theorem sample_escapes :
    sampleWorld.vault.isOpen = true ∧ sampleWorld.isTerminal = false ∧
    (sampleWorld.run ((sampleSettings "store").load sampleServices)).1 =
      .error (.mishap .tooLarge) := by
  decide +kernel

end SignerSettings
end Samples
end PackageSigning
