import PackageSigning.Keystore.PemStore
import PackageSigning.Keystore.PfxStore
import PackageSigning.Proofs.Failure.Readers
import PackageSigning.Proofs.Outcome

/-!
# What keystores fail with

A keystore fails when it is opened or when it is asked for an entry (`KeystoreKind.Faults`).
For each kind of keystore the mishaps among these are listed.
-/

namespace PackageSigning

namespace KeystoreKind
variable {σ : Type} {kind : KeystoreKind σ} {data : Option Bytes}

/-- A state in which some data leaves a store that it opens. -/
def Opened (kind : KeystoreKind σ) (data : Option Bytes) (s : σ) : Prop :=
  ∃ password before, kind.load data (some password) before = (.ok (), s)

/-- What a store over some data fails with: when it is opened, or when it is asked for an
entry once it is open. -/
inductive Faults (kind : KeystoreKind σ) (data : Option Bytes) : Fault → Prop
  | load {password : Bytes} {before : σ} {fault : Fault}
      (h : (kind.load data (some password) before).1 = .error fault) : Faults kind data fault
  | isKeyEntry {s : σ} {name : EntryName} {fault : Fault} (opened : kind.Opened data s)
      (h : kind.isKeyEntry s name = .error fault) : Faults kind data fault
  | key {s : σ} {name : EntryName} {password : Bytes} {fault : Fault} (opened : kind.Opened data s)
      (h : kind.key s name (some password) = .error fault) : Faults kind data fault
  | chain {s : σ} {name : EntryName} {fault : Fault} (opened : kind.Opened data s)
      (h : kind.chain s name = .error fault) : Faults kind data fault

/-- Opening a store with passwords in turn fails as one of them does. -/
theorem loadFirst_fails (kind : KeystoreKind σ) (data : Option Bytes) (passwords : List Bytes)
    (s : σ) :
    FailsOnly (fun fault => fault.isOwn = true ∨ kind.Faults data fault)
      (kind.loadFirst data passwords s).1 := by
  induction passwords generalizing s with
  | nil => exact .error (.inl rfl)
  | cons password rest ih =>
    cases rest with
    | nil => exact fun fault hfault => .inr (.load hfault)
    | cons next rest =>
      unfold loadFirst
      split
      · exact .ok _
      · next fault before hload =>
        split
        · exact ih before
        · exact .error (.inr (.load (congrArg Prod.fst hload)))

/-- What opens is open. -/
theorem opened_of_loadFirst {passwords : List Bytes} {s t : σ}
    (h : kind.loadFirst data passwords s = (.ok (), t)) : kind.Opened data t := by
  induction passwords generalizing s with
  | nil => cases h
  | cons password rest ih =>
    cases rest with
    | nil => exact ⟨password, s, h⟩
    | cons next rest =>
      unfold loadFirst at h
      split at h
      · next hload =>
        cases h
        exact ⟨password, s, hload⟩
      · split at h
        · exact ih h
        · cases h

/-- Recovering a key with passwords in turn fails as one of them does. -/
theorem recoverKey_fails {s : σ} (opened : kind.Opened data s) (name : EntryName)
    (passwords : List Bytes) : FailsOnly (fun fault => fault.isOwn = true ∨ kind.Faults data fault)
      (kind.recoverKey s name passwords) := by
  induction passwords with
  | nil => exact .error (.inl rfl)
  | cons password rest ih =>
    cases rest with
    | nil => exact fun fault hfault => .inr (.key opened hfault)
    | cons next rest =>
      unfold recoverKey
      split
      · exact ih
      · exact fun fault hfault => .inr (.key opened hfault)

/-- Looking for the only key entry fails as one of the entries does. -/
theorem onlyKeyAlias_fails {s : σ} (opened : kind.Opened data s) (store : String) :
    FailsOnly (fun fault => fault.isOwn = true ∨ kind.Faults data fault)
      (kind.onlyKeyAlias s store) := by
  have hentries : FailsOnly (fun fault => fault.isOwn = true ∨ kind.Faults data fault)
      ((kind.aliases s).filterM (kind.isKeyEntry s)) :=
    .filterM fun _ _ _ hfault => .inr (.isKeyEntry opened hfault)
  refine .bind hentries fun names _ => ?_
  split
  · exact .error (.inl rfl)
  · exact .pure _
  · exact .error (.inl rfl)

end KeystoreKind

/-! ## Stores of one key -/

namespace Pfx

/-- What the file of a store of one key comes to: a certificate of a version that is not known, a
key on a curve that is not, and anything that does not parse. -/
def mishaps : List Mishap := [.unknownVersion, .unsupported, .badValue]

theorem certificates_fails (bags : List Bag) : FailsOnly (OwnOr mishaps) (certificates bags) := by
  induction bags with
  | nil => exact .ok _
  | cons b rest ih =>
    unfold certificates
    split
    · exact .bind ((CertificateBundle.one_fails _).widen (by decide)) fun _ _ =>
        .bind ih fun _ _ => .pure _
    · exact ih

variable [Platform]

/-- Mishaps of readers that are no faults yet. -/
def Refuses (m : Mishap) : Prop := m = .badValue ∨ ∃ request, Platform.refusal request = some m

theorem fails_of_refuses {α : Type} {m : Mishap} (h : Refuses m) :
    FailsOnly (OrRefused (OwnOr mishaps)) (.error (.mishap m) : Except Fault α) := by
  obtain rfl | ⟨request, hrefused⟩ := h
  · exact .orRefused (.mishap (by decide))
  · exact .error (.refused hrefused)

theorem refuses_of_opened {scheme : SealScheme} {password data : Bytes} {m : Mishap}
    (h : scheme.opened password data = .error m) : Refuses m := by
  obtain rfl | ⟨-, hrefused⟩ := SealScheme.eq_of_opened_error h
  · exact .inl rfl
  · exact .inr ⟨_, hrefused⟩

theorem refuses_of_parsed {α : Type} {found : Option α} {m : Mishap}
    (h : parsed found = .error m) : Refuses m := by
  cases found with
  | none => exact .inl (Except.error.inj h).symm
  | some _ => cases h

theorem refuses_of_bagsOf {password : Bytes} {part : ObjectId × Bytes} {m : Mishap}
    (h : bagsOf password part = .error m) : Refuses m := by
  unfold bagsOf at h
  split at h
  · exact refuses_of_parsed h
  · split at h
    · obtain hparsed | ⟨⟨scheme, data⟩, -, h⟩ := bind_eq_error.mp h
      · exact refuses_of_parsed hparsed
      · obtain hopened | ⟨plain, -, h⟩ := bind_eq_error.mp h
        · exact refuses_of_opened hopened
        · exact refuses_of_parsed h
    · cases h

theorem refuses_of_check {mac : Mac} {password parts : Bytes} {m : Mishap}
    (h : mac.check password parts = .error m) : Refuses m := by
  unfold Mac.check at h
  split at h
  · next hrefused =>
    cases h
    exact .inr ⟨_, hrefused⟩
  · split at h
    · cases h
    · exact .inl (Except.error.inj h).symm

theorem refuses_of_openBags {password b : Bytes} {m : Mishap}
    (h : openBags password b = .error m) : Refuses m := by
  obtain houtline | ⟨⟨parts, mac⟩, -, h⟩ := bind_eq_error.mp h
  · exact refuses_of_parsed houtline
  obtain hmac | ⟨-, -, h⟩ := bind_eq_error.mp h
  · cases mac with
    | none => cases hmac
    | some mac => exact refuses_of_check hmac
  obtain hparts | ⟨parts, -, h⟩ := bind_eq_error.mp h
  · exact refuses_of_parsed hparts
  obtain hbags | ⟨bags, -, h⟩ := bind_eq_error.mp h
  · obtain ⟨part, -, hpart⟩ := exists_of_mapM_eq_error hbags
    exact refuses_of_bagsOf hpart
  · exact refuses_of_parsed h

theorem keyOf_fails (password : Bytes) (content : Content) :
    FailsOnly (OrRefused (OwnOr mishaps)) (keyOf password content) := by
  have hread (encoded : Bytes) :
      FailsOnly (OrRefused (OwnOr mishaps)) (keyOf password (.key encoded)) := by
    unfold keyOf
    dsimp only
    split
    · exact .ok _
    · exact .orRefused (.mishap (by decide))
    · exact .orRefused (.mishap (by decide))
  cases content with
  | key encoded => exact hread encoded
  | sealedKey encoded =>
    unfold keyOf
    dsimp only
    split
    · exact .orRefused (.mishap (by decide))
    · split
      -- what was sealed is read as a plain key is
      · exact hread _
      · next hopened => exact fails_of_refuses (refuses_of_opened hopened)
  | certificate | bags | other => exact .ok _

theorem firstKey_fails (password : Bytes) (bags : List Bag) :
    FailsOnly (OrRefused (OwnOr mishaps)) (firstKey password bags) := by
  induction bags with
  | nil => exact .ok _
  | cons b rest ih =>
    refine .bind (keyOf_fails password b.content) fun key _ => ?_
    cases key with
    | none => exact ih
    | some k => exact .pure _

theorem read_fails (b : Bytes) (password : Option Bytes) :
    FailsOnly (OrRefused (OwnOr mishaps)) (read b password) := by
  unfold read
  dsimp only
  split
  · next hopened => exact fails_of_refuses (refuses_of_openBags hopened)
  · refine .bind (firstKey_fails _ _) fun key _ =>
      .bind (certificates_fails _).orRefused fun _ _ => ?_
    split
    · exact .pure _
    · exact .pure _

end Pfx

namespace PfxStore

/-- What a file comes to that can be read: a certificate of a version that is not known, a key on a
curve that is not, and a name on the way to an issuer that cannot be asked for. -/
def mishaps : List Mishap := [.unknownVersion, .unsupported, .badValue, .wrongType, .missingEntry]

theorem withKey_fails (s : PfxStore) (pfx : Pfx) :
    FailsOnly (fun fault => ∃ refusal : NameRefusal, fault = .mishap refusal.mishap)
      (s.withKey pfx) := by
  unfold withKey
  split
  · refine .bind (.bind (.forM fun name _ => .bind ?_ fun _ _ => .pure _) fun _ _ => .pure _)
      fun _ _ => .pure _
    unfold DistinguishedName.read
    split
    · next refusal _ => exact .error ⟨refusal, rfl⟩
    · exact .ok _
  · exact .ok _

variable [Platform]

theorem parse_fails {refusal : Fault} (h : refusal.isOwn = true) (b : Bytes)
    (password : Option Bytes) :
    FailsOnly (OrRefused (OwnOr [.unknownVersion, .unsupported]))
      (parse Pfx.read refusal b password) := by
  have hread := Pfx.read_fails b (password.filter (!·.isEmpty))
  unfold parse
  split
  · exact .error (.other (.own h))
  · exact .error (.other (.own h))
  · next hne _ =>
    intro fault hfault
    cases hread fault hfault with
    | other hother => exact .other (hother.erase fun h => hne (h ▸ hfault))
    | refused hrefused => exact .refused hrefused

theorem load_fails (data password : Option Bytes) (s : PfxStore) :
    FailsOnly (OrRefused (OwnOr mishaps)) (kind.load data password s).1 := by
  change FailsOnly _ (load Pfx.read data password s).1
  unfold load
  split
  · exact .ok _
  · next b =>
    split
    · next fault hfault =>
      exact .error ((parse_fails rfl b password).widenRefused (by decide) fault hfault)
    · next pfx _ =>
      split
      · next fault hfault =>
        obtain ⟨refusal, rfl⟩ := withKey_fails _ pfx fault hfault
        exact .error (.other (.mishap (by cases refusal <;> decide)))
      · exact .ok _

theorem key_fails (s : PfxStore) (name : EntryName) (password : Option Bytes) :
    FailsOnly (OrRefused (OwnOr mishaps)) (kind.key s name password) := by
  change FailsOnly _ (key Pfx.read s name password)
  unfold key
  split
  · split
    · exact .bind ((parse_fails rfl _ _).widenRefused (by decide)) fun _ _ => .pure _
    · exact .ok _
  · exact .ok _

/-- What a store of one key fails with. -/
theorem orRefused_of_faults {data : Option Bytes} {fault : Fault} (h : kind.Faults data fault) :
    OrRefused (OwnOr mishaps) fault := by
  cases h with
  | load h => exact load_fails _ _ _ fault h
  | isKeyEntry _ h => cases h
  | key _ h => exact key_fails _ _ _ fault h
  | chain _ h => cases h

/-- A store of one key without data does not fail. -/
theorem not_faults_none {fault : Fault} : ¬kind.Faults none fault := by
  intro h
  cases h with
  | load h => cases h
  | isKeyEntry _ h => cases h
  | key opened h =>
    obtain ⟨_, _, hload⟩ := opened
    cases hload
    cases h
  | chain _ h => cases h

end PfxStore

/-! ## Stores of PEM texts -/

namespace JsonValue

theorem member_fails (name : String) (v : JsonValue) :
    FailsOnly (OwnOr [.missingEntry, .wrongType]) (v.member name) := by
  unfold member
  split
  · split
    · exact .ok _
    · exact .mishap (by decide)
  · exact .mishap (by decide)

theorem bytes_fails (v : JsonValue) : FailsOnly (OwnOr [.badValue, .wrongType]) v.bytes := by
  unfold bytes
  split
  · split
    · exact .ok _
    · exact .mishap (by decide)
  · exact .mishap (by decide)

theorem whole_fails (v : JsonValue) :
    FailsOnly (OwnOr [.badValue, .wrongType, .tooLarge]) v.whole := by
  unfold whole
  split
  · exact .ok _
  · exact .ok _
  · exact .mishap (by decide)
  · split
    · exact .ok _
    · exact .mishap (by decide)
  · split
    · exact .ok _
    · exact .mishap (by decide)
  · exact .mishap (by decide)

theorem parts_fails (v : JsonValue) : FailsOnly (OwnOr [.badValue, .wrongType]) v.parts := by
  unfold parts
  split
  · exact .ok _
  · exact .ok _
  · exact .ok _
  · exact .mishap (by decide)

theorem asciiText_fails [Platform] (v : JsonValue) :
    FailsOnly (OwnOr [.tooDeep, .unencodable]) v.asciiText := by
  unfold asciiText
  split
  · exact .mishap (by decide)
  · split
    · exact .ok _
    · exact .mishap (by decide)

theorem name_fails (v : JsonValue) : FailsOnly (OwnOr [.wrongType]) v.name := by
  unfold name
  split
  · exact .ok _
  · exact .ok _
  · exact .ok _
  · exact .ok _
  · exact .ok _
  · exact .mishap (by decide)
  · exact .mishap (by decide)

theorem pair_fails (v : JsonValue) : FailsOnly (OwnOr [.badValue, .wrongType]) v.pair := by
  refine .bind (parts_fails v) fun parts _ => ?_
  split
  · exact .bind ((name_fails _).widen (by decide)) fun _ _ => .pure _
  · exact .mishap (by decide)

theorem entries_fails (v : JsonValue) : FailsOnly (OwnOr [.badValue, .wrongType]) v.entries := by
  unfold entries
  split
  · exact .ok _
  · exact .bind (parts_fails v) fun _ _ => .bind (.mapM fun v _ => pair_fails v) fun _ _ => .pure _

end JsonValue

namespace StoreDocument

/-- What a document comes to that is nested too deeply, or that has a number of iterations or
entries that cannot be worked with. -/
def mishaps : List Mishap := [.tooDeep, .tooLarge, .badValue, .wrongType]

theorem parts_fails (document : JsonValue) :
    FailsOnly (OwnOr [.badValue, .missingEntry, .wrongType, .tooLarge]) (parts document) := by
  refine .bind ((JsonValue.member_fails _ _).widen (by decide)) fun entries _ =>
    .bind ((JsonValue.member_fails _ _).widen (by decide)) fun mac _ =>
    .bind ((JsonValue.member_fails _ _).widen (by decide)) fun salt _ =>
    .bind ((JsonValue.bytes_fails _).widen (by decide)) fun salt _ =>
    .bind ((JsonValue.member_fails _ _).widen (by decide)) fun iterations _ =>
    .bind ((JsonValue.whole_fails _).widen (by decide)) fun iterations _ =>
    .bind ((JsonValue.member_fails _ _).widen (by decide)) fun value _ =>
    .bind ((JsonValue.bytes_fails _).widen (by decide)) fun value _ => ?_
  split
  · exact .mishap (by decide)
  · exact .pure _

variable [Platform]

theorem ofBytes_fails (b : Bytes) : FailsOnly (OwnOr [.tooDeep, .tooLarge]) (ofBytes b) := by
  unfold ofBytes
  split
  · exact .error (.own rfl)
  · exact .mishap (by decide)
  · next document _ =>
    split
    · exact .error (.own rfl)
    · exact .error (.own rfl)
    · exact .error (.own rfl)
    · next hvalue hentry htype =>
      intro fault hfault
      have hparts := ((parts_fails document fault hfault).erase fun h => hvalue (h ▸ hfault)).erase
        fun h => hentry (h ▸ hfault)
      exact (hparts.erase fun h => htype (h ▸ hfault)).mono (by decide)

theorem check_fails (d : StoreDocument) (password : Option Bytes) :
    FailsOnly (OrRefused (OwnOr mishaps)) (d.check password) := by
  unfold check
  split
  · exact .ok _
  · have hcompute (password : Bytes) : FailsOnly (OrRefused (OwnOr mishaps))
        (StoreMac.compute d.entries password d.mac.salt d.mac.iterations) := by
      unfold StoreMac.compute
      split
      · next hrefused => exact .refusal hrefused (by decide)
      · split
        · exact .orRefused (.mishap (by decide))
        · exact .ok _
    refine .bind (hcompute _) fun _ _ => ?_
    split
    · exact .pure _
    · exact .error (.other (.own rfl))

theorem accept_fails (b : Bytes) (password : Option Bytes) :
    FailsOnly (OrRefused (OwnOr mishaps)) (accept b password) := by
  refine .bind ((ofBytes_fails b).widen (by decide)).orRefused fun d _ => ?_
  have hrest : FailsOnly (OrRefused (OwnOr mishaps)) (do d.check password; d.entries.entries) :=
    .bind (check_fails d password) fun _ _ =>
      ((JsonValue.entries_fails _).widen (by decide)).orRefused
  dsimp only
  split
  · exact .error (.other (.own rfl))
  · exact hrest

end StoreDocument

namespace PemStore

/-- What an entry comes to that is no object, that lacks a text or has one outside of ASCII or nested
too deeply, or whose texts are no keys and certificates that are supported. -/
def mishaps : List Mishap :=
  [.missingMember, .missingEntry, .wrongType, .tooDeep, .unencodable, .badValue, .unsupported,
   .unknownVersion]

variable [Platform]

theorem load_fails (data password : Option Bytes) (s : PemStore) :
    FailsOnly (OrRefused (OwnOr StoreDocument.mishaps)) (load data password s).1 := by
  unfold load
  split
  · exact .ok _
  · next b =>
    have haccept := StoreDocument.accept_fails b password
    split
    · exact .ok _
    · next fault hfault => exact .error (haccept fault hfault)

omit [Platform] in
theorem entry_fails (s : PemStore) (name : EntryName) :
    FailsOnly (OwnOr [.missingMember]) (s.entry name) := by
  unfold entry
  split
  · exact .ok _
  · exact .ok _
  · exact .ok _
  · exact .mishap (by decide)

omit [Platform] in
theorem isKeyEntry_fails (s : PemStore) (name : EntryName) :
    FailsOnly (OwnOr [.missingMember]) (s.isKeyEntry name) :=
  .bind (entry_fails s name) fun _ _ => .pure _

theorem unlock_fails (noise : SealNoise) (name : EntryName) (text : Bytes)
    (password : Option Bytes) : FailsOnly (OrRefused (OwnOr [.unsupported]))
      (unlock (.standard noise) name text password) := by
  unfold unlock
  dsimp only
  split
  · exact .error (.other (.own rfl))
  · exact .error (.other (.own rfl))
  · next hvalue htype =>
    intro fault hfault
    cases KeyArmour.read_fails _ _ fault hfault with
    | other hother =>
      exact .other ((hother.erase fun h => hvalue (h ▸ hfault)).erase fun h => htype (h ▸ hfault))
    | refused hrefused => exact .refused hrefused

theorem key_fails (noise : SealNoise) (s : PemStore) (name : EntryName) (password : Option Bytes) :
    FailsOnly (OrRefused (OwnOr mishaps)) (key (.standard noise) s name password) := by
  refine .bind ((entry_fails s name).widen (by decide)).orRefused fun entry _ => ?_
  cases entry with
  | none => exact .pure _
  | some entry =>
    dsimp only
    split
    · exact .pure _
    · exact .bind ((JsonValue.member_fails _ _).widen (by decide)).orRefused fun _ _ =>
        .bind ((JsonValue.asciiText_fails _).widen (by decide)).orRefused fun _ _ =>
        .bind ((unlock_fails noise _ _ _).widenRefused (by decide)) fun _ _ => .pure _

omit [Platform] in
theorem firstCertificate_fails (text : Bytes) :
    FailsOnly (OwnOr [.badValue, .unknownVersion]) (PemFormats.firstCertificate text) := by
  unfold PemFormats.firstCertificate
  dsimp only
  split
  · exact CertificateBundle.one_fails _
  · exact .mishap (by decide)

theorem chain_fails (noise : SealNoise) (s : PemStore) (name : EntryName) :
    FailsOnly (OwnOr mishaps) (chain (.standard noise) s name) := by
  have hcertificate (c : JsonValue) :
      FailsOnly (OwnOr mishaps) (c.asciiText >>= (PemFormats.standard noise).readCertificate) :=
    .bind ((JsonValue.asciiText_fails c).widen (by decide)) fun text _ =>
      (firstCertificate_fails text).widen (by decide)
  refine .bind ((entry_fails s name).widen (by decide)) fun entry _ => ?_
  cases entry with
  | none => exact .pure _
  | some entry =>
    dsimp only
    split
    · exact .pure _
    · split
      · exact .pure _
      · exact .bind ((JsonValue.parts_fails _).widen (by decide)) fun _ _ =>
          .bind (.mapM fun c _ => hcertificate c) fun _ _ => .pure _

/-- What a store of PEM texts fails with. -/
theorem orRefused_of_faults {noise : SealNoise} {data : Option Bytes} {fault : Fault}
    (h : (kind (.standard noise)).Faults data fault) :
    OrRefused (OwnOr (StoreDocument.mishaps ++ mishaps)) fault := by
  cases h with
  | load h => exact (load_fails _ _ _).widenRefused (by decide) fault h
  | isKeyEntry _ h => exact .other ((isKeyEntry_fails _ _ fault h).mono (by decide))
  | key _ h => exact (key_fails _ _ _ _).widenRefused (by decide) fault h
  | chain _ h => exact .other ((chain_fails _ _ _ fault h).mono (by decide))

/-- A store of PEM texts without data does not fail. -/
theorem not_faults_none {formats : PemFormats} {fault : Fault} :
    ¬(kind formats).Faults none fault := by
  intro h
  cases h with
  | load h => cases h
  | isKeyEntry opened h | key opened h | chain opened h =>
    obtain ⟨_, _, hload⟩ := opened
    cases hload
    cases h

end PemStore
end PackageSigning
