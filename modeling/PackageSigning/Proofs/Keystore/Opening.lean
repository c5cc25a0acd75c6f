import PackageSigning.Platform.Standard
import PackageSigning.Proofs.Outcome
import PackageSigning.Proofs.World
import PackageSigning.Signer.FromStore

/-!
# Opening a store with passwords in turn

A store is loaded again and again until a password opens it, and each time from where the
last refusal left it. For both types of store that comes to one load of a new store with the
password that opens it (`StoreType.opens_as_with_the_right_password`), since a load replaces
whatever an earlier one left (`KeystoreKind.StartsAnew`).

Which passwords a store is loaded with is seen by a kind of keystore that notes them down
(`KeystoreKind.noting`).
-/

namespace PackageSigning

section General

namespace KeystoreKind
variable {σ : Type} {kind : KeystoreKind σ} {data : Option Bytes}

/-- Whether a store turns a password down, so that the next one is tried. -/
def refuses (kind : KeystoreKind σ) (data : Option Bytes) (password : Bytes) (s : σ) : Bool :=
  match (kind.load data (some password) s).1 with
  | .ok () => false
  | .error fault => fault.isStoreFault

/-- A kind of keystore that notes down the passwords that it is loaded with. -/
def noting (kind : KeystoreKind σ) : KeystoreKind (σ × List Bytes) where
  fresh := (kind.fresh, [])
  load data password s :=
    let (result, t) := kind.load data password s.1
    (result, t, s.2 ++ password.toList)
  aliases s := kind.aliases s.1
  isKeyEntry s := kind.isKeyEntry s.1
  key s := kind.key s.1
  chain s := kind.chain s.1

/-- A load comes to the same from a store as from the new store that `renew` puts in its place,
and a load that is refused leaves no entries. -/
structure StartsAnew (kind : KeystoreKind σ) (renew : σ → σ) : Prop where
  load_renew (data password : Option Bytes) (s : σ) :
    kind.load data password (renew s) = kind.load data password s
  renew_load (data password : Option Bytes) (s : σ) :
    renew (kind.load data password s).2 = renew s
  refused {data password : Option Bytes} {s : σ} {fault : Fault}
    (h : (kind.load data password s).1 = .error fault) :
    kind.aliases (kind.load data password s).2 = []

/-! ## One password at a time -/

@[simp] theorem load_noting (password : Bytes) (s : σ × List Bytes) :
    kind.noting.load data (some password) s =
      ((kind.load data (some password) s.1).1, (kind.load data (some password) s.1).2,
        s.2 ++ [password]) := rfl

@[simp] theorem refuses_noting (password : Bytes) (s : σ × List Bytes) :
    kind.noting.refuses data password s = kind.refuses data password s.1 := rfl

theorem refuses_renew {renew : σ → σ} (anew : kind.StartsAnew renew) (password : Bytes) (s : σ) :
    kind.refuses data password (renew s) = kind.refuses data password s := by
  simp only [refuses, anew.load_renew]

/-- The first password decides, unless it is turned down and there are more. -/
theorem loadFirst_cons (kind : KeystoreKind σ) (data : Option Bytes) (password : Bytes)
    (rest : List Bytes) (s : σ) :
    kind.loadFirst data (password :: rest) s =
      if kind.refuses data password s = true ∧ rest ≠ [] then
        kind.loadFirst data rest (kind.load data (some password) s).2
      else kind.load data (some password) s := by
  cases rest with
  | nil => simp [loadFirst]
  | cons next rest =>
    rw [loadFirst]
    · unfold refuses
      generalize kind.load data (some password) s = outcome
      obtain ⟨result, t⟩ := outcome
      cases result <;> simp
    · exact List.cons_ne_nil next rest

/-- Noting passwords down changes nothing else. -/
theorem loadFirst_of_noting {passwords noted tried : List Bytes} {s t : σ}
    {result : Except Fault Unit}
    (h : kind.noting.loadFirst data passwords (s, noted) = (result, t, tried)) :
    kind.loadFirst data passwords s = (result, t) := by
  induction passwords generalizing s noted with
  | nil =>
    cases h
    rfl
  | cons password rest ih =>
    rw [loadFirst_cons, refuses_noting, load_noting] at h
    rw [loadFirst_cons]
    split at h
    · next hrefused =>
      rw [if_pos hrefused]
      exact ih h
    · next haccepted =>
      rw [if_neg haccepted]
      cases h
      rfl

/-! ## Passwords in turn -/

section Anew
variable {renew : σ → σ} (anew : kind.StartsAnew renew)
include anew

/-- It makes no difference which of two stores is loaded, if they are alike but for their
entries. -/
theorem noting_loadFirst_congr {s t : σ} (h : renew s = renew t) {passwords : List Bytes}
    (hne : passwords ≠ []) (noted : List Bytes) :
    kind.noting.loadFirst data passwords (s, noted) =
      kind.noting.loadFirst data passwords (t, noted) := by
  obtain ⟨password, rest, rfl⟩ := List.exists_cons_of_ne_nil hne
  have hload : kind.load data (some password) s = kind.load data (some password) t := by
    rw [← anew.load_renew, h, anew.load_renew]
  have hrefuses : kind.refuses data password s = kind.refuses data password t := by
    rw [← refuses_renew anew, h, refuses_renew anew]
  rw [loadFirst_cons, loadFirst_cons, refuses_noting, refuses_noting, load_noting, load_noting,
    hload, hrefuses]

/-- Passwords that are turned down make no difference, but that they are noted down. -/
theorem noting_loadFirst_append {s : σ} {earlier rest : List Bytes} (hrest : rest ≠ [])
    (refused : ∀ p ∈ earlier, kind.refuses data p (renew s) = true) (noted : List Bytes) :
    kind.noting.loadFirst data (earlier ++ rest) (s, noted) =
      kind.noting.loadFirst data rest (s, noted ++ earlier) := by
  induction earlier generalizing s noted with
  | nil => simp
  | cons password earlier ih =>
    obtain ⟨hpassword, hearlier⟩ := List.forall_mem_cons.mp refused
    -- The store that the refusal leaves is renewed to the same store as before.
    have hs := anew.renew_load data (some password) s
    calc kind.noting.loadFirst data (password :: (earlier ++ rest)) (s, noted)
      _ = kind.noting.loadFirst data (earlier ++ rest)
            ((kind.load data (some password) s).2, noted ++ [password]) := by
          rw [refuses_renew anew] at hpassword
          rw [loadFirst_cons, if_pos ⟨hpassword, by simp [hrest]⟩, load_noting]
      _ = kind.noting.loadFirst data rest
            ((kind.load data (some password) s).2, noted ++ [password] ++ earlier) :=
          ih (by rw [hs]; exact hearlier) _
      _ = kind.noting.loadFirst data rest (s, noted ++ password :: earlier) := by
          rw [noting_loadFirst_congr anew hs hrest, List.append_assoc]
          rfl

/-- A password that is not turned down opens a new store as it opens this one, whatever was
turned down before. -/
theorem noting_loadFirst_of_accepted {s : σ} {earlier : List Bytes} {password : Bytes}
    (refused : ∀ p ∈ earlier, kind.refuses data p (renew s) = true)
    (accepted : kind.refuses data password (renew s) = false) (later : List Bytes) :
    kind.noting.loadFirst data (earlier ++ password :: later) (s, []) =
      ((kind.load data (some password) (renew s)).1, (kind.load data (some password) (renew s)).2,
        earlier ++ [password]) := by
  rw [refuses_renew anew] at accepted
  rw [noting_loadFirst_append anew (List.cons_ne_nil _ _) refused, loadFirst_cons,
    anew.load_renew]
  simp [accepted]

/-- When all passwords are turned down, the last one says why, and no entries are left. -/
theorem noting_loadFirst_of_refused {s : σ} {earlier : List Bytes} {last : Bytes}
    (refused : ∀ p ∈ earlier ++ [last], kind.refuses data p (renew s) = true) :
    ∃ fault t, kind.load data (some last) (renew s) = (.error fault, t) ∧ kind.aliases t = [] ∧
      kind.noting.loadFirst data (earlier ++ [last]) (s, []) =
        (.error fault, t, earlier ++ [last]) := by
  have hlast : kind.refuses data last (renew s) = true := refused last (by simp)
  have haliases : ∀ fault, (kind.load data (some last) (renew s)).1 = .error fault →
      kind.aliases (kind.load data (some last) (renew s)).2 = [] :=
    fun _ => anew.refused
  rw [noting_loadFirst_append anew (List.cons_ne_nil _ _) fun p hp => refused p (by simp [hp])]
  have hload : kind.noting.loadFirst data [last] (s, [] ++ earlier) =
      ((kind.load data (some last) (renew s)).1, (kind.load data (some last) (renew s)).2,
        earlier ++ [last]) := by
    rw [anew.load_renew]
    rfl
  rw [hload]
  unfold refuses at hlast
  generalize kind.load data (some last) (renew s) = outcome at hlast haliases
  obtain ⟨result, t⟩ := outcome
  cases result with
  | ok u => simp at hlast
  | error fault => exact ⟨fault, t, rfl, haliases fault rfl, rfl⟩

end Anew

/-- Opening a file is loading what it holds, and asks for nothing else. -/
theorem run_openFile {w : World} {path? : Option Path} (read : path?.mapM w.files.read = .ok data)
    {passwords : List Bytes} (hne : passwords ≠ []) (s : σ) :
    w.run (kind.openFile path? passwords s) = (.ok (kind.loadFirst data passwords s), w) := by
  unfold openFile
  rw [if_neg (by simpa using hne)]
  cases path? with
  | none =>
    obtain rfl := pure_eq_ok.mp read
    rfl
  | some path =>
    rw [Option.mapM_some] at read
    obtain ⟨b, hb, hdata⟩ := bind_eq_ok.mp read
    cases hdata
    have hread : w.answer (.read path) = (.ok b, w) := congrArg (·, w) hb
    show w.run (.ask (.read path) _) = _
    rw [World.run_ask, hread]
    rfl

end KeystoreKind

/-! ## The two types of store -/

namespace StoreType

/-- The stores of a type. -/
@[reducible]
def State : StoreType → Type
  | pkcs12 => PfxStore
  | pem => PemStore

/-- The kind of keystore of a type, with what reads its files and the texts in them. -/
def kindWith [Platform] (reader : PfxStore.PfxReader) (formats : PemFormats) :
    (type : StoreType) → KeystoreKind type.State
  | pkcs12 => PfxStore.kindWith reader
  | pem => PemStore.kind formats

/-- A new store of a type; the number of iterations for its check value is the one thing that is
chosen when a store is made. -/
def renewed : (type : StoreType) → type.State → type.State
  | pkcs12, _ => .holding none
  | pem, s => .empty s.iterations

end StoreType

/-- The signer in a keystore comes from a store of the type that the settings name. -/
theorem SignerSettings.fromStore_eq [Platform] (s : SignerSettings) (services : Services) (store : String) :
    s.fromStore services store = (do
      let type ← Action.ofResult (s.storeType services)
      s.fromKind (type.kindWith Pfx.read (.standard .silent)) store) := by
  refine congrArg (Action.ofResult (s.storeType services) >>= ·) (funext fun type => ?_)
  cases type <;> rfl

theorem PfxStore.startsAnew (reader : PfxReader) :
    (kindWith reader).StartsAnew fun _ => holding none where
  load_renew _ _ _ := rfl
  renew_load _ _ _ := rfl
  refused := by
    intro data password s fault h
    change (load reader data password s).1 = _ at h
    show (load reader data password s).2.aliases = []
    unfold load at h ⊢
    split at h
    · cases h
    · split at h
      · rfl
      · split at h
        · rfl
        · cases h

variable [Platform]

theorem PemStore.startsAnew (formats : PemFormats) :
    (kind formats).StartsAnew fun s => .empty s.iterations where
  load_renew data password s := by
    show load data password (.empty s.iterations) = load data password s
    unfold load
    rfl
  renew_load data password s := by
    show empty (load data password s).2.iterations = empty s.iterations
    unfold load
    split
    · rfl
    · split <;> rfl
  refused := by
    intro data password s fault h
    change (load data password s).1 = _ at h
    show (load data password s).2.entries.keys = []
    unfold load at h ⊢
    split at h
    · cases h
    · split at h
      · cases h
      · rfl

namespace StoreType
open KeystoreKind

variable (reader : PfxStore.PfxReader) (formats : PemFormats)

theorem startsAnew (type : StoreType) : (type.kindWith reader formats).StartsAnew type.renewed := by
  cases type with
  | pkcs12 => exact PfxStore.startsAnew reader
  | pem => exact PemStore.startsAnew formats

/-- Opening a store with passwords in turn comes to one load of a new store with the first
password that is not turned down. When all of them are, the last one says why and no entries are
left. Without passwords nothing is read and nothing is loaded. -/
theorem opens_as_with_the_right_password (type : StoreType) (s : type.State) (w : World)
    (path? : Option Path) (passwords : List Bytes) :
    let kind := type.kindWith reader formats
    (passwords = [] →
      kind.openFile path? passwords s = pure (.error (.noPasswords .store), s) ∧
      kind.noting.openFile path? passwords (s, []) =
        pure (.error (.noPasswords .store), s, [])) ∧
    ∀ data, path?.mapM w.files.read = .ok data →
      (∀ earlier password later t, passwords = earlier ++ password :: later →
        (∀ p ∈ earlier, kind.refuses data p (type.renewed s) = true) →
        kind.load data (some password) (type.renewed s) = (.ok (), t) →
        w.run (kind.openFile path? passwords s) = (.ok (.ok (), t), w) ∧
        w.run (kind.noting.openFile path? passwords (s, [])) =
          (.ok (.ok (), t, earlier ++ [password]), w)) ∧
      (∀ last, passwords.getLast? = some last →
        (∀ p ∈ passwords, kind.refuses data p (type.renewed s) = true) →
        ∃ fault t, kind.load data (some last) (type.renewed s) = (.error fault, t) ∧
          w.run (kind.openFile path? passwords s) = (.ok (.error fault, t), w) ∧
          kind.aliases t = [] ∧
          w.run (kind.noting.openFile path? passwords (s, [])) =
            (.ok (.error fault, t, passwords), w)) := by
  have anew := type.startsAnew reader formats
  intro kind
  refine ⟨?_, fun data read => ⟨?_, ?_⟩⟩
  · rintro rfl
    exact ⟨rfl, rfl⟩
  · rintro earlier password later t rfl refused hload
    have accepted : kind.refuses data password (type.renewed s) = false := by
      unfold refuses
      rw [hload]
    -- What noting the passwords down comes to tells what the store itself comes to.
    have hnoting := noting_loadFirst_of_accepted anew refused accepted later
    rw [hload] at hnoting
    have hne : earlier ++ password :: later ≠ [] := by simp
    rw [run_openFile read hne, run_openFile read hne, hnoting, loadFirst_of_noting hnoting]
    exact ⟨rfl, rfl⟩
  · intro last hlast refused
    obtain ⟨earlier, rfl⟩ := List.getLast?_eq_some_iff.mp hlast
    obtain ⟨fault, t, hload, haliases, hnoting⟩ := noting_loadFirst_of_refused anew refused
    refine ⟨fault, t, hload, ?_, haliases, ?_⟩
    · rw [run_openFile read (by simp), loadFirst_of_noting hnoting]
    · rw [run_openFile read (by simp), hnoting]

end StoreType
end General

section Samples
attribute [local instance] Platform.standard

namespace StoreType

/-- A file in PKCS #12 with nothing in it, under the password `b`. -/
def sampleFile : Bytes :=
  [48, 65, 2, 1, 3, 48, 17, 6, 9, 42, 134, 72, 134, 247, 13, 1, 7, 1, 160, 4, 4, 2, 48, 0, 48, 41,
   48, 33, 48, 9, 6, 5, 43, 14, 3, 2, 26, 5, 0, 4, 20, 41, 224, 246, 155, 250, 175, 247, 215, 64,
   251, 135, 94, 84, 79, 97, 3, 17, 71, 15, 180, 4, 1, 115, 2, 1, 1]

/-- Reads that file as `Pfx.read` does, without the arithmetic of its check value. -/
def sampleReader : PfxStore.PfxReader := fun b password =>
  if b = sampleFile ∧ password = some (Bytes.ofAscii "b") then .ok ⟨none, none, []⟩
  else .error (.mishap .badValue)

/-- Files with that file. -/
def sampleWorld : World := .ofFiles (.ofContents [(["store"], sampleFile)])

/-- A store that was opened before and has an entry. -/
def sampleStore : PfxStore := ⟨some [], some "old", ⟨[("old", [])]⟩, .empty⟩

/-- Of three passwords the second opens the file, and the third is not tried. -/
theorem sample_opens_with_the_second :
    let kind := pkcs12.kindWith sampleReader (.standard .silent)
    let path? := some (Path.ofText "store")
    let passwords := [Bytes.ofAscii "a", Bytes.ofAscii "b", Bytes.ofAscii "c"]
    path?.mapM sampleWorld.files.read = .ok (some sampleFile) ∧
    kind.refuses (some sampleFile) (Bytes.ofAscii "a") (.holding none) = true ∧
    kind.load (some sampleFile) (some (Bytes.ofAscii "b")) (.holding none) =
      (.ok (), .holding (some sampleFile)) ∧
    sampleWorld.run (kind.openFile path? passwords sampleStore) =
      (.ok (.ok (), .holding (some sampleFile)), sampleWorld) ∧
    sampleWorld.run (kind.noting.openFile path? passwords (sampleStore, [])) =
      (.ok (.ok (), .holding (some sampleFile), [Bytes.ofAscii "a", Bytes.ofAscii "b"]),
        sampleWorld) := by
  intro kind path? passwords
  have read : path?.mapM sampleWorld.files.read = .ok (some sampleFile) := by decide +kernel
  have refused : kind.refuses (some sampleFile) (Bytes.ofAscii "a") (.holding none) = true := by
    decide +kernel
  have accepted : kind.load (some sampleFile) (some (Bytes.ofAscii "b")) (.holding none) =
      (.ok (), .holding (some sampleFile)) := by
    decide +kernel
  have hopens := (opens_as_with_the_right_password sampleReader (.standard .silent) pkcs12
    sampleStore sampleWorld path? passwords).2 (some sampleFile) read
  exact ⟨read, refused, accepted, hopens.1 [Bytes.ofAscii "a"] (Bytes.ofAscii "b")
    [Bytes.ofAscii "c"] _ rfl (List.forall_mem_singleton.mpr refused) accepted⟩

end StoreType
end Samples
end PackageSigning
