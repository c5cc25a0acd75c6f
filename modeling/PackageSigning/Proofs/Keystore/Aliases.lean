import PackageSigning.Keystore.PfxStore
import PackageSigning.Proofs.Notary.Recorded
import PackageSigning.Proofs.OrderedMap
import PackageSigning.Proofs.Outcome

/-!
# The names of entries in keystores of one key

The key entry and the certificates outside its chain go by names that the file gives them. The
store tells them apart exactly when the names differ: it lists a name twice, and finds its only
key entry ambiguous, when a certificate goes by the name of the key entry; and of certificates
that go by one name it keeps the last (`PfxStore.tells_entries_apart_iff`).
-/

namespace PackageSigning.PfxStore

/-- The key entry that a file makes, if it has a key and its certificate: the name and the
certificates. -/
def keyAndChain? (pfx : Pfx) : Option (EntryName × List Certificate) :=
  match pfx.key, pfx.certificate with
  | some _, some c =>
    some (↑(nameOf c defaultAlias), c.certificate.chainAmong (pfx.others.map (·.certificate)))
  | _, _ => none

/-- The certificates from some place on that are not among others, by name. -/
def outsideFrom (chain : List Certificate) (place : Nat) (others : List NamedCertificate) :
    List (EntryName × Certificate) :=
  (others.zipIdx place).filterMap fun (c, place) =>
    if c.certificate ∈ chain then none else some (↑(nameOf c s!"cert-{place}"), c.certificate)

/-- The certificates of a file that are not those of its key entry, by name. -/
def outside (pfx : Pfx) : List (EntryName × Certificate) :=
  outsideFrom ((keyAndChain? pfx).map (·.2)).toList.flatten 1 pfx.others

/-- What a store becomes when a file is loaded into it. -/
def made (b : Bytes) (pfx : Pfx) : PfxStore :=
  ⟨some b, (keyAndChain? pfx).map (·.1), ⟨(keyAndChain? pfx).toList⟩, .ofList (outside pfx)⟩

theorem withKey_eq {data : Option Bytes} {pfx : Pfx} {s : PfxStore}
    (h : (holding data).withKey pfx = .ok s) :
    s = ⟨data, (keyAndChain? pfx).map (·.1), ⟨(keyAndChain? pfx).toList⟩, .empty⟩ := by
  unfold withKey at h
  unfold keyAndChain?
  cases hkey : pfx.key with
  | none =>
    rw [hkey] at h
    exact (Except.ok.inj h).symm
  | some key =>
    rw [hkey] at h
    cases hcertificate : pfx.certificate with
    | none =>
      rw [hcertificate] at h
      exact (Except.ok.inj h).symm
    | some c =>
      rw [hcertificate] at h
      obtain ⟨chain, hchain, h⟩ := bind_eq_ok.mp h
      -- Reading the names on the way changes nothing in the chain.
      obtain ⟨_, -, hchain⟩ := bind_eq_ok.mp hchain
      obtain rfl := pure_eq_ok.mp hchain
      exact (pure_eq_ok.mp h).symm

theorem withOthers_eq (s : PfxStore) (place : Nat) (others : List NamedCertificate) :
    s.withOthers place others = { s with certificates :=
      (outsideFrom s.inChain place others).foldl (fun m e => m.put e.1 e.2) s.certificates } := by
  induction others generalizing s place with
  | nil => rfl
  | cons c rest ih =>
    -- Only `certificates` changes on the way, so the chain that is compared with stays the same.
    unfold withOthers outsideFrom
    rw [List.zipIdx_cons, List.filterMap_cons]
    by_cases h : c.certificate ∈ s.inChain
    · rw [if_pos (List.contains_iff_mem.mpr h), ih]
      simp only [if_pos h]
      rfl
    · rw [if_neg (by simpa using h), ih]
      simp only [if_neg h, List.foldl_cons]
      rfl

theorem load_eq {reader : PfxReader} {b : Bytes} {password : Option Bytes} {pfx : Pfx}
    {s : PfxStore} (accepted : reader b (password.filter (!·.isEmpty)) = .ok pfx)
    (loads : (load reader (some b) password s).1 = .ok ()) :
    load reader (some b) password s = (.ok (), made b pfx) := by
  have hparse : parse reader .storeIntegrity b password = .ok pfx := by
    unfold parse
    rw [accepted]
  unfold load at loads ⊢
  simp only [hparse] at loads ⊢
  cases hkey : (holding (some b)).withKey pfx with
  | error fault =>
    rw [hkey] at loads
    cases loads
  | ok t =>
    -- The certificates in chains are those of the one entry that the key makes.
    have hchain : inChain ⟨some b, (keyAndChain? pfx).map (·.1), ⟨(keyAndChain? pfx).toList⟩,
        .empty⟩ = ((keyAndChain? pfx).map (·.2)).toList.flatten := by
      unfold inChain
      cases keyAndChain? pfx <;> rfl
    unfold made outside
    simp only [withKey_eq hkey, withOthers_eq, hchain]
    rfl

theorem mem_aliases (b : Bytes) (pfx : Pfx) (name : EntryName) : name ∈ (made b pfx).aliases ↔
    name ∈ (keyAndChain? pfx).map (·.1) ∨ name ∈ (outside pfx).map (·.1) := by
  unfold aliases made
  rw [List.mem_append, OrderedMap.mem_keys_ofList, Option.mem_toList]
  rfl

/-- The names that the store lists are distinct unless a certificate goes by that of the key. -/
theorem nodup_aliases_iff (b : Bytes) (pfx : Pfx) : (made b pfx).aliases.Nodup ↔
    ∀ entry ∈ keyAndChain? pfx, entry.1 ∉ (outside pfx).map (·.1) := by
  have distinct : (OrderedMap.ofList (outside pfx)).keys.Nodup := OrderedMap.distinct_ofList _
  unfold aliases made
  cases keyAndChain? pfx with
  | none => simpa using distinct
  | some entry =>
    show (entry.1 :: (OrderedMap.ofList (outside pfx)).keys).Nodup ↔ _
    rw [List.nodup_cons, OrderedMap.mem_keys_ofList, and_iff_left distinct]
    simp

/-- The listed names that are those of key entries. -/
theorem keyNames_made (b : Bytes) (pfx : Pfx) :
    (made b pfx).aliases.filter (fun name => (made b pfx).keyAlias == some name) =
      match keyAndChain? pfx with
      | none => []
      | some (name, _) => name :: if name ∈ (outside pfx).map (·.1) then [name] else [] := by
  have distinct : (OrderedMap.ofList (outside pfx)).keys.Nodup := OrderedMap.distinct_ofList _
  unfold aliases made
  cases keyAndChain? pfx with
  | none => simp
  | some entry =>
    -- The names of the certificates are distinct, so that of the key is at most once among them.
    have hfilter : (OrderedMap.ofList (outside pfx)).keys.filter (entry.1 == ·) =
        if entry.1 ∈ (outside pfx).map (·.1) then [entry.1] else [] := by
      rw [List.filter_congr fun name _ => Bool.beq_comm, List.filter_beq]
      split
      · next h =>
        rw [List.count_eq_one_of_mem distinct (OrderedMap.mem_keys_ofList.mpr h)]
        rfl
      · next h =>
        rw [List.count_eq_zero_of_not_mem (mt OrderedMap.mem_keys_ofList.mp h)]
        rfl
    simpa using hfilter

/-- Which entry is found to be the only key entry. -/
theorem onlyKeyAlias_made (reader : PfxReader) (b : Bytes) (pfx : Pfx) (store : String) :
    (kindWith reader).onlyKeyAlias (made b pfx) store =
      match keyAndChain? pfx with
      | none => .error (.aliasNotFound store none)
      | some (name, _) =>
        if name ∈ (outside pfx).map (·.1) then .error (.ambiguousAlias store [name.shown, name.shown])
        else .ok name := by
  have hfilter : (made b pfx).aliases.filterM ((kindWith reader).isKeyEntry (made b pfx)) =
      .ok ((made b pfx).aliases.filter fun name => (made b pfx).keyAlias == some name) :=
    filterM_ok _ _
  unfold KeystoreKind.onlyKeyAlias
  show (made b pfx).aliases.filterM ((kindWith reader).isKeyEntry (made b pfx)) >>= _ = _
  rw [hfilter, keyNames_made]
  cases keyAndChain? pfx with
  | none => rfl
  | some entry =>
    by_cases h : entry.1 ∈ (outside pfx).map (·.1)
    · simp only [if_pos h]
      rfl
    · simp only [if_neg h]
      rfl

/-- Of every file that it loads a store lists the key entry, if there is a key with its
certificate, and the names of the certificates outside its chain. It lists no name twice, and the
key entry is found to be the only one, unless one of these certificates goes by its name; and it
keeps each of these certificates in an entry of its own exactly when their names are distinct, the
last of each name being the one that is kept. -/
theorem tells_entries_apart_iff (reader : PfxReader) (b : Bytes) (password : Option Bytes)
    (s : PfxStore) (pfx : Pfx) (store : String)
    (accepted : reader b (password.filter (!·.isEmpty)) = .ok pfx)
    (loads : ((kindWith reader).load (some b) password s).1 = .ok ()) :
    ∃ t, (kindWith reader).load (some b) password s = (.ok (), t) ∧
      (∀ name, name ∈ (kindWith reader).aliases t ↔
        name ∈ (keyAndChain? pfx).map (·.1) ∨ name ∈ (outside pfx).map (·.1)) ∧
      (((kindWith reader).aliases t).Nodup ↔
        ∀ entry ∈ keyAndChain? pfx, entry.1 ∉ (outside pfx).map (·.1)) ∧
      (t.certificates.entries = outside pfx ↔ ((outside pfx).map (·.1)).Nodup) ∧
      (∀ name, t.certificates.get? name =
        ((outside pfx).reverse.find? (·.1 = name)).map (·.2)) ∧
      (kindWith reader).onlyKeyAlias t store =
        match keyAndChain? pfx with
        | none => .error (.aliasNotFound store none)
        | some (name, _) =>
          if name ∈ (outside pfx).map (·.1) then .error (.ambiguousAlias store [name.shown, name.shown])
          else .ok name :=
  ⟨made b pfx, load_eq (s := s) accepted loads, mem_aliases b pfx, nodup_aliases_iff b pfx,
    OrderedMap.entries_ofList_iff, OrderedMap.get?_ofList _, onlyKeyAlias_made reader b pfx store⟩

/-- A file in PKCS #12 under the password `x`, with the older signer's key and certificate. Its
certificate and the other one that is there both go by the name `a`. -/
def sharedNameFile : Bytes :=
  [48, 130, 3, 27, 2, 1, 3, 48, 130, 2, 233, 6, 9, 42, 134, 72, 134, 247, 13, 1, 7, 1, 160, 130,
   2, 218, 4, 130, 2, 214, 48, 130, 2, 210, 48, 130, 2, 206, 6, 9, 42, 134, 72, 134, 247, 13, 1,
   7, 1, 160, 130, 2, 191, 4, 130, 2, 187, 48, 130, 2, 183, 48, 95, 6, 11, 42, 134, 72, 134,
   247, 13, 1, 12, 10, 1, 1, 160, 60, 48, 58, 2, 1, 0, 48, 16, 6, 7, 42, 134, 72, 206, 61, 2, 1,
   6, 5, 43, 129, 4, 0, 33, 4, 35, 48, 33, 2, 1, 1, 4, 28, 91, 111, 50, 46, 126, 29, 56, 87,
   180, 145, 129, 162, 224, 105, 81, 101, 36, 230, 139, 140, 59, 66, 251, 159, 204, 244, 245,
   193, 49, 18, 48, 16, 6, 9, 42, 134, 72, 134, 247, 13, 1, 9, 21, 49, 3, 4, 1, 1, 48, 130, 1,
   74, 6, 11, 42, 134, 72, 134, 247, 13, 1, 12, 10, 1, 3, 160, 130, 1, 18, 48, 130, 1, 14, 6,
   10, 42, 134, 72, 134, 247, 13, 1, 9, 22, 1, 160, 129, 255, 4, 129, 252] ++
  Sample.older.certificate.der ++
  [49, 37, 48, 17, 6, 9, 42, 134, 72, 134, 247, 13, 1, 9, 20, 49, 4, 30, 2, 0, 97, 48, 16, 6, 9,
   42, 134, 72, 134, 247, 13, 1, 9, 21, 49, 3, 4, 1, 1, 48, 130, 1, 4, 6, 11, 42, 134, 72, 134,
   247, 13, 1, 12, 10, 1, 3, 160, 129, 223, 48, 129, 220, 6, 10, 42, 134, 72, 134, 247, 13, 1,
   9, 22, 1, 160, 129, 205, 4, 129, 202] ++
  Sample.younger.certificate.der ++
  [49, 19, 48, 17, 6, 9, 42, 134, 72, 134, 247, 13, 1, 9, 20, 49, 4, 30, 2, 0, 97, 48, 41, 48,
   33, 48, 9, 6, 5, 43, 14, 3, 2, 26, 5, 0, 4, 20, 126, 188, 0, 23, 155, 174, 240, 2, 7, 219,
   27, 95, 119, 75, 115, 230, 136, 165, 10, 135, 4, 1, 115, 2, 1, 1]

/-- What that file holds. -/
def sharedName : Pfx :=
  ⟨Sample.older.key, some ⟨Sample.older.certificate, some "a"⟩,
    [⟨Sample.younger.certificate, some "a"⟩]⟩

/-- Reads that file as `Pfx.read` does, without the arithmetic of its check value. -/
def sharedNameReader : PfxReader := fun b password =>
  if b = sharedNameFile ∧ password = some (Bytes.ofAscii "x") then .ok sharedName
  else .error (.mishap .badValue)

/-- A store that accepts a file lists a name twice and finds its one key entry ambiguous. -/
theorem sample_alias_listed_twice :
    let kind := kindWith sharedNameReader
    ∃ t, kind.load (some sharedNameFile) (some (Bytes.ofAscii "x")) kind.fresh = (.ok (), t) ∧
      kind.aliases t = ["a", "a"] ∧
      kind.onlyKeyAlias t "store" = .error (.ambiguousAlias "store" ["a", "a"]) :=
  ⟨made sharedNameFile sharedName, by decide +kernel, by decide +kernel, by decide +kernel⟩

/-- The one certificate outside the chain has an entry, and its name is that of the key. -/
theorem sample_entries_told_apart :
    sharedNameReader sharedNameFile ((some (Bytes.ofAscii "x")).filter (!·.isEmpty)) =
      .ok sharedName ∧
    ((kindWith sharedNameReader).load (some sharedNameFile) (some (Bytes.ofAscii "x"))
      (holding none)).1 = .ok () ∧
    ∃ t, (kindWith sharedNameReader).load (some sharedNameFile) (some (Bytes.ofAscii "x"))
        (holding none) = (.ok (), t) ∧
      t.certificates.entries = outside sharedName ∧
      ¬((kindWith sharedNameReader).aliases t).Nodup := by
  have accepted : sharedNameReader sharedNameFile
      ((some (Bytes.ofAscii "x")).filter (!·.isEmpty)) = .ok sharedName := by
    decide +kernel
  have loads : ((kindWith sharedNameReader).load (some sharedNameFile)
      (some (Bytes.ofAscii "x")) (holding none)).1 = .ok () := by
    decide +kernel
  obtain ⟨t, hload, -, hnodup, hkept, -, -⟩ := tells_entries_apart_iff sharedNameReader
    sharedNameFile (some (Bytes.ofAscii "x")) (holding none) sharedName "store" accepted loads
  have hkeyName : (("a" : EntryName), [Sample.older.certificate]) ∈ keyAndChain? sharedName := by
    decide +kernel
  have hshared : ("a" : EntryName) ∈ (outside sharedName).map (·.1) := by decide +kernel
  refine ⟨accepted, loads, t, hload, hkept.mpr (by decide +kernel), ?_⟩
  intro h
  exact hnodup.mp h _ hkeyName hshared

end PackageSigning.PfxStore
