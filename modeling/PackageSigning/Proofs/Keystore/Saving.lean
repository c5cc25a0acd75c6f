import PackageSigning.Keystore.PemStore
import PackageSigning.Proofs.Json.RoundTrip

/-!
# Saving a keystore and loading it again

A keystore of PEM texts is saved as a document with a check value over the canonical form of its
entries. What is loaded under the password that it was saved with are the entries as they were, in
the same order (`PemStore.WellFormed.load_saved`): the document is read back as it was written,
so the check value is computed from the same entries.
-/

namespace PackageSigning

open JsonValue (Legible)

namespace JsonValue

theorem hexDigit_spells : ∀ {d : Nat}, d < 16 → Bytes.hexValue? (Bytes.hexDigit d) = some d ∧
    spelledBytes?.isBlank (Bytes.hexDigit d) = false := by
  decide

/-- Bytes are spelled by their digits. -/
theorem bytes_toHex (b : Bytes) : bytes (.text (Bytes.toHex b)) = .ok b := by
  have hspelled : spelledBytes? (b.flatMap fun x =>
      [Bytes.hexDigit (x.toNat / 16), Bytes.hexDigit (x.toNat % 16)]) = some b := by
    induction b with
    | nil => rfl
    | cons x b ih =>
      have hx := x.toNat_lt
      obtain ⟨hhigh, hblank⟩ := hexDigit_spells (d := x.toNat / 16) (by omega)
      obtain ⟨hlow, -⟩ := hexDigit_spells (d := x.toNat % 16) (by omega)
      have hvalue : UInt8.ofNat (x.toNat / 16 * 16 + x.toNat % 16) = x := by
        apply UInt8.toNat_inj.mp
        rw [UInt8.toNat_ofNat']
        omega
      rw [List.flatMap_cons, List.cons_append, List.cons_append, List.nil_append, spelledBytes?,
        hblank, hhigh, hlow, ih]
      exact congrArg (fun y => some (y :: b)) hvalue
  unfold bytes Bytes.toHex
  simp only [JsonText.text?_ofString, Option.bind_some, String.toList_ofList, hspelled]

end JsonValue

variable [Platform]

namespace StoreMac

/-- A check value can be made of entries that can be written, with every number of iterations that
is accepted. -/
theorem exists_compute {entries : JsonValue} (shallow : entries.depth ≤ 4) (password salt : Bytes)
    {iterations : Int} (positive : 1 ≤ iterations)
    (accepted : Platform.refusal (.direct keyLength iterations.toNat) = none) :
    ∃ value, compute entries password salt iterations = .ok value := by
  have hrefusal : KeyDerivation.refusal? keyLength iterations = none := by
    unfold KeyDerivation.refusal?
    rw [if_neg (by omega), if_neg (by omega), Int.toNat_natCast, accepted]
    rfl
  have hwritable := Platform.four_le_nesting .write
  unfold compute
  rw [hrefusal]
  dsimp only
  rw [if_neg (by omega)]
  exact ⟨_, rfl⟩

end StoreMac

namespace StoreDocument

/-- The document of this format with some entries and a check value. -/
def ofParts (entries : JsonValue) (mac : StoreMac) : StoreDocument where
  document := .object
    [("format", .text formatName), ("version", .integer 1), ("entries", entries),
     ("mac", .object
       [("salt", .text (Bytes.toHex mac.salt)), ("iterations", .integer mac.iterations),
        ("value", .text (Bytes.toHex mac.value))])]
  entries
  mac

/-- The text of such a document, as a file. -/
def fileOf (entries : JsonValue) (mac : StoreMac) : Bytes :=
  Bytes.ofText (String.ofList ((ofParts entries mac).document.indented 0))

variable {entries : JsonValue} {mac : StoreMac}

omit [Platform] in
theorem legible_ofParts {depth : Nat} (legible : Legible (depth + 1) entries)
    (short : (Nat.toDigits 10 mac.iterations.natAbs).length ≤ Text.maxDigits) :
    Legible (depth + 2) (ofParts entries mac).document := by
  have hmac : Legible (depth + 1) (.object
      [("salt", .text (Bytes.toHex mac.salt)), ("iterations", .integer mac.iterations),
       ("value", .text (Bytes.toHex mac.value))]) := by
    refine Legible.object_of_names ["salt", "iterations", "value"] (by decide) rfl ?_
    simp only [List.forall_mem_cons]
    exact ⟨.ofString _, .integer short, .ofString _, nofun⟩
  refine Legible.object_of_names ["format", "version", "entries", "mac"] (by decide) rfl ?_
  simp only [List.forall_mem_cons]
  exact ⟨.ofString _, .integer (by decide), legible, hmac, nofun⟩

omit [Platform] in
theorem parts_ofParts (positive : 1 ≤ mac.iterations) :
    parts (ofParts entries mac).document = .ok (ofParts entries mac) := by
  have hmac : (ofParts entries mac).document.member "mac" = .ok (.object
      [("salt", .text (Bytes.toHex mac.salt)), ("iterations", .integer mac.iterations),
       ("value", .text (Bytes.toHex mac.value))]) := rfl
  have hentries : (ofParts entries mac).document.member "entries" = .ok entries := rfl
  unfold parts
  rw [hentries, hmac]
  show JsonValue.bytes (.text (Bytes.toHex mac.salt)) >>= _ = _
  rw [JsonValue.bytes_toHex]
  show JsonValue.bytes (.text (Bytes.toHex mac.value)) >>= _ = _
  rw [JsonValue.bytes_toHex]
  exact if_neg (by omega)

/-- A file with the right check value is accepted as far as its entries are. -/
theorem accept_fileOf (legible : Legible (Platform.nesting .read) (ofParts entries mac).document)
    (positive : 1 ≤ mac.iterations) {password : Bytes}
    (hvalue : StoreMac.compute entries password mac.salt mac.iterations = .ok mac.value) :
    accept (fileOf entries mac) (some password) = entries.entries := by
  have hofBytes : ofBytes (fileOf entries mac) = .ok (ofParts entries mac) := by
    unfold ofBytes fileOf
    simp only [JsonReading.ofBytes_indented legible, parts_ofParts positive]
  -- The entries that were read are the ones that the check value was computed from.
  have hcheck : (ofParts entries mac).check (some password) = .ok () := by
    show StoreMac.compute entries password mac.salt mac.iterations >>= _ = _
    rw [hvalue]
    exact if_pos rfl
  unfold accept
  rw [hofBytes]
  show ((ofParts entries mac).check (some password) >>= fun _ => entries.entries) = _
  rw [hcheck]
  rfl

end StoreDocument

namespace PemStore

/-- The store can be saved, and what is saved can be read. Its entries have two levels. -/
structure WellFormed (s : PemStore) : Prop where
  distinct : s.entries.Distinct
  named : ∀ e ∈ s.entries.entries, ∃ name : String, e.1 = .text name
  legible : ∀ e ∈ s.entries.entries, ∀ depth, Legible (depth + 2) e.2
  positive : 1 ≤ s.iterations
  accepted : Platform.refusal (.direct StoreMac.keyLength s.iterations.toNat) = none

/-- The entries that go by texts. -/
def members (s : PemStore) : List (JsonText × JsonValue) :=
  s.entries.entries.filterMap fun e => match e.1 with
    | .text name => some (name, e.2)
    | _ => none

variable {s : PemStore}

omit [Platform] in
/-- A store of entries that all go by texts. -/
theorem written_eq (named : ∀ e ∈ s.entries.entries, ∃ name : String, e.1 = .text name) :
    s.written = .ok (.object s.members) ∧
      s.members.map (fun m => (EntryName.text m.1, m.2)) = s.entries.entries ∧
      ∀ m ∈ s.members, m.1.Settled := by
  unfold written members
  generalize s.entries.entries = entries at named ⊢
  induction entries with
  | nil => exact ⟨rfl, rfl, nofun⟩
  | cons e entries ih =>
    obtain ⟨⟨name, he⟩, hentries⟩ := List.forall_mem_cons.mp named
    obtain ⟨hwritten, hmap, hsettled⟩ := ih hentries
    obtain ⟨_, v⟩ := e
    cases he
    obtain ⟨members, hmapM, hmembers⟩ := bind_eq_ok.mp hwritten
    obtain rfl : members = _ := JsonValue.object.inj (pure_eq_ok.mp hmembers)
    rw [List.mapM_cons]
    refine ⟨?_, congrArg (_ :: ·) hmap, ?_⟩
    · show (_ >>= _) >>= _ = _
      rw [hmapM]
      rfl
    · exact List.forall_mem_cons.mpr ⟨JsonText.settled_ofString name, hsettled⟩

omit [Platform] in
theorem entries_members (named : ∀ e ∈ s.entries.entries, ∃ name : String, e.1 = .text name) :
    (JsonValue.object s.members).entries = .ok s.entries := by
  show Except.ok (OrderedMap.mk (s.members.map fun m => (EntryName.text m.1, m.2))) = _
  rw [(written_eq named).2.1]

theorem WellFormed.legible_iterations (h : s.WellFormed) :
    (Nat.toDigits 10 s.iterations.natAbs).length ≤ Text.maxDigits := by
  have hdigits : (Nat.toDigits 10 s.iterations.natAbs).length ≤ 20 := by
    rw [Nat.length_toDigits_le_iff (by decide) (by decide)]
    have hpositive := h.positive
    have hbounded := Platform.fits_word h.accepted
    unfold UInt64.size at hbounded
    omega
  exact hdigits.trans (by decide)

theorem WellFormed.legible_members (h : s.WellFormed) (depth : Nat) :
    Legible (depth + 3) (.object s.members) := by
  obtain ⟨-, hmap, settled⟩ := written_eq h.named
  have distinct : (s.members.map (·.1)).Nodup := by
    have hkeys : (s.members.map (·.1)).map EntryName.text = s.entries.keys := by
      unfold OrderedMap.keys
      rw [← hmap, List.map_map, List.map_map]
      rfl
    exact List.Nodup.of_map EntryName.text (hkeys ▸ h.distinct)
  refine .object distinct settled ?_
  intro m hm
  exact h.legible (.text m.1, m.2) (hmap ▸ List.mem_map_of_mem hm) depth

theorem WellFormed.legible_document (h : s.WellFormed) (salt value : Bytes) (depth : Nat) :
    Legible (depth + 4)
      (StoreDocument.ofParts (.object s.members) ⟨salt, s.iterations, value⟩).document :=
  StoreDocument.legible_ofParts (h.legible_members depth) h.legible_iterations

theorem WellFormed.save_eq (h : s.WellFormed) {password salt value : Bytes}
    (hvalue : StoreMac.compute (.object s.members) password salt s.iterations = .ok value) :
    s.save password salt = .ok (String.ofList ((StoreDocument.ofParts (.object s.members)
      ⟨salt, s.iterations, value⟩).document.indented 0)) := by
  have hdepth := (h.legible_document salt value 0).depth_le
  have hwritable := Platform.four_le_nesting .layOut
  unfold save
  rw [(written_eq h.named).1]
  show StoreMac.compute (.object s.members) password salt s.iterations >>= _ = _
  rw [hvalue]
  exact if_neg (Nat.not_lt.mpr (hdepth.trans hwritable))

/-- What a saved store says is accepted under the password that it was saved with. -/
theorem WellFormed.accept_saved (h : s.WellFormed) {password salt value : Bytes}
    (hvalue : StoreMac.compute (.object s.members) password salt s.iterations = .ok value) :
    StoreDocument.accept (StoreDocument.fileOf (.object s.members) ⟨salt, s.iterations, value⟩)
      (some password) = .ok s.entries := by
  obtain ⟨more, hnesting⟩ := Nat.exists_eq_add_of_le' (Platform.four_le_nesting .read)
  rw [StoreDocument.accept_fileOf (hnesting ▸ h.legible_document salt value more) h.positive hvalue]
  exact entries_members h.named

theorem load_of_accept {b : Bytes} {password : Option Bytes}
    {entries : OrderedMap EntryName JsonValue}
    (h : StoreDocument.accept b password = .ok entries) (t : PemStore) :
    t.load (some b) password = (.ok (), { t with entries }) := by
  unfold load
  dsimp only
  rw [h]

/-- A store is loaded as it was saved, under the password that it was saved with. -/
theorem WellFormed.load_saved (h : s.WellFormed) (password salt : Bytes) (t : PemStore) :
    ∃ text, s.save password salt = .ok text ∧
      t.load (some (Bytes.ofText text)) (some password) =
        (.ok (), { t with entries := s.entries }) := by
  have shallow := (h.legible_members 0).depth_le
  obtain ⟨value, hvalue⟩ := StoreMac.exists_compute (Nat.le_succ_of_le shallow) password salt
    h.positive h.accepted
  exact ⟨_, h.save_eq hvalue, load_of_accept (h.accept_saved hvalue) t⟩

end PemStore
end PackageSigning
