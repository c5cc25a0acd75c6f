import PackageSigning.Platform.Standard
import PackageSigning.Proofs.Failure.Stores
import PackageSigning.Proofs.Json.Distinct
import PackageSigning.Proofs.Json.Text

/-!
# What a keystore of PEM texts makes of a file

A file that is no keystore of PEM texts is to be reported as such. It is, but for the files that
`StoreDocument.Escapes` lists: JSON that is nested too deeply to be read, or to be written for the
check value, a number of iterations that is infinite or that the platform refuses, and entries that
are no mapping. Whatever a file is refused for, no entries are left, and what is accepted is a
mapping of which no two names count for the same (`PemStore.loads_or_reports_iff`).
-/

namespace PackageSigning

/-- Steps of one kind in a row come to what each of them comes to. -/
theorem mapM_eq_ok_iff {ε α β : Type} {f : α → Except ε β} {as : List α} {bs : List β} :
    as.mapM f = .ok bs ↔ List.Forall₂ (fun a b => f a = .ok b) as bs := by
  induction as generalizing bs with
  | nil =>
    constructor
    · intro h
      obtain rfl := pure_eq_ok.mp h
      exact .nil
    · rintro ⟨⟩
      rfl
  | cons a as ih =>
    rw [List.mapM_cons, bind_eq_ok]
    constructor
    · rintro ⟨b, hb, h⟩
      obtain ⟨bs, hbs, h⟩ := bind_eq_ok.mp h
      obtain rfl := pure_eq_ok.mp h
      exact .cons hb (ih.mp hbs)
    · rintro (_ | ⟨hb, hbs⟩)
      exact ⟨_, hb, bind_eq_ok.mpr ⟨_, ih.mpr hbs, rfl⟩⟩

namespace EntryName

variable {a b c : EntryName} {α : Type} {pairs : List (EntryName × α)}

theorem same_iff : a.same b = true ↔ a.worth = b.worth := decide_eq_true_iff

/-- Among the names of a series that count for the same, the first stands for all. -/
theorem exists_merged (hc : c ∈ (merge pairs).keys) :
    ∃ name, c.same name = true ∧ (pairs.map (·.1)).find? (·.same name) = some c := by
  unfold merge at hc
  rw [OrderedMap.mem_keys_ofList, List.map_map] at hc
  obtain ⟨p, hp, hfirst⟩ := List.mem_map.mp hc
  refine ⟨p.1, ?_⟩
  cases hfind : (pairs.map (·.1)).find? (·.same p.1) with
  | none =>
    have hself := List.find?_eq_none.mp hfind p.1 (List.mem_map_of_mem hp)
    exact absurd (same_iff.mpr rfl) hself
  | some first =>
    have hsame := List.find?_some hfind
    rw [Function.comp_apply, hfind] at hfirst
    cases hfirst
    exact ⟨hsame, rfl⟩

/-- No two names of a map count for the same. -/
theorem apart_merge (pairs : List (EntryName × α)) :
    (merge pairs).keys.Pairwise fun a b => a.same b = false := by
  refine (OrderedMap.distinct_ofList _).imp_of_mem fun {a b} ha hb hne => ?_
  obtain ⟨x, hax, hfirst⟩ := exists_merged ha
  obtain ⟨y, hby, hfirst'⟩ := exists_merged hb
  rw [same_iff] at hax hby
  rw [Bool.eq_false_iff]
  intro hsame
  have hxy : x.worth = y.worth := hax.symm.trans ((same_iff.mp hsame).trans hby)
  refine hne (Option.some.inj ?_)
  rw [← hfirst, ← hfirst']
  unfold same
  rw [hxy]

end EntryName

namespace JsonValue

/-- A name as a value. -/
def ofName : EntryName → JsonValue
  | .text t => .text t
  | .null => .null
  | .bool b => .bool b
  | .integer n => .integer n
  | .float x => .float x

/-- A value that is a name with a value: a list or a text of two, or an object with two members,
of which only the names count. -/
inductive PairedAs : JsonValue → EntryName × JsonValue → Prop
  | list {name : EntryName} {value : JsonValue} : PairedAs (.list [ofName name, value]) (name, value)
  | text {t : JsonText} {a b : Nat} (h : t.points = [a, b]) :
    PairedAs (.text t) (.text ⟨[a]⟩, .text ⟨[b]⟩)
  | object {a b : JsonText} {x y : JsonValue} :
    PairedAs (.object [(a, x), (b, y)]) (.text a, .text b)

/-- A value that is a mapping: an object, or a list of pairs. The empty text is an empty one. -/
inductive Mapping : JsonValue → OrderedMap EntryName JsonValue → Prop
  | object (members : List (JsonText × JsonValue)) :
    Mapping (.object members) ⟨members.map fun m => (.text m.1, m.2)⟩
  | list {items : List JsonValue} {pairs : List (EntryName × JsonValue)}
    (h : List.Forall₂ PairedAs items pairs) : Mapping (.list items) (EntryName.merge pairs)
  | text : Mapping (.text ⟨[]⟩) .empty

variable {v w : JsonValue} {name : String} {fault : Fault}

theorem member_eq_ok_iff : v.member name = .ok w ↔ v.member? name = some w := by
  cases v with
  | object members =>
    unfold member member?
    dsimp only
    cases members.lookup (JsonText.ofString name) <;> simp
  | _ => simp [member, member?]

/-- The values in a value are as the value. -/
theorem Unambiguous.of_member? (h : v.Unambiguous) (found : v.member? name = some w) :
    w.Unambiguous := by
  cases v with
  | object members => exact h.of_lookup found
  | _ => cases found

theorem bytes_eq_ok_iff {b : Bytes} : v.bytes = .ok b ↔
    ∃ s : String, v = .text s ∧ spelledBytes? s.toList = some b := by
  constructor
  · intro h
    unfold bytes at h
    split at h
    · next t =>
      split at h
      · next spelled =>
        cases h
        obtain ⟨s, hs, hspelled⟩ := Option.bind_eq_some_iff.mp spelled
        exact ⟨s, congrArg JsonValue.text (JsonText.text?_eq_some_iff.mp hs), hspelled⟩
      · cases h
    · cases h
  · rintro ⟨s, rfl, spelled⟩
    simp [bytes, spelled]

theorem member_eq_error (h : v.member name = .error fault) :
    fault = .mishap .missingEntry ∨ fault = .mishap .wrongType := by
  unfold member at h
  split at h
  · split at h
    · cases h
    · cases h
      exact .inl rfl
  · cases h
    exact .inr rfl

theorem bytes_eq_error (h : v.bytes = .error fault) :
    fault = .mishap .badValue ∨ fault = .mishap .wrongType := by
  unfold bytes at h
  split at h
  · split at h
    · cases h
    · cases h
      exact .inl rfl
  · cases h
    exact .inr rfl

theorem whole_eq_error (h : v.whole = .error fault) :
    fault = .mishap .badValue ∨ fault = .mishap .wrongType ∨
      ∃ sign, v = .float (.infinite sign) := by
  unfold whole at h
  split at h
  · cases h
  · cases h
  · next sign => exact .inr (.inr ⟨sign, rfl⟩)
  · split at h
    · cases h
    · cases h
      exact .inl rfl
  · split at h
    · cases h
    · cases h
      exact .inl rfl
  · cases h
    exact .inr (.inl rfl)

theorem name_eq_ok_iff {name : EntryName} : v.name = .ok name ↔ v = ofName name := by
  constructor
  · intro h
    cases v <;> cases h <;> rfl
  · rintro rfl
    cases name <;> rfl

theorem pair_eq_ok_iff_parts {p : EntryName × JsonValue} : v.pair = .ok p ↔
    v.parts = .ok [ofName p.1, p.2] := by
  constructor
  · intro h
    obtain ⟨parts, hparts, hpair⟩ := bind_eq_ok.mp h
    split at hpair
    · next first value =>
      obtain ⟨name, hname, hpair⟩ := bind_eq_ok.mp hpair
      cases hpair
      rw [hparts, name_eq_ok_iff.mp hname]
    · cases hpair
  · intro hparts
    refine bind_eq_ok.mpr ⟨_, hparts, bind_eq_ok.mpr ⟨p.1, name_eq_ok_iff.mpr rfl, rfl⟩⟩

theorem eq_of_ofName_eq_text {name : EntryName} {t : JsonText} (h : ofName name = .text t) :
    name = .text t := by
  cases name <;> cases h
  rfl

/-- A value is read as a pair exactly when it is one. -/
theorem pair_eq_ok_iff {p : EntryName × JsonValue} : v.pair = .ok p ↔ PairedAs v p := by
  rw [pair_eq_ok_iff_parts]
  obtain ⟨name, value⟩ := p
  constructor
  · intro hparts
    unfold JsonValue.parts at hparts
    split at hparts
    · cases hparts
      exact .list
    · next t =>
      have hmap := Except.ok.inj hparts
      obtain ⟨a, rest, hpoints, ha, hrest⟩ := List.map_eq_cons_iff.mp hmap
      obtain ⟨b, rest, rfl, rfl, hnil⟩ := List.map_eq_cons_iff.mp hrest
      obtain rfl := List.map_eq_nil_iff.mp hnil
      obtain rfl := eq_of_ofName_eq_text ha.symm
      exact .text hpoints
    · next members =>
      have hmap := Except.ok.inj hparts
      obtain ⟨⟨a, x⟩, rest, rfl, ha, hrest⟩ := List.map_eq_cons_iff.mp hmap
      obtain ⟨⟨b, y⟩, rest, rfl, rfl, hnil⟩ := List.map_eq_cons_iff.mp hrest
      obtain rfl := List.map_eq_nil_iff.mp hnil
      obtain rfl := eq_of_ofName_eq_text ha.symm
      exact .object
    · cases hparts
  · intro h
    cases h with
    | list => rfl
    | @text t a b hpoints => simp [JsonValue.parts, hpoints, ofName]
    | object => rfl

theorem parts_eq_error (h : v.parts = .error fault) : ∃ m, fault = .mishap m := by
  unfold JsonValue.parts at h
  split at h
  · cases h
  · cases h
  · cases h
  · cases h
    exact ⟨_, rfl⟩

theorem pair_eq_error (h : v.pair = .error fault) : ∃ m, fault = .mishap m := by
  obtain hparts | ⟨parts, -, hpair⟩ := bind_eq_error.mp h
  · exact parts_eq_error hparts
  · split at hpair
    · obtain hname | ⟨_, -, hpair⟩ := bind_eq_error.mp hpair
      · unfold name at hname
        split at hname <;> cases hname <;> exact ⟨_, rfl⟩
      · cases hpair
    · cases hpair
      exact ⟨_, rfl⟩

/-- The characters of a text are no pairs. -/
theorem eq_empty_of_paired {points : List Nat} {pairs : List (EntryName × JsonValue)}
    (h : List.Forall₂ PairedAs (points.map fun n => .text ⟨[n]⟩) pairs) :
    points = [] ∧ pairs = [] := by
  cases points with
  | nil =>
    cases h
    exact ⟨rfl, rfl⟩
  | cons n points =>
    cases h with
    | cons hn _ =>
      cases hn with
      | text hpoints => cases hpoints

/-- The entries of a value are those of the mapping that it is. -/
theorem entries_eq_ok_iff {m : OrderedMap EntryName JsonValue} :
    v.entries = .ok m ↔ Mapping v m := by
  have hpairs (parts : List JsonValue) (pairs : List (EntryName × JsonValue)) :
      parts.mapM pair = .ok pairs ↔ List.Forall₂ PairedAs parts pairs := by
    rw [mapM_eq_ok_iff]
    simp only [pair_eq_ok_iff]
  constructor
  · intro h
    unfold JsonValue.entries at h
    split at h
    · next members =>
      cases h
      exact .object members
    · next hobject =>
      obtain ⟨parts, hparts, h⟩ := bind_eq_ok.mp h
      obtain ⟨pairs, hmapM, h⟩ := bind_eq_ok.mp h
      cases h
      rw [hpairs] at hmapM
      unfold JsonValue.parts at hparts
      split at hparts
      · cases hparts
        exact .list hmapM
      · next t =>
        cases hparts
        obtain ⟨points⟩ := t
        obtain ⟨rfl, rfl⟩ := eq_empty_of_paired hmapM
        exact .text
      · next members => exact absurd rfl (hobject members)
      · cases hparts
  · intro h
    cases h with
    | object members => rfl
    | @list items pairs h =>
      exact bind_eq_ok.mpr ⟨items, rfl, bind_eq_ok.mpr ⟨pairs, (hpairs items pairs).mpr h, rfl⟩⟩
    | text => rfl

theorem entries_eq_error (h : v.entries = .error fault) : ∃ m, fault = .mishap m := by
  unfold JsonValue.entries at h
  split at h
  · cases h
  · obtain hparts | ⟨parts, -, h⟩ := bind_eq_error.mp h
    · exact parts_eq_error hparts
    · obtain hmapM | ⟨pairs, -, h⟩ := bind_eq_error.mp h
      · obtain ⟨part, -, hpart⟩ := exists_of_mapM_eq_error hmapM
        exact pair_eq_error hpart
      · cases h

/-- No two names of a mapping count for the same, if no object has a name twice. -/
theorem Mapping.apart {m : OrderedMap EntryName JsonValue} (h : Mapping v m)
    (hv : v.Unambiguous) : m.keys.Pairwise fun a b => a.same b = false := by
  cases h with
  | object members =>
    cases hv with
    | leaf hleaf => cases hleaf
    | object distinct _ =>
      unfold OrderedMap.keys
      rw [List.map_map, List.pairwise_map]
      refine (List.pairwise_map.mp distinct).imp fun {m n} hne => ?_
      rw [Bool.eq_false_iff]
      exact fun hsame => hne (EntryName.text.inj (EntryName.same_iff.mp hsame))
  | list => exact EntryName.apart_merge _
  | text => exact .nil

end JsonValue

namespace StoreDocument
open JsonValue (Mapping)

/-- The ways in which a file is reported not to be a keystore, or not to have the password. -/
inductive Reported : Fault → Prop
  | notAStore : Reported (.store .notPemStore)
  | otherFormat : Reported (.store .unsupportedFormat)
  | integrity : Reported .storeIntegrity

/-- A document with entries and a salt whose number of iterations is infinite. -/
structure Endless (document : JsonValue) : Prop where
  entries : ∃ v, document.member? "entries" = some v
  iterations : ∃ (mac : JsonValue) (salt : String) (b : Bytes) (sign : Bool),
    document.member? "mac" = some mac ∧ mac.member? "salt" = some (.text salt) ∧
    JsonValue.spelledBytes? salt.toList = some b ∧
    mac.member? "iterations" = some (.float (.infinite sign))

section
variable [Platform]

/-- The check value of a document is that of its entries under a password, if there is one. -/
def Matches (d : StoreDocument) (password : Option Bytes) : Prop :=
  ∀ p ∈ password, StoreMac.compute d.entries p d.mac.salt d.mac.iterations = .ok d.mac.value

/-- What keeps a file from being loaded and is not reported, with what in the file it comes
from. -/
inductive Escapes (b : Bytes) (password : Option Bytes) : Prop
  /-- JSON that is nested too deeply to be read. -/
  | tooDeep (read : JsonReading.ofBytes b = .error .tooDeep)
  /-- An infinite number of iterations. -/
  | endless {document : JsonValue} (read : JsonReading.ofBytes b = .ok document)
      (h : Endless document)
  /-- A number of iterations that the platform refuses when the check value has to be computed. -/
  | refused {d : StoreDocument} {m : Mishap} (parsed : ofBytes b = .ok d)
      (supported : d.isSupported = true) (given : password ≠ none)
      (h : Platform.refusal (.direct StoreMac.keyLength d.mac.iterations.toNat) = some m)
  /-- Entries that are nested too deeply to be written for the check value. -/
  | unwritable {d : StoreDocument} (parsed : ofBytes b = .ok d) (supported : d.isSupported = true)
      (given : password ≠ none) (h : Platform.nesting .write < d.entries.depth)
  /-- Entries that are no mapping. -/
  | noMapping {d : StoreDocument} (parsed : ofBytes b = .ok d) (supported : d.isSupported = true)
      (checked : d.Matches password) (h : ∀ entries, ¬Mapping d.entries entries)

/-- A file of this format whose check value is not that of its entries under the password. -/
structure Mismatched (b : Bytes) (password : Option Bytes) (d : StoreDocument) : Prop where
  parsed : ofBytes b = .ok d
  supported : d.isSupported = true
  differs : ∃ p ∈ password, ∃ value,
    StoreMac.compute d.entries p d.mac.salt d.mac.iterations = .ok value ∧ value ≠ d.mac.value

/-- A file of this format whose check value matches has some entries. -/
structure Holds (b : Bytes) (password : Option Bytes) (d : StoreDocument)
    (entries : OrderedMap EntryName JsonValue) : Prop where
  parsed : ofBytes b = .ok d
  supported : d.isSupported = true
  checked : d.Matches password
  mapping : Mapping d.entries entries

end

variable {b : Bytes} {password : Option Bytes} {d : StoreDocument} {document : JsonValue}
  {entries : OrderedMap EntryName JsonValue} {fault : Fault}

/-! ## The document -/

theorem Endless.parts (h : Endless document) :
    parts document = .error (.mishap .tooLarge) := by
  obtain ⟨⟨entries, hentries⟩, mac, salt, spelled, sign, hmac, hsalt, hspelled, hiterations⟩ := h
  refine bind_eq_error.mpr (.inr ⟨_, JsonValue.member_eq_ok_iff.mpr hentries, ?_⟩)
  refine bind_eq_error.mpr (.inr ⟨_, JsonValue.member_eq_ok_iff.mpr hmac, ?_⟩)
  refine bind_eq_error.mpr (.inr ⟨_, JsonValue.member_eq_ok_iff.mpr hsalt, ?_⟩)
  refine bind_eq_error.mpr (.inr ⟨_, JsonValue.bytes_eq_ok_iff.mpr ⟨_, rfl, hspelled⟩, ?_⟩)
  refine bind_eq_error.mpr (.inr ⟨_, JsonValue.member_eq_ok_iff.mpr hiterations, ?_⟩)
  exact bind_eq_error.mpr (.inl rfl)

/-- Only an infinite number is not foreseen where the parts of a document are read. -/
theorem parts_eq_error (h : parts document = .error fault) :
    fault = .mishap .badValue ∨ fault = .mishap .missingEntry ∨ fault = .mishap .wrongType ∨
      Endless document := by
  have hmember {name : String} {v : JsonValue} (h : v.member name = .error fault) :
      fault = .mishap .badValue ∨ fault = .mishap .missingEntry ∨ fault = .mishap .wrongType ∨
        Endless document :=
    .inr ((JsonValue.member_eq_error h).imp_right .inl)
  have hbytes {v : JsonValue} (h : v.bytes = .error fault) :
      fault = .mishap .badValue ∨ fault = .mishap .missingEntry ∨ fault = .mishap .wrongType ∨
        Endless document :=
    (JsonValue.bytes_eq_error h).imp_right fun h => .inr (.inl h)
  obtain h | ⟨entries, hentries, h⟩ := bind_eq_error.mp h
  · exact hmember h
  obtain h | ⟨mac, hmac, h⟩ := bind_eq_error.mp h
  · exact hmember h
  obtain h | ⟨salt, hsalt, h⟩ := bind_eq_error.mp h
  · exact hmember h
  obtain h | ⟨spelled, hspelled, h⟩ := bind_eq_error.mp h
  · exact hbytes h
  obtain h | ⟨iterations, hiterations, h⟩ := bind_eq_error.mp h
  · exact hmember h
  obtain h | ⟨n, -, h⟩ := bind_eq_error.mp h
  · obtain rfl | rfl | ⟨sign, rfl⟩ := JsonValue.whole_eq_error h
    · exact .inl rfl
    · exact .inr (.inr (.inl rfl))
    · obtain ⟨text, rfl, htext⟩ := JsonValue.bytes_eq_ok_iff.mp hspelled
      rw [JsonValue.member_eq_ok_iff] at hentries hmac hsalt hiterations
      exact .inr (.inr (.inr
        ⟨⟨entries, hentries⟩, mac, text, spelled, sign, hmac, hsalt, htext, hiterations⟩))
  obtain h | ⟨value, -, h⟩ := bind_eq_error.mp h
  · exact hmember h
  obtain h | ⟨bytes, -, h⟩ := bind_eq_error.mp h
  · exact hbytes h
  obtain ⟨-, rfl⟩ | ⟨-, h⟩ := refuse_if_eq_error.mp h
  · exact .inl rfl
  · cases h

/-- What is told of the parts of a document. -/
theorem parts_eq_ok (h : parts document = .ok d) :
    document.member? "entries" = some d.entries ∧ 1 ≤ d.mac.iterations := by
  obtain ⟨entries, hentries, h⟩ := bind_eq_ok.mp h
  obtain ⟨mac, -, h⟩ := bind_eq_ok.mp h
  obtain ⟨salt, -, h⟩ := bind_eq_ok.mp h
  obtain ⟨spelled, -, h⟩ := bind_eq_ok.mp h
  obtain ⟨iterations, -, h⟩ := bind_eq_ok.mp h
  obtain ⟨n, -, h⟩ := bind_eq_ok.mp h
  obtain ⟨value, -, h⟩ := bind_eq_ok.mp h
  obtain ⟨bytes, -, h⟩ := bind_eq_ok.mp h
  obtain ⟨hpositive, h⟩ := refuse_if_eq_ok.mp h
  cases h
  exact ⟨JsonValue.member_eq_ok_iff.mp hentries, Int.not_lt.mp hpositive⟩

variable [Platform]

theorem ofBytes_eq_ok (h : ofBytes b = .ok d) : ∃ document,
    JsonReading.ofBytes b = .ok document ∧
    document.member? "entries" = some d.entries ∧ 1 ≤ d.mac.iterations := by
  unfold ofBytes at h
  split at h
  · cases h
  · cases h
  · next document read =>
    split at h
    · cases h
    · cases h
    · cases h
    · exact ⟨document, read, parts_eq_ok h⟩

theorem ofBytes_eq_error (h : ofBytes b = .error fault) : fault = .store .notPemStore ∨
    JsonReading.ofBytes b = .error .tooDeep ∨
    ∃ document, JsonReading.ofBytes b = .ok document ∧ Endless document := by
  unfold ofBytes at h
  split at h
  · cases h
    exact .inl rfl
  · next read => exact .inr (.inl read)
  · next document read =>
    split at h
    · cases h
      exact .inl rfl
    · cases h
      exact .inl rfl
    · cases h
      exact .inl rfl
    · next hvalue hentry htype =>
      obtain rfl | rfl | rfl | hendless := parts_eq_error h
      · exact absurd h hvalue
      · exact absurd h hentry
      · exact absurd h htype
      · exact .inr (.inr ⟨document, read, hendless⟩)

theorem ofBytes_of_tooDeep (read : JsonReading.ofBytes b = .error .tooDeep) :
    ofBytes b = .error (.mishap .tooDeep) := by
  simp [ofBytes, read]

theorem Endless.ofBytes (read : JsonReading.ofBytes b = .ok document) (h : Endless document) :
    ofBytes b = .error (.mishap .tooLarge) := by
  simp [StoreDocument.ofBytes, read, h.parts]

/-! ## The check value -/

theorem check_eq_ok_iff : d.check password = .ok () ↔ d.Matches password := by
  cases password with
  | none => simp [check, Matches]
  | some p =>
    have hcheck : d.check (some p) = .ok () ↔
        StoreMac.compute d.entries p d.mac.salt d.mac.iterations = .ok d.mac.value := by
      refine bind_eq_ok.trans ?_
      constructor
      · rintro ⟨value, hvalue, h⟩
        split at h
        · next heq => rw [hvalue, heq]
        · cases h
      · intro h
        exact ⟨_, h, if_pos rfl⟩
    simpa [Matches] using hcheck

/-- The check value cannot be computed if the platform refuses the number of iterations, or if the
entries cannot be written. -/
theorem compute_eq_error_iff (positive : 1 ≤ d.mac.iterations) (password salt : Bytes) :
    (∃ fault, StoreMac.compute d.entries password salt d.mac.iterations = .error fault) ↔
      (∃ m, Platform.refusal (.direct StoreMac.keyLength d.mac.iterations.toNat) = some m) ∨
        Platform.nesting .write < d.entries.depth := by
  have hrefusal : KeyDerivation.refusal? StoreMac.keyLength d.mac.iterations =
      Platform.refusal (.direct StoreMac.keyLength d.mac.iterations.toNat) := by
    unfold KeyDerivation.refusal?
    rw [if_neg (by omega), if_neg (by omega), Int.toNat_natCast, Option.or_none]
  unfold StoreMac.compute
  rw [hrefusal]
  cases Platform.refusal (.direct StoreMac.keyLength d.mac.iterations.toNat) with
  | some m => simp
  | none =>
    by_cases deep : Platform.nesting .write < d.entries.depth <;> simp [deep]

theorem compute_eq_mishap {password salt : Bytes}
    (h : StoreMac.compute d.entries password salt d.mac.iterations = .error fault) :
    ∃ m, fault = .mishap m := by
  unfold StoreMac.compute at h
  split at h
  · cases h
    exact ⟨_, rfl⟩
  · split at h
    · cases h
      exact ⟨_, rfl⟩
    · cases h

theorem check_eq_error (positive : 1 ≤ d.mac.iterations) (h : d.check password = .error fault) :
    fault = .storeIntegrity ∨ password ≠ none ∧
      ((∃ m, Platform.refusal (.direct StoreMac.keyLength d.mac.iterations.toNat) = some m) ∨
        Platform.nesting .write < d.entries.depth) := by
  cases password with
  | none => cases h
  | some p =>
    obtain h | ⟨value, -, h⟩ := bind_eq_error.mp h
    · exact .inr ⟨nofun, (compute_eq_error_iff positive _ _).mp ⟨fault, h⟩⟩
    · split at h
      · cases h
      · cases h
        exact .inl rfl

/-- What the check comes to when the check value cannot be computed. -/
theorem check_of_not_computed (positive : 1 ≤ d.mac.iterations) (given : password ≠ none)
    (h : (∃ m, Platform.refusal (.direct StoreMac.keyLength d.mac.iterations.toNat) = some m) ∨
      Platform.nesting .write < d.entries.depth) :
    ∃ m, d.check password = .error (.mishap m) := by
  obtain ⟨p, rfl⟩ := Option.ne_none_iff_exists'.mp given
  obtain ⟨fault, hfault⟩ := (compute_eq_error_iff positive p d.mac.salt).mpr h
  obtain ⟨m, rfl⟩ := compute_eq_mishap hfault
  exact ⟨m, bind_eq_error.mpr (.inl hfault)⟩

theorem check_eq_storeIntegrity_iff : d.check password = .error .storeIntegrity ↔
    ∃ p ∈ password, ∃ value, StoreMac.compute d.entries p d.mac.salt d.mac.iterations = .ok value ∧
      value ≠ d.mac.value := by
  cases password with
  | none => simp [check]
  | some p =>
    have hcompute : StoreMac.compute d.entries p d.mac.salt d.mac.iterations ≠
        .error .storeIntegrity := by
      intro h
      obtain ⟨m, hm⟩ := compute_eq_mishap h
      cases hm
    have hcheck : d.check (some p) = .error .storeIntegrity ↔
        ∃ value, StoreMac.compute d.entries p d.mac.salt d.mac.iterations = .ok value ∧
          value ≠ d.mac.value := by
      refine bind_eq_error.trans ?_
      constructor
      · rintro (h | ⟨value, hvalue, h⟩)
        · exact absurd h hcompute
        · refine ⟨value, hvalue, fun heq => ?_⟩
          rw [if_pos heq] at h
          cases h
      · rintro ⟨value, hvalue, hne⟩
        exact .inr ⟨value, hvalue, if_neg hne⟩
    simpa using hcheck

/-! ## The whole file -/

theorem accept_eq_ok_iff : accept b password = .ok entries ↔ ∃ d, Holds b password d entries := by
  refine bind_eq_ok.trans (exists_congr fun d => ?_)
  rw [refuse_if_eq_ok, check_bind_eq_ok, check_eq_ok_iff, JsonValue.entries_eq_ok_iff]
  constructor
  · rintro ⟨parsed, supported, checked, mapping⟩
    exact ⟨parsed, by simpa using supported, checked, mapping⟩
  · rintro ⟨parsed, supported, checked, mapping⟩
    exact ⟨parsed, by simpa using supported, checked, mapping⟩

/-- A document that is supported is refused where its check value or its entries are. -/
theorem accept_eq_error_of_supported (parsed : ofBytes b = .ok d)
    (supported : d.isSupported = true) :
    accept b password = .error fault ↔ d.check password = .error fault ∨
      d.check password = .ok () ∧ d.entries.entries = .error fault := by
  have haccept : accept b password = (do d.check password; d.entries.entries) := by
    simp [accept, parsed, supported, bind, Except.bind]
  rw [haccept, bind_eq_error]
  constructor
  · rintro (h | ⟨⟨⟩, hcheck, h⟩)
    · exact .inl h
    · exact .inr ⟨hcheck, h⟩
  · rintro (h | ⟨hcheck, h⟩)
    · exact .inl h
    · exact .inr ⟨(), hcheck, h⟩

/-- Files that are not reported are not loaded either. -/
theorem Escapes.accept (h : Escapes b password) :
    ∃ m, accept b password = .error (.mishap m) := by
  cases h with
  | tooDeep read => exact ⟨.tooDeep, bind_eq_error.mpr (.inl (ofBytes_of_tooDeep read))⟩
  | endless read h => exact ⟨.tooLarge, bind_eq_error.mpr (.inl (h.ofBytes read))⟩
  | @refused d m parsed supported given h =>
    obtain ⟨-, -, -, positive⟩ := ofBytes_eq_ok parsed
    obtain ⟨n, hcheck⟩ := check_of_not_computed positive given (.inl ⟨m, h⟩)
    exact ⟨n, (accept_eq_error_of_supported parsed supported).mpr (.inl hcheck)⟩
  | unwritable parsed supported given h =>
    obtain ⟨-, -, -, positive⟩ := ofBytes_eq_ok parsed
    obtain ⟨n, hcheck⟩ := check_of_not_computed positive given (.inr h)
    exact ⟨n, (accept_eq_error_of_supported parsed supported).mpr (.inl hcheck)⟩
  | @noMapping d parsed supported checked h =>
    obtain ⟨fault, hfault⟩ : ∃ fault, d.entries.entries = .error fault :=
      exists_error_iff.mpr fun entries hentries =>
        h entries (JsonValue.entries_eq_ok_iff.mp hentries)
    obtain ⟨m, rfl⟩ := JsonValue.entries_eq_error hfault
    exact ⟨m, (accept_eq_error_of_supported parsed supported).mpr
      (.inr ⟨check_eq_ok_iff.mpr checked, hfault⟩)⟩

/-- A file that is not loaded is reported, or it is one of those that escape. -/
theorem accept_eq_error (h : accept b password = .error fault) :
    Reported fault ∨ Escapes b password := by
  obtain hparsed | ⟨d, parsed, hrest⟩ := bind_eq_error.mp h
  · obtain rfl | read | ⟨document, read, hendless⟩ := ofBytes_eq_error hparsed
    · exact .inl .notAStore
    · exact .inr (.tooDeep read)
    · exact .inr (.endless read hendless)
  cases supported : d.isSupported with
  | false =>
    obtain ⟨-, rfl⟩ | ⟨hsupported, -⟩ := refuse_if_eq_error.mp hrest
    · exact .inl .otherFormat
    · simp [supported] at hsupported
  | true =>
    obtain ⟨-, -, -, positive⟩ := ofBytes_eq_ok parsed
    obtain hcheck | ⟨hcheck, hentries⟩ := (accept_eq_error_of_supported parsed supported).mp h
    · obtain rfl | ⟨given, ⟨m, hrefused⟩ | hdeep⟩ := check_eq_error positive hcheck
      · exact .inl .integrity
      · exact .inr (.refused parsed supported given hrefused)
      · exact .inr (.unwritable parsed supported given hdeep)
    · have checked := check_eq_ok_iff.mp hcheck
      refine .inr (.noMapping parsed supported checked fun entries hmapping => ?_)
      rw [JsonValue.entries_eq_ok_iff.mpr hmapping] at hentries
      cases hentries

/-- Exactly the files of this list escape being reported. -/
theorem failsOnly_accept_iff : FailsOnly Reported (accept b password) ↔ ¬Escapes b password := by
  constructor
  · intro h hescapes
    obtain ⟨m, hm⟩ := hescapes.accept
    cases h _ hm
  · exact fun hescapes fault h => (accept_eq_error h).resolve_right hescapes

theorem accept_eq_storeIntegrity_iff : accept b password = .error .storeIntegrity ↔
    ∃ d, Mismatched b password d := by
  constructor
  · intro h
    obtain hparsed | ⟨d, parsed, hrest⟩ := bind_eq_error.mp h
    · obtain hfault | read | ⟨document, read, hendless⟩ := ofBytes_eq_error hparsed
      · cases hfault
      · rw [ofBytes_of_tooDeep read] at hparsed
        cases hparsed
      · rw [hendless.ofBytes read] at hparsed
        cases hparsed
    cases supported : d.isSupported with
    | false =>
      obtain ⟨-, hfault⟩ | ⟨hsupported, -⟩ := refuse_if_eq_error.mp hrest
      · cases hfault
      · simp [supported] at hsupported
    | true =>
      obtain hcheck | ⟨-, hentries⟩ := (accept_eq_error_of_supported parsed supported).mp h
      · exact ⟨d, parsed, supported, check_eq_storeIntegrity_iff.mp hcheck⟩
      · obtain ⟨m, hm⟩ := JsonValue.entries_eq_error hentries
        cases hm
  · rintro ⟨d, parsed, supported, mismatch⟩
    exact (accept_eq_error_of_supported parsed supported).mpr
      (.inl (check_eq_storeIntegrity_iff.mpr mismatch))

/-- No two names of what is loaded count for the same. -/
theorem Holds.apart (h : Holds b password d entries) :
    entries.keys.Pairwise fun a b => a.same b = false := by
  obtain ⟨document, read, found, -⟩ := ofBytes_eq_ok h.parsed
  exact h.mapping.apart ((JsonReading.unambiguous_of_ofBytes read).of_member? found)

end StoreDocument

namespace PemStore
open StoreDocument (Reported Escapes Mismatched Holds)

section General
variable [Platform] {s t : PemStore} {data password : Option Bytes} {fault : Fault}

/-- What a store holds after some data is loaded: nothing without a file, else its entries. -/
inductive Loads : Option Bytes → Option Bytes → OrderedMap EntryName JsonValue → Prop
  | nothing {password : Option Bytes} : Loads none password .empty
  | file {b : Bytes} {password : Option Bytes} {d : StoreDocument}
    {entries : OrderedMap EntryName JsonValue} (h : Holds b password d entries) :
    Loads (some b) password entries

theorem Loads.apart {entries : OrderedMap EntryName JsonValue} (h : Loads data password entries) :
    entries.keys.Pairwise fun a b => a.same b = false := by
  cases h with
  | nothing => exact .nil
  | file h => exact h.apart

theorem load_eq_ok_iff : load data password s = (.ok (), t) ↔
    t.iterations = s.iterations ∧ Loads data password t.entries := by
  obtain ⟨iterations, entries⟩ := t
  cases data with
  | none =>
    constructor
    · rintro ⟨⟩
      exact ⟨rfl, .nothing⟩
    · rintro ⟨rfl, ⟨⟩⟩
      rfl
  | some b =>
    have hfile : Loads (some b) password entries ↔
        StoreDocument.accept b password = .ok entries := by
      rw [StoreDocument.accept_eq_ok_iff]
      constructor
      · rintro ⟨⟩
        exact ⟨_, ‹_›⟩
      · rintro ⟨d, h⟩
        exact .file h
    rw [hfile]
    cases haccept : StoreDocument.accept b password with
    | error fault => simp [load, haccept]
    | ok found =>
      constructor
      · intro h
        rw [load, haccept] at h
        cases h
        exact ⟨rfl, rfl⟩
      · rintro ⟨rfl, ⟨⟩⟩
        simp [load, haccept]

theorem load_eq_error_iff : (load data password s).1 = .error fault ↔
    ∃ b ∈ data, StoreDocument.accept b password = .error fault := by
  cases data with
  | none => simp [load]
  | some b => cases haccept : StoreDocument.accept b password <;> simp [load, haccept]

/-- Nothing of the store before is kept behind a refusal, nor of the file. -/
theorem eq_empty_of_load_error (h : load data password s = (.error fault, t)) :
    t = empty s.iterations := by
  unfold load at h
  split at h
  · cases h
  · split at h
    · cases h
    · cases h
      rfl

/-- A file is loaded or reported, but for those that escape; the report of a wrong check value is
for those whose value does not match. Whatever is reported or escapes, no entries are left; what
is loaded is the mapping that the file has, in which no two names count for the same. -/
theorem loads_or_reports_iff (formats : PemFormats) (s : PemStore)
    (data password : Option Bytes) :
    let kind := kind formats
    (FailsOnly Reported (kind.load data password s).1 ↔ ∀ b ∈ data, ¬Escapes b password) ∧
    ((kind.load data password s).1 = .error .storeIntegrity ↔
      ∃ b ∈ data, ∃ d, Mismatched b password d) ∧
    (∀ fault t, kind.load data password s = (.error fault, t) →
      t = empty s.iterations ∧ kind.aliases t = []) ∧
    (∀ t, kind.load data password s = (.ok (), t) ↔
      t.iterations = s.iterations ∧ Loads data password t.entries) ∧
    ∀ t, kind.load data password s = (.ok (), t) →
      (kind.aliases t).Pairwise fun a b => a.same b = false := by
  refine ⟨?reported, ?integrity, ?left, fun t => load_eq_ok_iff, ?once⟩
  case reported =>
    change FailsOnly Reported (load data password s).1 ↔ _
    simp only [← StoreDocument.failsOnly_accept_iff]
    constructor
    · exact fun h b hb fault haccept => h fault (load_eq_error_iff.mpr ⟨b, hb, haccept⟩)
    · intro h fault hload
      obtain ⟨b, hb, haccept⟩ := load_eq_error_iff.mp hload
      exact h b hb fault haccept
  case integrity =>
    simp only [← StoreDocument.accept_eq_storeIntegrity_iff]
    exact load_eq_error_iff
  case left =>
    intro fault t h
    obtain rfl := eq_empty_of_load_error h
    exact ⟨rfl, rfl⟩
  case once =>
    intro t h
    exact (load_eq_ok_iff.mp h).2.apart

end General

section Samples
attribute [local instance] Platform.standard

/-- A file with everything but entries that are a mapping. -/
def sampleFile : Bytes :=
  Bytes.ofAscii ("\x7b\"format\":\"apksign-pemks\",\"version\":1,\"entries\":5," ++
    "\"mac\":\x7b\"salt\":\"\",\"iterations\":1,\"value\":\"\"\x7d\x7d")

/-- A number in place of the entries is not reported as something that is no keystore. -/
theorem sample_not_reported : ¬∀ (noise : SealNoise) (s : PemStore) (b : Bytes)
    (password : Option Bytes),
    FailsOnly Reported ((kind (.standard noise)).load (some b) password s).1 := by
  intro h
  have hload : ((kind (.standard .silent)).load (some sampleFile) none (empty 1)).1 =
      .error (.mishap .wrongType) := by
    decide +kernel
  cases h .silent (empty 1) sampleFile none _ hload

end Samples

end PemStore
end PackageSigning
