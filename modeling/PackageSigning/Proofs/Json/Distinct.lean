import PackageSigning.Json.Reading
import PackageSigning.Proofs.OrderedMap
import PackageSigning.Proofs.Outcome

/-!
# Names in objects that are read

An object has each name once, however often the text has it, and so have the objects inside it
(`JsonReading.unambiguous_of_ofBytes`).
-/

namespace PackageSigning

namespace JsonValue

/-- Whether a value has no values in it. -/
def isLeaf : JsonValue → Bool
  | list _ | object _ => false
  | _ => true

/-- The values in which no object has a name twice. -/
inductive Unambiguous : JsonValue → Prop
  | leaf {v : JsonValue} (h : v.isLeaf = true) : Unambiguous v
  | list {items : List JsonValue} (h : ∀ v ∈ items, Unambiguous v) : Unambiguous (.list items)
  | object {members : List (JsonText × JsonValue)} (distinct : (members.map (·.1)).Nodup)
      (h : ∀ m ∈ members, Unambiguous m.2) : Unambiguous (.object members)

theorem unambiguous_ofMembers {members : List (JsonText × JsonValue)}
    (h : ∀ m ∈ members, Unambiguous m.2) : Unambiguous (ofMembers members) :=
  .object (OrderedMap.distinct_ofList members) fun m hm =>
    h m (OrderedMap.mem_of_mem_entries_ofList hm)

theorem Unambiguous.of_lookup {name : JsonText} {members : List (JsonText × JsonValue)} {v : JsonValue}
    (h : Unambiguous (.object members)) (found : members.lookup name = some v) :
    Unambiguous v := by
  obtain ⟨before, after, rfl, -⟩ := List.lookup_eq_some_iff.mp found
  cases h with
  | leaf h => cases h
  | object _ h => exact h (name, v) (by simp)

end JsonValue

namespace JsonReading
open JsonValue (Unambiguous isLeaf)

theorem front_map_eq_ok {α β : Type} {f : α → β} {x : Except JsonRefusal (Front α)}
    {front : Front β} (h : Front.map f <$> x = .ok front) :
    ∃ a, x = .ok (a, front.2) ∧ f a = front.1 := by
  cases x with
  | error refusal => cases h
  | ok read =>
    cases h
    exact ⟨read.1, rfl, rfl⟩

theorem isLeaf_of_scalar {cs : List Char} {front : Front JsonValue} (h : scalar cs = .ok front) :
    front.1.isLeaf = true := by
  have hwords : ∀ word ∈ words, word.2.isLeaf = true := by
    decide +kernel
  have hunsigned ( isNegative : Bool) (cs : List Char) (h : unsigned isNegative cs = .ok front) :
      front.1.isLeaf = true := by
    unfold unsigned at h
    split at h
    · cases h
    · dsimp only at h
      split at h
      · split at h
        · cases h
        · cases h
          rfl
      · cases h
        rfl
  unfold scalar at h
  split at h
  · next word v hword =>
    cases h
    exact hwords (word, v) (List.mem_of_find?_eq_some hword)
  · split at h
    · exact hunsigned _ _ h
    · exact hunsigned _ _ h

/-- What is read with some fuel has no name twice in an object. -/
structure ReadsUnambiguous (fuel : Nat) : Prop where
  value {depth : Nat} {cs : List Char} {front : Front JsonValue}
    (h : value fuel depth cs = .ok front) : Unambiguous front.1
  items {depth : Nat} {cs : List Char} {front : Front (List JsonValue)}
    (h : items fuel depth cs = .ok front) : ∀ v ∈ front.1, Unambiguous v
  members {depth : Nat} {cs : List Char} {front : Front (List (JsonText × JsonValue))}
    (h : members fuel depth cs = .ok front) : ∀ m ∈ front.1, Unambiguous m.2

theorem readsUnambiguous (fuel : Nat) : ReadsUnambiguous fuel := by
  induction fuel with
  | zero => exact ⟨nofun, nofun, nofun⟩
  | succ fuel ih =>
    constructor
    case value =>
      intro depth cs front h
      unfold JsonReading.value at h
      split at h
      · obtain ⟨s, -, hs⟩ := front_map_eq_ok h
        rw [← hs]
        exact .leaf rfl
      · split at h
        · cases h
        · split at h
          · cases h
            exact .list nofun
          · obtain ⟨vs, hvs, hlist⟩ := front_map_eq_ok h
            rw [← hlist]
            exact .list (ih.items hvs)
      · split at h
        · cases h
        · split at h
          · cases h
            exact .object .nil nofun
          · obtain ⟨ms, hms, hobject⟩ := front_map_eq_ok h
            rw [← hobject]
            exact JsonValue.unambiguous_ofMembers (ih.members hms)
      · exact .leaf (isLeaf_of_scalar h)
    case items =>
      intro depth cs front h
      unfold JsonReading.items at h
      obtain ⟨⟨v, rest⟩, hv, h⟩ := bind_eq_ok.mp h
      dsimp only at h
      split at h
      · cases h
        exact List.forall_mem_singleton.mpr (ih.value hv)
      · obtain ⟨⟨vs, rest⟩, hvs, h⟩ := bind_eq_ok.mp h
        cases h
        exact List.forall_mem_cons.mpr ⟨ih.value hv, ih.items hvs⟩
      · cases h
    case members =>
      intro depth cs front h
      unfold JsonReading.members at h
      split at h
      · obtain ⟨⟨name, rest⟩, -, h⟩ := bind_eq_ok.mp h
        dsimp only at h
        split at h
        · obtain ⟨⟨v, rest⟩, hv, h⟩ := bind_eq_ok.mp h
          dsimp only at h
          split at h
          · cases h
            exact List.forall_mem_singleton.mpr (ih.value hv)
          · obtain ⟨⟨ms, rest⟩, hms, h⟩ := bind_eq_ok.mp h
            cases h
            exact List.forall_mem_cons.mpr ⟨ih.value hv, ih.members hms⟩
          · cases h
        · cases h
      · cases h

/-- No object that is read has a name twice. -/
theorem unambiguous_of_ofBytes [Platform] {b : Bytes} {v : JsonValue} (h : ofBytes b = .ok v) :
    Unambiguous v := by
  unfold ofBytes at h
  split at h
  · unfold ofChars at h
    obtain ⟨⟨read, rest⟩, hread, h⟩ := bind_eq_ok.mp h
    dsimp only at h
    split at h
    · cases h
      exact (readsUnambiguous _).value hread
    · cases h
  · cases h

end JsonReading
end PackageSigning
