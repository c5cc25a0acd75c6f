import Mathlib.Data.List.Induction
import Mathlib.Data.List.Nodup
import PackageSigning.OrderedMap

/-!
# Laws of maps that remember the order of insertion

What writing and removing do to the keys, in order, and to the value at each key. Pairs that are
written one after the other are the entries of the map that they make exactly when their keys are
distinct (`entries_ofList_iff`); in any case each key has one entry (`distinct_ofList`), with the
last value that was written to it (`get?_ofList`).
-/

namespace PackageSigning.OrderedMap

variable {κ α : Type} {m : OrderedMap κ α} {k : κ}

/-- Each key has one entry. -/
def Distinct (m : OrderedMap κ α) : Prop := m.keys.Nodup

@[simp] theorem keys_empty : (empty : OrderedMap κ α).keys = [] := rfl

theorem distinct_empty : (empty : OrderedMap κ α).Distinct := List.nodup_nil

variable [DecidableEq κ]

@[simp] theorem get?_empty (k : κ) : (empty : OrderedMap κ α).get? k = none := rfl

@[simp] theorem contains_iff : m.contains k = true ↔ k ∈ m.keys := List.contains_iff_mem

theorem get?_eq_none_iff : m.get? k = none ↔ k ∉ m.keys := by
  simp only [get?, keys, Option.map_eq_none_iff, List.find?_eq_none, List.mem_map, not_exists,
    not_and, decide_eq_true_eq]

theorem mem_entries_of_get? {v : α} (h : m.get? k = some v) : (k, v) ∈ m.entries := by
  obtain ⟨e, he, rfl⟩ := Option.map_eq_some_iff.mp h
  have hkey : e.1 = k := of_decide_eq_true (List.find?_some he :)
  exact hkey ▸ List.mem_of_find?_eq_some he

/-! ## Writing -/

theorem map_putEntry (k : κ) (v : α) (entries : List (κ × α)) :
    (putEntry k v entries).map (·.1) =
      if k ∈ entries.map (·.1) then entries.map (·.1) else entries.map (·.1) ++ [k] := by
  induction entries with
  | nil => rfl
  | cons e rest ih =>
    by_cases he : e.1 = k
    · simp [putEntry, he]
    · have hk : k ≠ e.1 := Ne.symm he
      by_cases hrest : k ∈ rest.map (·.1)
      · simp only [putEntry, if_neg he, List.map_cons, ih, if_pos hrest,
          List.mem_cons, hk, false_or]
      · simp only [putEntry, if_neg he, List.map_cons, ih, if_neg hrest,
          List.mem_cons, hk, false_or, List.cons_append]

/-- A key that is there keeps its place, and a new one goes last. -/
theorem keys_put (m : OrderedMap κ α) (k : κ) (v : α) :
    (m.put k v).keys = if k ∈ m.keys then m.keys else m.keys ++ [k] :=
  map_putEntry k v m.entries

theorem find?_putEntry (j k : κ) (v : α) (entries : List (κ × α)) :
    (putEntry k v entries).find? (·.1 = j) =
      if j = k then some (k, v) else entries.find? (·.1 = j) := by
  induction entries with
  | nil => by_cases h : j = k <;> simp [putEntry, h, eq_comm]
  | cons e rest ih =>
    by_cases he : e.1 = k
    · by_cases hj : j = k
      · simp [putEntry, he, hj]
      · simp [putEntry, he, hj, Ne.symm hj]
    · by_cases hej : e.1 = j
      · subst hej
        simp [putEntry, he]
      · simp [putEntry, he, hej, ih]

/-- Writing to a key changes the value at that key only. -/
theorem get?_put (m : OrderedMap κ α) (j k : κ) (v : α) :
    (m.put k v).get? j = if j = k then some v else m.get? j := by
  unfold get? put
  rw [find?_putEntry]
  by_cases h : j = k <;> simp [h]

theorem putEntry_of_not_mem {v : α} {entries : List (κ × α)} (h : k ∉ entries.map (·.1)) :
    putEntry k v entries = entries ++ [(k, v)] := by
  induction entries with
  | nil => rfl
  | cons e rest ih =>
    obtain ⟨he, hrest⟩ := not_or.mp (mt List.mem_cons.mpr h)
    rw [putEntry, if_neg (Ne.symm he), ih hrest, List.cons_append]

/-- A new key goes last, with its value. -/
theorem entries_put_of_not_mem {v : α} (h : k ∉ m.keys) :
    (m.put k v).entries = m.entries ++ [(k, v)] :=
  putEntry_of_not_mem h

theorem Distinct.put (h : m.Distinct) (k : κ) (v : α) : (m.put k v).Distinct := by
  unfold Distinct
  rw [keys_put]
  split
  · exact h
  · next hk =>
    apply List.nodup_append.mpr
    refine ⟨h, List.nodup_singleton k, ?_⟩
    intro a ha b hb heq
    exact hk (List.mem_singleton.mp hb ▸ heq ▸ ha)

theorem mem_putEntry {e : κ × α} {v : α} {entries : List (κ × α)}
    (h : e ∈ putEntry k v entries) : e = (k, v) ∨ e ∈ entries := by
  induction entries with
  | nil => exact .inl (List.mem_singleton.mp h)
  | cons first rest ih =>
    unfold putEntry at h
    split at h
    · exact (List.mem_cons.mp h).imp_right (List.mem_cons_of_mem first)
    · obtain rfl | h := List.mem_cons.mp h
      · exact .inr List.mem_cons_self
      · exact (ih h).imp_right (List.mem_cons_of_mem first)

/-- The entries of a map that was written to are the new one and some of the old ones. -/
theorem mem_entries_put {e : κ × α} {v : α} (h : e ∈ (m.put k v).entries) :
    e = (k, v) ∨ e ∈ m.entries :=
  mem_putEntry h

/-! ## Removing -/

theorem keys_erase (m : OrderedMap κ α) (k : κ) :
    (m.erase k).keys = m.keys.filter (· ≠ k) := by
  unfold keys erase
  rw [List.filter_map]
  rfl

/-- Removing a key takes the value at that key away and no other. -/
theorem get?_erase (m : OrderedMap κ α) (j k : κ) :
    (m.erase k).get? j = if j = k then none else m.get? j := by
  split
  · next h =>
    subst h
    rw [get?_eq_none_iff, keys_erase]
    simp
  · next h =>
    -- What is filtered out is not what is looked for.
    unfold get? erase
    rw [List.find?_filter]
    congr 2
    funext e
    by_cases he : e.1 = j <;> simp [he, h]

theorem Distinct.erase (h : m.Distinct) (k : κ) : (m.erase k).Distinct := by
  unfold Distinct
  rw [keys_erase]
  exact h.filter _

theorem mem_entries_of_erase {e : κ × α} (h : e ∈ (m.erase k).entries) : e ∈ m.entries :=
  (List.mem_filter.mp h).1

theorem putEntry_putEntry (k : κ) (v v' : α) (entries : List (κ × α)) :
    putEntry k v' (putEntry k v entries) = putEntry k v' entries := by
  induction entries with
  | nil => exact if_pos rfl
  | cons e rest ih =>
    by_cases he : e.1 = k
    · simp [putEntry, he]
    · simp [putEntry, he, ih]

/-- Of two values that are written to a key, the last one counts. -/
theorem put_put (m : OrderedMap κ α) (k : κ) (v v' : α) : (m.put k v).put k v' = m.put k v' :=
  congrArg mk (putEntry_putEntry k v v' m.entries)

/-- Removing a key that came in last takes the map back to what it was. -/
theorem erase_put_of_not_mem {v : α} (h : k ∉ m.keys) : (m.put k v).erase k = m := by
  have hkept (e : κ × α) (he : e ∈ m.entries) : decide (e.1 ≠ k) = true := by
    apply decide_eq_true
    rintro rfl
    exact h (List.mem_map_of_mem he)
  unfold erase
  rw [entries_put_of_not_mem h, List.filter_append, List.filter_eq_self.mpr hkept]
  simp

theorem filter_putEntry {j : κ} (h : k ≠ j) (v : α) (entries : List (κ × α)) :
    (putEntry k v entries).filter (fun e => e.1 ≠ j) =
      putEntry k v (entries.filter fun e => e.1 ≠ j) := by
  induction entries with
  | nil => simp [putEntry, h]
  | cons e rest ih =>
    by_cases he : e.1 = k
    · simp [putEntry, he, h]
    · by_cases hj : e.1 = j
      · simpa [putEntry, hj, h.symm] using ih
      · simpa [putEntry, he, hj] using ih

/-- Removing a key leaves what was written to another one. -/
theorem erase_put_of_ne {j : κ} (h : k ≠ j) (m : OrderedMap κ α) (v : α) :
    (m.put k v).erase j = (m.erase j).put k v :=
  congrArg mk (filter_putEntry h v m.entries)

/-! ## Maps and the lists of their entries -/

/-- Writing entries with distinct keys, none of which is there, puts them last as they are. -/
theorem foldl_put {entries : List (κ × α)} (m : OrderedMap κ α)
    (h : (m.keys ++ entries.map (·.1)).Nodup) :
    entries.foldl (fun m e => m.put e.1 e.2) m = ⟨m.entries ++ entries⟩ := by
  induction entries generalizing m with
  | nil => simp
  | cons e rest ih =>
    -- The first of them is new, and the others are still new behind it.
    have hnew : e.1 ∉ m.keys := by
      intro hm
      exact (List.nodup_append.mp h).2.2 e.1 hm e.1 (by simp) rfl
    have hput : m.put e.1 e.2 = ⟨m.entries ++ [e]⟩ := by
      rw [← entries_put_of_not_mem hnew]
    rw [List.foldl_cons, ih, hput]
    · simp
    · rw [keys_put, if_neg hnew]
      simpa using h

/-- Pairs with distinct keys are the entries of the map that they make. -/
theorem ofList_eq {pairs : List (κ × α)} (h : (pairs.map (·.1)).Nodup) : ofList pairs = ⟨pairs⟩ :=
  foldl_put empty h

theorem ofList_concat (pairs : List (κ × α)) (e : κ × α) :
    ofList (pairs ++ [e]) = (ofList pairs).put e.1 e.2 := by
  simp [ofList]

theorem distinct_ofList (pairs : List (κ × α)) : (ofList pairs).Distinct := by
  induction pairs using List.reverseRecOn with
  | nil => exact distinct_empty
  | append_singleton pairs e ih =>
    rw [ofList_concat]
    exact ih.put e.1 e.2

/-- What is in the map was written to it. -/
theorem mem_of_mem_entries_ofList {e : κ × α} {pairs : List (κ × α)}
    (h : e ∈ (ofList pairs).entries) : e ∈ pairs := by
  induction pairs using List.reverseRecOn with
  | nil => exact h
  | append_singleton pairs last ih =>
    rw [ofList_concat] at h
    obtain rfl | h := mem_entries_put h
    · simp
    · exact List.mem_append_left _ (ih h)

theorem mem_keys_ofList {pairs : List (κ × α)} :
    k ∈ (ofList pairs).keys ↔ k ∈ pairs.map (·.1) := by
  induction pairs using List.reverseRecOn with
  | nil => rfl
  | append_singleton pairs e ih =>
    rw [ofList_concat, keys_put, List.map_append, List.mem_append, ← ih]
    split
    · next he =>
      constructor
      · intro h
        exact .inl h
      · rintro (h | h)
        · exact h
        · exact List.mem_singleton.mp h ▸ he
    · exact List.mem_append

/-- Of pairs with the same key the last one counts. -/
theorem get?_ofList (pairs : List (κ × α)) (k : κ) :
    (ofList pairs).get? k = (pairs.reverse.find? (·.1 = k)).map (·.2) := by
  induction pairs using List.reverseRecOn with
  | nil => rfl
  | append_singleton pairs e ih =>
    rw [ofList_concat, get?_put, ih, List.reverse_append]
    by_cases h : k = e.1
    · simp [h]
    · simp [h, Ne.symm h]

/-- The map keeps all pairs that make it if and only if their keys are distinct. -/
theorem entries_ofList_iff {pairs : List (κ × α)} :
    (ofList pairs).entries = pairs ↔ (pairs.map (·.1)).Nodup := by
  constructor
  · intro h
    have distinct := distinct_ofList pairs
    unfold Distinct keys at distinct
    rwa [h] at distinct
  · intro h
    rw [ofList_eq h]

end PackageSigning.OrderedMap
