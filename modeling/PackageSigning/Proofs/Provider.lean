import Mathlib.Data.List.Find
import Mathlib.Data.List.InsertIdx
import Mathlib.Data.List.Nodup
import PackageSigning.Provider

/-!
# The order of providers

Providers are installed and taken out any number of times, one call after the other
(`ProviderRegistry.after`). Their names stay distinct, each of them comes to the place that was
wanted for it, as far as there is such a place, and the others keep their order. A service is
taken from the first provider that offers it (`ProviderRegistry.serving`), so a provider that does
not offer it makes no difference, wherever it comes in
(`ProviderRegistry.orderly_over_history`).
-/

namespace PackageSigning

/-- What a provider may offer. -/
inductive Service where
  /-- A keystore type under a name. -/
  | store (name : String)
  /-- A key factory under the name of an algorithm. -/
  | factory (algorithm : String)
  deriving DecidableEq, Repr

/-- Whether a provider offers a service. -/
def Service.offeredBy (p : Provider) : Service → Bool
  | store name => (p.store? name).isSome
  | factory algorithm => (p.factory? algorithm).isSome

/-- A call that changes a registry. -/
inductive RegistryCall where
  | add (p : Provider)
  | insert (p : Provider) (position : Int)
  | remove (name : String)

namespace ProviderRegistry

/-- The registry after a call. -/
def call (r : ProviderRegistry) : RegistryCall → ProviderRegistry
  | .add p => (r.add p).2
  | .insert p position => (r.insertAt p position).2
  | .remove name => r.remove name

/-- The registry after calls, one after the other. -/
def after (r : ProviderRegistry) (calls : List RegistryCall) : ProviderRegistry :=
  calls.foldl call r

/-- The provider that serves a service. -/
def serving (r : ProviderRegistry) (s : Service) : Option Provider :=
  r.providers.find? fun p => s.offeredBy p

/-- A call that brings in or takes out no provider of a service. -/
def Indifferent (r : ProviderRegistry) (s : Service) : RegistryCall → Prop
  | .add p | .insert p _ => s.offeredBy p = false
  | .remove name => ∀ p, r.find? name = some p → s.offeredBy p = false

/-- Calls each of which brings in or takes out no provider of a service. -/
def AllIndifferent (r : ProviderRegistry) (s : Service) : List RegistryCall → Prop
  | [] => True
  | c :: calls => r.Indifferent s c ∧ (r.call c).AllIndifferent s calls

variable {r : ProviderRegistry} {p q : Provider} {s : Service}

/-! ## Names -/

theorem find?_eq_none_iff {name : String} : r.find? name = none ↔ name ∉ r.names := by
  simp [find?, names]

theorem isSome_find?_iff {name : String} : (r.find? name).isSome = true ↔ name ∈ r.names := by
  rw [← not_iff_not, ← find?_eq_none_iff]
  simp

theorem names_remove (r : ProviderRegistry) (name : String) :
    (r.remove name).names = r.names.filter (· != name) := by
  unfold names remove
  rw [List.filter_map]
  rfl

/-- A provider whose name is taken does not come in. -/
theorem insertAt_of_taken (taken : p.name ∈ r.names) (position : Int) :
    r.insertAt p position = (none, r) :=
  if_pos (isSome_find?_iff.mpr taken)

theorem insertAt_of_free (free : p.name ∉ r.names) (position : Int) :
    r.insertAt p position =
      (some (clamp r.providers.length position),
        ⟨r.providers.insertIdx (clamp r.providers.length position - 1) p⟩) :=
  if_neg (mt isSome_find?_iff.mp free)

theorem clamp_bounds (count : Nat) (position : Int) :
    1 ≤ clamp count position ∧ clamp count position ≤ count + 1 := by
  unfold clamp
  omega

theorem clamp_eq (count : Nat) (position : Int) :
    (clamp count position : Int) = max 1 (min position (count + 1)) := by
  unfold clamp
  omega

theorem distinct_call (h : r.names.Nodup) (c : RegistryCall) : (r.call c).names.Nodup := by
  have hinsert (p : Provider) (position : Int) : (r.insertAt p position).2.names.Nodup := by
    by_cases taken : p.name ∈ r.names
    · rw [insertAt_of_taken taken]
      exact h
    · obtain ⟨-, hplace⟩ := clamp_bounds r.providers.length position
      -- The names are those from before and the new one, in some order.
      have hperm : (r.insertAt p position).2.names.Perm (p.name :: r.names) := by
        rw [insertAt_of_free taken]
        exact (List.perm_insertIdx p r.providers (by omega)).map Provider.name
      exact hperm.nodup_iff.mpr (List.nodup_cons.mpr ⟨taken, h⟩)
  cases c with
  | add p => exact hinsert p _
  | insert p position => exact hinsert p position
  | remove name =>
    show (r.remove name).names.Nodup
    rw [names_remove]
    exact h.filter _

theorem distinct_after (h : r.names.Nodup) (calls : List RegistryCall) :
    (r.after calls).names.Nodup := by
  induction calls generalizing r with
  | nil => exact h
  | cons c calls ih => exact ih (distinct_call h c)

/-- The registry of some providers is the empty one after they were added. -/
theorem ofList_eq_after (providers : List Provider) :
    ofList providers = empty.after (providers.map .add) := by
  unfold ofList after
  rw [List.foldl_map]
  rfl

theorem distinct_ofList (providers : List Provider) : (ofList providers).names.Nodup := by
  rw [ofList_eq_after]
  exact distinct_after (r := empty) List.nodup_nil _

/-! ## Places -/

theorem add_of_free (free : p.name ∉ r.names) :
    r.add p = (some (r.providers.length + 1), ⟨r.providers ++ [p]⟩) := by
  have hplace : clamp r.providers.length (r.providers.length + 1) = r.providers.length + 1 := by
    unfold clamp
    omega
  unfold add
  rw [insertAt_of_free free, hplace, Nat.add_sub_cancel, List.insertIdx_length_self]

/-- A provider whose name is free comes to the wanted place, or the nearest one that there is. -/
theorem exists_insertAt_of_free (free : p.name ∉ r.names) (position : Int) :
    ∃ place r', r.insertAt p position = (some place, r') ∧
      1 ≤ place ∧ place ≤ r'.providers.length ∧
      (place : Int) = max 1 (min position (r.providers.length + 1)) ∧
      r'.providers[place - 1]? = some p ∧ r'.providers.eraseIdx (place - 1) = r.providers := by
  obtain ⟨hlow, hhigh⟩ := clamp_bounds r.providers.length position
  have hplace : clamp r.providers.length position - 1 ≤ r.providers.length := by omega
  refine ⟨_, _, insertAt_of_free free position, hlow, ?_, clamp_eq _ position, ?_, ?_⟩
  · rw [List.length_insertIdx, if_pos hplace]
    exact hhigh
  · rw [List.getElem?_insertIdx_self, if_pos hplace]
  · exact List.eraseIdx_insertIdx_self p

/-! ## Services -/

/-- The provider that serves is the first one that offers. -/
theorem serving_eq_some_iff : r.serving s = some p ↔ s.offeredBy p = true ∧
    ∃ front back, r.providers = front ++ p :: back ∧ ∀ q ∈ front, s.offeredBy q = false := by
  simp only [serving, List.find?_eq_some_iff_append, Bool.not_eq_true']

theorem findSome?_eq_bind {α β : Type} (f : α → Option β) (as : List α) :
    as.findSome? f = (as.find? fun a => (f a).isSome).bind f := by
  induction as with
  | nil => rfl
  | cons a as ih =>
    rw [List.findSome?_cons, List.find?_cons, ih]
    cases h : f a <;> simp [h]

/-- A keystore type comes from the provider that serves it. -/
theorem store_any (r : ProviderRegistry) (name : String) :
    r.store name .any = ((r.serving (.store name)).bind (·.store? name)).elim
      (.error (.store (.typeNotFound name))) .ok := by
  have h : (r.serving (.store name)).bind (·.store? name) =
      r.providers.findSome? (·.store? name) := (findSome?_eq_bind _ _).symm
  have hasked : r.asked .any = pure r.providers := rfl
  unfold store
  rw [h, hasked, pure_bind]
  cases r.providers.findSome? (·.store? name) <;> rfl

/-- A key factory comes from the provider that serves it. -/
theorem factory_eq (r : ProviderRegistry) (algorithm : String) :
    r.factory algorithm = ((r.serving (.factory algorithm)).bind (·.factory? algorithm)).elim
      (.error (.unsupportedKey (.noFactory algorithm))) .ok := by
  have h : (r.serving (.factory algorithm)).bind (·.factory? algorithm) =
      r.providers.findSome? (·.factory? algorithm) := (findSome?_eq_bind _ _).symm
  rw [h, factory]
  cases r.providers.findSome? (·.factory? algorithm) <;> rfl

theorem find?_insertIdx {α : Type} {f : α → Bool} {a : α} (h : f a = false) (i : Nat)
    (as : List α) : (as.insertIdx i a).find? f = as.find? f := by
  induction as generalizing i with
  | nil => cases i <;> simp [h]
  | cons b as ih => cases i <;> simp [List.find?_cons, h, ih]

theorem serving_insertAt (h : s.offeredBy p = false) (position : Int) :
    (r.insertAt p position).2.serving s = r.serving s := by
  by_cases taken : p.name ∈ r.names
  · rw [insertAt_of_taken taken]
  · rw [insertAt_of_free taken]
    exact find?_insertIdx (f := fun p => s.offeredBy p) h _ _

/-- With distinct names, each provider is the one that its name finds. -/
theorem find?_name (distinct : r.names.Nodup) (h : p ∈ r.providers) : r.find? p.name = some p := by
  obtain ⟨q, hq⟩ := Option.isSome_iff_exists.mp
    (isSome_find?_iff.mpr (List.mem_map_of_mem (f := Provider.name) h))
  have hname : q.name = p.name := by simpa using List.find?_some hq
  rw [hq, List.inj_on_of_nodup_map distinct (List.mem_of_find?_eq_some hq) h hname]

theorem serving_remove {name : String} (distinct : r.names.Nodup)
    (h : ∀ p, r.find? name = some p → s.offeredBy p = false) :
    (r.remove name).serving s = r.serving s := by
  show (r.providers.filter (·.name != name)).find? (fun p => s.offeredBy p) = _
  rw [List.find?_filter]
  apply List.find?_congr
  intro p hp
  by_cases hname : p.name = name
  · have hoffers := h p (hname ▸ find?_name distinct hp)
    simp [hoffers]
  · simp [hname]

/-- What is done with providers that do not offer a service does not change who serves it. -/
theorem serving_call (distinct : r.names.Nodup) {c : RegistryCall} (h : r.Indifferent s c) :
    (r.call c).serving s = r.serving s := by
  cases c with
  | add p => exact serving_insertAt h _
  | insert p position => exact serving_insertAt h position
  | remove name => exact serving_remove distinct h

theorem serving_after (distinct : r.names.Nodup) {calls : List RegistryCall}
    (h : r.AllIndifferent s calls) : (r.after calls).serving s = r.serving s := by
  induction calls generalizing r with
  | nil => rfl
  | cons c calls ih =>
    obtain ⟨hc, hcalls⟩ := h
    exact (ih (distinct_call distinct c) hcalls).trans (serving_call distinct hc)

/-- What holds of a registry whatever was done to it before. -/
structure Orderly (r : ProviderRegistry) : Prop where
  distinct : r.names.Nodup
  /-- A provider whose name is taken gets no place, and nothing happens. -/
  taken (p : Provider) (h : p.name ∈ r.names) :
    r.add p = (none, r) ∧ ∀ position, r.insertAt p position = (none, r)
  /-- Any other one is added behind all others. -/
  added (p : Provider) (h : p.name ∉ r.names) :
    r.add p = (some (r.providers.length + 1), ⟨r.providers ++ [p]⟩)
  /-- Or it is put to the wanted place, or the nearest one, and the others keep their order. -/
  inserted (p : Provider) (h : p.name ∉ r.names) (position : Int) :
    ∃ place r', r.insertAt p position = (some place, r') ∧
      1 ≤ place ∧ place ≤ r'.providers.length ∧
      (place : Int) = max 1 (min position (r.providers.length + 1)) ∧
      r'.providers[place - 1]? = some p ∧ r'.providers.eraseIdx (place - 1) = r.providers
  /-- What is left when a provider is taken out keeps its order too. -/
  removed (name : String) : (r.remove name).providers.Sublist r.providers ∧
    (r.remove name).names = r.names.filter (· != name)
  /-- The first provider that offers a service is the one that serves. -/
  serves (s : Service) (p : Provider) : r.serving s = some p ↔ s.offeredBy p = true ∧
    ∃ front back, r.providers = front ++ p :: back ∧ ∀ q ∈ front, s.offeredBy q = false
  store (name : String) : r.store name .any =
    ((r.serving (.store name)).bind (·.store? name)).elim
      (.error (.store (.typeNotFound name))) .ok
  factory (algorithm : String) : r.factory algorithm =
    ((r.serving (.factory algorithm)).bind (·.factory? algorithm)).elim
      (.error (.unsupportedKey (.noFactory algorithm))) .ok
  /-- Upper and lower case make no difference. -/
  caseless (name other : String) (h : Text.upper name = Text.upper other) :
    r.serving (.store name) = r.serving (.store other) ∧
      r.serving (.factory name) = r.serving (.factory other)

theorem Orderly.of_distinct (distinct : r.names.Nodup) : r.Orderly where
  distinct := distinct
  taken p h := ⟨insertAt_of_taken h _, insertAt_of_taken h⟩
  added p h := add_of_free h
  inserted p h := exists_insertAt_of_free h
  removed name := ⟨List.filter_sublist, names_remove r name⟩
  serves s p := serving_eq_some_iff
  store name := store_any r name
  factory algorithm := factory_eq r algorithm
  caseless name other h := by
    unfold serving Service.offeredBy Provider.store? Provider.factory?
    simp only [h, and_self]

/-- Whatever was done to a registry, its providers have distinct names, each comes to the place
that was wanted for it, and the first one that offers a service serves. What is then done with
providers that do not offer a service does not change who serves it. -/
theorem orderly_over_history (start : List Provider) (calls : List RegistryCall) :
    let r := (ofList start).after calls
    r.Orderly ∧ ∀ s later, r.AllIndifferent s later →
      ((ofList start).after (calls ++ later)).serving s = r.serving s := by
  intro r
  have distinct : r.names.Nodup := distinct_after (distinct_ofList start) calls
  refine ⟨.of_distinct distinct, fun s later indifferent => ?_⟩
  have happend : (ofList start).after (calls ++ later) = r.after later := List.foldl_append
  rw [happend]
  exact serving_after distinct indifferent

/-- A provider of the type `PKCS12`, under another spelling. -/
def sampleProvider : Provider := (Provider.bare "Provider" "A").offerStore "pkcs12" .pem

/-- It comes in first, far in front of what there is, and a second time not at all. A provider
that offers nothing comes and goes without a change. -/
theorem sample_orderly_over_history :
    let calls : List RegistryCall := [.insert sampleProvider (-5), .insert sampleProvider 3]
    let later : List RegistryCall := [.insert (.bare "Provider" "B") 1, .remove "B"]
    let r := (ofList [.standard Provider.standardName]).after calls
    r.names = ["A", "Default"] ∧ r.Orderly ∧ r.AllIndifferent (.store "PKCS12") later ∧
    r.serving (.store "PKCS12") = some sampleProvider ∧
    ((ofList [.standard Provider.standardName]).after (calls ++ later)).serving (.store "PKCS12") =
      some sampleProvider := by
  intro calls later r
  have serves : r.serving (.store "PKCS12") = some sampleProvider := by decide +kernel
  have found : (r.insertAt (.bare "Provider" "B") 1).2.find? "B" = some (.bare "Provider" "B") := by
    decide +kernel
  have indifferent : r.AllIndifferent (.store "PKCS12") later := by
    refine ⟨?_, fun p hp => ?_, trivial⟩
    · show Service.offeredBy (.bare "Provider" "B") (.store "PKCS12") = false
      decide +kernel
    obtain rfl := Option.some.inj (found.symm.trans hp)
    decide +kernel
  obtain ⟨orderly, unchanged⟩ := orderly_over_history [.standard Provider.standardName] calls
  exact ⟨by decide +kernel, orderly, indifferent, serves,
    (unchanged (.store "PKCS12") later indifferent).trans serves⟩

end ProviderRegistry
end PackageSigning
