import PackageSigning.Plugin
import PackageSigning.Proofs.OrderedMap

/-!
# Plugins over a history of calls

Plugins are registered, taken out and loaded any number of times, one call after the other
(`PluginRegistry.after`). A name sees of this only the calls that concern it
(`PluginRegistry.sight`): it keeps the plugin it has until it is freed, and when it is free it takes
the first plugin on offer that is accepted. Entry points that are broken, or that bring what is not
accepted, are passed over wherever they stand, so that loading them again changes nothing
(`PluginRegistry.keeps_and_adds_over_history`).
-/

namespace PackageSigning

variable {α : Type}

/-- Loading gives something, or it fails in a way that only skips the plugin. -/
def EntryPoint.Harmless (e : EntryPoint α) : Prop :=
  match e.load with
  | .ok _ => True
  | .error m => PluginRegistry.isSkipped m = true

theorem EntryPoint.Harmless.isSkipped {e : EntryPoint α} (h : e.Harmless) {m : Mishap}
    (hm : e.load = .error m) : PluginRegistry.isSkipped m = true := by
  unfold Harmless at h
  rwa [hm] at h

instance : (e : EntryPoint α) → Decidable e.Harmless
  | ⟨_, .ok _⟩ => isTrue trivial
  | ⟨_, .error m⟩ => inferInstanceAs (Decidable (PluginRegistry.isSkipped m = true))

/-- A call that changes a registry of plugins. -/
inductive PluginCall (α : Type) where
  | register (name : String) (plugin : α)
  | deregister (name : String)
  | load (entries : List (EntryPoint α))

/-- A call that loads harmless entry points only, if it loads any. -/
def PluginCall.Harmless : PluginCall α → Prop
  | .load entries => ∀ e ∈ entries, e.Harmless
  | .register .. | .deregister _ => True

instance : (c : PluginCall α) → Decidable c.Harmless
  | .load entries => inferInstanceAs (Decidable (∀ e ∈ entries, e.Harmless))
  | .register .. | .deregister _ => isTrue trivial

namespace PluginRegistry

/-- How a step ends, and the registry that it leaves: the old one, if it fails. -/
def attempt (r : PluginRegistry α) : Except Fault (PluginRegistry α) →
    Except Fault Unit × PluginRegistry α
  | .ok r' => (.ok (), r')
  | .error fault => (.error fault, r)

/-- How a call ends, and the registry that it leaves. -/
def call (r : PluginRegistry α) : PluginCall α → Except Fault Unit × PluginRegistry α
  | .register name plugin => r.attempt (r.register name plugin)
  | .deregister name => r.attempt (r.deregister name)
  | .load entries => loadAll entries r

/-- The registry after calls, one after the other. -/
def after (r : PluginRegistry α) (calls : List (PluginCall α)) : PluginRegistry α :=
  calls.foldl (fun r c => (r.call c).2) r

/-- The plugin of an entry point, if it loads and is accepted. -/
def offer (accepts : α → Bool) (e : EntryPoint α) : Option α := e.load.toOption.filter accepts

/-- The first plugin that entry points offer for a name. -/
def firstOffer (accepts : α → Bool) (name : String) (entries : List (EntryPoint α)) : Option α :=
  (entries.filter (·.name = name)).findSome? (offer accepts)

/-- What a name has after a call, by what it had before. -/
def sight (accepts : α → Bool) (name : String) (had : Option α) : PluginCall α → Option α
  | .register other plugin =>
    if other = name ∧ accepts plugin = true then had.or (some plugin) else had
  | .deregister other => if other = name then none else had
  | .load entries => had.or (firstOffer accepts name entries)

variable {r : PluginRegistry α} {e : EntryPoint α} {entries : List (EntryPoint α)} {name : String}

/-! ## Single plugins -/

theorem register_of_taken (h : name ∈ r.plugins.keys) (plugin : α) :
    r.register name plugin = .error (.pluginTaken name r.name) :=
  if_pos (OrderedMap.contains_iff.mpr h)

theorem register_of_accepted {plugin : α} (free : name ∉ r.plugins.keys)
    (h : r.accepts plugin = true) :
    r.register name plugin = .ok { r with plugins := r.plugins.put name plugin } :=
  (if_neg (mt OrderedMap.contains_iff.mp free)).trans (if_pos h)

theorem register_of_refused {plugin : α} (free : name ∉ r.plugins.keys)
    (h : r.accepts plugin = false) : r.register name plugin = .error (.mishap .wrongType) :=
  (if_neg (mt OrderedMap.contains_iff.mp free)).trans (if_neg (ne_true_of_eq_false h))

theorem deregister_of_taken (h : name ∈ r.plugins.keys) :
    r.deregister name = .ok { r with plugins := r.plugins.erase name } :=
  if_pos (OrderedMap.contains_iff.mpr h)

theorem deregister_of_free (h : name ∉ r.plugins.keys) :
    r.deregister name = .error (.pluginNotFound name r.name) :=
  if_neg (mt OrderedMap.contains_iff.mp h)

theorem exists_get?_of_taken (h : name ∈ r.plugins.keys) :
    ∃ plugin, r.plugins.get? name = some plugin :=
  Option.ne_none_iff_exists'.mp (mt OrderedMap.get?_eq_none_iff.mp (not_not_intro h))

theorem get_eq_ok {plugin : α} : r.get name = .ok plugin ↔ r.plugins.get? name = some plugin := by
  unfold get
  cases r.plugins.get? name <;> simp

theorem offer_of_ok {accepts : α → Bool} {plugin : α} (h : e.load = .ok plugin) :
    offer accepts e = if accepts plugin = true then some plugin else none := by
  unfold offer
  rw [h]
  exact Option.filter_some

theorem offer_of_error {accepts : α → Bool} {m : Mishap} (h : e.load = .error m) :
    offer accepts e = none := by
  unfold offer
  rw [h]
  rfl

/-! ## Loading -/

/-- The registry after an entry point was looked at: a free name takes what it offers. -/
def install (r : PluginRegistry α) (e : EntryPoint α) : PluginRegistry α :=
  if e.name ∈ r.plugins.keys then r
  else match offer r.accepts e with
    | some plugin => { r with plugins := r.plugins.put e.name plugin }
    | none => r

theorem install_of_taken (h : e.name ∈ r.plugins.keys) : r.install e = r := if_pos h

theorem install_of_broken (h : offer r.accepts e = none) : r.install e = r := by
  unfold install
  rw [h]
  split <;> rfl

theorem install_of_offer {plugin : α} (free : e.name ∉ r.plugins.keys)
    (h : offer r.accepts e = some plugin) :
    r.install e = { r with plugins := r.plugins.put e.name plugin } := by
  unfold install
  rw [if_neg free, h]

theorem accepts_install (r : PluginRegistry α) (e : EntryPoint α) :
    (r.install e).accepts = r.accepts := by
  unfold install
  split
  · rfl
  · split <;> rfl

/-- Registering a plugin does what looking at an entry point with it does. -/
theorem attempt_register (r : PluginRegistry α) (name : String) (plugin : α) :
    (r.attempt (r.register name plugin)).2 = r.install ⟨name, .ok plugin⟩ := by
  by_cases taken : name ∈ r.plugins.keys
  · rw [register_of_taken taken, install_of_taken taken]
    rfl
  · have hoffer : offer r.accepts ⟨name, .ok plugin⟩ =
        if r.accepts plugin = true then some plugin else none := offer_of_ok rfl
    cases haccepts : r.accepts plugin with
    | true =>
      rw [register_of_accepted taken haccepts,
        install_of_offer taken (hoffer.trans (if_pos haccepts))]
      rfl
    | false =>
      rw [register_of_refused taken haccepts,
        install_of_broken (hoffer.trans (if_neg (ne_true_of_eq_false haccepts)))]
      rfl

/-- Loading goes from one harmless entry point to the next. -/
theorem loadAll_cons (h : e.Harmless) :
    loadAll (e :: entries) r = loadAll entries (r.install e) := by
  by_cases taken : e.name ∈ r.plugins.keys
  · rw [loadAll, if_pos (OrderedMap.contains_iff.mpr taken), install_of_taken taken]
  · rw [loadAll, if_neg (mt OrderedMap.contains_iff.mp taken)]
    cases hload : e.load with
    | error m => simp only [h.isSkipped hload, if_true, install_of_broken (offer_of_error hload)]
    | ok plugin =>
      obtain ⟨name, load⟩ := e
      obtain rfl : load = .ok plugin := hload
      rw [← attempt_register]
      dsimp only
      cases r.register name plugin <;> rfl

/-- Loading harmless entry points never fails: it looks at each of them. -/
theorem loadAll_eq (h : ∀ e ∈ entries, e.Harmless) :
    loadAll entries r = (.ok (), entries.foldl install r) := by
  induction entries generalizing r with
  | nil => rfl
  | cons e entries ih =>
    obtain ⟨he, hentries⟩ := List.forall_mem_cons.mp h
    rw [loadAll_cons he, ih hentries, List.foldl_cons]

theorem get?_install (r : PluginRegistry α) (e : EntryPoint α) (name : String) :
    (r.install e).plugins.get? name =
      (r.plugins.get? name).or (if e.name = name then offer r.accepts e else none) := by
  by_cases taken : e.name ∈ r.plugins.keys
  · rw [install_of_taken taken]
    split
    · next hname =>
      obtain ⟨plugin, hplugin⟩ := exists_get?_of_taken taken
      rw [← hname, hplugin, Option.some_or]
    · rw [Option.or_none]
  · cases hoffer : offer r.accepts e with
    | none => rw [install_of_broken hoffer, ite_self, Option.or_none]
    | some plugin =>
      rw [install_of_offer taken hoffer, OrderedMap.get?_put]
      by_cases hname : e.name = name
      · subst hname
        rw [if_pos rfl, if_pos rfl, OrderedMap.get?_eq_none_iff.mpr taken, Option.none_or]
      · rw [if_neg (Ne.symm hname), if_neg hname, Option.or_none]

theorem accepts_foldl_install (r : PluginRegistry α) (entries : List (EntryPoint α)) :
    (entries.foldl install r).accepts = r.accepts := by
  induction entries generalizing r with
  | nil => rfl
  | cons e entries ih => rw [List.foldl_cons, ih, accepts_install]

theorem firstOffer_cons (accepts : α → Bool) (name : String) (e : EntryPoint α)
    (entries : List (EntryPoint α)) : firstOffer accepts name (e :: entries) =
      (if e.name = name then offer accepts e else none).or (firstOffer accepts name entries) := by
  unfold firstOffer
  by_cases hname : e.name = name
  · rw [List.filter_cons, if_pos (decide_eq_true hname), List.findSome?_cons, if_pos hname]
    cases offer accepts e <;> rfl
  · rw [List.filter_cons, if_neg (by simpa using hname), if_neg hname, Option.none_or]

/-- A name that was free has the first plugin on offer for it, and any other what it had. -/
theorem get?_foldl_install (r : PluginRegistry α) (entries : List (EntryPoint α)) (name : String) :
    (entries.foldl install r).plugins.get? name =
      (r.plugins.get? name).or (firstOffer r.accepts name entries) := by
  induction entries generalizing r with
  | nil => exact (Option.or_none).symm
  | cons e entries ih =>
    rw [List.foldl_cons, ih, get?_install, accepts_install, firstOffer_cons, Option.or_assoc]

/-- An entry point with nothing to give: its name is taken, or it offers nothing. -/
def Settled (r : PluginRegistry α) (e : EntryPoint α) : Prop :=
  e.name ∈ r.plugins.keys ∨ offer r.accepts e = none

theorem foldl_install_of_settled (h : ∀ e ∈ entries, r.Settled e) :
    entries.foldl install r = r := by
  induction entries with
  | nil => rfl
  | cons e entries ih =>
    obtain ⟨he, hentries⟩ := List.forall_mem_cons.mp h
    rw [List.foldl_cons, he.elim install_of_taken install_of_broken, ih hentries]

/-- Once they were loaded, entry points have nothing more to give. -/
theorem settled_foldl_install (r : PluginRegistry α) (he : e ∈ entries) :
    (entries.foldl install r).Settled e := by
  unfold Settled
  rw [accepts_foldl_install, or_iff_not_imp_left, ← OrderedMap.get?_eq_none_iff, get?_foldl_install]
  intro hfree
  have hnone : firstOffer r.accepts e.name entries = none := (Option.or_eq_none_iff.mp hfree).2
  exact List.findSome?_eq_none_iff.mp hnone e (List.mem_filter.mpr ⟨he, decide_eq_true rfl⟩)

/-! ## Calls -/

/-- Calls that load harmless entry points, and all others, take plugins in or put one out. -/
theorem call_cases (r : PluginRegistry α) {c : PluginCall α} (h : c.Harmless) :
    (∃ entries : List (EntryPoint α), (r.call c).2 = entries.foldl install r) ∨
      ∃ name, (r.call c).2 = { r with plugins := r.plugins.erase name } := by
  cases c with
  | register name plugin => exact .inl ⟨[⟨name, .ok plugin⟩], attempt_register r name plugin⟩
  | deregister name =>
    by_cases taken : name ∈ r.plugins.keys
    · refine .inr ⟨name, ?_⟩
      rw [call, deregister_of_taken taken]
      rfl
    · refine .inl ⟨[], ?_⟩
      rw [call, deregister_of_free taken]
      rfl
  | load entries =>
    refine .inl ⟨entries, ?_⟩
    rw [call, loadAll_eq h]

theorem accepts_call (r : PluginRegistry α) {c : PluginCall α} (h : c.Harmless) :
    (r.call c).2.accepts = r.accepts := by
  obtain ⟨entries, hcall⟩ | ⟨name, hcall⟩ := r.call_cases h
  · rw [hcall, accepts_foldl_install]
  · rw [hcall]

/-- A name sees of a call what concerns it. -/
theorem get?_call (r : PluginRegistry α) {c : PluginCall α} (h : c.Harmless) (name : String) :
    (r.call c).2.plugins.get? name = sight r.accepts name (r.plugins.get? name) c := by
  cases c with
  | register other plugin =>
    rw [call, attempt_register, get?_install, offer_of_ok rfl, sight]
    by_cases hname : other = name
    · by_cases haccepts : r.accepts plugin = true
      · rw [if_pos hname, if_pos haccepts, if_pos ⟨hname, haccepts⟩]
      · rw [if_pos hname, if_neg haccepts, if_neg (fun h => haccepts h.2), Option.or_none]
    · rw [if_neg hname, if_neg (fun h => hname h.1), Option.or_none]
  | deregister other =>
    rw [call, sight]
    by_cases taken : other ∈ r.plugins.keys
    · rw [deregister_of_taken taken]
      show (r.plugins.erase other).get? name = _
      rw [OrderedMap.get?_erase]
      exact if_congr eq_comm rfl rfl
    · rw [deregister_of_free taken]
      show r.plugins.get? name = _
      split
      · next hname => rw [← hname, OrderedMap.get?_eq_none_iff.mpr taken]
      · rfl
  | load entries =>
    rw [call, loadAll_eq h]
    exact get?_foldl_install r entries name

/-! ## Histories -/

theorem accepts_after (r : PluginRegistry α) {calls : List (PluginCall α)}
    (h : ∀ c ∈ calls, c.Harmless) : (r.after calls).accepts = r.accepts := by
  induction calls generalizing r with
  | nil => rfl
  | cons c calls ih =>
    obtain ⟨hc, hcalls⟩ := List.forall_mem_cons.mp h
    exact (ih (r.call c).2 hcalls).trans (r.accepts_call hc)

/-- What a name has is told by the calls that it sees. -/
theorem get?_after (r : PluginRegistry α) {calls : List (PluginCall α)}
    (h : ∀ c ∈ calls, c.Harmless) (name : String) :
    (r.after calls).plugins.get? name =
      calls.foldl (sight r.accepts name) (r.plugins.get? name) := by
  induction calls generalizing r with
  | nil => rfl
  | cons c calls ih =>
    obtain ⟨hc, hcalls⟩ := List.forall_mem_cons.mp h
    rw [List.foldl_cons, ← r.get?_call hc, ← r.accepts_call hc]
    exact ih (r.call c).2 hcalls

theorem distinct_install (h : r.plugins.Distinct) (e : EntryPoint α) :
    (r.install e).plugins.Distinct := by
  unfold install
  split
  · exact h
  · split
    · exact h.put _ _
    · exact h

theorem distinct_call {c : PluginCall α} (hc : c.Harmless) (h : r.plugins.Distinct) :
    (r.call c).2.plugins.Distinct := by
  obtain ⟨entries, hcall⟩ | ⟨name, hcall⟩ := r.call_cases hc
  · rw [hcall]
    exact List.foldlRecOn (motive := fun r : PluginRegistry α => r.plugins.Distinct) entries
      install h fun _ hr e _ => distinct_install hr e
  · rw [hcall]
    exact h.erase name

theorem distinct_after {calls : List (PluginCall α)} (hcalls : ∀ c ∈ calls, c.Harmless)
    (h : r.plugins.Distinct) : (r.after calls).plugins.Distinct :=
  List.foldlRecOn (motive := fun r : PluginRegistry α => r.plugins.Distinct) calls _ h
    fun _ hr c hc => distinct_call (hcalls c hc) hr

/-- What a name comes to have is accepted, or it had it before. -/
theorem accepted_of_sight {accepts : α → Bool} {had : Option α} {c : PluginCall α}
    (h : ∀ p ∈ had, accepts p = true) : ∀ p ∈ sight accepts name had c, accepts p = true := by
  intro p hp
  cases c with
  | register other plugin =>
    simp only [sight] at hp
    split at hp
    · next hc =>
      obtain hp | ⟨-, hp⟩ := Option.or_eq_some_iff.mp hp
      · exact h p hp
      · rw [← Option.some.inj hp]
        exact hc.2
    · exact h p hp
  | deregister other =>
    simp only [sight] at hp
    split at hp
    · cases hp
    · exact h p hp
  | load entries =>
    obtain hp | ⟨-, hp⟩ := Option.or_eq_some_iff.mp hp
    · exact h p hp
    · obtain ⟨e, -, hoffer⟩ := List.exists_of_findSome?_eq_some hp
      exact (Option.filter_eq_some_iff.mp hoffer).2

/-- A name keeps what it has through every call but the one that frees it. -/
theorem sight_some {accepts : α → Bool} {plugin : α} {c : PluginCall α}
    (h : c ≠ .deregister name) : sight accepts name (some plugin) c = some plugin := by
  cases c with
  | register other _ => exact ite_self _
  | deregister other =>
    refine if_neg ?_
    rintro rfl
    exact h rfl
  | load entries => rfl

/-- A call that fails changes nothing. -/
theorem call_of_error {c : PluginCall α} (hc : c.Harmless) {fault : Fault}
    (h : (r.call c).1 = .error fault) : (r.call c).2 = r := by
  have hattempt (result : Except Fault (PluginRegistry α))
      (h : (r.attempt result).1 = .error fault) : (r.attempt result).2 = r := by
    cases result with
    | ok r' => cases h
    | error _ => rfl
  cases c with
  | register name plugin => exact hattempt _ h
  | deregister name => exact hattempt _ h
  | load entries =>
    rw [call, loadAll_eq hc] at h
    cases h

/-- Whatever was registered, taken out and loaded before, in whatever order: each name has at most
one plugin, which is accepted, and it is the one that the calls it sees leave it. A name keeps its
plugin until it is freed. Loading does not fail, whatever entry points are broken; a free name gets
the first plugin on offer for it, all others keep what they have, and loading the same again
changes nothing. Nor does a call that fails. -/
theorem keeps_and_adds_over_history (registry kind : String) (accepts : α → Bool)
    {calls : List (PluginCall α)} (harmless : ∀ c ∈ calls, c.Harmless) :
    let r := (empty registry kind accepts).after calls
    r.plugins.Distinct ∧
    (∀ name plugin, r.get name = .ok plugin → accepts plugin = true) ∧
    (∀ name, r.plugins.get? name = calls.foldl (sight accepts name) none) ∧
    (∀ name plugin later, r.get name = .ok plugin → (∀ c ∈ later, c.Harmless) →
      .deregister name ∉ later → (r.after later).get name = .ok plugin) ∧
    (∀ entries : List (EntryPoint α), (∀ e ∈ entries, e.Harmless) →
      ∃ r', loadAll entries r = (.ok (), r') ∧ loadAll entries r' = (.ok (), r') ∧
        ∀ name, r'.plugins.get? name =
          (r.plugins.get? name).or (firstOffer accepts name entries)) ∧
    ∀ c fault, c.Harmless → (r.call c).1 = .error fault → (r.call c).2 = r := by
  intro r
  have haccepts : r.accepts = accepts := accepts_after _ harmless
  have hseen (name : String) : r.plugins.get? name = calls.foldl (sight accepts name) none :=
    get?_after _ harmless name
  refine ⟨distinct_after harmless OrderedMap.distinct_empty, ?_, hseen, ?_, ?_,
    fun c fault hc h => call_of_error hc h⟩
  · intro name plugin h
    rw [get_eq_ok, hseen] at h
    exact List.foldlRecOn (motive := fun had => ∀ p ∈ had, accepts p = true) calls _
      (fun p hp => absurd hp (Option.not_mem_none p)) (fun _ hhad _ _ => accepted_of_sight hhad)
      plugin h
  · intro name plugin later h hlater hkept
    rw [get_eq_ok, get?_after r hlater, get_eq_ok.mp h]
    refine List.foldlRecOn (motive := (· = some plugin)) later _ rfl fun had hhad c hc => ?_
    rw [hhad]
    refine sight_some ?_
    rintro rfl
    exact hkept hc
  · intro entries h
    refine ⟨_, loadAll_eq h, ?_, fun name => haccepts ▸ get?_foldl_install r entries name⟩
    rw [loadAll_eq h, foldl_install_of_settled fun e he => settled_foldl_install r he]

/-- Entry points for `a`, broken and not accepted ones before two good ones, and for `b`. -/
def sampleEntries : List (EntryPoint Nat) :=
  [⟨"a", .error .notInstalled⟩, ⟨"a", .ok 0⟩, ⟨"b", .error .missingMember⟩, ⟨"a", .ok 1⟩,
    ⟨"a", .ok 2⟩, ⟨"b", .ok 3⟩, ⟨"a", .error .wrongType⟩]

/-- They are loaded, `a` is asked for by another plugin in vain, and `b` is freed. -/
def sampleCalls : List (PluginCall Nat) :=
  [.load sampleEntries, .register "a" 4, .register "c" 0, .deregister "b", .deregister "d"]

/-- Then `a` stays what it is, and of the same entry points only `b` comes in again. -/
theorem sample_keeps_and_adds :
    (∀ c ∈ sampleCalls, c.Harmless) ∧
    let r := (empty "test" "Positive" (0 < ·)).after sampleCalls
    r.get "a" = .ok 1 ∧ r.plugins.keys = ["a"] ∧
    (r.after [.deregister "b", .register "a" 5]).get "a" = .ok 1 ∧
    ∃ r', loadAll sampleEntries r = (.ok (), r') ∧ loadAll sampleEntries r' = (.ok (), r') ∧
      r'.plugins.get? "b" = some 3 := by
  have harmless : ∀ c ∈ sampleCalls, c.Harmless := by decide
  obtain ⟨-, -, -, hkept, hloads, -⟩ :=
    keeps_and_adds_over_history "test" "Positive" (0 < ·) harmless
  have hget : ((empty "test" "Positive" (0 < ·)).after sampleCalls).get "a" = .ok 1 := rfl
  obtain ⟨r', hload, hagain, hlooked⟩ := hloads sampleEntries (by decide)
  refine ⟨harmless, hget, rfl, hkept "a" 1 _ hget (by decide) (by simp), r', hload, hagain, ?_⟩
  rw [hlooked]
  rfl

end PluginRegistry
end PackageSigning
