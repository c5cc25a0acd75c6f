import PackageSigning.Platform.Standard
import PackageSigning.Proofs.Keystore.Saving

/-!
# Keystores as maps that remember the order of insertion

What is seen of a keystore of PEM texts are its names, in order, and for each name whether there is
a key, the key under a password, and the certificates. Writing, taking out and failing change it
as they change a map that remembers the order of insertion (`PemStore.KeepsOrder`), and saving is
not seen at all: a store that was written to, saved and loaded any number of times is the one that
was only written to (`PemStore.saving_is_invisible`).
-/

namespace PackageSigning

open JsonValue (Legible)

namespace PemStore

variable {s : PemStore}

/-- The number of iterations is one that a check value is made with. -/
abbrev Accepts [Platform] (iterations : Int) : Prop :=
  Platform.refusal (.direct StoreMac.keyLength iterations.toNat) = none

section
variable [Platform]

/-! ## Writing to a store -/

theorem wellFormed_empty {iterations : Int} (positive : 1 ≤ iterations)
    (accepted : Accepts iterations) : (empty iterations).WellFormed :=
  ⟨OrderedMap.distinct_empty, nofun, nofun, positive, accepted⟩

/-- An entry that can be written and read again, at some name. -/
theorem WellFormed.put (h : s.WellFormed) (name : String) {entry : JsonValue}
    (legible : ∀ depth, Legible (depth + 2) entry) :
    WellFormed { s with entries := s.entries.put name entry } where
  __ := h
  distinct := h.distinct.put name entry
  named e he := by
    obtain rfl | he := OrderedMap.mem_entries_put he
    · exact ⟨name, rfl⟩
    · exact h.named e he
  legible e he := by
    obtain rfl | he := OrderedMap.mem_entries_put he
    · exact legible
    · exact h.legible e he

theorem WellFormed.erase (h : s.WellFormed) (name : String) :
    WellFormed { s with entries := s.entries.erase name } where
  __ := h
  distinct := h.distinct.erase name
  named e he := h.named e (OrderedMap.mem_entries_of_erase he)
  legible e he := h.legible e (OrderedMap.mem_entries_of_erase he)

/-- The entry of a key with its certificates. -/
def keyEntry (formats : PemFormats) (text : String) (chain : List Certificate) : JsonValue :=
  .object [("type", .text "key"), ("key", .text text),
    ("chain", .list (chain.map fun c => .text (formats.certificateText c)))]

/-- The entry of a certificate. -/
def certificateEntry (formats : PemFormats) (c : Certificate) : JsonValue :=
  .object [("type", .text "certificate"), ("certificate", .text (formats.certificateText c))]

omit [Platform] in
theorem legible_keyEntry (formats : PemFormats) (text : String) (chain : List Certificate)
    (depth : Nat) : Legible (depth + 2) (keyEntry formats text chain) := by
  have hchain : Legible (depth + 1)
      (.list (chain.map fun c => .text (formats.certificateText c))) := by
    refine .list ?_
    intro v hv
    obtain ⟨c, -, rfl⟩ := List.mem_map.mp hv
    exact .ofString _
  refine Legible.object_of_names ["type", "key", "chain"] (by decide) rfl ?_
  simp only [List.forall_mem_cons]
  exact ⟨.ofString _, .ofString _, hchain, nofun⟩

omit [Platform] in
theorem legible_certificateEntry (formats : PemFormats) (c : Certificate) (depth : Nat) :
    Legible (depth + 2) (certificateEntry formats c) := by
  refine Legible.object_of_names ["type", "certificate"] (by decide) rfl ?_
  simp only [List.forall_mem_cons]
  exact ⟨.ofString _, .ofString _, nofun⟩

/-! ## Steps -/

/-- Something that is done with a store. -/
inductive Step where
  | setKey (name : String) (key : PrivateKey) (chain : List Certificate) (password : Option Bytes)
  | setCertificate (name : String) (certificate : Certificate)
  | erase (name : String)
  /-- Saving the store under a password, and loading what was saved. -/
  | save (password salt : Bytes)

namespace Step

/-- Whether the store is saved. -/
def isSave : Step → Bool
  | save .. => true
  | _ => false

/-- What a step comes to, and the store behind it. -/
def run (formats : PemFormats) (s : PemStore) : Step → Except Fault Unit × PemStore
  | setKey name key chain password =>
    match s.setKey formats name key chain password with
    | .ok t => (.ok (), t)
    | .error fault => (.error fault, s)
  | setCertificate name c => (.ok (), s.setCertificate formats name c)
  | erase name =>
    match s.erase name with
    | .ok t => (.ok (), t)
    | .error fault => (.error fault, s)
  | save password salt =>
    match s.save password salt with
    | .ok text => s.load (some (Bytes.ofText text)) (some password)
    | .error fault => (.error fault, s)

/-- The store behind steps, one after the other. -/
def runAll (formats : PemFormats) (s : PemStore) (steps : List Step) : PemStore :=
  steps.foldl (fun s step => (step.run formats s).2) s

/-- The name that is written to. -/
def written? : Step → Option String
  | setKey name .. | setCertificate name _ => some name
  | erase _ | save .. => none

variable {formats : PemFormats}

theorem run_setKey (name : String) (key : PrivateKey) (chain : List Certificate)
    (password : Option Bytes) : (setKey name key chain password).run formats s =
      match formats.keyText key password with
      | .ok text =>
        (.ok (), { s with entries := s.entries.put name (keyEntry formats text chain) })
      | .error fault => (.error fault, s) := by
  rw [run, PemStore.setKey]
  cases formats.keyText key password <;> rfl

theorem run_setCertificate (name : String) (c : Certificate) :
    (setCertificate name c).run formats s =
      (.ok (), { s with entries := s.entries.put name (certificateEntry formats c) }) :=
  rfl

theorem run_erase_of_mem {name : String} (h : (name : EntryName) ∈ s.entries.keys) :
    (erase name).run formats s = (.ok (), { s with entries := s.entries.erase name }) := by
  rw [run, PemStore.erase, if_pos (OrderedMap.contains_iff.mpr h)]

theorem run_erase_of_not_mem {name : String} (h : (name : EntryName) ∉ s.entries.keys) :
    (erase name).run formats s = (.error (.mishap .missingEntry), s) := by
  rw [run, PemStore.erase, if_neg (mt OrderedMap.contains_iff.mp h)]

/-- Saving a store and loading it leaves it as it was. -/
theorem run_save (h : s.WellFormed) (password salt : Bytes) :
    (save password salt).run formats s = (.ok (), s) := by
  obtain ⟨text, hsave, hload⟩ := h.load_saved password salt s
  rw [run, hsave]
  exact hload

/-- What a step does with a store: it writes one entry, takes one out, or leaves the store. -/
theorem run_cases (formats : PemFormats) (h : s.WellFormed) (step : Step) :
    (∃ (name : String) (entry : JsonValue), step.written? = some name ∧ (∀ depth, Legible (depth + 2) entry) ∧
      step.run formats s = (.ok (), { s with entries := s.entries.put name entry })) ∨
    (∃ name : String, step = erase name ∧ (name : EntryName) ∈ s.entries.keys ∧
      step.run formats s = (.ok (), { s with entries := s.entries.erase name })) ∨
    (step.run formats s).2 = s := by
  cases step with
  | setKey name key chain password =>
    rw [run_setKey]
    cases formats.keyText key password with
    | ok text => exact .inl ⟨name, _, rfl, legible_keyEntry formats text chain, rfl⟩
    | error fault => exact .inr (.inr rfl)
  | setCertificate name c =>
    exact .inl ⟨name, _, rfl, legible_certificateEntry formats c, run_setCertificate name c⟩
  | erase name =>
    by_cases hname : (name : EntryName) ∈ s.entries.keys
    · exact .inr (.inl ⟨name, rfl, hname, run_erase_of_mem hname⟩)
    · exact .inr (.inr (by rw [run_erase_of_not_mem hname]))
  | save password salt => exact .inr (.inr (by rw [run_save h]))

theorem wellFormed_run (h : s.WellFormed) (step : Step) : (step.run formats s).2.WellFormed := by
  obtain ⟨name, entry, -, legible, hrun⟩ | ⟨name, -, -, hrun⟩ | hrun :=
    run_cases formats h step
  · rw [hrun]
    exact h.put name legible
  · rw [hrun]
    exact h.erase name
  · rw [hrun]
    exact h

theorem wellFormed_runAll (formats : PemFormats) (h : s.WellFormed) (steps : List Step) :
    (runAll formats s steps).WellFormed := by
  induction steps generalizing s with
  | nil => exact h
  | cons step steps ih => exact ih (wellFormed_run h step)

/-- Steps come to the store that they come to without saving. -/
theorem runAll_filter (h : s.WellFormed) (steps : List Step) :
    runAll formats s (steps.filter (!·.isSave)) = runAll formats s steps := by
  induction steps generalizing s with
  | nil => rfl
  | cons step steps ih =>
    cases hsave : step.isSave with
    | false =>
      rw [List.filter_cons_of_pos (by simp [hsave])]
      exact ih (wellFormed_run h step)
    | true =>
      -- What is saved and loaded is the store as it was, so the other steps start from the same.
      rw [List.filter_cons_of_neg (by simp [hsave]), ih h]
      cases step with
      | save password salt =>
        show _ = runAll formats ((save password salt).run formats s).2 steps
        rw [run_save h]
      | _ => cases hsave

end Step

/-! ## What is seen of a store -/

/-- What is seen of an entry. -/
structure Sight where
  isKeyEntry : Except Fault Bool
  key : Option Bytes → Except Fault (Option PrivateKey)
  chain : Except Fault (Option (List Certificate))

namespace Sight

/-- What is seen where there is no entry, or a certificate. -/
def noKey : Sight := ⟨.ok false, fun _ => .ok none, .ok none⟩

/-- What is seen of a key with its certificates: what is read from the texts that were written. -/
def ofKey (formats : PemFormats) (name : EntryName) (text : String) (chain : List Certificate) : Sight where
  isKeyEntry := .ok true
  key password := do
    let b ← (JsonValue.text text).asciiText
    return some (← unlock formats name b password)
  chain := do
    let certificates ← chain.mapM fun c => do
      formats.readCertificate (← (JsonValue.text (formats.certificateText c)).asciiText)
    return some certificates

end Sight

variable (formats : PemFormats)

/-- The names in a store, in order. -/
def names (s : PemStore) : List EntryName := (kind formats).aliases s

/-- What is seen of the entry at a name. -/
def sight (s : PemStore) (name : EntryName) : Sight :=
  ⟨(kind formats).isKeyEntry s name, (kind formats).key s name, (kind formats).chain s name⟩

variable {formats}

theorem sight_congr {t : PemStore} {name : EntryName}
    (h : s.entries.get? name = t.entries.get? name) :
    s.sight formats name = t.sight formats name := by
  have hentry : s.entry name = t.entry name := by
    unfold entry
    rw [h]
  have hkey : s.key formats name = t.key formats name := by
    funext password
    unfold key
    rw [hentry]
  show Sight.mk (isKeyEntry s name) _ (chain formats s name) = Sight.mk _ _ _
  unfold isKeyEntry chain
  rw [hentry]
  exact congrArg (Sight.mk _ · _) hkey

theorem sight_eq {name : EntryName} {found : Option JsonValue} {seen : Sight}
    (hentry : s.entry name = .ok found) (hkind : .ok (found.any (isOfType "key")) = seen.isKeyEntry)
    (hkey : ∀ password, s.key formats name password = seen.key password)
    (hchain : s.chain formats name = seen.chain) : s.sight formats name = seen := by
  have hisKeyEntry : s.isKeyEntry name = seen.isKeyEntry := by
    unfold isKeyEntry
    rw [hentry]
    exact hkind
  show Sight.mk (s.isKeyEntry name) (s.key formats name) (s.chain formats name) = _
  rw [hisKeyEntry, funext hkey, hchain]

theorem sight_of_absent {name : EntryName} (h : s.entries.get? name = none) :
    s.sight formats name = .noKey := by
  have hentry : s.entry name = .ok none := by
    unfold entry
    rw [h]
  refine sight_eq hentry rfl (fun password => ?_) ?_
  · unfold key
    rw [hentry]
    rfl
  · unfold chain
    rw [hentry]
    rfl

theorem sight_certificateEntry {name : EntryName} {c : Certificate}
    (h : s.entries.get? name = some (certificateEntry formats c)) :
    s.sight formats name = .noKey := by
  have hentry : s.entry name = .ok (some (certificateEntry formats c)) := by
    unfold entry
    rw [h]
    rfl
  refine sight_eq hentry rfl (fun password => ?_) ?_
  · unfold key
    rw [hentry]
    rfl
  · unfold chain
    rw [hentry]
    rfl

theorem sight_keyEntry {name : EntryName} {text : String} {certificates : List Certificate}
    (h : s.entries.get? name = some (keyEntry formats text certificates)) :
    s.sight formats name = .ofKey formats name text certificates := by
  have hentry : s.entry name = .ok (some (keyEntry formats text certificates)) := by
    unfold entry
    rw [h]
    rfl
  refine sight_eq hentry rfl (fun password => ?_) ?_
  · unfold key
    rw [hentry]
    rfl
  · unfold chain
    rw [hentry]
    cases certificates with
    | nil => rfl
    | cons c rest =>
      show (((c :: rest).map fun c => JsonValue.text (formats.certificateText c)).mapM
        fun v => v.asciiText >>= formats.readCertificate) >>= _ = _
      rw [List.mapM_map]
      rfl

/-! ## A map that remembers the order of insertion -/

/-- What can be done with a store changes what is seen of it as it does with a map that remembers
the order of insertion. -/
structure KeepsOrder (formats : PemFormats) (s : PemStore) : Prop where
  /-- Every name is one that can be written to. -/
  named : ∀ entry ∈ s.names formats, ∃ name : String, entry = name
  /-- A name that is written to keeps its place, or goes last. No other entry is touched. -/
  written : ∀ {step : Step} {name : String} {t : PemStore}, step.written? = some name →
    step.run formats s = (.ok (), t) →
    t.names formats =
      (if (name : EntryName) ∈ s.names formats then s.names formats
        else s.names formats ++ [(name : EntryName)]) ∧
    ∀ other ≠ (name : EntryName), t.sight formats other = s.sight formats other
  /-- A key that has a text can be written, and is seen as it was written. -/
  key : ∀ {name key chain password text}, formats.keyText key password = .ok text →
    ∃ t, (Step.setKey name key chain password).run formats s = (.ok (), t) ∧
      t.sight formats name = Sight.ofKey formats name text chain
  /-- A certificate can be written, and is no key. -/
  certificate : ∀ {name c}, ∃ t, (Step.setCertificate name c).run formats s = (.ok (), t) ∧
    t.sight formats name = .noKey
  /-- A name that is there can be taken out. No other entry is touched. -/
  erased : ∀ name : String, (name : EntryName) ∈ s.names formats →
    ∃ t, (Step.erase name).run formats s = (.ok (), t) ∧
      t.names formats = (s.names formats).filter (· ≠ (name : EntryName)) ∧
      t.sight formats name = .noKey ∧
      ∀ other ≠ (name : EntryName), t.sight formats other = s.sight formats other
  /-- A name that is taken out and written to again goes last. -/
  again : ∀ {step : Step} {name : String} {t u : PemStore}, step.written? = some name →
    (name : EntryName) ∈ s.names formats → (Step.erase name).run formats s = (.ok (), t) →
    step.run formats t = (.ok (), u) →
    u.names formats = (s.names formats).filter (· ≠ (name : EntryName)) ++ [(name : EntryName)]
  /-- A name that is not there cannot be taken out. -/
  missing : ∀ name : String, (name : EntryName) ∉ s.names formats →
    (Step.erase name).run formats s = (.error (.mishap .missingEntry), s)
  /-- What fails changes nothing. -/
  failed : ∀ {step : Step} {fault : Fault} {t : PemStore},
    step.run formats s = (.error fault, t) → t = s

theorem names_put (name : EntryName) (entry : JsonValue) :
    names formats { s with entries := s.entries.put name entry } =
      if name ∈ s.names formats then s.names formats else s.names formats ++ [name] :=
  OrderedMap.keys_put s.entries name entry

omit [Platform] in
theorem get?_put_self (name : EntryName) (entry : JsonValue) :
    (s.entries.put name entry).get? name = some entry := by
  rw [OrderedMap.get?_put, if_pos rfl]

theorem sight_put_of_ne {name other : EntryName} (entry : JsonValue) (h : other ≠ name) :
    sight formats { s with entries := s.entries.put name entry } other = s.sight formats other := by
  apply sight_congr
  show (s.entries.put name entry).get? other = _
  rw [OrderedMap.get?_put, if_neg h]

theorem names_erase (name : EntryName) :
    names formats { s with entries := s.entries.erase name } =
      (s.names formats).filter (· ≠ name) :=
  OrderedMap.keys_erase s.entries name

theorem sight_erase_self (name : EntryName) :
    sight formats { s with entries := s.entries.erase name } name = .noKey := by
  apply sight_of_absent
  show (s.entries.erase name).get? name = none
  rw [OrderedMap.get?_erase, if_pos rfl]

theorem sight_erase_of_ne {name other : EntryName} (h : other ≠ name) :
    sight formats { s with entries := s.entries.erase name } other = s.sight formats other := by
  apply sight_congr
  show (s.entries.erase name).get? other = _
  rw [OrderedMap.get?_erase, if_neg h]

namespace Step

/-- A step that writes and does not fail writes one entry. -/
theorem run_written {step : Step} {name : String} {t : PemStore} (hname : step.written? = some name)
    (hrun : step.run formats s = (.ok (), t)) :
    ∃ entry, t = { s with entries := s.entries.put name entry } := by
  cases step with
  | setKey _ key chain password =>
    cases hname
    rw [run_setKey] at hrun
    split at hrun
    · cases hrun
      exact ⟨_, rfl⟩
    · cases hrun
  | setCertificate _ c =>
    cases hname
    cases hrun
    exact ⟨_, rfl⟩
  | _ => cases hname

end Step

theorem WellFormed.keepsOrder (h : s.WellFormed) : s.KeepsOrder formats where
  named := by
    intro entry hentry
    obtain ⟨e, he, rfl⟩ := List.mem_map.mp hentry
    exact h.named e he
  written := by
    intro step name t hname hrun
    obtain ⟨entry, rfl⟩ := Step.run_written hname hrun
    refine ⟨names_put name entry, ?_⟩
    intro other hother
    exact sight_put_of_ne entry hother
  key := by
    intro name key chain password text htext
    rw [Step.run_setKey, htext]
    exact ⟨_, rfl, sight_keyEntry (get?_put_self name _)⟩
  certificate := by
    intro name c
    exact ⟨_, Step.run_setCertificate name c, sight_certificateEntry (get?_put_self name _)⟩
  erased := by
    intro name hname
    refine ⟨_, Step.run_erase_of_mem hname, names_erase name, sight_erase_self name, ?_⟩
    intro other hother
    exact sight_erase_of_ne hother
  again := by
    intro step name t u hwritten hname herase hrun
    -- The name is gone when it is written to, so it goes last.
    rw [Step.run_erase_of_mem hname] at herase
    cases herase
    obtain ⟨entry, rfl⟩ := Step.run_written hwritten hrun
    rw [names_put, names_erase, if_neg (by simp)]
  missing := by
    intro name hname
    exact Step.run_erase_of_not_mem hname
  failed := by
    intro step fault t hrun
    -- The steps that change the store do not fail.
    obtain ⟨_, _, -, -, hok⟩ | ⟨_, -, -, hok⟩ | hsame := Step.run_cases formats h step
    · cases hok.symm.trans hrun
    · cases hok.symm.trans hrun
    · rw [← hsame, hrun]

/-- Whatever was done with a store that was empty, saving it under any password and loading what
was saved succeeds and leaves it as it was, so that it is the store that the same steps without
saving come to; and it is a map that remembers the order of insertion. -/
theorem saving_is_invisible (formats : PemFormats) {iterations : Int} (positive : 1 ≤ iterations)
    (accepted : Accepts iterations) (steps : List Step) :
    let s := Step.runAll formats (empty iterations) steps
    (∀ password salt, (Step.save password salt).run formats s = (.ok (), s)) ∧
    s = Step.runAll formats (empty iterations) (steps.filter (!·.isSave)) ∧
    s.KeepsOrder formats := by
  have hempty := wellFormed_empty positive accepted
  have hsteps := Step.wellFormed_runAll formats hempty steps
  exact ⟨Step.run_save hsteps, (Step.runAll_filter hempty steps).symm, hsteps.keepsOrder⟩

end

/-- Texts that say nothing of what they stand for. -/
def plainFormats : PemFormats where
  keyText _ _ := .ok "key"
  readKey _ _ := .ok (.edwards .ed25519 [])
  certificateText _ := "certificate"
  readCertificate _ := .error (.mishap .badValue)

/-- Two entries, the first of which is taken out and written again, with the store saved in
between. -/
def takenOutAndBack : List Step :=
  let c : Certificate := ⟨[], ⟨[]⟩, ⟨[]⟩, []⟩
  [.setCertificate "a" c, .save [] [1], .setKey "b" (.edwards .ed25519 []) [c] none,
   .save [2] [], .erase "a", .save [] [], .setCertificate "a" c]

section
attribute [local instance] Platform.standard

/-- The entry that is taken out and written again goes last, though the store is saved between. -/
theorem sample_saving_is_invisible :
    (1 : Int) ≤ 1 ∧ Accepts 1 ∧
    let s := Step.runAll plainFormats (empty 1) takenOutAndBack
    s.names plainFormats = [("b" : EntryName), ("a" : EntryName)] ∧
    (Step.save [3] [4]).run plainFormats s = (.ok (), s) ∧
    (Step.erase "c").run plainFormats s = (.error (.mishap .missingEntry), s) := by
  have positive : (1 : Int) ≤ 1 := by decide
  have accepted : Accepts 1 := by decide
  obtain ⟨hsave, hfilter, horder⟩ :=
    saving_is_invisible plainFormats positive accepted takenOutAndBack
  have hnames : names plainFormats (Step.runAll plainFormats (empty 1) takenOutAndBack) =
      [("b" : EntryName), ("a" : EntryName)] := by
    -- Without the saving, no check value has to be computed.
    rw [hfilter]
    decide
  refine ⟨positive, accepted, hnames, hsave [3] [4], horder.missing "c" ?_⟩
  rw [hnames]
  decide

end

end PemStore
end PackageSigning
