import Mathlib.Data.List.Infix
import Mathlib.Data.List.MinMax
import Mathlib.Data.List.Perm.Subperm
import PackageSigning.Proofs.OrderedMap
import PackageSigning.Proofs.Outcome
import PackageSigning.World.Files

/-!
# Laws of files

Where a path leads to depends only on which names are directories and which are links
(`Files.SameWays.locate`), so it stays what it is while files are written and taken out again. A new
file for unfinished results is in nobody's way: it has a name and a number that nothing else has
(`Files.newFile_eq_ok`). When it is removed, files are what they were (`Files.IsNew.remove`), and
when it is moved over something else on the same file system, that name is the only one that has
changed (`Files.IsNew.move`, `Files.Renewed`). Over a file on another file system it is what the file
holds that has changed (`Files.IsNew.move_apart`).
-/

namespace PackageSigning.Files

variable {fs gs hs : Files} {p : Path} {n m : List String} {b c : Bytes} {id : Nat}

/-! ## Names -/

@[simp] theorem at?_nil (fs : Files) : fs.at? [] = some .directory := rfl

theorem at?_of_ne_nil (h : n ≠ []) : fs.at? n = fs.entries.get? n := by
  unfold at?
  rw [if_neg (by simpa using h)]

theorem ne_nil_of_at? (h : fs.at? n ≠ some .directory) : n ≠ [] := by
  rintro rfl
  exact h rfl

theorem ne_nil_of_free (free : fs.at? n = none) : n ≠ [] := by
  rintro rfl
  cases free

theorem at?_put (h : n ≠ []) (e : FileEntry) (m : List String) :
    (fs.put n e).at? m = if m = n then some e else fs.at? m := by
  by_cases hm : m = []
  · subst hm
    rw [if_neg (Ne.symm h)]
    rfl
  · rw [at?_of_ne_nil hm, at?_of_ne_nil hm]
    exact OrderedMap.get?_put fs.entries m n e

theorem at?_unname (h : n ≠ []) (fs : Files) (m : List String) :
    (fs.unname n).at? m = if m = n then none else fs.at? m := by
  by_cases hm : m = []
  · subst hm
    rw [if_neg (Ne.symm h)]
    rfl
  · rw [at?_of_ne_nil hm, at?_of_ne_nil hm]
    exact OrderedMap.get?_erase fs.entries m n

@[simp] theorem at?_store (fs : Files) (id : Nat) (b : Bytes) : (fs.store id b).at? n = fs.at? n :=
  rfl

@[simp] theorem at?_forget (fs : Files) (old : Option FileEntry) :
    (fs.forget old).at? n = fs.at? n := by
  unfold forget
  split
  · split <;> rfl
  · rfl

theorem at?_create (h : n ≠ []) (b : Bytes) (m : List String) :
    (fs.create n b).at? m = if m = n then some (.file fs.freshId) else fs.at? m :=
  at?_put h _ m

theorem not_mem_of_free (free : fs.at? n = none) : n ∉ fs.entries.keys := by
  rw [at?_of_ne_nil (ne_nil_of_free free)] at free
  exact OrderedMap.get?_eq_none_iff.mp free

/-! ## Numbers of files -/

theorem contentsOf_store (id : Nat) (b : Bytes) (j : Nat) :
    (fs.store id b).contentsOf j = if j = id then b else fs.contentsOf j := by
  unfold contentsOf store
  rw [OrderedMap.get?_put]
  split <;> rfl

theorem store_store (id : Nat) (b c : Bytes) : (fs.store id b).store id c = fs.store id c :=
  congrArg (Files.mk fs.entries · fs.current fs.mounts) (OrderedMap.put_put fs.contents id b c)

theorem mem_entries_of_at? {e : FileEntry} (h : fs.at? n = some e) (he : e ≠ .directory) :
    (n, e) ∈ fs.entries.entries := by
  have hne : n ≠ [] := ne_nil_of_at? fun hdirectory => he (Option.some.inj (h.symm.trans hdirectory))
  rw [at?_of_ne_nil hne] at h
  exact OrderedMap.mem_entries_of_get? h

theorem mem_ids_of_at? (h : fs.at? n = some (.file id)) : id ∈ fs.ids :=
  List.mem_filterMap.mpr ⟨_, mem_entries_of_at? h nofun, rfl⟩

theorem mem_links_of_at? {target : Path} (h : fs.at? n = some (.link target)) : n ∈ fs.links :=
  List.mem_map.mpr ⟨_, List.mem_filter.mpr ⟨mem_entries_of_at? h nofun, rfl⟩, rfl⟩

theorem le_foldl_max {numbers : List Nat} {number start : Nat}
    (h : number ≤ start ∨ number ∈ numbers) : number ≤ numbers.foldl max start := by
  induction numbers generalizing start with
  | nil => exact h.resolve_right nofun
  | cons first rest ih =>
    refine ih ?_
    obtain h | h := h
    · exact .inl (le_max_of_le_left h)
    · obtain rfl | h := List.mem_cons.mp h
      · exact .inl (le_max_right _ _)
      · exact .inr h

/-- The number of a new file is nobody's. -/
theorem freshId_not_mem (fs : Files) : fs.freshId ∉ fs.ids ∧ fs.freshId ∉ fs.contents.keys := by
  have hfresh : fs.freshId ∉ fs.ids ++ fs.contents.keys := fun hmem =>
    Nat.not_succ_le_self _ (le_foldl_max (.inr hmem))
  exact not_or.mp (mt List.mem_append.mpr hfresh)

theorem freshId_ne_of_at? (h : fs.at? n = some (.file id)) : id ≠ fs.freshId := by
  rintro rfl
  exact (freshId_not_mem fs).1 (mem_ids_of_at? h)

/-! ## Where paths lead to -/

/-- The same names are directories, and the same ones are links to the same places. -/
structure SameWays (fs gs : Files) : Prop where
  current : fs.current = gs.current
  entry : ∀ n e, (∀ id, e ≠ .file id) → (fs.at? n = some e ↔ gs.at? n = some e)

theorem SameWays.symm (h : SameWays fs gs) : SameWays gs fs :=
  ⟨h.current.symm, fun n e he => (h.entry n e he).symm⟩

theorem SameWays.directory (h : SameWays fs gs) (n : List String) :
    fs.at? n = some .directory ↔ gs.at? n = some .directory := h.entry n _ nofun

theorem SameWays.link (h : SameWays fs gs) (n : List String) (target : Path) :
    fs.at? n = some (.link target) ↔ gs.at? n = some (.link target) := h.entry n _ nofun

/-- There is nothing at a name, or a file. -/
def HoldsFile (fs : Files) (n : List String) : Prop := ∀ e, fs.at? n = some e → ∃ id, e = .file id

theorem holdsFile_of_free (free : fs.at? n = none) : fs.HoldsFile n := by
  intro e h
  rw [free] at h
  cases h

theorem holdsFile_of_at? (h : fs.at? n = some (.file id)) : fs.HoldsFile n :=
  fun _ h' => ⟨id, Option.some.inj (h'.symm.trans h)⟩

theorem ne_nil_of_holdsFile (h : fs.HoldsFile n) : n ≠ [] := by
  rintro rfl
  obtain ⟨_, ⟨⟩⟩ := h _ rfl

/-- A change at one name, where no directory or link is before or after it. -/
theorem SameWays.of_at? (current : fs.current = gs.current) (h : fs.HoldsFile n)
    (h' : gs.HoldsFile n) (others : ∀ m, m ≠ n → fs.at? m = gs.at? m) : SameWays fs gs where
  current := current
  entry m e he := by
    by_cases hm : m = n
    · subst hm
      constructor
      · intro hfs
        obtain ⟨id, rfl⟩ := h e hfs
        exact absurd rfl (he id)
      · intro hgs
        obtain ⟨id, rfl⟩ := h' e hgs
        exact absurd rfl (he id)
    · rw [others m hm]

theorem sameWays_store (fs : Files) (id : Nat) (b : Bytes) : SameWays fs (fs.store id b) :=
  ⟨rfl, fun _ _ _ => Iff.rfl⟩

theorem sameWays_create (h : fs.HoldsFile n) (b : Bytes) : SameWays fs (fs.create n b) := by
  have hat (m : List String) :
      (fs.create n b).at? m = if m = n then some (.file fs.freshId) else fs.at? m :=
    at?_create (ne_nil_of_holdsFile h) b m
  refine .of_at? rfl h (holdsFile_of_at? ((hat n).trans (if_pos rfl))) fun m hm => ?_
  rw [hat, if_neg hm]

theorem enter_eq_ok {text name : String} {place : List String} :
    fs.enter text place name = .ok n ↔
      fs.at? place = some .directory ∧ (Bytes.ofText name).length ≤ maxName ∧
        step place name = n := by
  unfold enter
  split
  · next h => simp [h]
  · next h => simp [h]
  · next h => simp [h]
  · next h =>
    split
    · next hlong => simp [Nat.not_le.mpr hlong]
    · next hshort => simp [h, Nat.not_lt.mp hshort]

section Advance
variable {text name : String} {place names rest : List String}
  {jump jump' : List String → List String → Except FileFault (List String)}

theorem advance_cons_eq_ok : fs.advance text jump place (name :: rest) = .ok n ↔
    ∃ next, fs.enter text place name = .ok next ∧
      ((∃ target, fs.at? next = some (.link target) ∧
          jump (startFrom next.dropLast target) (target.names ++ rest) = .ok n) ∨
        ((∀ target, fs.at? next ≠ some (.link target)) ∧
          fs.advance text jump next rest = .ok n)) := by
  rw [advance, bind_eq_ok]
  refine exists_congr fun next => and_congr_right fun _ => ?_
  split
  · next target h => simp [h]
  · next h =>
    have hplain : ∀ target, fs.at? next ≠ some (.link target) := h
    simp [hplain]

theorem SameWays.enter (h : SameWays fs gs) :
    fs.enter text place name = .ok n ↔ gs.enter text place name = .ok n := by
  rw [enter_eq_ok, enter_eq_ok, h.directory]

theorem advance_of_plain (h : fs.enter text place name = .ok next)
    (hplain : ∀ target, fs.at? next ≠ some (.link target)) :
    fs.advance text jump place (name :: rest) = fs.advance text jump next rest := by
  rw [advance, h]
  dsimp only [bind, Except.bind]
  split
  · next target htarget => exact absurd htarget (hplain target)
  · rfl

theorem SameWays.advance (h : SameWays fs gs)
    (hjump : ∀ place names, jump place names = .ok n ↔ jump' place names = .ok n) :
    fs.advance text jump place names = .ok n ↔ gs.advance text jump' place names = .ok n := by
  induction names generalizing place with
  | nil => rfl
  | cons name rest ih =>
    rw [advance_cons_eq_ok, advance_cons_eq_ok]
    simp only [h.enter, h.link, ne_eq, hjump, ih]

theorem SameWays.follow (h : SameWays fs gs) (links : Nat) :
    fs.follow text links place names = .ok n ↔ gs.follow text links place names = .ok n := by
  induction links generalizing place names with
  | zero => exact h.advance fun _ _ => Iff.rfl
  | succ links ih => exact h.advance fun _ _ => ih

/-- Behind names that were followed, one more is followed if it is no link. -/
theorem advance_concat (h : fs.enter text m name = .ok n)
    (hlink : ∀ target, fs.at? n ≠ some (.link target))
    (hjump : ∀ place names, jump place names = .ok m → jump' place (names ++ [name]) = .ok n)
    (hnames : fs.advance text jump place names = .ok m) :
    fs.advance text jump' place (names ++ [name]) = .ok n := by
  induction names generalizing place with
  | nil =>
    obtain rfl := Except.ok.inj hnames
    exact advance_cons_eq_ok.mpr ⟨n, h, .inr ⟨hlink, rfl⟩⟩
  | cons first rest ih =>
    obtain ⟨next, hnext, hrest⟩ := advance_cons_eq_ok.mp hnames
    refine advance_cons_eq_ok.mpr ⟨next, hnext, ?_⟩
    obtain ⟨target, htarget, hrest⟩ | ⟨hplain, hrest⟩ := hrest
    · have hlong := hjump _ _ hrest
      rw [List.append_assoc] at hlong
      exact .inl ⟨target, htarget, hlong⟩
    · exact .inr ⟨hplain, ih hrest⟩

theorem follow_concat {links : Nat} (h : fs.enter text m name = .ok n)
    (hlink : ∀ target, fs.at? n ≠ some (.link target))
    (hnames : fs.follow text links place names = .ok m) :
    fs.follow text links place (names ++ [name]) = .ok n := by
  induction links generalizing place names with
  | zero =>
    refine advance_concat h hlink (fun _ _ hjump => ?_) hnames
    cases hjump
  | succ links ih => exact advance_concat h hlink (fun _ _ => ih) hnames

/-- With links or without, names are followed by one rule. -/
theorem exists_jump (fs : Files) (text : String) (links : Nat) :
    ∃ jump, ∀ place names, fs.follow text links place names = fs.advance text jump place names := by
  cases links <;> exact ⟨_, fun _ _ => rfl⟩

end Advance

theorem locate_eq_ok : fs.locate p = .ok n ↔
    p.isUnusable = false ∧ fs.follow p.toText maxLinks (fs.start p) p.names = .ok n := by
  unfold locate
  cases p.isUnusable <;> simp

theorem SameWays.locate (h : SameWays fs gs) : fs.locate p = .ok n ↔ gs.locate p = .ok n := by
  have hstart : fs.start p = gs.start p := congrArg (startFrom · p) h.current
  rw [locate_eq_ok, locate_eq_ok, hstart, h.follow]

theorem entryOf_eq_ok : fs.entryOf p = .ok n ↔
    p.isUnusable = false ∧ ((p.names = [] ∧ fs.start p = n) ∨
      ∃ front name place, p.names = front ++ [name] ∧
        fs.follow p.toText maxLinks (fs.start p) front = .ok place ∧
        fs.enter p.toText place name = .ok n) := by
  unfold entryOf
  cases p.isUnusable with
  | true => simp
  | false =>
    obtain hnil | ⟨front, name, hnames⟩ := List.eq_nil_or_concat' p.names
    · simp [hnil]
    · simp [hnames, bind_eq_ok]

theorem SameWays.entryOf (h : SameWays fs gs) : fs.entryOf p = .ok n ↔ gs.entryOf p = .ok n := by
  have hstart : fs.start p = gs.start p := congrArg (startFrom · p) h.current
  rw [entryOf_eq_ok, entryOf_eq_ok]
  simp only [hstart, h.follow, h.enter]

/-- A path at the end of which no link stands leads there. -/
theorem locate_of_entryOf (h : fs.entryOf p = .ok n)
    (hlink : ∀ target, fs.at? n ≠ some (.link target)) : fs.locate p = .ok n := by
  obtain ⟨husable, ⟨hnames, hstart⟩ | ⟨front, name, place, hnames, hfront, hname⟩⟩ :=
    entryOf_eq_ok.mp h
  · refine locate_eq_ok.mpr ⟨husable, ?_⟩
    rw [hnames, hstart]
    rfl
  · refine locate_eq_ok.mpr ⟨husable, ?_⟩
    rw [hnames]
    exact follow_concat hname hlink hfront

/-! ## Straight names -/

/-- A name with directories all the way to its last part. -/
structure Straight (fs : Files) (n : List String) : Prop where
  directories : ∀ front name rest, n = front ++ name :: rest → fs.at? front = some .directory
  short : ∀ name ∈ n, name ≠ ".." ∧ (Bytes.ofText name).length ≤ maxName

namespace Straight

theorem nil : fs.Straight [] := ⟨by simp, nofun⟩

theorem of_append (h : fs.Straight (n ++ m)) : fs.Straight n where
  directories front name rest hn := h.directories front name (rest ++ m) (by simp [hn])
  short name hname := h.short name (List.mem_append_left _ hname)

theorem dropLast (h : fs.Straight n) : fs.Straight n.dropLast := by
  obtain rfl | ⟨front, name, rfl⟩ := List.eq_nil_or_concat' n
  · exact nil
  · rw [List.dropLast_concat]
    exact h.of_append

theorem concat (h : fs.Straight n) (directory : fs.at? n = some .directory) {name : String}
    (hname : name ≠ ".." ∧ (Bytes.ofText name).length ≤ maxName) : fs.Straight (n ++ [name]) where
  directories front last rest heq := by
    obtain hnil | ⟨rest', last', rfl⟩ := List.eq_nil_or_concat' rest
    · subst hnil
      obtain ⟨rfl, -⟩ := List.append_inj' heq rfl
      exact directory
    · have hfront : n ++ [name] = (front ++ last :: rest') ++ [last'] := by simp [heq]
      obtain ⟨rfl, -⟩ := List.append_inj' hfront rfl
      exact h.directories front last rest' rfl
  short last hlast := by
    obtain hlast | hlast := List.mem_append.mp hlast
    · exact h.short last hlast
    · rwa [List.mem_singleton.mp hlast]

theorem mono (h : fs.Straight n)
    (hdirectory : ∀ m, fs.at? m = some .directory → gs.at? m = some .directory) : gs.Straight n :=
  ⟨fun front name rest hn => hdirectory front (h.directories front name rest hn), h.short⟩

theorem startFrom (h : fs.Straight n) (p : Path) : fs.Straight (startFrom n p) := by
  unfold Files.startFrom
  split
  · exact h
  · exact nil

theorem enter (h : fs.Straight n) {text name : String} (hm : fs.enter text n name = .ok m) :
    fs.Straight m := by
  obtain ⟨hdirectory, hshort, rfl⟩ := enter_eq_ok.mp hm
  unfold step
  split
  · exact h.dropLast
  · next hname => exact h.concat hdirectory ⟨by simpa using hname, hshort⟩

theorem advance {text : String} {jump : List String → List String → Except FileFault (List String)}
    {place names : List String} (h : fs.Straight place)
    (hjump : ∀ place names, fs.Straight place → jump place names = .ok n → fs.Straight n)
    (hn : fs.advance text jump place names = .ok n) : fs.Straight n := by
  induction names generalizing place with
  | nil => rwa [← Except.ok.inj hn]
  | cons name rest ih =>
    obtain ⟨next, hnext, ⟨target, -, hrest⟩ | ⟨-, hrest⟩⟩ := advance_cons_eq_ok.mp hn
    · exact hjump _ _ ((h.enter hnext).dropLast.startFrom target) hrest
    · exact ih (h.enter hnext) hrest

theorem follow {text : String} {links : Nat} {place names : List String} (h : fs.Straight place)
    (hn : fs.follow text links place names = .ok n) : fs.Straight n := by
  induction links generalizing place names with
  | zero =>
    refine h.advance (fun _ _ _ hjump => ?_) hn
    cases hjump
  | succ links ih => exact h.advance (fun _ _ => ih) hn

/-- Before the last part of a straight name is a directory. -/
theorem directory_dropLast (h : fs.Straight n) : fs.at? n.dropLast = some .directory := by
  obtain rfl | ⟨front, name, rfl⟩ := List.eq_nil_or_concat' n
  · rfl
  · rw [List.dropLast_concat]
    exact h.directories front name [] rfl

/-- At the end of a way is no link, if there is none at its beginning. -/
theorem plain_of_advance {text : String}
    {jump : List String → List String → Except FileFault (List String)} {place names : List String}
    (h : fs.Straight place)
    (hjump : ∀ place names, fs.Straight place → (∀ target, fs.at? place ≠ some (.link target)) →
      jump place names = .ok n → ∀ target, fs.at? n ≠ some (.link target))
    (hplace : ∀ target, fs.at? place ≠ some (.link target))
    (hn : fs.advance text jump place names = .ok n) (target : Path) :
    fs.at? n ≠ some (.link target) := by
  induction names generalizing place with
  | nil => exact Except.ok.inj hn ▸ hplace target
  | cons name rest ih =>
    obtain ⟨next, hnext, ⟨target', -, hrest⟩ | ⟨hplain, hrest⟩⟩ := advance_cons_eq_ok.mp hn
    · have hstand := (h.enter hnext).dropLast
      refine hjump _ _ (hstand.startFrom target') (fun target => ?_) hrest target
      unfold Files.startFrom
      split
      · rw [(h.enter hnext).directory_dropLast]
        nofun
      · rw [at?_nil]
        nofun
    · exact ih (h.enter hnext) hplain hrest

theorem plain_of_follow {text : String} {links : Nat} {place names : List String}
    (h : fs.Straight place) (hplace : ∀ target, fs.at? place ≠ some (.link target))
    (hn : fs.follow text links place names = .ok n) (target : Path) :
    fs.at? n ≠ some (.link target) := by
  induction links generalizing place names target with
  | zero =>
    refine h.plain_of_advance (fun _ _ _ _ hjump => ?_) hplace hn target
    cases hjump
  | succ links ih =>
    exact h.plain_of_advance (fun _ _ h hplace hjump target => ih h hplace hjump target) hplace hn
      target

/-- On its way through a straight name nothing is followed that leads elsewhere. -/
theorem advance_append {text : String}
    {jump : List String → List String → Except FileFault (List String)}
    {place rest : List String} (h : fs.Straight (place ++ rest))
    (hlink : ∀ target, fs.at? (place ++ rest) ≠ some (.link target)) (more : List String) :
    fs.advance text jump place (rest ++ more) = fs.advance text jump (place ++ rest) more := by
  induction rest generalizing place with
  | nil => rw [List.append_nil]; rfl
  | cons name rest ih =>
    rw [List.append_cons] at h hlink ⊢
    obtain ⟨hname, hshort⟩ := h.short name (by simp)
    have henter : fs.enter text place name = .ok (place ++ [name]) := enter_eq_ok.mpr
      ⟨h.directories place name rest (List.append_cons ..).symm, hshort,
        if_neg (by simpa using hname)⟩
    have hplain (target : Path) : fs.at? (place ++ [name]) ≠ some (.link target) := by
      cases rest with
      | nil => simpa using hlink target
      | cons next rest =>
        rw [h.directories (place ++ [name]) next rest rfl]
        nofun
    rw [List.cons_append, advance_of_plain henter hplain]
    exact ih h hlink

/-- A straight name is followed to where it is. -/
theorem follow_eq {text : String} {links : Nat} (h : fs.Straight n)
    (hlink : ∀ target, fs.at? n ≠ some (.link target)) : fs.follow text links [] n = .ok n := by
  obtain ⟨jump, hjump⟩ := exists_jump fs text links
  have hwhole : fs.advance text jump [] (n ++ []) = fs.advance text jump n [] :=
    @advance_append fs text jump [] n h hlink []
  rw [List.append_nil] at hwhole
  exact (hjump [] n).trans hwhole

theorem locate (h : fs.Straight n) (usable : Path.isUnusable ⟨.absolute, n⟩ = false)
    (hlink : ∀ target, fs.at? n ≠ some (.link target)) : fs.locate ⟨.absolute, n⟩ = .ok n :=
  locate_eq_ok.mpr ⟨usable, h.follow_eq hlink⟩

theorem entryOf (h : fs.Straight n) (usable : Path.isUnusable ⟨.absolute, n⟩ = false) :
    fs.entryOf ⟨.absolute, n⟩ = .ok n := by
  refine entryOf_eq_ok.mpr ⟨usable, ?_⟩
  obtain rfl | ⟨front, name, rfl⟩ := List.eq_nil_or_concat' n
  · exact .inl ⟨rfl, rfl⟩
  · obtain ⟨hname, hshort⟩ := h.short name (by simp)
    have hdirectory := h.directories front name [] rfl
    refine .inr ⟨front, name, front, rfl, ?_, enter_eq_ok.mpr
      ⟨hdirectory, hshort, if_neg (by simpa using hname)⟩⟩
    exact h.of_append.follow_eq (by rw [hdirectory]; nofun)

end Straight

/-! ## Reading and writing -/

theorem read_eq_ok : fs.read p = .ok b ↔
    ∃ n id, fs.locate p = .ok n ∧ fs.at? n = some (.file id) ∧ fs.contentsOf id = b := by
  unfold read
  rw [bind_eq_ok]
  refine exists_congr fun n => ?_
  rw [exists_and_left]
  refine and_congr_right fun _ => ?_
  cases fs.at? n with
  | none => simp [throw_ne_ok]
  | some e => cases e <;> simp [throw_ne_ok, pure_eq_ok]

theorem write_eq_ok : fs.write p b = .ok gs ↔ ∃ n, fs.locate p = .ok n ∧
    ((∃ id, fs.at? n = some (.file id) ∧ fs.store id b = gs) ∨
      fs.at? n = none ∧ fs.create n b = gs) := by
  unfold write
  rw [bind_eq_ok]
  refine exists_congr fun n => and_congr_right fun _ => ?_
  cases fs.at? n with
  | none => simp [pure_eq_ok]
  | some e => cases e <;> simp [throw_ne_ok, pure_eq_ok]

/-- Writing to a new file again replaces what it holds. -/
theorem store_create (b c : Bytes) : (fs.create n b).store fs.freshId c = fs.create n c :=
  store_store fs.freshId b c

/-- Writing to a file again replaces what was written. -/
theorem write_of_written (h : fs.write p b = .ok gs) (h' : gs.write p c = .ok hs) :
    fs.write p c = .ok hs := by
  obtain ⟨n, hn, ⟨id, hid, rfl⟩ | ⟨free, rfl⟩⟩ := write_eq_ok.mp h
  · obtain ⟨m, hm, hwrite⟩ := write_eq_ok.mp h'
    obtain rfl : n = m := Except.ok.inj (hn.symm.trans ((sameWays_store fs id b).locate.mpr hm))
    rw [at?_store, hid] at hwrite
    obtain ⟨_, ⟨⟩, rfl⟩ | ⟨⟨⟩, -⟩ := hwrite
    exact write_eq_ok.mpr ⟨n, hn, .inl ⟨id, hid, (store_store id b c).symm⟩⟩
  · obtain ⟨m, hm, hwrite⟩ := write_eq_ok.mp h'
    have hways := sameWays_create (holdsFile_of_free free) b
    obtain rfl : n = m := Except.ok.inj (hn.symm.trans (hways.locate.mpr hm))
    rw [at?_create (ne_nil_of_free free), if_pos rfl] at hwrite
    obtain ⟨_, ⟨⟩, rfl⟩ | ⟨⟨⟩, -⟩ := hwrite
    exact write_eq_ok.mpr ⟨n, hn, .inr ⟨free, (store_create b c).symm⟩⟩

theorem isThere_eq (h : fs.locate p = .ok n) : fs.isThere p = (fs.at? n).isSome := by
  unfold isThere
  rw [h]

/-- Anything but directories can be taken out. -/
theorem remove_of_entry (h : fs.entryOf p = .ok n) (file : fs.at? n = some (.file id)) :
    fs.remove p = .ok ((fs.unname n).forget (some (.file id))) := by
  refine bind_eq_ok.mpr ⟨n, h, ?_⟩
  rw [file]
  rfl

/-- A file that is renamed keeps its name, or has another one, where no directory was. -/
theorem rename_eq_ok {target : Path} (h : fs.entryOf p = .ok n)
    (file : fs.at? n = some (.file id)) (renamed : fs.rename p target = .ok gs) :
    ∃ k, fs.entryOf target = .ok k ∧ ((fs.at? k = some (.file id) ∧ gs = fs) ∨
      fs.at? k ≠ some .directory ∧
        ∀ m, gs.at? m = ((fs.put k (.file id)).unname n).at? m) := by
  obtain ⟨old, hold, renamed⟩ := bind_eq_ok.mp renamed
  obtain rfl := Except.ok.inj (h.symm.trans hold)
  obtain ⟨k, hk, renamed⟩ := bind_eq_ok.mp renamed
  refine ⟨k, hk, ?_⟩
  rw [file] at renamed
  cases hat : fs.at? k with
  | none =>
    rw [hat] at renamed
    exact .inr ⟨nofun, fun m => by rw [← pure_eq_ok.mp renamed]⟩
  | some e =>
    rw [hat] at renamed
    cases e with
    | directory => cases renamed
    | link => exact .inr ⟨nofun, fun m => by rw [← pure_eq_ok.mp renamed]⟩
    | file other =>
      dsimp only at renamed
      split at renamed
      · next hsame => exact .inl ⟨by rw [hsame], (pure_eq_ok.mp renamed).symm⟩
      · exact .inr ⟨nofun, fun m => by rw [← pure_eq_ok.mp renamed, at?_forget]⟩

/-- Where files are written, every file that there was is still under its names. -/
theorem write_keeps (h : fs.write p b = .ok gs) :
    SameWays fs gs ∧ ∀ m id, fs.at? m = some (.file id) → gs.at? m = some (.file id) := by
  obtain ⟨n, -, ⟨id, -, rfl⟩ | ⟨free, rfl⟩⟩ := write_eq_ok.mp h
  · exact ⟨sameWays_store fs id b, fun _ _ hm => hm⟩
  · refine ⟨sameWays_create (holdsFile_of_free free) b, fun m id hm => ?_⟩
    have hne : m ≠ n := by
      rintro rfl
      cases free.symm.trans hm
    rw [at?_create (ne_nil_of_free free), if_neg hne, hm]

theorem carry_eq_ok {target : Path} : fs.carry p target = .ok gs ↔ ∃ b, fs.read p = .ok b ∧
    (fs.locate p).toOption ≠ (fs.locate target).toOption ∧
      ∃ hs, fs.write target b = .ok hs ∧ hs.remove p = .ok gs := by
  unfold carry
  simp only [bind_eq_ok, refuse_if_eq_ok]

/-! ## New files -/

theorem unfinishedName_injective : Function.Injective unfinishedName := by
  intro i j h
  have hdigits : Nat.toDigits 10 i = Nat.toDigits 10 j := by
    simpa [unfinishedName, String.toList_append] using congrArg String.toList h
  have hread (k : Nat) : Nat.ofDigitChars 10 (Nat.toDigits 10 k) 0 = k :=
    Nat.ofDigitChars_toDigits (by decide) (by decide)
  rw [← hread i, hdigits, hread j]

theorem unfinishedName_ne_detour (number : Nat) : unfinishedName number ≠ ".." := by
  intro h
  have hhead := congrArg (·.toList.head?) h
  simp only [unfinishedName, String.toList_append, List.head?_append] at hhead
  exact absurd (show some 'a' = some '.' from hhead) (by decide)

/-- Some name ends like this one. -/
def Taken (fs : Files) (number : Nat) : Prop :=
  some (unfinishedName number) ∈ fs.entries.keys.map List.getLast?

theorem any_keys_iff {number : Nat} :
    fs.entries.keys.any (·.getLast? == some (unfinishedName number)) = true ↔ fs.Taken number := by
  simp [Taken, List.any_eq_true]

/-- When the number that is taken in the end is not free, none of those before it was. -/
theorem taken_of_freeNumber {fuel number : Nat} (h : fs.Taken (fs.freeNumber fuel number)) {k : Nat}
    (hk : k ≤ fuel) : fs.Taken (number + k) := by
  induction fuel generalizing number k with
  | zero =>
    obtain rfl := Nat.le_zero.mp hk
    exact h
  | succ fuel ih =>
    unfold freeNumber at h
    split at h
    · next htaken =>
      cases k with
      | zero => exact any_keys_iff.mp htaken
      | succ k =>
        have hrest := ih h (Nat.le_of_succ_le_succ hk)
        rwa [Nat.add_right_comm] at hrest
    · next hfree => exact absurd (any_keys_iff.mpr h) hfree

/-- There are more numbers than names, so one of them is free. -/
theorem freeNumber_not_taken (fs : Files) : ¬fs.Taken (fs.freeNumber fs.entries.size 0) := by
  intro h
  have htaken : (List.range (fs.entries.size + 1)).map (some ∘ unfinishedName) ⊆
      fs.entries.keys.map List.getLast? := by
    intro name hname
    obtain ⟨k, hk, rfl⟩ := List.mem_map.mp hname
    have hk := taken_of_freeNumber h (Nat.lt_succ_iff.mp (List.mem_range.mp hk))
    rwa [Nat.zero_add] at hk
  have hdistinct : ((List.range (fs.entries.size + 1)).map (some ∘ unfinishedName)).Nodup :=
    List.nodup_range.map ((Option.some_injective _).comp unfinishedName_injective)
  have hlength := (hdistinct.subperm htaken).length_le
  rw [List.length_map, List.length_range, List.length_map] at hlength
  have hsize : fs.entries.keys.length = fs.entries.size := List.length_map _
  omega

theorem at?_unfinished {number : Nat} (h : ¬fs.Taken number) (place : List String) :
    fs.at? (place ++ [unfinishedName number]) = none := by
  rw [at?_of_ne_nil (by simp), OrderedMap.get?_eq_none_iff]
  exact fun hmem => h (List.mem_map.mpr ⟨_, hmem, List.getLast?_concat⟩)

/-- A name for a new file, and the path that leads straight to it. -/
structure IsNew (fs : Files) (p : Path) (n : List String) : Prop where
  path : p = ⟨.absolute, n⟩
  usable : p.isUnusable = false
  straight : fs.Straight n
  free : fs.at? n = none

/-- A new file is empty, and nothing is at its name before. -/
theorem newFile_eq_ok {directory : List String} (h : fs.newFile directory = .ok (p, gs)) :
    ∃ n, fs.IsNew p n ∧ fs.create n [] = gs := by
  obtain ⟨place, hplace, h⟩ := bind_eq_ok.mp h
  obtain ⟨files, hwrite, h⟩ := bind_eq_ok.mp h
  obtain ⟨rfl, rfl⟩ := Prod.mk.inj (pure_eq_ok.mp h)
  obtain ⟨m, hm, hwrite⟩ := write_eq_ok.mp hwrite
  obtain ⟨husable, hfollow⟩ := locate_eq_ok.mp hm
  have hstraight : fs.Straight place := Straight.nil.follow (locate_eq_ok.mp hplace).2
  have hplain (target : Path) : fs.at? place ≠ some (.link target) :=
    Straight.nil.plain_of_follow (by rw [at?_nil]; nofun) (locate_eq_ok.mp hplace).2 target
  have hfree := at?_unfinished (freeNumber_not_taken fs) place
  obtain ⟨jump, hjump⟩ := exists_jump fs _ maxLinks
  rw [hjump] at hfollow
  have hlast : fs.advance _ jump place _ = .ok m :=
    (@Straight.advance_append fs _ jump [] place hstraight hplain _).symm.trans hfollow
  obtain ⟨next, hnext, hrest⟩ := advance_cons_eq_ok.mp hlast
  obtain ⟨hdirectory, hshort, rfl⟩ := enter_eq_ok.mp hnext
  have hstep : step place (unfinishedName (fs.freeNumber fs.entries.size 0)) =
      place ++ [unfinishedName (fs.freeNumber fs.entries.size 0)] :=
    if_neg (by simpa using unfinishedName_ne_detour _)
  rw [hstep, hfree] at hrest
  obtain ⟨_, ⟨⟩, -⟩ | ⟨-, hrest⟩ := hrest
  obtain rfl := Except.ok.inj hrest
  obtain ⟨_, hthere, -⟩ | ⟨-, rfl⟩ := hwrite
  · rw [hfree] at hthere
    cases hthere
  · exact ⟨_, ⟨rfl, husable, hstraight.concat hdirectory ⟨unfinishedName_ne_detour _, hshort⟩, hfree⟩,
      rfl⟩

namespace IsNew
variable (new : fs.IsNew p n) (b : Bytes)
include new

theorem at?_create (m : List String) :
    (fs.create n b).at? m = if m = n then some (.file fs.freshId) else fs.at? m :=
  Files.at?_create (ne_nil_of_free new.free) b m

theorem there : (fs.create n b).at? n = some (.file fs.freshId) :=
  (new.at?_create b n).trans (if_pos rfl)

theorem sameWays : SameWays fs (fs.create n b) := sameWays_create (holdsFile_of_free new.free) b

theorem entryOf : (fs.create n b).entryOf p = .ok n := by
  rw [new.path]
  exact (new.straight.mono fun m => ((new.sameWays b).directory m).mp).entryOf
    (new.path ▸ new.usable)

theorem locate : (fs.create n b).locate p = .ok n :=
  locate_of_entryOf (new.entryOf b) (by rw [new.there]; nofun)

/-- Writing to a new file replaces what it holds. -/
theorem write (c : Bytes) : (fs.create n b).write p c = .ok (fs.create n c) :=
  write_eq_ok.mpr ⟨n, new.locate b, .inl ⟨fs.freshId, new.there b, store_create b c⟩⟩

theorem read : (fs.create n b).read p = .ok b :=
  read_eq_ok.mpr ⟨n, fs.freshId, new.locate b, new.there b, (contentsOf_store ..).trans (if_pos rfl)⟩

/-- Without its name, a new file leaves nothing but what it holds. -/
theorem unname : (fs.create n b).unname n = fs.store fs.freshId b :=
  congrArg (Files.mk · _ fs.current fs.mounts) (OrderedMap.erase_put_of_not_mem (not_mem_of_free new.free))

/-- Taking out a new file leaves what was there before it. -/
theorem remove : (fs.create n b).remove p = .ok fs := by
  obtain ⟨hids, hcontents⟩ := freshId_not_mem fs
  have hforget : (fs.store fs.freshId b).forget (some (.file fs.freshId)) = fs := by
    have hstored : (fs.store fs.freshId b).ids.contains fs.freshId = false :=
      Bool.eq_false_iff.mpr fun h => hids (List.contains_iff_mem.mp h)
    simp only [forget, hstored, Bool.false_eq_true, if_false]
    exact congrArg (Files.mk fs.entries · fs.current fs.mounts) (OrderedMap.erase_put_of_not_mem hcontents)
  rw [remove_of_entry (new.entryOf b) (new.there b), new.unname, hforget]

/-- The path of a new file leads nowhere when nothing is at its name. -/
theorem isThere_of_gone
    (hdirectory : ∀ m, fs.at? m = some .directory → gs.at? m = some .directory)
    (gone : gs.at? n = none) : gs.isThere p = false := by
  have hlocate : gs.locate p = .ok n := by
    rw [new.path]
    exact (new.straight.mono hdirectory).locate (new.path ▸ new.usable) (by rw [gone]; nofun)
  rw [isThere_eq hlocate, gone]
  rfl

/-- A new file that has been renamed is not where it was, unless it has kept its name. -/
theorem gone_of_rename {target : Path} (h : (fs.create n b).rename p target = .ok gs) :
    gs = fs.create n b ∨ gs.isThere p = false := by
  obtain ⟨k, -, renamed⟩ := rename_eq_ok (new.entryOf b) (new.there b) h
  obtain ⟨-, rfl⟩ | ⟨hk, hsame⟩ := renamed
  · exact .inl rfl
  · right
    have hn : n ≠ [] := ne_nil_of_free new.free
    refine new.isThere_of_gone (fun m hm => ?_) ?_
    · have hmn : m ≠ n := by
        rintro rfl
        cases hm.symm.trans new.free
      have hm' : (fs.create n b).at? m = some .directory := by
        rw [new.at?_create, if_neg hmn, hm]
      have hmk : m ≠ k := by
        rintro rfl
        exact hk hm'
      rw [hsame, at?_unname hn, if_neg hmn, at?_put (ne_nil_of_at? hk), if_neg hmk, hm']
    · rw [hsame, at?_unname hn, if_pos rfl]

/-- A new file that has been carried to another file system is not where it was. -/
theorem gone_of_carry {target : Path} (h : (fs.create n b).carry p target = .ok gs) :
    gs.isThere p = false := by
  obtain ⟨c, -, -, hs, hwrite, hremove⟩ := carry_eq_ok.mp h
  obtain ⟨hways, hkeeps⟩ := write_keeps hwrite
  have hremoved := remove_of_entry (hways.entryOf.mp (new.entryOf b)) (hkeeps n _ (new.there b))
  obtain rfl := Except.ok.inj (hremoved.symm.trans hremove)
  have hn : n ≠ [] := ne_nil_of_free new.free
  refine new.isThere_of_gone (fun m hm => ?_) ?_
  · have hmn : m ≠ n := by
      rintro rfl
      cases hm.symm.trans new.free
    rw [at?_forget, at?_unname hn, if_neg hmn]
    exact (hways.directory m).mp (((new.sameWays b).directory m).mp hm)
  · rw [at?_forget, at?_unname hn, if_pos rfl]

theorem gone_of_transfer {target : Path} (h : (fs.create n b).transfer p target = .ok gs) :
    gs = fs.create n b ∨ gs.isThere p = false := by
  obtain ⟨_, -, h⟩ := bind_eq_ok.mp h
  obtain ⟨_, -, h⟩ := bind_eq_ok.mp h
  split at h
  · exact new.gone_of_rename b h
  · exact .inr (new.gone_of_carry b h)

theorem gone_of_move {target : Path} (h : (fs.create n b).move p target = .ok gs) :
    gs = fs.create n b ∨ gs.isThere p = false := by
  unfold move at h
  split at h
  · dsimp only at h
    split at h
    · cases h
    · exact new.gone_of_transfer b h
  · exact new.gone_of_transfer b h

end IsNew

/-! ## Moving over a file -/

/-- At one name there is a new file, which holds some bytes. Nothing else has changed, and all paths
lead where they did, if it was not a link that stood there. -/
structure Renewed (fs : Files) (m : List String) (b : Bytes) (gs : Files) : Prop where
  names : gs.entries.keys = fs.entries.keys
  holds : ∃ id, gs.at? m = some (.file id) ∧ gs.contentsOf id = b
  others : ∀ k, k ≠ m → gs.at? k = fs.at? k ∧
    ∀ id, fs.at? k = some (.file id) → gs.contentsOf id = fs.contentsOf id
  reads : (∀ target, fs.at? m ≠ some (.link target)) →
    ∀ q c, gs.read q = .ok c ↔ if fs.locate q = .ok m then c = b else fs.read q = .ok c

/-- Files with a new file at the name of something else. -/
def renew (fs : Files) (m : List String) (b : Bytes) : Files :=
  ((fs.store fs.freshId b).put m (.file fs.freshId)).forget (fs.at? m)

theorem forget_entries (fs : Files) (old : Option FileEntry) :
    (fs.forget old).entries = fs.entries := by
  unfold forget
  split
  · split <;> rfl
  · rfl

theorem forget_current (fs : Files) (old : Option FileEntry) :
    (fs.forget old).current = fs.current := by
  unfold forget
  split
  · split <;> rfl
  · rfl

/-- What is forgotten is what no name leads to. -/
theorem contentsOf_forget {old : Option FileEntry} {k : List String} {j : Nat}
    (hk : fs.at? k = some (.file j)) : (fs.forget old).contentsOf j = fs.contentsOf j := by
  unfold forget
  split
  · next id =>
    split
    · rfl
    · next h =>
      have hj : j ≠ id := by
        rintro rfl
        exact h (List.contains_iff_mem.mpr (mem_ids_of_at? hk))
      show ((OrderedMap.erase _ id).get? j).getD [] = _
      rw [OrderedMap.get?_erase, if_neg hj]
      rfl
  · rfl

theorem at?_renew (hne : m ≠ []) (b : Bytes) (k : List String) :
    (fs.renew m b).at? k = if k = m then some (.file fs.freshId) else fs.at? k := by
  rw [renew, at?_forget, at?_put hne]
  rfl

theorem contentsOf_renew (b : Bytes) {k : List String} {j : Nat}
    (hk : (fs.renew m b).at? k = some (.file j)) :
    (fs.renew m b).contentsOf j = if j = fs.freshId then b else fs.contentsOf j := by
  rw [renew, at?_forget] at hk
  rw [renew, contentsOf_forget hk]
  exact contentsOf_store fs.freshId b j

theorem sameWays_renew (there : fs.HoldsFile m) (b : Bytes) : SameWays fs (fs.renew m b) := by
  have hat (k : List String) :
      (fs.renew m b).at? k = if k = m then some (.file fs.freshId) else fs.at? k :=
    at?_renew (ne_nil_of_holdsFile there) b k
  have hcurrent : (fs.renew m b).current = fs.current := forget_current _ _
  refine .of_at? hcurrent.symm there (holdsFile_of_at? ((hat m).trans (if_pos rfl)))
    fun k hk => ?_
  rw [hat, if_neg hk]

/-- A file under another name is still what it was. -/
theorem contentsOf_renew_of_ne (hm : m ≠ []) (b : Bytes) {k : List String} {id : Nat} (hk : k ≠ m)
    (h : fs.at? k = some (.file id)) : (fs.renew m b).contentsOf id = fs.contentsOf id := by
  have hat : (fs.renew m b).at? k = some (.file id) := by rw [at?_renew hm, if_neg hk, h]
  rw [contentsOf_renew b hat, if_neg (freshId_ne_of_at? h)]

/-- Where there was a file, the new one is read by every path that leads to its name. -/
theorem read_renew (there : fs.HoldsFile m) (b : Bytes) (q : Path) (c : Bytes) :
    (fs.renew m b).read q = .ok c ↔
      if fs.locate q = .ok m then c = b else fs.read q = .ok c := by
  have hnil := ne_nil_of_holdsFile there
  have hways := sameWays_renew there b
  have hm : (fs.renew m b).at? m = some (.file fs.freshId) :=
    (at?_renew hnil b m).trans (if_pos rfl)
  rw [read_eq_ok]
  split
  · next hq =>
    constructor
    · rintro ⟨k, j, hk, hj, rfl⟩
      obtain rfl : m = k := Except.ok.inj (hq.symm.trans (hways.locate.mpr hk))
      rw [contentsOf_renew b hj]
      cases hm.symm.trans hj
      exact if_pos rfl
    · rintro rfl
      exact ⟨m, fs.freshId, hways.locate.mp hq, hm, (contentsOf_renew c hm).trans (if_pos rfl)⟩
  · next hq =>
    rw [read_eq_ok]
    refine exists_congr fun k => exists_congr fun j => ?_
    rw [← hways.locate]
    refine and_congr_right fun hk => ?_
    have hkm : k ≠ m := by
      rintro rfl
      exact hq hk
    rw [at?_renew hnil, if_neg hkm]
    refine and_congr_right fun hj => ?_
    rw [contentsOf_renew_of_ne hnil b hkm hj]

theorem renewed_renew {e : FileEntry} (there : fs.at? m = some e) (hne : e ≠ .directory)
    (b : Bytes) : fs.Renewed m b (fs.renew m b) := by
  have hnil : m ≠ [] := ne_nil_of_at? fun h => hne (Option.some.inj (there.symm.trans h))
  have hat (k : List String) :
      (fs.renew m b).at? k = if k = m then some (.file fs.freshId) else fs.at? k :=
    at?_renew hnil b k
  have hm : (fs.renew m b).at? m = some (.file fs.freshId) := (hat m).trans (if_pos rfl)
  constructor
  case names =>
    have hmem : m ∈ fs.entries.keys := by
      by_contra h
      rw [at?_of_ne_nil hnil, OrderedMap.get?_eq_none_iff.mpr h] at there
      cases there
    rw [renew, forget_entries]
    show (fs.entries.put m _).keys = _
    rw [OrderedMap.keys_put, if_pos hmem]
  case holds =>
    exact ⟨fs.freshId, hm, (contentsOf_renew b hm).trans (if_pos rfl)⟩
  case others =>
    exact fun k hk => ⟨by rw [hat, if_neg hk], fun id => contentsOf_renew_of_ne hnil b hk⟩
  case reads =>
    intro hplain
    have hfile : fs.HoldsFile m := by
      intro e' he'
      cases e' with
      | file id => exact ⟨id, rfl⟩
      | directory => exact absurd (Option.some.inj (there.symm.trans he')) hne
      | link target => exact absurd he' (hplain target)
    exact read_renew hfile b

theorem isDirectory_eq_true : fs.isDirectory p = true ↔
    ∃ n, fs.locate p = .ok n ∧ fs.at? n = some .directory := by
  unfold isDirectory
  cases fs.locate p <;> simp

/-- A path that ends in a directory leads to it. -/
theorem isDirectory_of_entryOf (h : fs.entryOf p = .ok n) (there : fs.at? n = some .directory) :
    fs.isDirectory p = true :=
  isDirectory_eq_true.mpr ⟨n, locate_of_entryOf h (by rw [there]; nofun), there⟩

namespace IsNew
variable (new : fs.IsNew p n) (b : Bytes) {target : Path}
include new

theorem isDirectory : (fs.create n b).isDirectory target = fs.isDirectory target := by
  rw [Bool.eq_iff_iff, isDirectory_eq_true, isDirectory_eq_true]
  simp only [(new.sameWays b).locate, (new.sameWays b).directory]

/-- Moving a new file over something else on its file system that is no directory puts it there. -/
theorem move {e : FileEntry} (htarget : fs.entryOf target = .ok m) (there : fs.at? m = some e)
    (hdirectory : fs.isDirectory target = false) (together : fs.volume n = fs.volume m) :
    (fs.create n b).move p target = .ok (fs.renew m b) := by
  have hne : m ≠ n := by
    rintro rfl
    cases new.free.symm.trans there
  have hentry : e ≠ .directory := by
    rintro rfl
    rw [isDirectory_of_entryOf htarget there] at hdirectory
    cases hdirectory
  have htarget' : (fs.create n b).entryOf target = .ok m := (new.sameWays b).entryOf.mp htarget
  have there' : (fs.create n b).at? m = some e := by
    rw [new.at?_create, if_neg hne, there]
  have hentries : (((fs.create n b).put m (.file fs.freshId)).unname n) =
      (fs.store fs.freshId b).put m (.file fs.freshId) := by
    refine congrArg (Files.mk · _ fs.current fs.mounts) ?_
    show ((fs.entries.put n _).put m _).erase n = fs.entries.put m _
    rw [OrderedMap.erase_put_of_ne hne, OrderedMap.erase_put_of_not_mem (not_mem_of_free new.free)]
  have hrename : (fs.create n b).rename p target = .ok (fs.renew m b) := by
    refine bind_eq_ok.mpr ⟨n, new.entryOf b, bind_eq_ok.mpr ⟨m, htarget', ?_⟩⟩
    rw [new.there, there', renew, there, ← hentries]
    cases e with
    | file id =>
      dsimp only
      rw [if_neg (freshId_ne_of_at? there).symm]
      rfl
    | directory => exact absurd rfl hentry
    | link target => rfl
  unfold Files.move
  rw [new.isDirectory, hdirectory]
  refine bind_eq_ok.mpr ⟨n, new.entryOf b, bind_eq_ok.mpr ⟨m, htarget', ?_⟩⟩
  exact (if_pos together).trans hrename

/-- Moving a new file over a file on another file system puts there what it holds. -/
theorem move_apart {k : List String} (htarget : fs.entryOf target = .ok m)
    (leads : fs.locate target = .ok k) (file : fs.at? k = some (.file id))
    (apart : fs.volume n ≠ fs.volume m) :
    (fs.create n b).move p target = .ok (fs.store id b) := by
  have hne : k ≠ n := by
    rintro rfl
    cases new.free.symm.trans file
  have hdirectory : fs.isDirectory target = false := by
    refine Bool.eq_false_iff.mpr fun h => ?_
    obtain ⟨k', hk', hat⟩ := isDirectory_eq_true.mp h
    obtain rfl := Except.ok.inj (leads.symm.trans hk')
    cases file.symm.trans hat
  have leads' : (fs.create n b).locate target = .ok k := (new.sameWays b).locate.mp leads
  have file' : (fs.create n b).at? k = some (.file id) := by
    rw [new.at?_create, if_neg hne, file]
  have hways := sameWays_store (fs.create n b) id b
  have hremove : ((fs.create n b).store id b).remove p = .ok (fs.store id b) := by
    obtain ⟨hids, hcontents⟩ := freshId_not_mem fs
    rw [remove_of_entry (hways.entryOf.mp (new.entryOf b)) (new.there b)]
    have hstored : (((fs.create n b).store id b).unname n) =
        (fs.store fs.freshId b).store id b :=
      congrArg (Files.mk · _ fs.current fs.mounts)
        (OrderedMap.erase_put_of_not_mem (not_mem_of_free new.free))
    have hunused : ((fs.store fs.freshId b).store id b).ids.contains fs.freshId = false :=
      Bool.eq_false_iff.mpr fun h => hids (List.contains_iff_mem.mp h)
    rw [hstored]
    simp only [forget, hunused, Bool.false_eq_true, if_false]
    refine congrArg (fun contents => Except.ok (Files.mk fs.entries contents fs.current fs.mounts)) ?_
    show ((fs.contents.put fs.freshId b).put id b).erase fs.freshId = fs.contents.put id b
    rw [OrderedMap.erase_put_of_ne (freshId_ne_of_at? file),
      OrderedMap.erase_put_of_not_mem hcontents]
  have hcarry : (fs.create n b).carry p target = .ok (fs.store id b) := by
    refine carry_eq_ok.mpr ⟨b, new.read b, ?_, _, write_eq_ok.mpr ⟨k, leads', .inl ⟨id, file', rfl⟩⟩,
      hremove⟩
    rw [new.locate, leads']
    exact fun h => hne (Option.some.inj h).symm
  unfold Files.move
  rw [new.isDirectory, hdirectory]
  refine bind_eq_ok.mpr ⟨n, new.entryOf b,
    bind_eq_ok.mpr ⟨m, (new.sameWays b).entryOf.mp htarget, ?_⟩⟩
  exact (if_neg apart).trans hcarry

end IsNew
end PackageSigning.Files
