import PackageSigning.Proofs.World.Files

/-!
# Ways through links

The system follows a path link by link with a budget for links, and puts what a link holds in front
of the names that are left. The program makes a path absolute link by link too, but finishes each
link before it goes on, and keeps a list of those it is in. Both go the same way (`Files.Way`), so
a path that leads anywhere is made absolute to just that place (`Files.resolve_of_locate`): on a
way that comes to an end, no link leads back into itself, since what is followed inside of a link
is shorter than the way through it.
-/

namespace PackageSigning.Files

variable {fs : Files} {text name : String} {place next names rest n m : List String} {i j k : Nat}

/-- A way along names from one place to another, through so many links. -/
inductive Way (fs : Files) (text : String) :
    List String → List String → Nat → List String → Prop
  | here (place : List String) : Way fs text place [] 0 place
  | plain {place next rest n : List String} {name : String} {k : Nat}
      (enter : fs.enter text place name = .ok next)
      (plain : ∀ target, fs.at? next ≠ some (.link target)) (behind : Way fs text next rest k n) :
      Way fs text place (name :: rest) k n
  | link {place next rest m n : List String} {name : String} {target : Path} {j k : Nat}
      (enter : fs.enter text place name = .ok next) (link : fs.at? next = some (.link target))
      (inside : Way fs text (startFrom next.dropLast target) target.names j m)
      (behind : Way fs text m rest k n) : Way fs text place (name :: rest) (j + k + 1) n

namespace Way

/-- A way along names and others is a way along each of them. -/
theorem split (h : fs.Way text place (names ++ rest) k n) :
    ∃ m i j, fs.Way text place names i m ∧ fs.Way text m rest j n := by
  induction names generalizing place k with
  | nil => exact ⟨place, 0, k, .here place, h⟩
  | cons name names ih =>
    cases h with
    | plain enter plain behind =>
      obtain ⟨m, i, j, hfront, hrest⟩ := ih behind
      exact ⟨m, i, j, .plain enter plain hfront, hrest⟩
    | link enter link inside behind =>
      obtain ⟨m, i, j, hfront, hrest⟩ := ih behind
      exact ⟨m, _, j, .link enter link inside hfront, hrest⟩

/-- There is one way only. -/
theorem unique (h : fs.Way text place names i m) (h' : fs.Way text place names j n) :
    i = j ∧ m = n := by
  induction h generalizing j n with
  | here place =>
    cases h'
    exact ⟨rfl, rfl⟩
  | plain enter plain _ ih =>
    cases h' with
    | plain enter' _ behind' =>
      cases enter.symm.trans enter'
      exact ih behind'
    | link enter' link' _ _ =>
      cases enter.symm.trans enter'
      exact absurd link' (plain _)
  | link enter link _ _ ihinside ihbehind =>
    cases h' with
    | plain enter' plain' _ =>
      cases enter.symm.trans enter'
      exact absurd link (plain' _)
    | link enter' link' inside' behind' =>
      cases enter.symm.trans enter'
      cases link.symm.trans link'
      obtain ⟨rfl, rfl⟩ := ihinside inside'
      obtain ⟨rfl, rfl⟩ := ihbehind behind'
      exact ⟨rfl, rfl⟩

theorem of_advance {jump : List String → List String → Except FileFault (List String)}
    (hjump : ∀ place names, jump place names = .ok n → ∃ k, fs.Way text place names k n)
    (h : fs.advance text jump place names = .ok n) : ∃ k, fs.Way text place names k n := by
  induction names generalizing place with
  | nil =>
    obtain rfl := Except.ok.inj h
    exact ⟨0, .here place⟩
  | cons name rest ih =>
    obtain ⟨next, henter, ⟨target, hlink, hrest⟩ | ⟨hplain, hrest⟩⟩ := advance_cons_eq_ok.mp h
    · obtain ⟨k, hway⟩ := hjump _ _ hrest
      obtain ⟨m, i, j, hinside, hbehind⟩ := hway.split
      exact ⟨_, .link henter hlink hinside hbehind⟩
    · obtain ⟨k, hway⟩ := ih hrest
      exact ⟨k, .plain henter hplain hway⟩

/-- What the system follows is a way. -/
theorem of_follow {links : Nat} (h : fs.follow text links place names = .ok n) :
    ∃ k, fs.Way text place names k n := by
  induction links generalizing place names with
  | zero =>
    refine of_advance (fun _ _ hjump => ?_) h
    cases hjump
  | succ links ih => exact of_advance (fun _ _ => ih) h

end Way

/-! ## Links that are being followed -/

/-- The links that are being followed, on a way that has so many links before its end: each of them
has at least as many inside. -/
structure InLinks (fs : Files) (text : String) (open_ : List (List String)) (k : Nat) : Prop where
  distinct : open_.Nodup
  longer : ∀ link ∈ open_, ∃ target j m, fs.at? link = some (.link target) ∧
    fs.Way text (startFrom link.dropLast target) target.names j m ∧ k ≤ j

namespace InLinks

variable {open_ : List (List String)} {target : Path}

theorem none (fs : Files) (text : String) (k : Nat) : fs.InLinks text [] k := ⟨.nil, nofun⟩

theorem mono (h : fs.InLinks text open_ k) (hik : i ≤ k) : fs.InLinks text open_ i where
  distinct := h.distinct
  longer link hlink := by
    obtain ⟨target, j, m, hat, hway, hk⟩ := h.longer link hlink
    exact ⟨target, j, m, hat, hway, hik.trans hk⟩

/-- A link with a shorter way inside is none of them. -/
theorem not_mem (h : fs.InLinks text open_ k) (link : fs.at? next = some (.link target))
    (inside : fs.Way text (startFrom next.dropLast target) target.names j m) (hjk : j < k) :
    next ∉ open_ := by
  intro hmem
  obtain ⟨target', j', m', hat, hway, hk⟩ := h.longer next hmem
  cases link.symm.trans hat
  obtain ⟨rfl, -⟩ := inside.unique hway
  exact Nat.not_le_of_lt hjk hk

theorem cons (h : fs.InLinks text open_ k) (link : fs.at? next = some (.link target))
    (inside : fs.Way text (startFrom next.dropLast target) target.names j m) (hjk : j < k) :
    fs.InLinks text (next :: open_) j where
  distinct := .cons (h.not_mem link inside hjk) h.distinct
  longer link' hlink' := by
    obtain rfl | hlink' := List.mem_cons.mp hlink'
    · exact ⟨target, j, m, link, inside, le_rfl⟩
    · exact (h.mono (Nat.le_of_lt hjk)).longer link' hlink'

/-- There are no more of them than there are links. -/
theorem length_le (h : fs.InLinks text open_ k) : open_.length ≤ fs.links.length := by
  refine (h.distinct.subperm fun link hlink => ?_).length_le
  obtain ⟨target, j, m, hat, -, -⟩ := h.longer link hlink
  exact mem_links_of_at? hat

end InLinks

/-! ## Absolute paths -/

section Resolved
variable {others : Nat} {open_ : List (List String)} {target : Path}

theorem resolveFrom_plain (henter : fs.enter text place name = .ok next)
    (hplain : ∀ target, fs.at? next ≠ some (.link target)) :
    fs.resolveFrom others open_ place (name :: rest) = fs.resolveFrom others open_ next rest := by
  obtain ⟨-, -, rfl⟩ := enter_eq_ok.mp henter
  cases others with
  | zero =>
    rw [resolveFrom, unwind]
    split
    · next htarget => exact absurd htarget (hplain _)
    · rfl
  | succ others =>
    rw [resolveFrom, unwind]
    split
    · next htarget => exact absurd htarget (hplain _)
    · rfl

theorem resolveFrom_link (henter : fs.enter text place name = .ok next)
    (hlink : fs.at? next = some (.link target)) (hopen : next ∉ open_)
    (hinside : fs.resolveFrom others (next :: open_) (startFrom next.dropLast target) target.names =
      .ok m) :
    fs.resolveFrom (others + 1) open_ place (name :: rest) =
      fs.resolveFrom (others + 1) open_ m rest := by
  obtain ⟨-, -, rfl⟩ := enter_eq_ok.mp henter
  rw [resolveFrom, unwind, hlink]
  dsimp only
  rw [if_neg (by simpa using hopen), hinside]

/-- A way is found link by link, as long as there are enough links that are not being followed. -/
theorem Way.resolved (h : fs.Way text place names k n) (inLinks : fs.InLinks text open_ k)
    (enough : fs.links.length ≤ others + open_.length) :
    fs.resolveFrom others open_ place names = .ok n := by
  induction h generalizing others open_ with
  | here place => cases others <;> rfl
  | plain enter plain _ ih => rw [resolveFrom_plain enter plain, ih inLinks enough]
  | @link place next rest m n name target j k enter link inside _ ihinside ihbehind =>
    have hjk : j < j + k + 1 := by omega
    have hinside := inLinks.cons link inside hjk
    cases others with
    | zero =>
      -- all links are being followed, and this is one more
      have hlength := hinside.length_le
      rw [List.length_cons] at hlength
      omega
    | succ others =>
      have hfound := @ihinside others (next :: open_) hinside
        (by rw [List.length_cons]; omega)
      rw [resolveFrom_link enter link (inLinks.not_mem link inside hjk) hfound]
      exact ihbehind (inLinks.mono (by omega)) enough

end Resolved

/-- A path that leads somewhere is made absolute to there. -/
theorem resolve_of_locate {p : Path} (h : fs.locate p = .ok n) :
    fs.resolve p = .ok ⟨.absolute, n⟩ := by
  obtain ⟨husable, hfollow⟩ := locate_eq_ok.mp h
  obtain ⟨k, hway⟩ := Way.of_follow hfollow
  have hresolved : fs.resolveFrom fs.links.length [] (fs.start p) p.names = .ok n :=
    hway.resolved (.none fs _ k) (Nat.le_add_right ..)
  unfold resolve
  rw [if_neg (by simp [husable]), hresolved]

end PackageSigning.Files
