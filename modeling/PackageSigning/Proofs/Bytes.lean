import Mathlib.Algebra.Group.Nat.Defs
import PackageSigning.Bytes

/-!
# Numbers spelled in bytes

Least significant byte first, a number below `256 ^ width` has one spelling of that
width, and bytes of that width spell one number. Bytes are cut into the blocks of one size
that they were put together of.
-/

namespace PackageSigning.Bytes

@[simp] theorem length_ofNatLittle (width n : Nat) : (ofNatLittle width n).length = width := by
  induction width generalizing n with
  | zero => rfl
  | succ w ih => simp [ofNatLittle, ih]

theorem toNatLittle_ofNatLittle (width n : Nat) :
    toNatLittle (ofNatLittle width n) = n % 256 ^ width := by
  induction width generalizing n with
  | zero => simp [ofNatLittle, toNatLittle, Nat.mod_one]
  | succ w ih =>
    have hx : (UInt8.ofNat n).toNat = n % 256 := by simp
    simp only [ofNatLittle, toNatLittle, ih, hx]
    rw [Nat.pow_succ, Nat.mul_comm _ 256, Nat.mod_mul]

theorem toNatLittle_lt (b : Bytes) : toNatLittle b < 256 ^ b.length := by
  induction b with
  | nil => simp [toNatLittle]
  | cons x rest ih =>
    have hx := x.toNat_lt
    simp only [toNatLittle, List.length_cons, Nat.pow_succ]
    omega

theorem ofNatLittle_toNatLittle (b : Bytes) : ofNatLittle b.length (toNatLittle b) = b := by
  induction b with
  | nil => rfl
  | cons x rest ih =>
    have hx := x.toNat_lt
    have hdiv : (x.toNat + 256 * toNatLittle rest) / 256 = toNatLittle rest := by omega
    have hlow : UInt8.ofNat (x.toNat + 256 * toNatLittle rest) = x := by
      apply UInt8.toNat_inj.mp
      simp
    simp only [List.length_cons, toNatLittle, ofNatLittle, hdiv, hlow, ih]

theorem toNat_ofNat (width n : Nat) : toNat (ofNat width n) = n % 256 ^ width := by
  rw [← toNatLittle_ofNatLittle]
  unfold toNat ofNat
  rw [List.foldl_reverse]
  generalize ofNatLittle width n = b
  induction b with
  | nil => rfl
  | cons x rest ih =>
    rw [List.foldr_cons, ih, toNatLittle]
    omega

/-- Blocks of one size, put together and cut again. -/
theorem blocks_flatten {size : Nat} (hsize : 0 < size) {parts : List Bytes}
    (hparts : ∀ part ∈ parts, part.length = size) : blocks size parts.flatten = parts := by
  have hgo (fuel : Nat) (hfuel : parts.flatten.length ≤ fuel) :
      blocks.go size fuel parts.flatten = parts := by
    induction parts generalizing fuel with
    | nil => cases fuel <;> rfl
    | cons part parts ih =>
      obtain ⟨hpart, hrest⟩ := List.forall_mem_cons.mp hparts
      cases part with
      | nil => exact absurd hpart (Nat.ne_of_lt hsize)
      | cons x part =>
        rw [List.flatten_cons, List.length_append, hpart] at hfuel
        cases fuel with
        | zero => omega
        | succ fuel =>
          show List.take size ((x :: part) ++ parts.flatten) ::
            blocks.go size fuel (List.drop size ((x :: part) ++ parts.flatten)) = _
          rw [List.take_left' hpart, List.drop_left' hpart, ih hrest fuel (by omega)]
  exact hgo _ (Nat.le_refl _)

/-- Blocks are cut from bytes in turn, and none is empty. -/
theorem flatten_blocks {size : Nat} (hsize : 0 < size) (b : Bytes) :
    (blocks size b).flatten = b ∧ ∀ part ∈ blocks size b, part ≠ [] := by
  have hgo (fuel : Nat) (b : Bytes) (hfuel : b.length ≤ fuel) :
      (blocks.go size fuel b).flatten = b ∧ ∀ part ∈ blocks.go size fuel b, part ≠ [] := by
    induction fuel generalizing b with
    | zero =>
      obtain rfl := List.length_eq_zero_iff.mp (Nat.le_zero.mp hfuel)
      exact ⟨rfl, nofun⟩
    | succ fuel ih =>
      cases b with
      | nil => exact ⟨rfl, nofun⟩
      | cons x rest =>
        rw [List.length_cons] at hfuel
        obtain ⟨hflatten, hparts⟩ := ih ((x :: rest).drop size)
          (by rw [List.length_drop, List.length_cons]; omega)
        refine ⟨?_, List.forall_mem_cons.mpr ⟨?_, hparts⟩⟩
        · show ((x :: rest).take size :: blocks.go size fuel ((x :: rest).drop size)).flatten = _
          rw [List.flatten_cons, hflatten, List.take_append_drop]
        · simp [List.take_eq_nil_iff, Nat.ne_of_gt hsize]
  exact hgo b.length b (Nat.le_refl _)

theorem split?_eq_some_iff {n : Nat} {b front rest : Bytes} :
    split? n b = some (front, rest) ↔ front.length = n ∧ b = front ++ rest := by
  unfold split?
  constructor
  · intro h
    split at h
    · next hn =>
      simp only [Option.some.injEq, Prod.mk.injEq] at h
      obtain ⟨rfl, rfl⟩ := h
      exact ⟨List.length_take_of_le hn, (List.take_append_drop n b).symm⟩
    · cases h
  · rintro ⟨rfl, rfl⟩
    simp

/-! ## Runs of bytes inside others -/

theorem includes_iff {part b : Bytes} : includes part b = true ↔ part <:+: b := by
  induction b with
  | nil => simp [includes]
  | cons x b ih =>
    rw [includes, Bool.or_eq_true, ih, List.infix_cons_iff, List.isPrefixOf_iff_prefix]

/-- A run that a byte is not in lies on one side of that byte. -/
theorem infix_append_cons_iff {part a b : Bytes} {x : UInt8} (h : x ∉ part) :
    part <:+: a ++ x :: b ↔ part <:+: a ∨ part <:+: b := by
  constructor
  · rintro ⟨front, back, heq⟩
    obtain ⟨between, ha, -⟩ | ⟨between, hfront, hb⟩ := List.append_eq_append_iff.mp heq
    · exact .inl ⟨front, between, ha.symm⟩
    · cases between with
      | nil =>
        rw [List.append_nil] at hfront
        exact .inl (hfront ▸ List.infix_append_right)
      | cons y between =>
        obtain ⟨rfl, rfl⟩ := List.cons.inj hb
        obtain ⟨rest, -, hpart⟩ | ⟨rest, -, hrest⟩ := List.append_eq_append_iff.mp hfront
        · exact absurd (by simp [hpart]) h
        · cases rest with
          | nil =>
            rw [List.nil_append] at hrest
            exact absurd (hrest ▸ List.mem_cons_self) h
          | cons z rest =>
            obtain ⟨-, rfl⟩ := List.cons.inj hrest
            exact .inr (List.infix_append rest part back)
  · rintro (h | h)
    · exact h.trans List.infix_append_left
    · exact (h.trans (List.suffix_cons x b).isInfix).trans List.infix_append_right

end PackageSigning.Bytes
