import Mathlib.Tactic.IntervalCases
import PackageSigning.Capabilities

/-!
# Flag words of capabilities

A flag word that the grants make has each grant at the place of its capability and
nothing at other places. A flag word from elsewhere may have bits there as well, which
reading the grants leaves out, so writing the grants of a word again keeps its lowest
five bits.
-/

namespace PackageSigning

/-- The capabilities have the lowest places to themselves. -/
theorem Capability.exists_place_iff {i : Nat} : (∃ k : Capability, k.place = i) ↔ i < 5 := by
  constructor
  · rintro ⟨k, rfl⟩
    cases k <;> decide
  · intro h
    interval_cases i
    · exact ⟨.installedData, rfl⟩
    · exact ⟨.sharedUid, rfl⟩
    · exact ⟨.permission, rfl⟩
    · exact ⟨.rollback, rfl⟩
    · exact ⟨.auth, rfl⟩

namespace Capabilities

theorem flags_eq_sum (c : Capabilities) :
    c.flags = c.granted.installedData.toNat + 2 * c.granted.sharedUid.toNat +
      4 * c.granted.permission.toNat + 8 * c.granted.rollback.toNat + 16 * c.granted.auth.toNat := by
  have h (k : Capability) :
      (if c.granted.get k then k.bit else 0) = k.bit * (c.granted.get k).toNat := by
    cases c.granted.get k <;> simp
  simp only [flags, Capability.all, List.foldr, h]
  simp only [CapabilityMap.get, Capability.bit, Capability.place, Nat.pow_eq]
  omega

/-- Each grant is the bit of its capability. -/
theorem testBit_flags (c : Capabilities) (k : Capability) :
    c.flags.testBit k.place = c.granted.get k := by
  have h1 := Bool.toNat_le c.granted.installedData
  have h2 := Bool.toNat_le c.granted.sharedUid
  have h3 := Bool.toNat_le c.granted.permission
  have h4 := Bool.toNat_le c.granted.rollback
  have h5 := Bool.toNat_le c.granted.auth
  rw [Nat.testBit_eq_decide_div_mod_eq, Bool.eq_iff_iff, decide_eq_true_iff, flags_eq_sum,
    ← Bool.toNat_eq_one]
  cases k <;> simp only [Capability.place, CapabilityMap.get] <;> omega

/-- Five bits hold all grants. -/
theorem flags_lt (c : Capabilities) : c.flags < 32 := by
  have h1 := Bool.toNat_le c.granted.installedData
  have h2 := Bool.toNat_le c.granted.sharedUid
  have h3 := Bool.toNat_le c.granted.permission
  have h4 := Bool.toNat_le c.granted.rollback
  have h5 := Bool.toNat_le c.granted.auth
  rw [flags_eq_sum]
  omega

theorem bitAt_natCast (word place : Nat) : bitAt word place = word.testBit place := by
  rw [Nat.testBit_eq_decide_div_mod_eq, bitAt, Nat.pow_eq, ← Int.natCast_ediv]
  rw [Bool.eq_iff_iff, beq_iff_eq, decide_eq_true_iff]
  omega

@[simp] theorem get_granted_ofFlags (word : Int) (k : Capability) :
    (ofFlags word).granted.get k = bitAt word k.place := CapabilityMap.get_ofFunction _ _

@[simp] theorem get_granted_appliedTo (c d : Capabilities) (k : Capability) :
    (c.appliedTo d).granted.get k = if c.configured.get k then c.granted.get k else d.granted.get k :=
  CapabilityMap.get_ofFunction _ _

/-- Numbers of five bits have bits at the places of capabilities only. -/
theorem lt_iff_testBit {word : Nat} : word < 32 ↔ ∀ i, word.testBit i = true → i < 5 := by
  constructor
  · intro h i hbit
    by_contra hi
    have hpow : 2 ^ 5 ≤ 2 ^ i := Nat.pow_le_pow_right (by decide) (Nat.le_of_not_lt hi)
    rw [Nat.testBit_lt_two_pow (Nat.lt_of_lt_of_le h hpow)] at hbit
    cases hbit
  · intro h
    apply Nat.lt_pow_two_of_testBit (n := 5)
    intro i hi
    rw [← Bool.not_eq_true]
    intro hbit
    exact Nat.not_lt.mpr hi (h i hbit)

/-- The grants are read off the word that they make. -/
@[simp] theorem granted_ofFlags_flags (c : Capabilities) : (ofFlags c.flags).granted = c.granted := by
  ext k
  rw [get_granted_ofFlags, bitAt_natCast, testBit_flags]

/-- The grants of two words are the same exactly when their bits are. -/
theorem granted_ofFlags_eq_iff {w v : Nat} : (ofFlags w).granted = (ofFlags v).granted ↔
    ∀ k : Capability, w.testBit k.place = v.testBit k.place := by
  constructor
  · intro h k
    rw [← bitAt_natCast, ← bitAt_natCast, ← get_granted_ofFlags, ← get_granted_ofFlags, h]
  · intro h
    ext k
    rw [get_granted_ofFlags, get_granted_ofFlags, bitAt_natCast, bitAt_natCast, h]

end Capabilities
end PackageSigning
