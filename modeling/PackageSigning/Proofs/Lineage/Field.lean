import PackageSigning.Lineage.Field
import PackageSigning.Proofs.Bytes
import PackageSigning.Proofs.Outcome

/-!
# Fields that are read as they are written

A reader *undoes* a writer when the readings of some bytes are exactly the values
whose written form stands in front of them. Numbers and counted bytes are read so,
hence no two written forms can be taken for each other, and a reader that has to use
up its bytes accepts written forms only, none of which starts another (`PrefixFree`).
-/

namespace PackageSigning

/-- None of the accepted byte strings is a beginning of another one. -/
def PrefixFree (accepted : Bytes → Prop) : Prop :=
  ∀ b surplus, accepted b → accepted (b ++ surplus) → surplus = []

namespace LineageField

theorem number_eq_ok {n : Int} {b : Bytes} :
    number n = .ok b ↔ (0 ≤ n ∧ n < bound) ∧ Bytes.ofNatLittle 4 n.toNat = b := by
  unfold number
  split
  · next h => simp [h]
  · next h => simp [h]

theorem number_ofNat {n : Nat} {b : Bytes} :
    number n = .ok b ↔ n < bound ∧ Bytes.ofNatLittle 4 n = b := by
  rw [number_eq_ok]
  simp only [Int.natCast_nonneg, true_and, Int.toNat_natCast]
  rw [Int.ofNat_lt]

/-- What is written as a number is not negative. -/
theorem exists_nat_of_number {n : Int} {b : Bytes} (h : number n = .ok b) :
    ∃ m : Nat, n = m ∧ number m = .ok b := by
  obtain ⟨⟨h0, _⟩, _⟩ := number_eq_ok.mp h
  obtain ⟨m, rfl⟩ := Int.eq_ofNat_of_zero_le h0
  exact ⟨m, rfl, h⟩

theorem length_number {n : Int} {b : Bytes} (h : number n = .ok b) : b.length = 4 := by
  obtain ⟨_, rfl⟩ := number_eq_ok.mp h
  exact Bytes.length_ofNatLittle 4 _

theorem counted_eq_ok {b e : Bytes} :
    counted b = .ok e ↔ ∃ n, number b.length = .ok n ∧ n ++ b = e := by
  unfold counted
  rw [bind_eq_ok]
  simp only [pure_eq_ok]

theorem length_counted {b e : Bytes} (h : counted b = .ok e) : e.length = 4 + b.length := by
  obtain ⟨n, hn, rfl⟩ := counted_eq_ok.mp h
  rw [List.length_append, length_number hn]

/-- Counted bytes take up their count at least, so fuel for some bytes lasts for those behind. -/
theorem length_behind_counted {x e b rest : Bytes} {fuel : Nat} (he : counted x = .ok e)
    (hb : b = e ++ rest) (hfuel : b.length ≤ fuel + 1) : rest.length ≤ fuel := by
  have hlen := length_counted he
  rw [hb, List.length_append] at hfuel
  omega

namespace Reader
variable {α β : Type}

theorem run_bind_eq_ok {x : Reader α} {f : α → Reader β} {b rest : Bytes} {v : β} :
    (x >>= f).run b = .ok (v, rest) ↔
      ∃ a middle, x.run b = .ok (a, middle) ∧ (f a).run middle = .ok (v, rest) := by
  rw [StateT.run_bind, bind_eq_ok]
  constructor
  · rintro ⟨⟨a, middle⟩, ha, h⟩; exact ⟨a, middle, ha, h⟩
  · rintro ⟨a, middle, ha, h⟩; exact ⟨(a, middle), ha, h⟩

theorem run_pure_eq_ok {a v : α} {b rest : Bytes} :
    (pure a : Reader α).run b = .ok (v, rest) ↔ a = v ∧ b = rest := by
  rw [StateT.run_pure, pure_eq_ok, Prod.mk.injEq]

theorem run_lift_eq_ok {x : Except Fault α} {v : α} {b rest : Bytes} :
    (liftM x : Reader α).run b = .ok (v, rest) ↔ x = .ok v ∧ b = rest := by
  change (x >>= fun a => pure (a, b)) = _ ↔ _
  rw [bind_eq_ok]
  simp only [pure_eq_ok, Prod.mk.injEq]
  constructor
  · rintro ⟨_, hx, rfl, h⟩; exact ⟨hx, h⟩
  · rintro ⟨hx, h⟩; exact ⟨v, hx, rfl, h⟩

/-- What is read off the front of some bytes are the values whose written forms stand there. -/
def Undoes (reader : Reader α) (writer : α → Except Fault Bytes) : Prop :=
  ∀ b a rest, reader.run b = .ok (a, rest) ↔ ∃ e, writer a = .ok e ∧ b = e ++ rest

theorem take_run_eq_ok {count : Nat} {b front rest : Bytes} :
    (take count).run b = .ok (front, rest) ↔ front.length = count ∧ b = front ++ rest := by
  rw [← Bytes.split?_eq_some_iff]
  show take count b = _ ↔ _
  unfold take
  cases Bytes.split? count b with
  | none => simp
  | some p => obtain ⟨front', rest'⟩ := p; simp

theorem number_undoes : Undoes number (fun n => LineageField.number n) := by
  intro b n rest
  unfold number
  simp only [run_bind_eq_ok, take_run_eq_ok, run_pure_eq_ok, number_ofNat]
  constructor
  · rintro ⟨front, middle, ⟨h4, rfl⟩, hn, rfl⟩
    subst hn
    refine ⟨front, ⟨?_, ?_⟩, rfl⟩
    · have := Bytes.toNatLittle_lt front
      rw [h4] at this
      simpa [bound] using this
    · rw [← h4]; exact Bytes.ofNatLittle_toNatLittle front
  · rintro ⟨e, ⟨hn, rfl⟩, rfl⟩
    refine ⟨_, rest, ⟨Bytes.length_ofNatLittle 4 n, rfl⟩, ?_, rfl⟩
    rw [Bytes.toNatLittle_ofNatLittle]
    exact Nat.mod_eq_of_lt hn

theorem counted_undoes : Undoes counted LineageField.counted := by
  intro b x rest
  unfold counted
  simp only [run_bind_eq_ok, take_run_eq_ok, counted_eq_ok]
  constructor
  · rintro ⟨n, middle, hn, hx, rfl⟩
    obtain ⟨e, he, rfl⟩ := (number_undoes _ _ _).mp hn
    subst hx
    exact ⟨e ++ x, ⟨e, he, rfl⟩, (List.append_assoc ..).symm⟩
  · rintro ⟨_, ⟨e, he, rfl⟩, rfl⟩
    exact ⟨x.length, x ++ rest, (number_undoes _ _ _).mpr ⟨e, he, List.append_assoc ..⟩, rfl, rfl⟩

/-- Where counted bytes end is told by their count, so what is behind them is too. -/
theorem counted_append_inj {x y e f r s : Bytes} (he : LineageField.counted x = .ok e)
    (hf : LineageField.counted y = .ok f) (h : e ++ r = f ++ s) : x = y ∧ r = s := by
  have h1 := (counted_undoes (e ++ r) x r).mpr ⟨e, he, rfl⟩
  have h2 := (counted_undoes (e ++ r) y s).mpr ⟨f, hf, h⟩
  have heq := h1.symm.trans h2
  simp only [Except.ok.injEq, Prod.mk.injEq] at heq
  exact heq

theorem whole_eq_ok {reader : Reader α} {b : Bytes} {a : α} :
    whole reader b = .ok a ↔ reader.run b = .ok (a, []) := by
  unfold whole
  rw [bind_eq_ok]
  constructor
  · rintro ⟨⟨a', rest⟩, hr, h⟩
    obtain ⟨_, hf, h⟩ := bind_eq_ok.mp h
    cases rest with
    | nil => rw [pure_eq_ok.mp h] at hr; exact hr
    | cons x rest => cases hf
  · intro h
    exact ⟨(a, []), h, rfl⟩

/-- A reader that has to use up its bytes takes no surplus, if without that duty it leaves
the surplus behind. -/
theorem prefixFree_whole {reader : Reader α}
    (h : ∀ b a surplus, reader.run b = .ok (a, []) → reader.run (b ++ surplus) = .ok (a, surplus)) :
    PrefixFree (fun b => ∃ a, whole reader b = .ok a) := by
  rintro b surplus ⟨a, ha⟩ ⟨a', ha'⟩
  have hrun := h b a surplus (whole_eq_ok.mp ha)
  have heq := (whole_eq_ok.mp ha').symm.trans hrun
  simp only [Except.ok.injEq, Prod.mk.injEq] at heq
  exact heq.2.symm

theorem Undoes.whole_eq_ok {reader : Reader α} {writer : α → Except Fault Bytes}
    (h : Undoes reader writer) {b : Bytes} {a : α} : whole reader b = .ok a ↔ writer a = .ok b := by
  rw [Reader.whole_eq_ok, h]
  constructor
  · rintro ⟨e, he, rfl⟩; rw [List.append_nil]; exact he
  · intro he; exact ⟨b, he, (List.append_nil b).symm⟩

theorem Undoes.prefixFree {reader : Reader α} {writer : α → Except Fault Bytes}
    (h : Undoes reader writer) : PrefixFree (fun b => ∃ a, whole reader b = .ok a) := by
  apply prefixFree_whole
  intro b a surplus hr
  obtain ⟨e, he, rfl⟩ := (h b a []).mp hr
  exact (h _ a surplus).mpr ⟨e, he, by rw [List.append_nil]⟩

end Reader
end LineageField
end PackageSigning
