/-!
# Outcomes of steps done in a row

What it takes for steps in a row, of which each may fail, to come to an end.
-/

namespace PackageSigning

instance decidableEqExcept {ε α : Type} [DecidableEq ε] [DecidableEq α] :
    DecidableEq (Except ε α)
  | .ok a, .ok b => decidable_of_iff (a = b) ⟨congrArg Except.ok, Except.ok.inj⟩
  | .error d, .error e => decidable_of_iff (d = e) ⟨congrArg Except.error, Except.error.inj⟩
  | .ok _, .error _ => isFalse nofun
  | .error _, .ok _ => isFalse nofun

theorem bind_eq_ok {ε α β : Type} {x : Except ε α} {f : α → Except ε β} {b : β} :
    x >>= f = .ok b ↔ ∃ a, x = .ok a ∧ f a = .ok b := by
  cases x with
  | ok a =>
    constructor
    · intro h; exact ⟨a, rfl, h⟩
    · rintro ⟨_, ha, h⟩; cases ha; exact h
  | error e =>
    constructor
    · intro h; cases h
    · rintro ⟨_, ha, _⟩; cases ha

/-- What steps in a row fail with, the first one fails with, or the rest does. -/
theorem bind_eq_error {ε α β : Type} {x : Except ε α} {f : α → Except ε β} {e : ε} :
    x >>= f = .error e ↔ x = .error e ∨ ∃ a, x = .ok a ∧ f a = .error e := by
  cases x with
  | ok a =>
    constructor
    · intro h; exact .inr ⟨a, rfl, h⟩
    · rintro (h | ⟨_, ha, h⟩)
      · cases h
      · cases ha; exact h
  | error d =>
    constructor
    · intro h; cases h; exact .inl rfl
    · rintro (h | ⟨_, ha, _⟩)
      · cases h; rfl
      · cases ha

/-- A step that only checks has one way to end. -/
theorem check_bind_eq_ok {ε α : Type} {x : Except ε Unit} {f : Unit → Except ε α} {a : α} :
    x >>= f = .ok a ↔ x = .ok () ∧ f () = .ok a := by
  rw [bind_eq_ok]
  constructor
  · rintro ⟨⟨⟩, hx, h⟩; exact ⟨hx, h⟩
  · rintro ⟨hx, h⟩; exact ⟨(), hx, h⟩

theorem pure_eq_ok {ε α : Type} {a b : α} : (pure a : Except ε α) = .ok b ↔ a = b := by
  constructor
  · intro h; cases h; rfl
  · rintro rfl; rfl

theorem throw_ne_ok {ε α : Type} {e : ε} {a : α} : (throw e : Except ε α) ≠ .ok a := by
  intro h; cases h

/-- A refusal in front of a step: it ends only without the refusal. -/
theorem refuse_if_eq_ok {ε α β : Type} {c : Prop} [Decidable c] {e : ε} {f : β → Except ε α}
    {x : Except ε α} {a : α} :
    (if c then (throw e : Except ε β) >>= f else x) = .ok a ↔ ¬c ∧ x = .ok a := by
  by_cases h : c
  · simp [h, bind_eq_ok, throw_ne_ok]
  · simp [h]

/-- A refusal in front of a step: what fails is the refusal, or the step without it. -/
theorem refuse_if_eq_error {ε α β : Type} {c : Prop} [Decidable c] {d e : ε}
    {f : β → Except ε α} {x : Except ε α} :
    (if c then (throw d : Except ε β) >>= f else x) = .error e ↔
      (c ∧ d = e) ∨ (¬c ∧ x = .error e) := by
  by_cases h : c
  · simp [h, bind_eq_error, throw, throwThe, MonadExceptOf.throw]
  · simp [h]

/-- Steps of one kind in a row fail as one of them does. -/
theorem exists_of_mapM_eq_error {ε α β : Type} {f : α → Except ε β} {as : List α} {e : ε}
    (h : as.mapM f = .error e) : ∃ a ∈ as, f a = .error e := by
  induction as with
  | nil => cases h
  | cons a as ih =>
    rw [List.mapM_cons] at h
    obtain ha | ⟨b, -, h⟩ := bind_eq_error.mp h
    · exact ⟨a, List.mem_cons_self, ha⟩
    · obtain has | ⟨bs, -, h⟩ := bind_eq_error.mp h
      · obtain ⟨a', ha', he⟩ := ih has
        exact ⟨a', List.mem_cons_of_mem _ ha', he⟩
      · cases h

/-- What steps of one kind in a row come to, each of them has come to for something. -/
theorem exists_of_mem_mapM {ε α β : Type} {f : α → Except ε β} {as : List α} {bs : List β}
    (h : as.mapM f = .ok bs) {b : β} (hb : b ∈ bs) : ∃ a ∈ as, f a = .ok b := by
  induction as generalizing bs with
  | nil =>
    obtain rfl := pure_eq_ok.mp h
    cases hb
  | cons a as ih =>
    rw [List.mapM_cons, bind_eq_ok] at h
    obtain ⟨c, hc, h⟩ := h
    obtain ⟨cs, hcs, h⟩ := bind_eq_ok.mp h
    obtain rfl := pure_eq_ok.mp h
    obtain rfl | hb := List.mem_cons.mp hb
    · exact ⟨a, List.mem_cons_self, hc⟩
    · obtain ⟨a', ha', hb⟩ := ih hcs hb
      exact ⟨a', List.mem_cons_of_mem _ ha', hb⟩

/-- Steps of one kind in a row have each come to something. -/
theorem exists_of_mapM {ε α β : Type} {f : α → Except ε β} {as : List α} {bs : List β}
    (h : as.mapM f = .ok bs) {a : α} (ha : a ∈ as) : ∃ b, f a = .ok b := by
  induction as generalizing bs with
  | nil => cases ha
  | cons first as ih =>
    rw [List.mapM_cons, bind_eq_ok] at h
    obtain ⟨c, hc, h⟩ := h
    obtain ⟨cs, hcs, -⟩ := bind_eq_ok.mp h
    obtain rfl | ha := List.mem_cons.mp ha
    · exact ⟨c, hc⟩
    · exact ih hcs ha

/-- Steps of one kind in a row that all come to an end. -/
theorem mapM_eq_ok_map {ε α β : Type} {f : α → Except ε β} {g : α → β} {as : List α}
    (h : ∀ a ∈ as, f a = .ok (g a)) : as.mapM f = .ok (as.map g) := by
  induction as with
  | nil => rfl
  | cons a as ih =>
    obtain ⟨ha, has⟩ := List.forall_mem_cons.mp h
    rw [List.mapM_cons, ha, ih has]
    rfl

/-- Steps of one kind in a row come to an end, unless one of them fails: the first one that does
decides. -/
theorem mapM_eq_findSome? {ε α β : Type} {f : α → Except ε β} {bad : α → Option ε} {g : α → β}
    (h : ∀ a, f a = (bad a).elim (.ok (g a)) .error) (as : List α) :
    as.mapM f = (as.findSome? bad).elim (.ok (as.map g)) .error := by
  induction as with
  | nil => rfl
  | cons a as ih =>
    rw [List.mapM_cons, ih, h, List.findSome?_cons]
    cases bad a with
    | some e => rfl
    | none => cases as.findSome? bad <;> rfl

/-- Filtering with a test that never fails. -/
theorem filterM_ok {ε α : Type} (p : α → Bool) (as : List α) :
    as.filterM (fun a => (.ok (p a) : Except ε Bool)) = .ok (as.filter p) := by
  have haux (kept : List α) : as.filterAuxM (fun a => (.ok (p a) : Except ε Bool)) kept =
      .ok ((as.filter p).reverse ++ kept) := by
    induction as generalizing kept with
    | nil => rfl
    | cons a as ih =>
      refine (ih (cond (p a) (a :: kept) kept)).trans (congrArg Except.ok ?_)
      cases h : p a <;> simp [h]
  unfold List.filterM
  rw [haux]
  exact congrArg Except.ok (by simp)

/-- A step either comes to an end or fails. -/
theorem exists_error_iff {ε α : Type} {x : Except ε α} :
    (∃ e, x = .error e) ↔ ∀ a, x ≠ .ok a := by
  cases x with
  | ok a => simp
  | error e => simp

end PackageSigning
