import PackageSigning.KeyDerivation.Pbkdf2

/-!
# What steps fail with

Which faults a step can fail with is told by a kind of faults (`FailsOnly`). What steps in a
row fail with, one of them fails with.
-/

namespace PackageSigning

variable {α β : Type} {E F : Fault → Prop}

/-- A result is a fault of some kind, if it is one at all. -/
def FailsOnly (E : Fault → Prop) (result : Except Fault α) : Prop :=
  ∀ fault, result = .error fault → E fault

/-- The faults of the tool itself, and some mishaps. -/
inductive OwnOr (mishaps : List Mishap) : Fault → Prop
  | own {fault : Fault} (h : fault.isOwn = true) : OwnOr mishaps fault
  | mishap {m : Mishap} (h : m ∈ mishaps) : OwnOr mishaps (.mishap m)

theorem OwnOr.mono {ms ns : List Mishap} (h : ∀ m ∈ ms, m ∈ ns) {fault : Fault}
    (hf : OwnOr ms fault) : OwnOr ns fault := by
  cases hf with
  | own hown => exact .own hown
  | mishap hm => exact .mishap (h _ hm)

/-- A mishap that it is not can be left out. -/
theorem OwnOr.erase {ms : List Mishap} {m : Mishap} {fault : Fault} (hf : OwnOr ms fault)
    (h : fault ≠ .mishap m) : OwnOr (ms.erase m) fault := by
  cases hf with
  | own hown => exact .own hown
  | @mishap n hn =>
    have hne : n ≠ m := by
      rintro rfl
      exact h rfl
    exact .mishap ((List.mem_erase_of_ne hne).mpr hn)

/-- Faults of some kind, and those with which the platform refuses to derive a key. -/
inductive OrRefused [Platform] (E : Fault → Prop) : Fault → Prop
  | other {fault : Fault} (h : E fault) : OrRefused E fault
  | refused {request : DerivationRequest} {m : Mishap} (h : Platform.refusal request = some m) :
      OrRefused E (.mishap m)

theorem OrRefused.mono [Platform] (h : ∀ fault, E fault → F fault) {fault : Fault}
    (hf : OrRefused E fault) : OrRefused F fault := by
  cases hf with
  | other he => exact .other (h _ he)
  | refused hrefused => exact .refused hrefused

namespace FailsOnly

theorem mono {x : Except Fault α} (hx : FailsOnly E x) (h : ∀ fault, E fault → F fault) :
    FailsOnly F x :=
  fun fault hfault => h fault (hx fault hfault)

theorem ok (a : α) : FailsOnly E (.ok a) := nofun

theorem pure (a : α) : FailsOnly E (Pure.pure a : Except Fault α) := nofun

theorem error {fault : Fault} (h : E fault) : FailsOnly E (.error fault : Except Fault α) := by
  rintro _ ⟨⟩
  exact h

theorem throw {fault : Fault} (h : E fault) :
    FailsOnly E (MonadExcept.throw fault : Except Fault α) :=
  error h

/-- More mishaps can be listed. -/
theorem widen {ms ns : List Mishap} {x : Except Fault α} (hx : FailsOnly (OwnOr ms) x)
    (h : ∀ m ∈ ms, m ∈ ns) : FailsOnly (OwnOr ns) x :=
  hx.mono fun _ => .mono h

/-- A mishap of a list. -/
theorem mishap {ms : List Mishap} {m : Mishap} (h : m ∈ ms) :
    FailsOnly (OwnOr ms) (.error (.mishap m) : Except Fault α) :=
  error (.mishap h)

theorem orRefused [Platform] {x : Except Fault α} (hx : FailsOnly E x) : FailsOnly (OrRefused E) x :=
  hx.mono fun _ => .other

/-- More mishaps can be listed beside refusals. -/
theorem widenRefused [Platform] {ms ns : List Mishap} {x : Except Fault α}
    (hx : FailsOnly (OrRefused (OwnOr ms)) x) (h : ∀ m ∈ ms, m ∈ ns) :
    FailsOnly (OrRefused (OwnOr ns)) x :=
  hx.mono fun _ => .mono fun _ => .mono h

/-- A refusal, or a mishap of a list. -/
theorem refusal [Platform] {ms : List Mishap} {length iterations : Int} {m : Mishap}
    (h : KeyDerivation.refusal? length iterations = some m)
    (hlisted : .tooLarge ∈ ms ∧ .badValue ∈ ms) :
    FailsOnly (OrRefused (OwnOr ms)) (.error (.mishap m) : Except Fault α) := by
  unfold KeyDerivation.refusal? at h
  split at h
  · cases h
    exact .error (.other (.mishap hlisted.1))
  · obtain hrefused | ⟨-, hzero⟩ := Option.or_eq_some_iff.mp h
    · exact .error (.refused hrefused)
    · split at hzero
      · cases hzero
        exact .error (.other (.mishap hlisted.2))
      · cases hzero

theorem bind {x : Except Fault α} {f : α → Except Fault β} (hx : FailsOnly E x)
    (hf : ∀ a, x = .ok a → FailsOnly E (f a)) : FailsOnly E (x >>= f) := by
  cases x with
  | ok a => exact hf a rfl
  | error fault => exact error (hx fault rfl)

theorem map {x : Except Fault α} (hx : FailsOnly E x) (f : α → β) : FailsOnly E (f <$> x) := by
  cases x with
  | ok a => exact ok _
  | error fault => exact error (hx fault rfl)

theorem mapM {f : α → Except Fault β} {as : List α} (hf : ∀ a ∈ as, FailsOnly E (f a)) :
    FailsOnly E (as.mapM f) := by
  induction as with
  | nil => exact pure _
  | cons a as ih =>
    obtain ⟨ha, has⟩ := List.forall_mem_cons.mp hf
    rw [List.mapM_cons]
    exact bind ha fun _ _ => bind (ih has) fun _ _ => pure _

theorem forM {f : α → Except Fault Unit} {as : List α} (hf : ∀ a ∈ as, FailsOnly E (f a)) :
    FailsOnly E (as.forM f) := by
  induction as with
  | nil => exact pure _
  | cons a as ih =>
    obtain ⟨ha, has⟩ := List.forall_mem_cons.mp hf
    exact bind ha fun _ _ => ih has

theorem filterM {f : α → Except Fault Bool} {as : List α} (hf : ∀ a ∈ as, FailsOnly E (f a)) :
    FailsOnly E (as.filterM f) := by
  have haux (kept : List α) : FailsOnly E (as.filterAuxM f kept) := by
    induction as generalizing kept with
    | nil => exact pure _
    | cons a as ih =>
      obtain ⟨ha, has⟩ := List.forall_mem_cons.mp hf
      exact bind ha fun _ _ => ih has _
  exact bind (haux []) fun _ _ => pure _

end FailsOnly
end PackageSigning
