import PackageSigning.Proofs.World

/-!
# What runs ask

The questions of a run, in the order in which they are asked (`World.asked`). They tell what the
surroundings cannot: a file that was read and a variable that was looked up leave no trace there.
-/

namespace PackageSigning

/-- Looking at something, which leaves it as it is. -/
def Query.Looks : Query → Prop
  | .read _ | .isThere _ | .resolve _ | .environment _ | .nativeEncoding | .isTerminal
  | .vaultIsOpen => True
  | _ => False

namespace World
open PackageSigning.Action

variable {α β : Type} {w v : World}

/-- The questions that an action asks, one after the other. -/
def asked (w : World) : Action α → List Query
  | .done _ | .fail _ => []
  | .ask q next => q :: asked (w.answer q).2 (next (w.answer q).1)

theorem asked_bind (w : World) (x : Action α) (f : α → Action β) :
    w.asked (x >>= f) = w.asked x ++ match w.run x with
      | (.ok a, w) => w.asked (f a)
      | (.error _, _) => [] := by
  induction x generalizing w with
  | done _ | fail _ => rfl
  | ask q next ih => exact congrArg (q :: ·) (ih _ _)

theorem asked_bind_of_ok {x : Action α} {f : α → Action β} {a : α} (h : w.run x = (.ok a, v)) :
    w.asked (x >>= f) = w.asked x ++ v.asked (f a) := by
  rw [asked_bind, h]

/-- A run asks only what its action may ask. -/
theorem asked_of_only {P : Query → Prop} {x : Action α} (h : x.Only P) :
    ∀ q ∈ w.asked x, P q := by
  induction h generalizing w with
  | done _ | fail _ => nofun
  | ask question _ ih => exact List.forall_mem_cons.mpr ⟨question, ih _⟩

/-- Looking leaves everything as it is. -/
theorem run_of_looks {x : Action α} (h : x.Only Query.Looks) : (w.run x).2 = w := by
  induction h generalizing w with
  | done _ | fail _ => rfl
  | @ask q next question _ ih =>
    have hq : (w.answer q).2 = w := by
      cases q <;> first | rfl | exact question.elim
    rw [run_ask, hq]
    exact ih _

theorem eq_of_looks {x : Action α} (h : x.Only Query.Looks) {result : Except Fault α}
    (hrun : w.run x = (result, v)) : v = w := by
  have hworld := run_of_looks (w := w) h
  rwa [hrun] at hworld

end World
end PackageSigning
