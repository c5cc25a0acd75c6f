import PackageSigning.Action

/-!
# What actions may ask

An action asks only questions of some kind when no branch asks another one. Actions that
are put together of such actions are such actions.
-/

namespace PackageSigning

namespace Query

/-- Showing text. -/
def Shows : Query → Prop
  | print _ | complain _ => True
  | _ => False

/-- Finding out what a signer is loaded from: files are read, and passwords are asked for
and handed out. Nothing is put anywhere but into the log. -/
def Gathers : Query → Prop
  | read _ | environment _ | nativeEncoding | isTerminal | line | hiddenLine _ | complain _
  | log _ | issue _ | vaultIsOpen => True
  | _ => False

/-- Anything but putting contents into a file. -/
def Keeps : Query → Prop
  | write .. => False
  | _ => True

/-- Anything that leaves files where they are. -/
def Settled : Query → Prop
  | temporary | move .. | remove _ => False
  | _ => True

/-- Anything but a note in the log. -/
def LeavesLog : Query → Prop
  | log _ => False
  | _ => True

theorem Shows.keeps {q : Query} (h : q.Shows) : q.Keeps := by
  cases q <;> first | exact h | trivial

theorem Gathers.keeps {q : Query} (h : q.Gathers) : q.Keeps := by
  cases q <;> first | exact h | trivial

theorem Shows.settled {q : Query} (h : q.Shows) : q.Settled := by
  cases q <;> first | exact h | trivial

theorem Gathers.settled {q : Query} (h : q.Gathers) : q.Settled := by
  cases q <;> first | exact h | trivial

/-- Anything that changes no file. -/
def Spares (q : Query) : Prop := q.Keeps ∧ q.Settled

theorem Shows.spares {q : Query} (h : q.Shows) : q.Spares := ⟨h.keeps, h.settled⟩

theorem Gathers.spares {q : Query} (h : q.Gathers) : q.Spares := ⟨h.keeps, h.settled⟩

end Query

namespace Action
variable {α β : Type} {P Q : Query → Prop}

theorem bind_assoc {γ : Type} (x : Action α) (f : α → Action β) (g : β → Action γ) :
    x >>= f >>= g = x >>= fun a => f a >>= g := by
  induction x with
  | done _ | fail _ => rfl
  | ask q next ih => exact congrArg (ask q) (funext ih)

/-- What an action ends with, value or fault, as a value. -/
def attempt (x : Action α) : Action (Except Fault α) :=
  tryCatch (x >>= fun a => pure (.ok a)) fun fault => pure (.error fault)

/-- Every question that an action may ask is of some kind. -/
inductive Only (P : Query → Prop) : Action α → Prop
  | done (a : α) : Only P (done a)
  | fail (fault : Fault) : Only P (fail fault)
  | ask {q : Query} {next : q.Answer → Action α} (question : P q)
      (rest : ∀ answer, Only P (next answer)) : Only P (ask q next)

namespace Only

theorem mono (h : ∀ q, P q → Q q) {x : Action α} (hx : x.Only P) : x.Only Q := by
  induction hx with
  | done a => exact .done a
  | fail fault => exact .fail fault
  | ask question _ ih => exact .ask (h _ question) ih

theorem pure (a : α) : (Pure.pure a : Action α).Only P := .done a

theorem throw (fault : Fault) : (MonadExcept.throw fault : Action α).Only P := .fail fault

theorem ofResult (result : Except Fault α) : (Action.ofResult result).Only P := by
  cases result with
  | ok a => exact .done a
  | error fault => exact .fail fault

theorem ofFile (result : Except FileFault α) : (Action.ofFile result).Only P := by
  cases result with
  | ok a => exact .done a
  | error fault => exact .fail _

theorem ofMishap (result : Except Mishap α) : (Action.ofMishap result).Only P := by
  cases result with
  | ok a => exact .done a
  | error mishap => exact .fail _

theorem query {q : Query} (h : P q) : (Action.query q).Only P := .ask h .done

theorem bind {x : Action α} {f : α → Action β} (hx : x.Only P) (hf : ∀ a, (f a).Only P) :
    (x >>= f).Only P := by
  induction hx with
  | done a => exact hf a
  | fail fault => exact .fail fault
  | ask question _ ih => exact .ask question ih

theorem tryCatch {x : Action α} {f : Fault → Action α} (hx : x.Only P)
    (hf : ∀ fault, (f fault).Only P) : (MonadExcept.tryCatch x f).Only P := by
  induction hx with
  | done a => exact .done a
  | fail fault => exact hf fault
  | ask question _ ih => exact .ask question ih

/-- A refusal in front of the rest of an action. -/
theorem refuse_if {c : Prop} [Decidable c] {fault : Fault} {f : PUnit → Action α}
    (hf : ∀ u, (f u).Only P) :
    (if c then (MonadExcept.throw fault : Action PUnit) >>= f else f ⟨⟩).Only P := by
  split
  · exact bind (throw fault) hf
  · exact hf ⟨⟩

theorem attempt {x : Action α} (hx : x.Only P) : (Action.attempt x).Only P :=
  tryCatch (bind hx fun _ => pure _) fun _ => pure _

theorem finally_ {x : Action α} {cleanup : Action Unit} (hx : x.Only P) (hc : cleanup.Only P) :
    (Action.finally_ x cleanup).Only P :=
  bind (attempt hx) fun result => bind hc fun _ => ofResult result

theorem forM {f : α → Action Unit} (hf : ∀ a, (f a).Only P) (as : List α) : (as.forM f).Only P := by
  induction as with
  | nil => exact pure _
  | cons a as ih => exact bind (hf a) fun _ => ih

end Only

/-- Nothing is asked. -/
abbrev Silent (x : Action α) : Prop := x.Only fun _ => False

/-- An action that asks nothing comes to a result at once. -/
theorem Silent.eq_ofResult {x : Action α} (h : x.Silent) : ∃ result, x = ofResult result := by
  cases h with
  | done a => exact ⟨.ok a, rfl⟩
  | fail fault => exact ⟨.error fault, rfl⟩
  | ask question => exact question.elim

end Action
end PackageSigning
