import PackageSigning.Command.Lineage
import PackageSigning.Command.Sign
import PackageSigning.Command.Verify
import PackageSigning.Proofs.Signer.Gathering

/-!
# What commands ask while they read their options

Most options only take words off the command line. One of them reads a file, and none changes
anything (`OptionAction.Asks`).
-/

namespace PackageSigning

open PackageSigning.Action

namespace OptionAction
variable {α β σ : Type} {P : Query → Prop}

/-- Wherever the reader is, only questions of some kind are asked. -/
def Asks (P : Query → Prop) (x : OptionAction α) : Prop := ∀ r, (x r).Only P

namespace Asks

theorem pure (a : α) : Asks P (Pure.pure a : OptionAction α) := fun _ => .pure _

theorem throw (fault : Fault) : Asks P (MonadExcept.throw fault : OptionAction α) :=
  fun _ => .bind (.throw fault) fun _ => .pure _

theorem bind {x : OptionAction α} {f : α → OptionAction β} (hx : Asks P x)
    (hf : ∀ a, Asks P (f a)) : Asks P (x >>= f) :=
  fun r => .bind (hx r) fun (a, r) => hf a r

theorem get : Asks P (MonadState.get : OptionAction OptionReader) := fun _ => .pure _

theorem lift {x : Action α} (hx : x.Only P) : Asks P (liftM x : OptionAction α) :=
  fun _ => .bind hx fun _ => .pure _

theorem step (reading : Reading α) : Asks P (OptionAction.step reading) := fun _ => .ofResult _

/-- A refusal in front of the rest. -/
theorem refuse_if {c : Prop} [Decidable c] {fault : Fault} {f : PUnit → OptionAction α}
    (hf : ∀ u, Asks P (f u)) :
    Asks P (if c then (MonadExcept.throw fault : OptionAction PUnit) >>= f else f ⟨⟩) := by
  split
  · exact bind (throw fault) hf
  · exact hf ⟨⟩

end Asks

theorem path_asks (description : String) : Asks P (path description) :=
  .bind (.step _) fun _ => .pure _

theorem readFrom_asks {take : String → σ → OptionAction (Option σ)}
    (h : ∀ name s, Asks P (take name s)) (fuel : Nat) (s : σ) (last : Option String) :
    Asks P (readFrom take fuel s last) := by
  induction fuel generalizing s last with
  | zero => exact .pure _
  | succ fuel ih =>
    refine .bind (.step _) fun name => ?_
    cases name with
    | none => exact .pure _
    | some name =>
      refine .bind .get fun _ => .bind (h name s) fun taken => ?_
      cases taken with
      | none => exact .bind .get fun _ => .throw _
      | some s => exact ih s _

/-- Reading options asks what the options ask. -/
theorem readAll_asks {take : String → σ → OptionAction (Option σ)}
    (h : ∀ name s, Asks P (take name s)) (s : σ) : Asks P (readAll take s) :=
  .bind .get fun _ => readFrom_asks h _ s none

theorem inputPackage_asks (package : String) (input : Option Path) (last : Option String) :
    Asks P (inputPackage package input last) := by
  refine .bind (.step _) fun rest => ?_
  split
  · exact .pure _
  · exact .throw _
  · exact .throw _
  · exact .pure _
  · exact .throw _

theorem checkPlatforms_asks (low high : Option Int) : Asks P (checkPlatforms low high) := by
  unfold checkPlatforms
  split
  · split
    · exact .throw _
    · exact .pure _
  · exact .pure _

end OptionAction

/-! ## The commands -/

open OptionAction

theorem LineageOptions.take_asks {P : Query → Prop} (name : String) (o : LineageOptions) :
    Asks P (take name o) := by
  unfold take
  split
  · exact .bind (path_asks _) fun _ => .pure _
  · exact .bind (path_asks _) fun _ => .pure _
  · exact .bind (.step _) fun _ => .pure _
  · exact .bind (.step _) fun _ => .pure _
  · exact .bind (.step _) fun _ => .pure _
  · exact .bind (.step _) fun _ => .pure _
  · exact .pure _

theorem RotateOptions.take_asks {P : Query → Prop} (name : String) (o : RotateOptions) :
    Asks P (take name o) := by
  unfold take
  split
  · exact .bind (path_asks _) fun _ => .pure _
  · exact .bind (path_asks _) fun _ => .pure _
  · exact .bind (.step _) fun _ => .pure _
  · exact .bind (.step _) fun _ => .pure _
  · exact .bind (.step _) fun _ => .pure _
  · exact .bind (.step _) fun _ => .pure _
  · exact .bind (.step _) fun _ => .pure _
  · exact .pure _
  · refine .bind (.step _) fun taken => ?_
    split <;> exact .pure _

theorem RotateCommand.required_eq_ok {α : Type} {problem : ConfigurationProblem} {a? : Option α} {a : α} :
    required problem a? = .ok a ↔ a? = some a := by
  cases a? with
  | none => exact ⟨nofun, nofun⟩
  | some b => exact ⟨fun h => congrArg some (Except.ok.inj h), fun h => congrArg _ (Option.some.inj h)⟩

theorem RotateCommand.read_asks {P : Query → Prop} : Asks P read := by
  refine .bind (readAll_asks RotateOptions.take_asks _) fun (o, last) => .bind (.lift (.ofResult _))
    fun _ => .bind (.lift (.ofResult _)) fun _ => .bind (.lift (.ofResult _)) fun _ =>
    .bind (.step _) fun rest => ?_
  split
  · exact .throw _
  · exact .pure _

theorem Lineage.reach_only {α : Type} {P : Query → Prop} (problem : String → LineageProblem)
    (result : Except FileFault α) : (reach problem result).Only P := by
  cases result with
  | ok a => exact .pure _
  | error fault => cases fault <;> exact .throw _

theorem Lineage.load_only {P : Query → Prop} {path : String} (h : P (.read (Path.ofText path)))
    (notary : Notary) : (load notary path).Only P :=
  .bind (.query h) fun _ => .bind (reach_only _ _) fun _ => .ofResult _

theorem SignOptions.take_asks {P : Query → Prop} (h : ∀ path, P (.read path)) (notary : Notary)
    (name : String) (o : SignOptions) : Asks P (take notary name o) := by
  have hdescribe : Asks P (describe name o) := by
    refine .bind (.step _) fun taken => ?_
    split
    · exact .pure _
    · refine .bind (.step _) fun taken => ?_
      split <;> exact .pure _
  unfold take
  split
  · exact .bind (path_asks _) fun _ => .pure _
  · exact .bind (path_asks _) fun _ => .pure _
  · exact .bind (.step _) fun _ => .pure _
  · exact .bind (.step _) fun _ => .pure _
  · exact .bind (.step _) fun _ => .pure _
  · exact .bind (.step _) fun _ => .pure _
  · exact .bind (.step _) fun _ => .pure _
  · exact .bind (.step _) fun _ => .pure _
  · exact .pure _
  · exact .bind (.step _) fun _ => .pure _
  · exact .bind (.step _) fun _ => .bind (.lift (Lineage.load_only (h _) notary)) fun _ => .pure _
  · exact .bind (.step _) fun _ => .pure _
  · exact .bind (.step _) fun _ => .pure _
  · exact .pure _
  · exact hdescribe

/-- While its options are read, the command only reads files. -/
theorem SignCommand.read_asks {P : Query → Prop} (h : ∀ path, P (.read path)) (notary : Notary) :
    Asks P (read notary) :=
  .bind (readAll_asks (SignOptions.take_asks h notary) _) fun (_, _) => .refuse_if fun _ =>
    .bind (inputPackage_asks _ _ _) fun _ => .bind (checkPlatforms_asks _ _) fun _ => .pure _

end PackageSigning
