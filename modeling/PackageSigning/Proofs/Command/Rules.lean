import PackageSigning.Command.Lineage
import PackageSigning.Command.Rotate
import PackageSigning.Command.Sign
import PackageSigning.Command.Verify
import PackageSigning.Proofs.Command.Layout
import PackageSigning.Proofs.Command.Lineage
import PackageSigning.Proofs.World.Asked

/-!
# How each command understands its options

For every command a table says which options there are, what value each takes and what becomes of
it. The commands read their options by these tables (`VerifyOptions.understands` and the like).
-/

namespace PackageSigning

/-! ## One option -/

namespace CommandRule
variable {σ : Type} {w : World}

/-- A rule that puts what it reads into what there is. -/
theorem run_step {α : Type} {rule : CommandRule σ} {x : Reading α} {f : α → σ} {s : σ}
    (h : rule.read s = x >>= fun a => pure (f a)) (r : OptionReader) :
    w.run ((OptionAction.step x >>= fun a => pure (some (f a))) r) = (rule.outcome s r, w) := by
  rw [OptionAction.run_step_bind, outcome, h, Reading.bind_apply]
  generalize x r = y
  obtain ⟨result, v⟩ := y
  cases result <;> rfl

theorem run_path {rule : CommandRule σ} {description : String} {f : Path → σ} {s : σ}
    (h : rule.read s = OptionReader.value description >>= fun text => pure (f (Path.ofText text)))
    (r : OptionReader) :
    w.run ((OptionAction.path description >>= fun path => pure (some (f path))) r) =
      (rule.outcome s r, w) := by
  rw [← run_step h, OptionAction.run_bind_apply, OptionAction.path, OptionAction.value]
  rw [OptionAction.run_step_bind, OptionAction.run_step_bind]
  generalize OptionReader.value description r = y
  obtain ⟨result, v⟩ := y
  cases result <;> rfl

end CommandRule

/-! ## Checking -/

namespace VerifyOptions

/-- The options of the command. -/
def rule? (name : String) : Option (CommandRule VerifyOptions) :=
  match name with
  | "min-sdk-version" =>
    some (.plain (.number "Minimum API Level" fun n o => { o with minSdk := some n }))
  | "max-sdk-version" =>
    some (.plain (.number "Maximum API Level" fun n o => { o with maxSdk := some n }))
  | "print-certs" => some (.plain (.switch fun b o => { o with certificates := b }))
  | "v" | "verbose" => some (.plain (.switch fun b o => { o with verbose := b }))
  | "Werr" => some (.plain (.switch fun b o => { o with strict := b }))
  | "in" => some (.plain (.text "Input APK file" fun text o =>
      .ok { o with input := some (Path.ofText text) }))
  | _ => none

theorem understands (w : World) : OptionAction.Understands w take rule? := by
  intro name o r
  unfold take
  split
  · exact CommandRule.run_step rfl r
  · exact CommandRule.run_step rfl r
  · exact CommandRule.run_step rfl r
  · exact CommandRule.run_step rfl r
  · exact CommandRule.run_step rfl r
  · exact CommandRule.run_step rfl r
  · exact CommandRule.run_path rfl r
  · have hnone : rule? name = none := by
      unfold rule?
      split <;> first | rfl | contradiction
    rw [hnone]
    rfl

end VerifyOptions

/-! ## Looking at a lineage -/

namespace LineageOptions

/-- The options of the command. -/
def rule? (name : String) : Option (CommandRule LineageOptions) :=
  match name with
  | "in" => some (.plain (.text "Input file name" fun text o =>
      .ok { o with input := some (Path.ofText text) }))
  | "out" => some (.plain (.text "Output file name" fun text o =>
      .ok { o with output := some (Path.ofText text) }))
  | "signer" => some (.scope fun s o => { o with signers := o.signers ++ [s] })
  | "v" | "verbose" => some (.plain (.switch fun b o => { o with verbose := b }))
  | "print-certs" => some (.plain (.switch fun b o => { o with certificates := b }))
  | _ => none

theorem understands (w : World) : OptionAction.Understands w take rule? := by
  intro name o r
  unfold take
  split
  · exact CommandRule.run_path rfl r
  · exact CommandRule.run_path rfl r
  · exact CommandRule.run_step rfl r
  · exact CommandRule.run_step rfl r
  · exact CommandRule.run_step rfl r
  · exact CommandRule.run_step rfl r
  · have hnone : rule? name = none := by
      unfold rule?
      split <;> first | rfl | contradiction
    rw [hnone]
    rfl

end LineageOptions

/-! ## Installing providers -/

namespace ProviderRequest

/-- The options that describe a provider. -/
def rule? (name : String) : Option (OptionRule ProviderRequest) :=
  match name with
  | "provider-class" => some (.text "Provider class name" fun text q =>
      .ok { q with className := some text })
  | "provider-arg" => some (.text "Provider constructor argument" fun text q =>
      .ok { q with argument := some text })
  | "provider-pos" => some (.number "Provider position" fun n q => { q with position := some n })
  | _ => none

theorem option?_eq (name : String) (q : ProviderRequest) :
    option? name q = OptionRule.tryRead (rule? name) q := by
  unfold option?
  split
  · rw [rule?, OptionRule.tryRead, OptionRule.read, bind_assoc]
    rfl
  · rw [rule?, OptionRule.tryRead, OptionRule.read, bind_assoc]
    rfl
  · rw [rule?, OptionRule.tryRead, OptionRule.read, bind_assoc]
    rfl
  · have hnone : rule? name = none := by
      unfold rule?
      split <;> first | rfl | contradiction
    rw [hnone]
    rfl

end ProviderRequest

/-! ## Handing over -/

namespace CommandRule
variable {σ τ : Type} {w : World}

/-- Options that describe a part of what there is. -/
theorem run_tryRead (rule? : Option (OptionRule τ)) (part : σ → τ) (put : τ → σ → σ) {s : σ}
    {f : Option τ → OptionAction (Option σ)} (h : ∀ t, f (some t) = pure (some (put t s)))
    (r : OptionReader) :
    w.run ((OptionAction.step (OptionRule.tryRead rule? (part s)) >>= f) r) = match rule? with
      | none => w.run (f none r)
      | some rule => ((plain (rule.within part put)).outcome s r, w) := by
  rw [OptionAction.run_step_bind]
  cases rule? with
  | none => rfl
  | some rule =>
    dsimp only [OptionRule.tryRead]
    rw [outcome, read, OptionRule.read_within, Reading.bind_apply, Reading.bind_apply]
    generalize rule.read (part s) r = y
    obtain ⟨result, v⟩ := y
    cases result with
    | error fault => rfl
    | ok t => exact congrArg (fun x => w.run (x v)) (h t)

end CommandRule

namespace RotateOptions

/-- The options with another provider described so far. -/
def withProvider (q : ProviderRequest) (o : RotateOptions) : RotateOptions :=
  { o with providers := { o.providers with current := q } }

/-- The options of the command. -/
def rule? (name : String) : Option (CommandRule RotateOptions) :=
  match name with
  | "out" => some (.plain (.text "Output file name" fun text o =>
      .ok { o with output := some (Path.ofText text) }))
  | "in" => some (.plain (.text "Input file name" fun text o =>
      .ok { o with input := some (Path.ofText text) }))
  | "old-signer" => some (.scope fun s o => { o with old := some s })
  | "new-signer" => some (.scope fun s o => { o with new := some s })
  | "min-sdk-version" => some (.plain (.number "Minimum API Level" fun n o => { o with minSdk := n }))
  | "v" | "verbose" => some (.plain (.switch fun b o => { o with verbose := b }))
  | "next-provider" => some (.plain (.bare fun o =>
      { o with providers := o.providers.next ProviderRequest.isEmpty .empty }))
  | _ => (ProviderRequest.rule? name).map fun rule =>
      .plain (rule.within (·.providers.current) withProvider)

theorem understands (w : World) : OptionAction.Understands w take rule? := by
  intro name o r
  unfold take
  split
  · exact CommandRule.run_path rfl r
  · exact CommandRule.run_path rfl r
  · exact CommandRule.run_step rfl r
  · exact CommandRule.run_step rfl r
  · exact CommandRule.run_step rfl r
  · exact CommandRule.run_step rfl r
  · exact CommandRule.run_step rfl r
  · rfl
  · have hothers : rule? name = (ProviderRequest.rule? name).map fun rule =>
        .plain (rule.within (·.providers.current) withProvider) := by
      unfold rule?
      split <;> first | rfl | contradiction
    -- Only where no other option has the name is the provider asked.
    rw [hothers, ProviderRequest.option?_eq]
    refine (CommandRule.run_tryRead _ (·.providers.current) withProvider (fun q => ?_) r).trans ?_
    · rfl
    · cases ProviderRequest.rule? name <;> rfl

end RotateOptions

/-! ## Signing -/

namespace SignOptions
open OptionAction

/-- The options with another provider described so far. -/
def withProvider (q : ProviderRequest) (o : SignOptions) : SignOptions :=
  { o with providers := { o.providers with current := q } }

/-- The options with another signer described so far. -/
def withSigner (s : SignerSettings) (o : SignOptions) : SignOptions :=
  { o with signers := { o.signers with current := s } }

/-- The options that describe a signer or a provider. -/
def describeRule? (name : String) : Option (CommandRule SignOptions) :=
  match KeySourceOption.find? name with
  | some option => some (.plain (option.rule.within (·.signers.current) withSigner))
  | none => (ProviderRequest.rule? name).map fun rule =>
      .plain (rule.within (·.providers.current) withProvider)

/-- The option whose value names the file of a lineage. -/
def lineageRule (notary : Notary) (w : World) : OptionRule SignOptions :=
  .text "Lineage file" fun file o =>
    (w.run (Lineage.load notary file)).1.map fun l => { o with lineage := some l }

/-- The options of the command in some surroundings, where the file of a lineage is looked for. -/
def rule? (notary : Notary) (w : World) (name : String) : Option (CommandRule SignOptions) :=
  match name with
  | "out" => some (.plain (.text "Output file name" fun text o =>
      .ok { o with output := some (Path.ofText text) }))
  | "in" => some (.plain (.text "Input file name" fun text o =>
      .ok { o with input := some (Path.ofText text) }))
  | "min-sdk-version" =>
    some (.plain (.number "Minimum API Level" fun n o => { o with minSdk := some n }))
  | "max-sdk-version" => some (.plain (.number "Maximum API Level" fun n o => { o with maxSdk := n }))
  | "v1-signing-enabled" =>
    some (.plain (.switch fun b o => { o with schemes := { o.schemes with v1 := b } }))
  | "v2-signing-enabled" =>
    some (.plain (.switch fun b o => { o with schemes := { o.schemes with v2 := b } }))
  | "v3-signing-enabled" =>
    some (.plain (.switch fun b o => { o with schemes := { o.schemes with v3 := b } }))
  | "debuggable-apk-permitted" => some (.plain (.switch fun b o => { o with debuggable := b }))
  | "next-signer" => some (.plain (.bare fun o =>
      { o with signers := o.signers.next SignerSettings.isEmpty .empty }))
  | "v1-signer-name" => some (.plain (.text "JAR signature file basename" fun text o =>
      .ok { o with signers := { o.signers with
        current := { o.signers.current with v1Name := some text } } }))
  | "lineage" => some (.plain (lineageRule notary w))
  | "v" | "verbose" => some (.plain (.switch fun b o => { o with verbose := b }))
  | "next-provider" => some (.plain (.bare fun o =>
      { o with providers := o.providers.next ProviderRequest.isEmpty .empty }))
  | _ => describeRule? name

theorem run_describe (w : World) (name : String) (o : SignOptions) (r : OptionReader) :
    w.run (describe name o r) = (match describeRule? name with
      | none => .ok (none, r)
      | some rule => rule.outcome o r, w) := by
  rw [describe, SignerSettings.keySource?_eq, ProviderRequest.option?_eq]
  refine (CommandRule.run_tryRead _ (·.signers.current) withSigner (fun s => ?_) r).trans ?_
  · rfl
  · rw [describeRule?]
    cases KeySourceOption.find? name with
    | some option => rfl
    | none =>
      refine (CommandRule.run_tryRead _ (·.providers.current) withProvider (fun q => ?_) r).trans ?_
      · rfl
      · cases ProviderRequest.rule? name <;> rfl


/-- A lineage is looked for when its option is read, which leaves the surroundings as they are. -/
theorem run_lineage (notary : Notary) (w : World) (o : SignOptions) (r : OptionReader) :
    w.run ((value "Lineage file" >>= fun file =>
        liftM (Lineage.load notary file) >>= fun l => pure (some { o with lineage := some l })) r) =
      ((CommandRule.plain (lineageRule notary w)).outcome o r, w) := by
  rw [value, run_step_bind, CommandRule.outcome, CommandRule.read, lineageRule, OptionRule.read,
    Reading.bind_apply]
  generalize OptionReader.value "Lineage file" r = y
  obtain ⟨result, v⟩ := y
  cases result with
  | error fault => rfl
  | ok file =>
    dsimp only
    have hload : (w.run (Lineage.load notary file)).2 = w :=
      World.run_of_looks (Lineage.load_only trivial notary)
    have hlift : w.run ((liftM (Lineage.load notary file) : OptionAction Lineage) v) =
        ((w.run (Lineage.load notary file)).1.map fun l => (l, v), w) := by
      refine (World.run_bind w _ _).trans ?_
      generalize w.run (Lineage.load notary file) = z at hload ⊢
      obtain ⟨result, u⟩ := z
      obtain rfl := hload
      cases result <;> rfl
    rw [run_bind_apply, hlift]
    cases (w.run (Lineage.load notary file)).1 <;> rfl

theorem understands (notary : Notary) (w : World) :
    OptionAction.Understands w (take notary) (rule? notary w) := by
  intro name o r
  unfold take
  split
  · exact CommandRule.run_path rfl r
  · exact CommandRule.run_path rfl r
  · exact CommandRule.run_step rfl r
  · exact CommandRule.run_step rfl r
  · exact CommandRule.run_step rfl r
  · exact CommandRule.run_step rfl r
  · exact CommandRule.run_step rfl r
  · exact CommandRule.run_step rfl r
  · rfl
  · exact CommandRule.run_step rfl r
  · exact run_lineage notary w o r
  · exact CommandRule.run_step rfl r
  · exact CommandRule.run_step rfl r
  · rfl
  · have hothers : rule? notary w name = describeRule? name := by
      unfold rule?
      split <;> first | rfl | contradiction
    refine (run_describe w name o r).trans ?_
    rw [hothers]
    cases describeRule? name <;> rfl

end SignOptions

end PackageSigning
