import PackageSigning.Proofs.Command.Rules
import PackageSigning.Proofs.Command.Usage

/-!
# What commands leave unused

A command that ends well has used its tokens: as options with their values, as the end mark, and as
the package that it works on. There are two exceptions. A value behind an equals sign is dropped if
the option takes none, and the lineage command drops whatever stands behind the options.
-/

namespace PackageSigning

/-- The package is named by its option, or else by the only token behind the options. -/
inductive NamesPackage : Option Path → List String → Path → Prop
  | option (path : Path) : NamesPackage (some path) [] path
  | token (text : String) : NamesPackage none [text] (Path.ofText text)

/-- A range of platform versions that is not empty. -/
def PlatformsOrdered (low high : Option Int) : Prop := ∀ l ∈ low, ∀ h ∈ high, l ≤ h

namespace OptionAction
variable {w v : World} {marked : Bool} {left : List String} {r r' : OptionReader}
  {input : Option Path} {path : Path} {low high : Option Int}

theorem run_bind_eq_ok {α β : Type} {x : OptionAction α} {f : α → OptionAction β}
    {b : β × OptionReader} (h : (w.run ((x >>= f) r)).1 = .ok b) :
    ∃ a r' v, w.run (x r) = (.ok (a, r'), v) ∧ (v.run (f a r')).1 = .ok b := by
  obtain ⟨⟨a, r'⟩, v, hx, hf⟩ := World.run_bind_eq_ok.mp h
  exact ⟨a, r', v, hx, hf⟩

theorem run_bind_of_ok {α β : Type} {x : OptionAction α} {a : α} (h : w.run (x r) = (.ok (a, r'), v))
    (f : α → OptionAction β) : w.run ((x >>= f) r) = v.run (f a r') := by
  rw [run_bind_apply, h]

theorem run_lift_eq_ok {α : Type} {result : Except Fault α} {a : α} :
    w.run ((liftM (Action.ofResult result) : OptionAction α) r) = (.ok (a, r'), v) ↔
      result = .ok a ∧ r = r' ∧ w = v := by
  cases result with
  | error fault => exact ⟨nofun, nofun⟩
  | ok b =>
    constructor
    · rintro ⟨⟩
      exact ⟨rfl, rfl, rfl⟩
    · rintro ⟨⟨⟩, rfl, rfl⟩
      rfl

theorem run_remaining (h : Ended marked left r) : w.run (remaining r) = (.ok (left, r), w) := by
  rw [remaining, step, World.run_ofResult, Reading.commit, remaining_of_ended h]

theorem run_inputPackage_of_names (h : Ended marked left r) (names : NamesPackage input left path)
    (package : String) (last : Option String) :
    w.run (inputPackage package input last r) = (.ok (path, r), w) := by
  rw [inputPackage, run_bind_apply, run_remaining h]
  cases names <;> rfl

theorem names_of_inputPackage (h : Ended marked left r) {package : String} {last : Option String}
    (ok : w.run (inputPackage package input last r) = (.ok (path, r'), v)) :
    NamesPackage input left path := by
  rw [inputPackage, run_bind_apply, run_remaining h] at ok
  cases input with
  | some path =>
    cases left with
    | nil =>
      cases ok
      exact .option path
    | cons => cases ok
  | none =>
    match left with
    | [] => cases ok
    | [text] =>
      cases ok
      exact .token text
    | _ :: _ :: _ => cases ok

theorem run_checkPlatforms_of_ordered (h : PlatformsOrdered low high) (r : OptionReader) :
    w.run (checkPlatforms low high r) = (.ok ((), r), w) := by
  unfold checkPlatforms
  split
  · next l h' =>
    rw [if_neg (Int.not_lt.mpr (h l rfl h' rfl))]
    rfl
  · rfl

theorem ordered_of_checkPlatforms
    (ok : w.run (checkPlatforms low high r) = (.ok ((), r'), v)) : PlatformsOrdered low high := by
  rintro l ⟨⟩ h ⟨⟩
  rw [checkPlatforms] at ok
  split at ok
  · cases ok
  · next hlt => exact Int.not_lt.mp hlt

end OptionAction

/-! ## Checking -/

namespace VerifyCommand
open OptionAction

/-- The tokens are options of the command and the package. -/
structure Accepts (u : CommandUsage) (o : VerifyOptions) (input : Path) : Prop where
  isRead : u.IsRead VerifyOptions.rule? .initial o
  names : NamesPackage o.input u.left input
  platforms : PlatformsOrdered o.minSdk o.maxSdk

variable {w : World} {u u' : CommandUsage} {o : VerifyOptions} {input : Path}

theorem run_read (h : Accepts u o input) :
    ∃ r, w.run (read (.start u.tokens)) = (.ok ((o, input), r), w) := by
  obtain ⟨last, r, hrun, ended⟩ := readAll_of_usage (VerifyOptions.understands w) h.isRead
  refine ⟨r, ?_⟩
  rw [read, run_bind_of_ok hrun]
  dsimp only
  rw [run_bind_of_ok (run_inputPackage_of_names ended h.names _ _),
    run_bind_of_ok (run_checkPlatforms_of_ordered h.platforms r)]
  rfl

theorem accepts_of_read {tokens : List String} {result : (VerifyOptions × Path) × OptionReader}
    (h : (w.run (read (.start tokens))).1 = .ok result) :
    ∃ u : CommandUsage, u.tokens = tokens ∧ Accepts u result.1.1 result.1.2 := by
  obtain ⟨⟨o, last⟩, r, v, hread, h₁⟩ := run_bind_eq_ok h
  obtain ⟨u, htokens, isRead, ended⟩ :=
    usage_of_readAll (VerifyOptions.understands w) (congrArg Prod.fst hread)
  obtain ⟨input, r', v', hinput, h₂⟩ := run_bind_eq_ok h₁
  obtain ⟨_, r'', v'', hplatforms, h₃⟩ := run_bind_eq_ok h₂
  cases h₃
  exact ⟨u, htokens, isRead, names_of_inputPackage ended hinput,
    ordered_of_checkPlatforms hplatforms⟩

/-- The command does what its options and the package say, however the tokens are used. -/
theorem run_congr [Platform] (h : Accepts u o input) (h' : Accepts u' o input) (e : Equipment)
    (engineName : String) : w.run (run e engineName u.tokens) = w.run (run e engineName u'.tokens) := by
  obtain ⟨r, hr⟩ := run_read (w := w) h
  obtain ⟨r', hr'⟩ := run_read (w := w) h'
  rw [run, run, World.run_bind_of_ok hr, World.run_bind_of_ok hr']

end VerifyCommand

/-! ## Signing -/

namespace SignCommand
open OptionAction

/-- The tokens are options of the command and the package, and some signer is described. -/
structure Accepts (notary : Notary) (w : World) (u : CommandUsage) (o : SignOptions)
    (input : Path) : Prop where
  isRead : u.IsRead (SignOptions.rule? notary w) .initial o
  signers : o.allSigners.isEmpty = false
  names : NamesPackage o.input u.left input
  platforms : PlatformsOrdered o.minSdk (some o.maxSdk)

variable {notary : Notary} {w : World} {u u' : CommandUsage} {o : SignOptions} {input : Path}

theorem run_read (h : Accepts notary w u o input) :
    ∃ r, w.run (read notary (.start u.tokens)) = (.ok ((o, input), r), w) := by
  obtain ⟨last, r, hrun, ended⟩ := readAll_of_usage (SignOptions.understands notary w) h.isRead
  refine ⟨r, ?_⟩
  rw [read, run_bind_of_ok hrun]
  dsimp only
  rw [h.signers]
  refine (run_bind_of_ok (run_inputPackage_of_names ended h.names _ _) _).trans ?_
  rw [run_bind_of_ok (run_checkPlatforms_of_ordered h.platforms r)]
  rfl

theorem accepts_of_read {tokens : List String} {result : (SignOptions × Path) × OptionReader}
    (h : (w.run (read notary (.start tokens))).1 = .ok result) :
    ∃ u : CommandUsage, u.tokens = tokens ∧ Accepts notary w u result.1.1 result.1.2 := by
  obtain ⟨⟨o, last⟩, r, v, hread, h₁⟩ := run_bind_eq_ok h
  obtain ⟨u, htokens, isRead, ended⟩ :=
    usage_of_readAll (SignOptions.understands notary w) (congrArg Prod.fst hread)
  dsimp only at h₁
  cases signers : o.allSigners.isEmpty with
  | true =>
    rw [signers] at h₁
    cases h₁
  | false =>
    rw [signers] at h₁
    obtain ⟨input, r', v', hinput, h₂⟩ := run_bind_eq_ok h₁
    obtain ⟨_, r'', v'', hplatforms, h₃⟩ := run_bind_eq_ok h₂
    cases h₃
    exact ⟨u, htokens, isRead, signers, names_of_inputPackage ended hinput,
      ordered_of_checkPlatforms hplatforms⟩

/-- The command does what its options and the package say, however the tokens are used. -/
theorem run_congr [Platform] (e : Equipment) (h : Accepts e.notary w u o input)
    (h' : Accepts e.notary w u' o input) (engineName : String) :
    w.run (run e engineName u.tokens) = w.run (run e engineName u'.tokens) := by
  obtain ⟨r, hr⟩ := run_read h
  obtain ⟨r', hr'⟩ := run_read h'
  rw [run, run, World.run_bind_of_ok hr, World.run_bind_of_ok hr']

end SignCommand

/-! ## Handing over -/

namespace RotateCommand
open OptionAction

/-- What options ask for that name the signers and the output. -/
def request (o : RotateOptions) (old new : SignerSettings) (output : Path) : RotateRequest where
  old := old
  new := new
  output := output
  input := o.input
  minSdk := o.minSdk
  providers := o.providers.all ProviderRequest.isEmpty
  verbose := o.verbose

/-- The tokens are options of the command, which say what it cannot do without. -/
structure Accepts (u : CommandUsage) (o : RotateOptions) (old new : SignerSettings)
    (output : Path) : Prop where
  isRead : u.IsRead RotateOptions.rule? .initial o
  old : o.old = some old
  new : o.new = some new
  output : o.output = some output
  nothingLeft : u.left = []

variable {w : World} {u u' : CommandUsage} {o : RotateOptions} {old new : SignerSettings}
  {output : Path}

theorem run_read (h : Accepts u o old new output) :
    ∃ r, w.run (read (.start u.tokens)) = (.ok (request o old new output, r), w) := by
  obtain ⟨last, r, hrun, ended⟩ := readAll_of_usage (RotateOptions.understands w) h.isRead
  refine ⟨r, ?_⟩
  rw [h.nothingLeft] at ended
  rw [read, run_bind_of_ok hrun]
  dsimp only
  rw [run_bind_of_ok (run_lift_eq_ok.mpr ⟨required_eq_ok.mpr h.old, rfl, rfl⟩),
    run_bind_of_ok (run_lift_eq_ok.mpr ⟨required_eq_ok.mpr h.new, rfl, rfl⟩),
    run_bind_of_ok (run_lift_eq_ok.mpr ⟨required_eq_ok.mpr h.output, rfl, rfl⟩),
    run_bind_of_ok (run_remaining ended)]
  rfl

theorem accepts_of_read {tokens : List String} {result : RotateRequest × OptionReader}
    (h : (w.run (read (.start tokens))).1 = .ok result) :
    ∃ (u : CommandUsage) (o : RotateOptions) (old new : SignerSettings) (output : Path),
      u.tokens = tokens ∧ Accepts u o old new output := by
  obtain ⟨⟨o, last⟩, r, v, hread, h₁⟩ := run_bind_eq_ok h
  obtain ⟨u, htokens, isRead, ended⟩ :=
    usage_of_readAll (RotateOptions.understands w) (congrArg Prod.fst hread)
  obtain ⟨old, r₁, v₁, hold, h₂⟩ := run_bind_eq_ok h₁
  obtain ⟨isOld, rfl, rfl⟩ := run_lift_eq_ok.mp hold
  obtain ⟨new, r₂, v₂, hnew, h₃⟩ := run_bind_eq_ok h₂
  obtain ⟨isNew, rfl, rfl⟩ := run_lift_eq_ok.mp hnew
  obtain ⟨output, r₃, v₃, houtput, h₄⟩ := run_bind_eq_ok h₃
  obtain ⟨isOutput, rfl, rfl⟩ := run_lift_eq_ok.mp houtput
  -- A token that is left ends the command with a fault.
  rw [run_bind_of_ok (run_remaining ended)] at h₄
  cases nothingLeft : u.left with
  | nil =>
    exact ⟨u, o, old, new, output, htokens, isRead, required_eq_ok.mp isOld, required_eq_ok.mp isNew,
      required_eq_ok.mp isOutput, nothingLeft⟩
  | cons token left =>
    rw [nothingLeft] at h₄
    cases h₄

theorem run_congr [Platform] (h : Accepts u o old new output) (h' : Accepts u' o old new output)
    (e : Equipment) : w.run (run e u.tokens) = w.run (run e u'.tokens) := by
  obtain ⟨r, hr⟩ := run_read (w := w) h
  obtain ⟨r', hr'⟩ := run_read (w := w) h'
  rw [run, run, World.run_bind_of_ok hr, World.run_bind_of_ok hr']

end RotateCommand

/-! ## Looking at a lineage -/

namespace LineageCommand
open OptionAction
variable {w : World} {u u' : CommandUsage} {o : LineageOptions}

theorem run_congr [Platform] (h : u.IsRead LineageOptions.rule? .initial o)
    (h' : u'.IsRead LineageOptions.rule? .initial o) (e : Equipment) :
    w.run (run e u.tokens) = w.run (run e u'.tokens) := by
  obtain ⟨last, r, hr, -⟩ := readAll_of_usage (LineageOptions.understands w) h
  obtain ⟨last', r', hr', -⟩ := readAll_of_usage (LineageOptions.understands w) h'
  rw [run, run, World.run_bind_of_ok hr, World.run_bind_of_ok hr']

end LineageCommand

/-! ## What is dropped -/

theorem VerifyOptions.takesValue_of_rule? (name : String) (rule : CommandRule VerifyOptions)
    (h : rule? name = some rule) : rule.takesValue = true := by
  unfold rule? at h
  split at h <;> cases h <;> rfl

namespace CommandUsage

/-- A command that ends well has used its tokens, but for values of options that take none, and,
in the lineage command, for what is left behind the options. Without these it does the same. -/
theorem tokens_used_or_dropped [Platform] (e : Equipment) (engineName : String) (w : World)
    (tokens : List String) :
    (∀ passes, (w.run (VerifyCommand.run e engineName tokens)).1 = .ok passes →
      ∃ u o input, u.tokens = tokens ∧ VerifyCommand.Accepts u o input ∧
        u.essential VerifyOptions.rule? = u) ∧
    ((w.run (SignCommand.run e engineName tokens)).1 = .ok () →
      ∃ u o input, u.tokens = tokens ∧ SignCommand.Accepts e.notary w u o input ∧
        w.run (SignCommand.run e engineName (u.essential (SignOptions.rule? e.notary w)).tokens) =
          w.run (SignCommand.run e engineName tokens)) ∧
    ((w.run (RotateCommand.run e tokens)).1 = .ok () →
      ∃ u o old new output, u.tokens = tokens ∧ RotateCommand.Accepts u o old new output ∧
        w.run (RotateCommand.run e (u.essential RotateOptions.rule?).tokens) =
          w.run (RotateCommand.run e tokens)) ∧
    ((w.run (LineageCommand.run e tokens)).1 = .ok () →
      ∃ (u : CommandUsage) (o : LineageOptions), u.tokens = tokens ∧
        u.IsRead LineageOptions.rule? .initial o ∧
        w.run (LineageCommand.run e
          (CommandUsage.tokens { u.essential LineageOptions.rule? with left := [] })) =
          w.run (LineageCommand.run e tokens)) := by
  refine ⟨fun passes h => ?_, fun h => ?_, fun h => ?_, fun h => ?_⟩
  · obtain ⟨⟨⟨o, input⟩, r⟩, v, hread, -⟩ := World.run_bind_eq_ok.mp h
    obtain ⟨u, htokens, accepts⟩ := VerifyCommand.accepts_of_read (congrArg Prod.fst hread)
    exact ⟨u, o, input, htokens, accepts, essential_eq_self VerifyOptions.takesValue_of_rule? u⟩
  · obtain ⟨⟨⟨o, input⟩, r⟩, v, hread, -⟩ := World.run_bind_eq_ok.mp h
    obtain ⟨u, rfl, accepts⟩ := SignCommand.accepts_of_read (congrArg Prod.fst hread)
    exact ⟨u, o, input, rfl, accepts, SignCommand.run_congr e
      { accepts with isRead := accepts.isRead.essential rfl } accepts engineName⟩
  · obtain ⟨result, v, hread, -⟩ := World.run_bind_eq_ok.mp h
    obtain ⟨u, o, old, new, output, rfl, accepts⟩ :=
      RotateCommand.accepts_of_read (congrArg Prod.fst hread)
    exact ⟨u, o, old, new, output, rfl, accepts, RotateCommand.run_congr
      { accepts with isRead := accepts.isRead.essential rfl } accepts e⟩
  · obtain ⟨⟨⟨o, last⟩, r⟩, v, hread, -⟩ := World.run_bind_eq_ok.mp h
    obtain ⟨u, rfl, isRead, -⟩ :=
      OptionAction.usage_of_readAll (LineageOptions.understands w) (congrArg Prod.fst hread)
    exact ⟨u, o, rfl, isRead, LineageCommand.run_congr (isRead.essential_of_alike rfl .nil) isRead e⟩

section Samples
attribute [local instance] Platform.standard

/-- An engine that does nothing, and finds every package in order. -/
def sampleEngine : SigningEngine where
  className := "Engine"
  sign _ := return
  verify _ := return ⟨true, .all, [], [], []⟩

/-- What the program works with, and that engine. -/
def sampleEquipped : Equipment :=
  { LineageCommand.sampleEquipment with
    engines := ⟨EngineCatalogue.noEngines, [⟨"engine", .ok sampleEngine⟩]⟩ }

/-- Words that describe a signer. -/
def sampleSigner : List String := ["--key", "key", "--cert", "certificate"]

/-- Words for each command. Some of them are of no use. -/
def sampleVerify : List String := ["-v", "--", "key"]
def sampleSign : List String := sampleSigner ++ ["--next-signer=stray", "--out", "new", "key"]
def sampleRotate : List String :=
  "--old-signer=stray" :: sampleSigner ++ "--new-signer" :: sampleSigner ++ ["--out", "new"]
def sampleLineage : List String :=
  ["--in", "lineage", "--signer=stray"] ++ sampleSigner ++ ["stray", "--no-such-option"]

theorem sample_tokens_used_or_dropped :
    ((LineageCommand.sampleWorld.run (VerifyCommand.run sampleEquipped "engine" sampleVerify)).1 =
      .ok true ∧
      ∃ u o input, u.tokens = sampleVerify ∧ VerifyCommand.Accepts u o input ∧
        u.essential VerifyOptions.rule? = u) ∧
    ((LineageCommand.sampleWorld.run (SignCommand.run sampleEquipped "engine" sampleSign)).1 =
      .ok () ∧
      ∃ u o input, u.tokens = sampleSign ∧
        SignCommand.Accepts sampleEquipped.notary LineageCommand.sampleWorld u o input ∧
        LineageCommand.sampleWorld.run (SignCommand.run sampleEquipped "engine" (u.essential
          (SignOptions.rule? sampleEquipped.notary LineageCommand.sampleWorld)).tokens) =
          LineageCommand.sampleWorld.run (SignCommand.run sampleEquipped "engine" sampleSign)) ∧
    ((LineageCommand.sampleWorld.run (RotateCommand.run sampleEquipped sampleRotate)).1 = .ok () ∧
      ∃ u o old new output, u.tokens = sampleRotate ∧ RotateCommand.Accepts u o old new output ∧
        LineageCommand.sampleWorld.run (RotateCommand.run sampleEquipped
          (u.essential RotateOptions.rule?).tokens) =
          LineageCommand.sampleWorld.run (RotateCommand.run sampleEquipped sampleRotate)) ∧
    ((LineageCommand.sampleWorld.run (LineageCommand.run sampleEquipped sampleLineage)).1 = .ok () ∧
      ∃ (u : CommandUsage) (o : LineageOptions), u.tokens = sampleLineage ∧
        u.IsRead LineageOptions.rule? .initial o ∧
        LineageCommand.sampleWorld.run (LineageCommand.run sampleEquipped
          (CommandUsage.tokens { u.essential LineageOptions.rule? with left := [] })) =
          LineageCommand.sampleWorld.run (LineageCommand.run sampleEquipped sampleLineage)) := by
  have used (tokens : List String) :=
    tokens_used_or_dropped sampleEquipped "engine" LineageCommand.sampleWorld tokens
  have verify : (LineageCommand.sampleWorld.run
      (VerifyCommand.run sampleEquipped "engine" sampleVerify)).1 = .ok true := by decide +kernel
  have sign : (LineageCommand.sampleWorld.run
      (SignCommand.run sampleEquipped "engine" sampleSign)).1 = .ok () := by decide +kernel
  have rotate : (LineageCommand.sampleWorld.run
      (RotateCommand.run sampleEquipped sampleRotate)).1 = .ok () := by decide +kernel
  have lineage : (LineageCommand.sampleWorld.run
      (LineageCommand.run sampleEquipped sampleLineage)).1 = .ok () := by decide +kernel
  exact ⟨⟨verify, (used sampleVerify).1 true verify⟩, ⟨sign, (used sampleSign).2.1 sign⟩,
    ⟨rotate, (used sampleRotate).2.2.1 rotate⟩, ⟨lineage, (used sampleLineage).2.2.2 lineage⟩⟩

/-- The lineage command ends well though it has no such option, and does what it does without. -/
theorem sample_surplus_dropped :
    LineageOptions.rule? "no-such-option" = none ∧
    (LineageCommand.sampleWorld.run (LineageCommand.run LineageCommand.sampleEquipment
      ["--in", "lineage", "stray", "--no-such-option"])).1 = .ok () ∧
    LineageCommand.sampleWorld.run (LineageCommand.run LineageCommand.sampleEquipment
      ["--in", "lineage", "stray", "--no-such-option"]) =
      LineageCommand.sampleWorld.run (LineageCommand.run LineageCommand.sampleEquipment
        ["--in", "lineage"]) := by
  have laid (behind : List String) : Laid CommandEntry.tokens (IsEntry LineageOptions.rule?)
      [⟨⟨"in", true, .separate "lineage"⟩, [], false⟩] behind .initial
      { input := some (Path.ofText "lineage") } :=
    .cons ⟨.long (by decide) (by decide), _, rfl, .plain (.text rfl (by decide) rfl)⟩ .nil
  have whole : IsRead LineageOptions.rule?
      ⟨[⟨⟨"in", true, .separate "lineage"⟩, [], false⟩], false, ["stray", "--no-such-option"]⟩
      .initial { input := some (Path.ofText "lineage") } := ⟨laid _, .plain (by decide +kernel)⟩
  have front : IsRead LineageOptions.rule?
      ⟨[⟨⟨"in", true, .separate "lineage"⟩, [], false⟩], false, []⟩
      .initial { input := some (Path.ofText "lineage") } := ⟨laid _, .nil⟩
  exact ⟨rfl, by decide +kernel, LineageCommand.run_congr whole front _⟩

end Samples

end CommandUsage
end PackageSigning
