import PackageSigning.Proofs.Command.Layout

/-!
# What the tokens of a command are used for

A `CommandUsage` takes the tokens of a command apart: entries, perhaps the end mark, and those that
are left. An option that takes no value, or a scope, has no use for a value behind an equals sign;
`CommandUsage.essential` is without these values. It is read as the whole is
(`CommandUsage.IsRead.essential`).
-/

namespace PackageSigning

/-! ## What may stand behind an option -/

/-- What may stand behind an option may be replaced: by nothing, by tokens that start with the same
one, or by tokens that start with the same option written otherwise. -/
inductive StartsAlike : List String → List String → Prop
  | nil {tokens : List String} : StartsAlike tokens []
  | same {tokens tokens' : List String} (h : tokens.head? = tokens'.head?) :
      StartsAlike tokens tokens'
  | option {token token' name form form' : String} {inline? inline?' : Option String}
      {rest rest' : List String} (h : OptionToken.ofText token = .named name form inline?)
      (h' : OptionToken.ofText token' = .named name form' inline?') :
      StartsAlike (token :: rest) (token' :: rest')

namespace StartsAlike
variable {tokens tokens' : List String}

theorem append (front : List String) (h : StartsAlike tokens tokens') :
    StartsAlike (front ++ tokens) (front ++ tokens') := by
  cases front with
  | nil => exact h
  | cons token front => exact .same rfl

/-- An option says neither that a switch is on nor that it is off. -/
theorem truth?_head (h : StartsAlike tokens tokens')
    (apart : tokens.head?.bind WrittenValue.truth? = none) :
    tokens'.head?.bind WrittenValue.truth? = none := by
  cases h with
  | nil => rfl
  | same h => rw [← h, apart]
  | option _ h' =>
    refine OptionReader.truth?_of_ne ?_ ?_
    · rintro rfl
      cases h'
    · rintro rfl
      cases h'

theorem optionsEnd {foreign : String → Prop} {marked : Bool} (h : StartsAlike tokens tokens')
    (ends : OptionsEnd foreign marked tokens) : OptionsEnd foreign marked tokens' := by
  cases ends with
  | marked => exact .marked
  | nil =>
    cases h with
    | nil => exact .nil
    | same h =>
      obtain rfl := List.head?_eq_none_iff.mp h.symm
      exact .nil
  | plain ht =>
    cases h with
    | nil => exact .nil
    | same h =>
      obtain ⟨rest, rfl⟩ := List.head?_eq_some_iff.mp h.symm
      exact .plain ht
    | option h => cases ht.symm.trans h
  | other ht foreign =>
    cases h with
    | nil => exact .nil
    | same h =>
      obtain ⟨rest, rfl⟩ := List.head?_eq_some_iff.mp h.symm
      exact .other ht foreign
    | option h h' =>
      cases ht.symm.trans h
      exact .other h' foreign

end StartsAlike

theorem OptionRule.Takes.alike {σ : Type} {rule : OptionRule σ} {value : WrittenValue}
    {behind behind' : List String} {s s' : σ} (h : rule.Takes value behind s s')
    (alike : StartsAlike behind behind') : rule.Takes value behind' s s' := by
  cases h with
  | text given notMark stored => exact .text given notMark stored
  | number given notMark decimal => exact .number given notMark decimal
  | switch given => exact .switch given
  | on apart => exact .on (alike.truth?_head apart)
  | bare apart => exact .bare apart

/-- Things that are laid out may be written otherwise, one by one, where that makes no difference to
those in front. -/
theorem Laid.map {ι σ : Type} {tokens : ι → List String} {Step : ι → List String → σ → σ → Prop}
    {f : ι → ι}
    (step : ∀ i behind behind' s s', Step i behind s s' → StartsAlike behind behind' →
      Step (f i) behind' s s')
    (alike : ∀ i behind s s', Step i behind s s' → ∀ rest rest',
      StartsAlike (tokens i ++ rest) (tokens (f i) ++ rest'))
    {is : List ι} {behind behind' : List String} {s s' : σ}
    (laid : Laid tokens Step is behind s s') (h : StartsAlike behind behind') :
    Laid tokens Step (is.map f) behind' s s' ∧
      StartsAlike (is.flatMap tokens ++ behind) ((is.map f).flatMap tokens ++ behind') := by
  induction laid with
  | nil => exact ⟨.nil, h⟩
  | cons first _ ih =>
    obtain ⟨laid, hrest⟩ := ih h
    refine ⟨.cons (step _ _ _ _ _ first hrest) laid, ?_⟩
    rw [List.flatMap_cons, List.map_cons, List.flatMap_cons, List.append_assoc, List.append_assoc]
    exact alike _ _ _ _ first _ _

theorem SignerSettings.laid_alike {settings : List WrittenOption} {behind behind' : List String}
    {s s' : SignerSettings}
    (laid : Laid WrittenOption.tokens SignerSettings.IsSetting settings behind s s')
    (h : StartsAlike behind behind') :
    Laid WrittenOption.tokens SignerSettings.IsSetting settings behind' s s' := by
  rw [← List.map_id settings]
  refine (laid.map (f := id) ?_ ?_ h).1
  · rintro o behind behind' s s' ⟨legible, rule, hrule, takes⟩ h
    exact ⟨legible, rule, hrule, takes.alike h⟩
  · exact fun o _ _ _ _ _ _ => .same rfl

/-! ## Values that are of no use -/

/-- Whether the option does something with a value that is written with it. -/
def CommandRule.takesValue {σ : Type} : CommandRule σ → Bool
  | plain rule => !rule.isBare
  | scope _ => false

namespace CommandEntry
variable {σ : Type} {rule? : String → Option (CommandRule σ)} {e : CommandEntry}
  {behind behind' : List String} {s s' : σ}

/-- The entry without the value of its option. -/
def bare (e : CommandEntry) : CommandEntry := { e with head := { e.head with value := .absent } }

/-- The entry without a value that its option has no use for. -/
def essential (rule? : String → Option (CommandRule σ)) (e : CommandEntry) : CommandEntry :=
  match rule? e.head.name with
  | some rule => if rule.takesValue then e else e.bare
  | none => e

theorem essential_head_name (rule? : String → Option (CommandRule σ)) (e : CommandEntry) :
    (e.essential rule?).head.name = e.head.name := by
  unfold essential
  split
  · split <;> rfl
  · rfl

theorem legible_bare (h : e.head.Legible) (hname : e.head.name ≠ "") : e.bare.head.Legible := by
  obtain ⟨head, settings, marked⟩ := e
  cases h with
  | long hequals => exact .long hequals (.inl hname)
  | short hdash => exact .short hdash rfl

/-- Without a value that is of no use, an entry comes to the same, whatever is written otherwise
behind it. -/
theorem isEntry_essential (named : rule? "" = none) (h : IsEntry rule? e behind s s')
    (alike : StartsAlike behind behind') : IsEntry rule? (e.essential rule?) behind' s s' := by
  obtain ⟨legible, rule, hrule, takes⟩ := h
  -- Without its value, `--=x` would be the end mark.
  have hname : e.head.name ≠ "" := by
    intro h
    rw [h, named] at hrule
    cases hrule
  rw [essential, hrule]
  cases takes with
  | @plain rule head _ _ _ takes =>
    cases rule with
    | bare put =>
      cases takes
      exact ⟨legible_bare legible hname, _, hrule, .plain (.bare rfl)⟩
    | text | number | switch => exact ⟨legible, _, hrule, .plain (takes.alike alike)⟩
  | scope apart laid ends notEmpty =>
    exact ⟨legible_bare legible hname, _, hrule, .scope rfl
      (SignerSettings.laid_alike laid (alike.append _)) (alike.optionsEnd ends) notEmpty⟩

theorem startsAlike_essential (named : rule? "" = none) (h : IsEntry rule? e behind s s')
    (rest rest' : List String) :
    StartsAlike (e.tokens ++ rest) ((e.essential rule?).tokens ++ rest') := by
  have hessential := WrittenOption.ofText_token (isEntry_essential named h (.same rfl)).1
  rw [essential_head_name] at hessential
  exact .option (WrittenOption.ofText_token h.1) hessential

end CommandEntry

/-! ## Taking the tokens of a command apart -/

/-- The tokens of a command: options, the end mark if it stands behind them, and what is left. -/
structure CommandUsage where
  entries : List CommandEntry
  marked : Bool
  left : List String

namespace CommandUsage
variable {σ : Type} {rule? : String → Option (CommandRule σ)} {u : CommandUsage} {s s' : σ}

/-- All of the tokens. -/
def tokens (u : CommandUsage) : List String :=
  u.entries.flatMap CommandEntry.tokens ++ (markIf u.marked ++ u.left)

/-- The usage without the values that options have no use for. -/
def essential (rule? : String → Option (CommandRule σ)) (u : CommandUsage) : CommandUsage :=
  { u with entries := u.entries.map (·.essential rule?) }

/-- The options are understood, and they change `s` to `s'`. No option is left. -/
structure IsRead (rule? : String → Option (CommandRule σ)) (u : CommandUsage) (s s' : σ) :
    Prop where
  laid : Laid CommandEntry.tokens (IsEntry rule?) u.entries (markIf u.marked ++ u.left) s s'
  ends : OptionsEnd (fun _ => False) u.marked u.left

/-- Options come to the same without what they have no use for, and without what is left. -/
theorem IsRead.essential_of_alike (named : rule? "" = none) (h : u.IsRead rule? s s')
    {left : List String} (alike : StartsAlike u.left left) :
    IsRead rule? { u.essential rule? with left := left } s s' where
  laid := (h.laid.map (f := CommandEntry.essential rule?)
    (fun _ _ _ _ _ => CommandEntry.isEntry_essential named)
    (fun _ _ _ _ => CommandEntry.startsAlike_essential named) (alike.append _)).1
  ends := alike.optionsEnd h.ends

theorem IsRead.essential (named : rule? "" = none) (h : u.IsRead rule? s s') :
    (u.essential rule?).IsRead rule? s s' :=
  h.essential_of_alike named (.same rfl)

/-- Where every option takes a value, there is none without use. -/
theorem essential_eq_self (h : ∀ name rule, rule? name = some rule → rule.takesValue = true)
    (u : CommandUsage) : u.essential rule? = u := by
  have hentry (e : CommandEntry) : e.essential rule? = e := by
    unfold CommandEntry.essential
    split
    · next rule hrule => rw [if_pos (h _ rule hrule)]
    · rfl
  rw [essential, funext hentry, List.map_id']

end CommandUsage

namespace OptionAction
variable {σ : Type} {w : World} {take : String → σ → OptionAction (Option σ)}
  {rule? : String → Option (CommandRule σ)} {s s' : σ} {r : OptionReader}

/-- What a command reads, it has a use for. -/
theorem usage_of_readAll (understands : Understands w take rule?) {tokens : List String}
    {last : Option String} (h : (w.run (readAll take s (.start tokens))).1 = .ok ((s', last), r)) :
    ∃ u : CommandUsage, u.tokens = tokens ∧ u.IsRead rule? s s' ∧ Ended u.marked u.left r := by
  obtain ⟨entries, marked, left, rfl, laid, ended⟩ := laid_of_readAll understands h
  exact ⟨⟨entries, marked, left⟩, rfl, ⟨laid, ended.ends⟩, ended⟩

theorem readAll_of_usage (understands : Understands w take rule?) {u : CommandUsage}
    (h : u.IsRead rule? s s') :
    ∃ last r, w.run (readAll take s (.start u.tokens)) = (.ok ((s', last), r), w) ∧
      Ended u.marked u.left r :=
  readAll_of_laid understands h.laid h.ends

end OptionAction
end PackageSigning
