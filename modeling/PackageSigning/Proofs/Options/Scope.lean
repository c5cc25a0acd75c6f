import PackageSigning.Options.Signer
import PackageSigning.Proofs.Options.Rule

/-!
# Signer scopes

The options of a signer scope are understood as `SignerSettings.scopeRule?` says. What a scope
reads is what its options come to one after the other, and it ends in front of the first token
that does not belong to it (`scopeFrom_of_laid`, `laid_of_scopeFrom`).
-/

namespace PackageSigning

/-- How a key source option is understood. -/
def KeySourceOption.rule (option : KeySourceOption) : OptionRule SignerSettings :=
  .text option.description fun text s =>
    (SignerSettings.stored option.field text).map (option.field.set s)

namespace SignerSettings

/-- How the options of a signer scope are understood. -/
def scopeRule? (name : String) : Option (OptionRule SignerSettings) :=
  match KeySourceOption.find? name with
  | some option => some option.rule
  | none => (Capability.ofOption? name).map fun c => .switch fun granted s =>
      { s with capabilities := s.capabilities.choose c granted }

variable {s s' : SignerSettings} {r r' : OptionReader} {token name form : String}
  {inline? : Option String} {rest left : List String} {fuel : Nat} {marked : Bool}

theorem scopeRule?_not_bare {rule : OptionRule SignerSettings} (h : scopeRule? name = some rule) :
    rule.isBare = false := by
  unfold scopeRule? at h
  split at h
  · cases h
    rfl
  · obtain ⟨c, -, rfl⟩ := Option.map_eq_some_iff.mp h
    rfl

theorem keySource?_eq (name : String) (s : SignerSettings) :
    keySource? name s = OptionRule.tryRead ((KeySourceOption.find? name).map (·.rule)) s := by
  unfold keySource?
  cases KeySourceOption.find? name with
  | none => rfl
  | some option =>
    dsimp only [Option.map_some, OptionRule.tryRead, KeySourceOption.rule, OptionRule.read]
    rw [bind_assoc]
    refine bind_congr fun text => ?_
    cases stored option.field text <;> rfl

/-- An option of a scope is read by its rule. -/
theorem scopeOption?_eq (name : String) (s : SignerSettings) :
    scopeOption? name s = OptionRule.tryRead (scopeRule? name) s := by
  unfold scopeOption? scopeRule?
  rw [keySource?_eq]
  cases KeySourceOption.find? name with
  | none =>
    dsimp only [Option.map_none, OptionRule.tryRead]
    rw [pure_bind]
    cases Capability.ofOption? name with
    | none => rfl
    | some c =>
      dsimp only [Option.map_some, OptionRule.read]
      rw [bind_assoc]
      rfl
  | some option =>
    dsimp only [Option.map_some, OptionRule.tryRead]
    rw [bind_assoc]
    rfl

theorem scopeFrom_of_end (h : OptionReader.next r = (.ok none, r')) (fuel : Nat)
    (s : SignerSettings) : scopeFrom (fuel + 1) s r = (.ok s, r') := by
  rw [scopeFrom, Reading.bind_of_ok h]
  rfl

/-- An option that the scope does not know is put back. -/
theorem scopeFrom_of_named (h : r.rest = token :: rest)
    (ht : OptionToken.ofText token = .named name form inline?) (fuel : Nat) (s : SignerSettings) :
    scopeFrom (fuel + 1) s r = match scopeRule? name with
      | none => (.ok s, r.facing form)
      | some rule =>
        match rule.read s (r.onto form inline?) with
        | (.ok s, r) => scopeFrom fuel s r
        | (.error fault, r) => (.error fault, r) := by
  rw [scopeFrom, Reading.bind_of_ok (OptionReader.next_of_named h ht)]
  dsimp only
  rw [Reading.bind_apply, scopeOption?_eq]
  cases scopeRule? name with
  | none => rfl
  | some rule =>
    dsimp only [OptionRule.tryRead]
    rw [Reading.bind_apply]
    generalize rule.read s (r.onto form inline?) = y
    obtain ⟨result, v⟩ := y
    cases result <;> rfl

/-- An option of a scope. -/
def IsSetting (o : WrittenOption) (behind : List String) (s s' : SignerSettings) : Prop :=
  o.Legible ∧ ∃ rule, scopeRule? o.name = some rule ∧ rule.Takes o.value behind s s'

/-- Settings that are laid out are read, one after the other, up to where they end. -/
theorem scopeFrom_of_laid {settings : List WrittenOption}
    (laid : Laid WrittenOption.tokens IsSetting settings (markIf marked ++ left) s s')
    (ends : OptionsEnd (scopeRule? · = none) marked left)
    (hrest : r.rest = settings.flatMap WrittenOption.tokens ++ (markIf marked ++ left))
    (hfuel : settings.length < fuel)
    (clean : settings ≠ [] ∨ r.inlineValue = none ∧ r.isAfterEndMark = false) :
    ∃ r', scopeFrom fuel s r = (.ok s', r') ∧ r'.rest = left ∧ r'.inlineValue = none ∧
      r'.isAfterEndMark = marked := by
  induction settings generalizing s r fuel with
  | nil =>
    cases laid
    obtain ⟨fuel, rfl⟩ : ∃ n, fuel = n + 1 := ⟨fuel - 1, by omega⟩
    -- Nothing is read here, so the reader is as clean as it was before.
    obtain ⟨inline, before⟩ := clean.resolve_left fun h => h rfl
    cases ends with
    | marked =>
      refine ⟨_, scopeFrom_of_end (OptionReader.next_of_endMark hrest) fuel _,
        OptionReader.rest_onto hrest _ _, rfl, ?_⟩
      rw [OptionReader.isAfterEndMark_onto hrest]
      rfl
    | nil => exact ⟨_, scopeFrom_of_end (OptionReader.next_of_nil hrest) fuel _, hrest, inline, before⟩
    | plain h =>
      exact ⟨_, scopeFrom_of_end (OptionReader.next_of_plain hrest h) fuel _, hrest, inline, before⟩
    | other h other =>
      have hscope := scopeFrom_of_named hrest h fuel s'
      rw [other] at hscope
      exact ⟨_, hscope, hrest, rfl, before⟩
  | cons o settings ih =>
    obtain ⟨fuel, rfl⟩ : ∃ n, fuel = n + 1 := ⟨fuel - 1, by omega⟩
    cases laid with
    | cons first laid =>
      obtain ⟨legible, rule, hrule, takes⟩ := first
      have htoken := WrittenOption.ofText_token legible
      have hrest' : r.rest = o.token :: (o.value.separate?.toList ++
          (settings.flatMap WrittenOption.tokens ++ (markIf marked ++ left))) := by
        rw [hrest]
        simp [WrittenOption.tokens]
      have honto := OptionReader.rest_onto hrest' o.form o.value.inline?
      obtain ⟨v, hread, -, hv⟩ := OptionRule.read_of_takes takes rfl honto
      obtain rfl := hv (scopeRule?_not_bare hrule)
      have hscope := scopeFrom_of_named hrest' htoken fuel s
      rw [hrule] at hscope
      dsimp only at hscope
      rw [hread] at hscope
      have hmark : (r.onto o.form o.value.inline?).isAfterEndMark = false := by
        rw [OptionReader.isAfterEndMark_onto hrest', beq_eq_false_iff_ne]
        exact WrittenOption.token_ne_endMark legible
      obtain ⟨r', hr', hleft⟩ := ih laid (OptionReader.rest_behind honto)
        (Nat.lt_of_succ_lt_succ hfuel) (.inr ⟨OptionReader.inlineValue_behind rfl,
          OptionReader.isAfterEndMark_behind honto takes.ne_endMark hmark⟩)
      exact ⟨r', hscope.trans hr', hleft⟩

/-- What a scope has read was laid out. -/
theorem laid_of_scopeFrom (h : scopeFrom fuel s r = (.ok s', r')) (hfuel : r.rest.length < fuel) :
    ∃ settings marked, r.rest = settings.flatMap WrittenOption.tokens ++ (markIf marked ++ r'.rest) ∧
      Laid WrittenOption.tokens IsSetting settings (markIf marked ++ r'.rest) s s' ∧
      OptionsEnd (scopeRule? · = none) marked r'.rest := by
  induction fuel generalizing s r with
  | zero => cases hfuel
  | succ fuel ih =>
    cases hrest : r.rest with
    | nil =>
      rw [scopeFrom_of_end (OptionReader.next_of_nil hrest)] at h
      cases h
      have hleft : OptionReader.rest { r with isPutBack := false } = [] := hrest
      exact ⟨[], false, hrest.symm, .nil, hleft.symm ▸ .nil⟩
    | cons token rest =>
      cases ht : OptionToken.ofText token with
      | plain =>
        rw [scopeFrom_of_end (OptionReader.next_of_plain hrest ht)] at h
        cases h
        have hleft : OptionReader.rest { r with isPutBack := false } = token :: rest := hrest
        exact ⟨[], false, hrest.symm, .nil, hleft.symm ▸ .plain ht⟩
      | endMark =>
        obtain rfl := OptionToken.eq_endText ht
        rw [scopeFrom_of_end (OptionReader.next_of_endMark hrest)] at h
        cases h
        refine ⟨[], true, ?_, .nil, .marked⟩
        rw [OptionReader.rest_onto hrest]
        rfl
      | named name form inline? =>
        rw [scopeFrom_of_named hrest ht] at h
        cases hrule : scopeRule? name with
        | none =>
          rw [hrule] at h
          cases h
          have hleft : (r.facing form).rest = token :: rest := hrest
          exact ⟨[], false, hrest.symm, .nil, hleft.symm ▸ .other ht hrule⟩
        | some rule =>
          rw [hrule] at h
          dsimp only at h
          cases hread : rule.read s (r.onto form inline?) with
          | mk result v =>
            rw [hread] at h
            cases result with
            | error fault => cases h
            | ok t =>
              -- The rule tells how the value was written, the token how the option was.
              obtain ⟨value, inline, hvalue, takes⟩ := OptionRule.takes_of_read hread
              rw [OptionReader.rest_onto hrest] at hvalue
              obtain ⟨isLong, hwritten⟩ := WrittenOption.exists_of_named ht
              obtain ⟨legible, htoken, -⟩ := hwritten value inline.symm
              have hlength : v.rest.length < fuel := by
                rw [hrest, hvalue] at hfuel
                simp at hfuel
                omega
              obtain ⟨settings, marked, hsettings, laid, ends⟩ := ih h hlength
              refine ⟨⟨name, isLong, value⟩ :: settings, marked, ?_, .cons ?_ laid, ends⟩
              · rw [hvalue, hsettings, List.flatMap_cons, WrittenOption.tokens, htoken]
                simp
              · exact ⟨legible, rule, hrule, by rw [← hsettings]; exact takes⟩

theorem scope_eq (r : OptionReader) :
    scope r = match scopeFrom (r.rest.length + 1) .empty r with
      | (.ok s, r) =>
        if s.isEmpty then (.error (.configuration .emptySignerScope), r) else (.ok s, r)
      | (.error fault, r) => (.error fault, r) := by
  show (scopeFrom (r.tokens.length - r.position + 1) .empty >>= fun s =>
    if s.isEmpty then throw (.configuration .emptySignerScope) else pure s) r = _
  rw [Reading.bind_apply, OptionReader.length_rest]
  obtain ⟨result, v⟩ := scopeFrom (r.tokens.length - r.position + 1) .empty r
  cases result with
  | error fault => rfl
  | ok s =>
    dsimp only
    split <;> rfl

/-- A scope that says something about the key source is read up to where it ends. -/
theorem scope_of_laid {settings : List WrittenOption}
    (laid : Laid WrittenOption.tokens IsSetting settings (markIf marked ++ left) .empty s)
    (ends : OptionsEnd (scopeRule? · = none) marked left) (notEmpty : s.isEmpty = false)
    (hrest : r.rest = settings.flatMap WrittenOption.tokens ++ (markIf marked ++ left)) :
    ∃ r', scope r = (.ok s, r') ∧ r'.rest = left ∧ r'.inlineValue = none ∧
      r'.isAfterEndMark = marked := by
  have hne : settings ≠ [] := by
    rintro rfl
    cases laid
    cases notEmpty
  have hlength : settings.length < r.rest.length + 1 := by
    have := length_le_flatMap WrittenOption.tokens_ne_nil settings
    rw [hrest, List.length_append]
    omega
  obtain ⟨r', hread, hleft⟩ := scopeFrom_of_laid laid ends hrest hlength (.inl hne)
  refine ⟨r', ?_, hleft⟩
  rw [scope_eq, hread]
  dsimp only
  rw [if_neg (by simp [notEmpty])]

theorem laid_of_scope (h : scope r = (.ok s, r')) :
    s.isEmpty = false ∧ ∃ settings marked,
      r.rest = settings.flatMap WrittenOption.tokens ++ (markIf marked ++ r'.rest) ∧
      Laid WrittenOption.tokens IsSetting settings (markIf marked ++ r'.rest) .empty s ∧
      OptionsEnd (scopeRule? · = none) marked r'.rest := by
  rw [scope_eq] at h
  split at h
  · next t v hread =>
    split at h
    · cases h
    · next notEmpty =>
      cases h
      exact ⟨by simpa using notEmpty, laid_of_scopeFrom hread (Nat.lt_succ_self _)⟩
  · cases h

end SignerSettings
end PackageSigning
