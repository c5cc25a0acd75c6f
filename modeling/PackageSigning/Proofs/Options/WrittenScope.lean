import PackageSigning.Proofs.Json.Text
import PackageSigning.Proofs.Lineage.Grants
import PackageSigning.Proofs.Options.Calls

/-!
# Scopes as they are written

The options of a signer scope are written in one of several forms. A scope that is read back comes
to what the options say, the last one of each kind counting, and whoever reads next finds what
stands behind it as if nothing had been in front (`SignerSettings.scope_of_written`).
-/

namespace PackageSigning

/-- An option of a signer scope and what it says. -/
inductive ScopeOption where
  /-- A key source option, its value, and what is stored of it. -/
  | keySource (option : KeySourceOption) (text stored : String)
  /-- A capability option with or without a value. -/
  | capability (c : Capability) (granted : Option Bool)

/-- How an option is written. -/
inductive OptionForm where
  /-- With two dashes, the value behind it. -/
  | long
  /-- With one dash, the value behind it. -/
  | short
  /-- With two dashes, and the value after an equals sign. -/
  | joined
  deriving DecidableEq, Repr

deriving instance DecidableEq for KeySourceOption

namespace ScopeOption

def name : ScopeOption → String
  | keySource option _ _ => option.option
  | capability c _ => c.optionName

/-- The value, if there is one. -/
def text? : ScopeOption → Option String
  | keySource _ text _ => some text
  | capability _ granted => granted.map toString

def value (o : ScopeOption) (form : OptionForm) : WrittenValue :=
  match o.text? with
  | none => .absent
  | some text => if form = .joined then .inline text else .separate text

/-- The option as written in a form. -/
def written (o : ScopeOption) (form : OptionForm) : WrittenOption :=
  ⟨o.name, form ≠ .short, o.value form⟩

/-- The option can be written in this form, and what is stored is its value, for an encoding the
canonical name. The end mark can only be a value behind an equals sign. -/
def Allowed (form : OptionForm) : ScopeOption → Prop
  | keySource option text stored => option ∈ KeySourceOption.all ∧
      (text = OptionToken.endText → form = .joined) ∧
      SignerSettings.stored option.field text = .ok stored
  | capability .. => True

/-- The settings with what the option says. -/
def apply (s : SignerSettings) : ScopeOption → SignerSettings
  | keySource option _ stored => option.field.set s stored
  | capability c granted => { s with capabilities := s.capabilities.choose c (granted.getD true) }

/-- What is said of a field. -/
def storedIn (field : SignerField) : ScopeOption → Option String
  | keySource option _ stored => if field = option.field then some stored else none
  | capability .. => none

/-- What is said of a capability. -/
def grantOf (c : Capability) : ScopeOption → Option Bool
  | keySource .. => none
  | capability d granted => if c = d then some (granted.getD true) else none

variable {o : ScopeOption} {form : OptionForm} {behind tail : List String} {s : SignerSettings}

/-! ## One option -/

/-- A name that can be told from dashes and from a value. -/
def IsWord (name : String) : Prop :=
  '=' ∉ name.toList ∧ name ≠ "" ∧ name.toList.head? ≠ some '-'

instance (name : String) : Decidable (IsWord name) := inferInstanceAs (Decidable (_ ∧ _))

theorem isWord_name (h : o.Allowed form) : IsWord o.name := by
  cases o with
  | keySource option text stored =>
    have hall : ∀ option ∈ KeySourceOption.all, IsWord option.option := by decide
    exact hall option h.1
  | capability c granted =>
    have hall : ∀ c : Capability, IsWord c.optionName := by
      intro c
      cases c <;> decide
    exact hall c

theorem legible (h : o.Allowed form) : (o.written form).Legible := by
  obtain ⟨noEquals, notEmpty, noDash⟩ := isWord_name h
  cases form with
  | long => exact .long noEquals (.inl notEmpty)
  | joined => exact .long noEquals (.inl notEmpty)
  | short =>
    refine .short noDash ?_
    unfold value
    split <;> rfl

theorem text?_value (o : ScopeOption) (form : OptionForm) : (o.value form).text? = o.text? := by
  unfold value
  split
  · next h => exact h.symm
  · next h =>
    rw [h]
    split <;> rfl

theorem scopeRule?_keySource {option : KeySourceOption} (h : option ∈ KeySourceOption.all) :
    SignerSettings.scopeRule? option.option = some (.text option.description fun text s =>
      (SignerSettings.stored option.field text).map (option.field.set s)) := by
  have hfind : ∀ option ∈ KeySourceOption.all, KeySourceOption.find? option.option = some option := by
    decide
  rw [SignerSettings.scopeRule?, hfind option h]
  rfl

theorem scopeRule?_capability (c : Capability) :
    SignerSettings.scopeRule? c.optionName = some (.switch fun granted s =>
      { s with capabilities := s.capabilities.choose c granted }) := by
  cases c <;> rfl

/-- An option in an allowed form says what it says, unless it is a capability without a value in
front of something that could be one. -/
theorem isSetting (h : o.Allowed form)
    (apart : o.text? = none → behind.head?.bind WrittenValue.truth? = none) :
    SignerSettings.IsSetting (o.written form) behind s (o.apply s) := by
  refine ⟨legible h, ?_⟩
  have hvalue := text?_value o form
  cases o with
  | keySource option text stored =>
    obtain ⟨hoption, notMark, hstored⟩ := h
    refine ⟨_, scopeRule?_keySource hoption, .text hvalue ?_ (by rw [hstored]; rfl)⟩
    show (if form = .joined then WrittenValue.inline text else .separate text) ≠ _
    split
    · nofun
    · next hform =>
      rintro ⟨⟩
      exact hform (notMark rfl)
  | capability c granted =>
    refine ⟨_, scopeRule?_capability c, ?_⟩
    cases granted with
    | none => exact .on (apart rfl)
    | some b =>
      refine .switch (b := b) ?_
      show ((capability c (some b)).value form).text?.bind _ = _
      rw [hvalue]
      cases b <;> rfl

/-! ## What the last one says -/

theorem lastWord_foldl {α β σ : Type} {f : σ → α → σ} {g : σ → Option β} {word : α → Option β}
    (h : ∀ s a, g (f s a) = (word a).or (g s)) (as : List α) (s : σ) :
    g (as.foldl f s) = (lastWord word as).or (g s) := by
  induction as generalizing s with
  | nil => rfl
  | cons a as ih => rw [List.foldl_cons, ih, h, lastWord_cons, Option.or_assoc]

theorem get_set (field other : SignerField) (s : SignerSettings) (text : String) :
    field.get (other.set s text) = if field = other then some text else field.get s := by
  cases field <;> cases other
  case name.name | keystoreAlias.keystoreAlias =>
    exact congrArg some (JsonText.shown_ofString text)
  all_goals rfl

theorem get_apply (field : SignerField) (s : SignerSettings) (o : ScopeOption) :
    field.get (o.apply s) = (o.storedIn field).or (field.get s) := by
  cases o with
  | keySource option text stored =>
    rw [apply, get_set, storedIn]
    split <;> rfl
  | capability c granted => cases field <;> rfl

theorem capabilities_apply (c : Capability) (s : SignerSettings) (o : ScopeOption) :
    (o.apply s).capabilities.get c = (o.grantOf c).or (s.capabilities.get c) := by
  cases o with
  | keySource option text stored =>
    rw [apply]
    cases option.field <;> rfl
  | capability d granted =>
    show (s.capabilities.choose d (granted.getD true)).get c = _
    rw [CapabilityChoices.choose, CapabilityMap.get_set, grantOf]
    split <;> rfl

/-- What some options say, one after the other. -/
def settings (options : List ScopeOption) : SignerSettings := options.foldl apply .empty

theorem get_settings (options : List ScopeOption) (field : SignerField) :
    field.get (settings options) = lastWord (storedIn field) options := by
  have hempty : field.get .empty = none := by cases field <;> rfl
  rw [settings, lastWord_foldl (g := (SignerField.get · field)) (get_apply field), hempty,
    Option.or_none]

theorem capabilities_settings (options : List ScopeOption) (c : Capability) :
    (settings options).capabilities.get c = lastWord (grantOf c) options := by
  have hempty : SignerSettings.empty.capabilities.get c = none := by cases c <;> rfl
  rw [settings, lastWord_foldl (g := fun s : SignerSettings => s.capabilities.get c)
    (capabilities_apply c), hempty,
    Option.or_none]

/-- Settings with a text are not empty. -/
theorem isEmpty_of_get {s : SignerSettings} {field : SignerField} {text : String}
    (h : field.get s = some text) : s.isEmpty = false := by
  have hall : field ∈ SignerField.all := by cases field <;> decide
  rw [← Bool.not_eq_true]
  intro hempty
  rw [SignerSettings.isEmpty, Bool.and_eq_true, Bool.and_eq_true] at hempty
  have hnone := List.all_eq_true.mp hempty.1.1 _ hall
  rw [h] at hnone
  cases hnone

theorem isEmpty_settings {options : List ScopeOption} {option : KeySourceOption}
    {text stored : String} (h : keySource option text stored ∈ options) :
    (settings options).isEmpty = false := by
  have hword : stored ∈ options.filterMap (storedIn option.field) :=
    List.mem_filterMap.mpr ⟨_, h, if_pos rfl⟩
  have hsome : (option.field.get (settings options)).isSome = true := by
    rw [get_settings, lastWord, List.getLast?_isSome]
    exact List.ne_nil_of_mem hword
  obtain ⟨text, htext⟩ := Option.isSome_iff_exists.mp hsome
  exact isEmpty_of_get htext

/-! ## The whole scope -/

/-- Some options in their forms. -/
def writtenAll (options : List (ScopeOption × OptionForm)) : List WrittenOption :=
  options.map fun p => p.1.written p.2

theorem truth?_token {o : WrittenOption} (h : o.Legible) :
    WrittenValue.truth? o.token = none := by
  have hnamed := WrittenOption.ofText_token h
  apply OptionReader.truth?_of_ne
  · intro htoken
    rw [htoken] at hnamed
    cases hnamed
  · intro htoken
    rw [htoken] at hnamed
    cases hnamed

theorem laid_written {options : List (ScopeOption × OptionForm)}
    (allowed : ∀ p ∈ options, p.1.Allowed p.2)
    (apart : ∀ p ∈ options.getLast?, p.1.text? = none →
      tail.head?.bind WrittenValue.truth? = none) (s : SignerSettings) :
    Laid WrittenOption.tokens SignerSettings.IsSetting (writtenAll options) tail s
      ((options.map (·.1)).foldl apply s) := by
  induction options generalizing s with
  | nil => exact .nil
  | cons p options ih =>
    obtain ⟨hp, hoptions⟩ := List.forall_mem_cons.mp allowed
    cases options with
    | nil => exact .cons (isSetting hp (apart p rfl)) .nil
    | cons q options =>
      have hq := legible (List.forall_mem_cons.mp hoptions).1
      exact .cons (isSetting hp fun _ => truth?_token hq) (ih hoptions apart _)

end ScopeOption

/-- Whether an option belongs to a signer scope. -/
def IsScopeOption (name : String) : Prop :=
  (KeySourceOption.find? name).isSome = true ∨ (Capability.ofOption? name).isSome = true

instance (name : String) : Decidable (IsScopeOption name) :=
  inferInstanceAs (Decidable (_ ∨ _))

namespace SignerSettings
open ScopeOption

theorem scopeRule?_eq_none {name : String} (h : ¬ IsScopeOption name) : scopeRule? name = none := by
  obtain ⟨hkey, hcapability⟩ := not_or.mp h
  rw [Option.not_isSome_iff_eq_none] at hkey hcapability
  rw [scopeRule?, hkey, hcapability]
  rfl

/-- A scope that says something about the key source comes to what its options say, the last one
of each kind counting, if nothing behind it can be taken for a part of it. From then on the reader
answers as one that starts there and remembers the same last option. -/
theorem scope_of_written {options : List (ScopeOption × OptionForm)} {tail : List String}
    (allowed : ∀ p ∈ options, p.1.Allowed p.2)
    (source : ∃ option text stored, keySource option text stored ∈ options.map (·.1))
    (foreign : ∀ token ∈ tail.head?, token ≠ OptionToken.endText ∧ ∀ name form inline?,
      OptionToken.ofText token = .named name form inline? → ¬ IsScopeOption name)
    (apart : ∀ c form, options.getLast? = some (.capability c none, form) →
      tail.head? ≠ some "true" ∧ tail.head? ≠ some "false") :
    let outcome := scope (.start ((writtenAll options).flatMap WrittenOption.tokens ++ tail))
    let s := settings (options.map (·.1))
    outcome.1 = .ok s ∧
      (∀ field, field.get s = lastWord (storedIn field) (options.map (·.1))) ∧
      (∀ c, s.capabilities.get c = lastWord (grantOf c) (options.map (·.1))) ∧
      ∀ calls, outcome.2.answers calls =
        { OptionReader.start tail with form := outcome.2.form }.answers calls := by
  intro outcome s
  have ends : OptionsEnd (scopeRule? · = none) false tail := by
    cases tail with
    | nil => exact .nil
    | cons token rest =>
      obtain ⟨notMark, other⟩ := foreign token rfl
      cases ht : OptionToken.ofText token with
      | plain => exact .plain ht
      | endMark => exact absurd (OptionToken.eq_endText ht) notMark
      | named name form inline? => exact .other ht (scopeRule?_eq_none (other _ _ _ ht))
  have hapart : ∀ p ∈ options.getLast?, p.1.text? = none →
      tail.head?.bind WrittenValue.truth? = none := by
    rintro ⟨o, form⟩ hlast hnone
    cases o with
    | keySource => cases hnone
    | capability c granted =>
      obtain rfl : granted = none := Option.map_eq_none_iff.mp hnone
      obtain ⟨htrue, hfalse⟩ := apart c form hlast
      cases tail with
      | nil => rfl
      | cons token rest =>
        exact OptionReader.truth?_of_ne (fun h => htrue (congrArg some h))
          (fun h => hfalse (congrArg some h))
  obtain ⟨option, text, stored, hsource⟩ := source
  obtain ⟨r, hscope, hrest, hinline, hmark⟩ := scope_of_laid
    (r := .start ((writtenAll options).flatMap WrittenOption.tokens ++ tail))
    (laid_written allowed hapart .empty) ends (isEmpty_settings hsource) rfl
  have houtcome : outcome = (.ok s, r) := hscope
  refine ⟨by rw [houtcome], get_settings _, capabilities_settings _, ?_⟩
  intro calls
  rw [houtcome]
  apply OptionReader.answers_congr
  rw [OptionReader.view, hrest, hinline, hmark]
  rfl

/-- A keystore whose name looks like an option, a capability without a value, a password that is
the end mark, and then an option that belongs to somebody else. -/
theorem sample_scope_of_written :
    let outcome := scope (.start ["-ks", "--set-auth", "--set-auth", "--ks-pass=--", "--out", "x"])
    outcome.1 = .ok { keystoreFile := some "--set-auth", keystorePassword := some "--",
                      capabilities := CapabilityChoices.empty.choose .auth true } ∧
      outcome.2.answers [.next, .value "Output file name", .remaining] =
        [.ok (.name (some "out")), .ok (.text "x"), .ok (.tokens [])] := by
  have allowed : ∀ p ∈ [((keySource ⟨"ks", .keystoreFile, "KeyStore file"⟩ "--set-auth"
      "--set-auth", .short) : ScopeOption × OptionForm), (capability .auth none, .long),
      (keySource ⟨"ks-pass", .keystorePassword, "KeyStore password"⟩ "--" "--", .joined)],
      p.1.Allowed p.2 := by
    simp only [List.forall_mem_cons]
    exact ⟨⟨by decide, by decide, rfl⟩, trivial, ⟨by decide, fun _ => rfl, rfl⟩, nofun⟩
  have foreign : ∀ token ∈ ["--out", "x"].head?, token ≠ OptionToken.endText ∧
      ∀ name form inline?, OptionToken.ofText token = .named name form inline? →
        ¬ IsScopeOption name := by
    rintro token ⟨⟩
    refine ⟨by decide, ?_⟩
    rintro name form inline? hnamed
    obtain ⟨rfl, -, -⟩ := OptionToken.named.inj hnamed
    decide +kernel
  obtain ⟨hscope, -, -, hanswers⟩ :=
    scope_of_written allowed ⟨_, _, _, List.mem_cons_self⟩ foreign nofun
  exact ⟨hscope.trans (by decide +kernel),
    (hanswers [.next, .value "Output file name", .remaining]).trans (by decide +kernel)⟩

end SignerSettings
end PackageSigning
