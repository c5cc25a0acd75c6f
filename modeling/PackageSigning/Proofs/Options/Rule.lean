import PackageSigning.Proofs.Options.Reader

/-!
# How options are understood

An `OptionRule` says what value an option takes and what becomes of it. Reading the value comes to
`s'` just if it is written as the rule takes it (`OptionRule.Takes`): `OptionRule.read_of_takes`
and `OptionRule.takes_of_read` are the two directions. Things that are written one after the other
and each change what there is are `Laid` out.
-/

namespace PackageSigning

/-- What value an option takes, and what becomes of it. -/
inductive OptionRule (σ : Type) where
  | text (description : String) (put : String → σ → Except Fault σ)
  | number (description : String) (put : Int → σ → σ)
  /-- Without a value, the switch is on. -/
  | switch (put : Bool → σ → σ)
  /-- There is no value to take. -/
  | bare (put : σ → σ)

namespace OptionRule
variable {σ : Type} {rule : OptionRule σ} {value : WrittenValue} {behind : List String} {s s' : σ}
  {r r' : OptionReader}

/-- Reads the value of the last option into what there is. -/
def read : OptionRule σ → σ → Reading σ
  | text description put, s => do
    match put (← OptionReader.value description) s with
    | .ok s => return s
    | .error fault => throw fault
  | number description put, s => return put (← OptionReader.integer description) s
  | switch put, s => return put (← OptionReader.switch true) s
  | bare put, s => return put s

/-- Reads the value of the last option if there is a rule for it. -/
def tryRead : Option (OptionRule σ) → σ → Reading (Option σ)
  | none, _ => return none
  | some rule, s => return some (← rule.read s)

/-- The rule for an option that is about a part of what there is. -/
def within {τ : Type} (part : σ → τ) (put : τ → σ → σ) : OptionRule τ → OptionRule σ
  | text description f => text description fun text s => (f text (part s)).map (put · s)
  | number description f => number description fun n s => put (f n (part s)) s
  | switch f => switch fun b s => put (f b (part s)) s
  | bare f => bare fun s => put (f (part s)) s

theorem read_within {τ : Type} (part : σ → τ) (put : τ → σ → σ) (rule : OptionRule τ) (s : σ) :
    (rule.within part put).read s = rule.read (part s) >>= fun t => pure (put t s) := by
  cases rule with
  | text description f =>
    rw [within, read, read, bind_assoc]
    refine bind_congr fun text => ?_
    cases f text (part s) <;> rfl
  | number description f =>
    rw [within, read, read, bind_assoc]
    rfl
  | switch f =>
    rw [within, read, read, bind_assoc]
    rfl
  | bare f => rfl

/-- Whether there is no value to take. -/
def isBare : OptionRule σ → Bool
  | bare _ => true
  | _ => false

/-- With this value in front of these tokens, the option changes `s` to `s'`. -/
inductive Takes : OptionRule σ → WrittenValue → List String → σ → σ → Prop
  | text {description : String} {put : String → σ → Except Fault σ} {value : WrittenValue}
      {text : String} {behind : List String} {s s' : σ} (given : value.text? = some text)
      (notMark : value ≠ .separate OptionToken.endText) (stored : put text s = .ok s') :
      Takes (.text description put) value behind s s'
  | number {description : String} {put : Int → σ → σ} {value : WrittenValue} {text : String}
      {n : Int} {behind : List String} {s : σ} (given : value.text? = some text)
      (notMark : value ≠ .separate OptionToken.endText) (decimal : Text.integer? text = some n) :
      Takes (.number description put) value behind s (put n s)
  | switch {put : Bool → σ → σ} {value : WrittenValue} {b : Bool} {behind : List String} {s : σ}
      (given : value.text?.bind WrittenValue.truth? = some b) :
      Takes (.switch put) value behind s (put b s)
  | on {put : Bool → σ → σ} {behind : List String} {s : σ}
      (apart : behind.head?.bind WrittenValue.truth? = none) :
      Takes (.switch put) .absent behind s (put true s)
  | bare {put : σ → σ} {value : WrittenValue} {behind : List String} {s : σ}
      (apart : value.separate? = none) : Takes (.bare put) value behind s (put s)

/-- The mark that ends the options is no value. -/
theorem Takes.ne_endMark (h : rule.Takes value behind s s') :
    value ≠ .separate OptionToken.endText := by
  cases h with
  | text _ notMark => exact notMark
  | number _ notMark => exact notMark
  | switch given =>
    rintro rfl
    cases given
  | on => nofun
  | bare apart =>
    rintro rfl
    cases apart

/-- A value that the rule takes is read, but for one that it has no use for. -/
theorem read_of_takes (h : rule.Takes value behind s s') (inline : r.inlineValue = value.inline?)
    (hrest : r.rest = value.separate?.toList ++ behind) :
    ∃ r', rule.read s r = (.ok s', r') ∧ r'.bare = (r.behind value).bare ∧
      (rule.isBare = false → r' = r.behind value) := by
  cases h with
  | text given notMark stored =>
    refine ⟨_, ?_, rfl, fun _ => rfl⟩
    rw [read, Reading.bind_of_ok (OptionReader.value_of_text given notMark inline hrest), stored]
    rfl
  | number given notMark decimal =>
    refine ⟨_, ?_, rfl, fun _ => rfl⟩
    rw [read, Reading.bind_of_ok (OptionReader.integer_of_text given notMark decimal inline hrest)]
    rfl
  | @switch put value b _ _ given =>
    refine ⟨_, ?_, rfl, fun _ => rfl⟩
    have hswitch : OptionReader.switch true r = (.ok b, r.behind value) := by
      cases value with
      | absent => cases given
      | inline text =>
        have htruth : WrittenValue.truth? text = some b := given
        rw [OptionReader.switch_of_inline inline, htruth]
        rfl
      | separate text =>
        have htruth : r.rest.head?.bind WrittenValue.truth? = some b := by rw [hrest]; exact given
        rw [OptionReader.switch_of_none inline, htruth]
        rfl
    rw [read, Reading.bind_of_ok hswitch]
    rfl
  | on apart =>
    refine ⟨_, ?_, rfl, fun _ => rfl⟩
    have hswitch : OptionReader.switch true r = (.ok true, r) := by
      have htruth : r.rest.head?.bind WrittenValue.truth? = none := by rw [hrest]; exact apart
      rw [OptionReader.switch_of_none inline, htruth]
    rw [read, Reading.bind_of_ok hswitch]
    rfl
  | bare apart =>
    refine ⟨r, rfl, ?_, nofun⟩
    cases value with
    | absent | inline text => rfl
    | separate text => cases apart

/-- What was read was written as the rule takes it. -/
theorem takes_of_read (h : rule.read s r = (.ok s', r')) :
    ∃ value : WrittenValue, r.inlineValue = value.inline? ∧
      r.rest = value.separate?.toList ++ r'.rest ∧ rule.Takes value r'.rest s s' := by
  cases rule with
  | text description put =>
    obtain ⟨text, v, hvalue, h⟩ := Reading.bind_eq_ok.mp h
    obtain ⟨value, given, notMark, inline, hrest, rfl⟩ := OptionReader.value_eq_ok hvalue
    cases stored : put text s with
    | error fault =>
      rw [stored] at h
      cases h
    | ok s'' =>
      rw [stored] at h
      cases h
      exact ⟨value, inline, hrest, .text given notMark stored⟩
  | number description put =>
    obtain ⟨n, v, hn, h⟩ := Reading.bind_eq_ok.mp h
    obtain ⟨text, hvalue, decimal⟩ := OptionReader.integer_eq_ok hn
    obtain ⟨value, given, notMark, inline, hrest, rfl⟩ := OptionReader.value_eq_ok hvalue
    cases h
    exact ⟨value, inline, hrest, .number given notMark decimal⟩
  | switch put =>
    obtain ⟨b, v, hb, h⟩ := Reading.bind_eq_ok.mp h
    cases h
    cases inline : r.inlineValue with
    | some text =>
      rw [OptionReader.switch_of_inline inline] at hb
      split at hb
      · next htruth =>
        cases hb
        exact ⟨.inline text, rfl, rfl, .switch htruth⟩
      · cases hb
    | none =>
      rw [OptionReader.switch_of_none inline] at hb
      split at hb
      · next htruth =>
        cases hb
        obtain ⟨text, hhead, htruth⟩ := Option.bind_eq_some_iff.mp htruth
        obtain ⟨rest, hrest⟩ := List.head?_eq_some_iff.mp hhead
        refine ⟨.separate text, rfl, ?_, .switch htruth⟩
        rw [hrest]
        exact congrArg (text :: ·) (OptionReader.rest_add hrest).symm
      · next apart =>
        cases hb
        exact ⟨.absent, rfl, rfl, .on apart⟩
  | bare put =>
    cases h
    cases hvalue : r.inlineValue with
    | none => exact ⟨.absent, rfl, rfl, .bare rfl⟩
    | some text => exact ⟨.inline text, rfl, rfl, .bare rfl⟩

end OptionRule

/-- Things in front of some tokens, each of which is written as some tokens and changes what
there is. -/
inductive Laid {ι σ : Type} (tokens : ι → List String)
    (Step : ι → List String → σ → σ → Prop) : List ι → List String → σ → σ → Prop
  | nil {behind : List String} {s : σ} : Laid tokens Step [] behind s s
  | cons {i : ι} {is : List ι} {behind : List String} {s t u : σ}
      (first : Step i (is.flatMap tokens ++ behind) s t) (rest : Laid tokens Step is behind t u) :
      Laid tokens Step (i :: is) behind s u

theorem length_le_flatMap {ι : Type} {tokens : ι → List String} (h : ∀ i, tokens i ≠ [])
    (is : List ι) : is.length ≤ (is.flatMap tokens).length := by
  induction is with
  | nil => exact Nat.le_refl _
  | cons i is ih =>
    have hpos := List.length_pos_iff.mpr (h i)
    rw [List.flatMap_cons, List.length_append, List.length_cons]
    omega

/-- The end mark, if it stands there. -/
def markIf (marked : Bool) : List String := if marked then [OptionToken.endText] else []

/-- Options end in front of these tokens: at the end mark, at the end of the tokens, at one that
is not an option, or at an option that belongs to somebody else. -/
inductive OptionsEnd (foreign : String → Prop) : Bool → List String → Prop
  | marked {left : List String} : OptionsEnd foreign true left
  | nil : OptionsEnd foreign false []
  | plain {token : String} {left : List String} (h : OptionToken.ofText token = .plain) :
      OptionsEnd foreign false (token :: left)
  | other {token name form : String} {inline? : Option String} {left : List String}
      (h : OptionToken.ofText token = .named name form inline?) (other : foreign name) :
      OptionsEnd foreign false (token :: left)

end PackageSigning
