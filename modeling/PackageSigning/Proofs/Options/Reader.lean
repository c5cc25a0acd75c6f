import PackageSigning.Proofs.Options.Written

/-!
# What a reader does with the token in front of it

What a reader does next depends on the tokens that it has not read. Each step is told by them and
by the reader that it leaves: behind an option (`OptionReader.onto`) or a value
(`OptionReader.behind`), or in front of an option that was put back (`OptionReader.facing`).
-/

namespace PackageSigning

namespace Reading
variable {α β : Type} {x : Reading α} {f : α → Reading β} {r v : OptionReader}

theorem bind_apply (x : Reading α) (f : α → Reading β) (r : OptionReader) :
    (x >>= f) r = match x r with
      | (.ok a, r) => f a r
      | (.error fault, r) => (.error fault, r) := by
  show ExceptT.bindCont f (x r).1 (x r).2 = _
  obtain ⟨result, v⟩ := x r
  cases result <;> rfl

theorem bind_of_ok {a : α} (h : x r = (.ok a, v)) : (x >>= f) r = f a v := by
  rw [bind_apply, h]

theorem bind_eq_ok {b : β} : (x >>= f) r = (.ok b, v) ↔
    ∃ a u, x r = (.ok a, u) ∧ f a u = (.ok b, v) := by
  rw [bind_apply]
  obtain ⟨result, u⟩ := x r
  cases result with
  | ok a =>
    constructor
    · intro h
      exact ⟨a, u, rfl, h⟩
    · rintro ⟨_, _, ⟨⟩, h⟩
      exact h
  | error fault =>
    constructor
    · intro h
      cases h
    · rintro ⟨_, _, h, _⟩
      cases h

end Reading

namespace OptionReader

variable {r r' : OptionReader} {token name form : String} {rest : List String}
  {inline? : Option String}

/-! ## Places -/

/-- The reader behind an option or the end mark. -/
def onto (r : OptionReader) (form : String) (inlineValue : Option String) : OptionReader :=
  { r with optionPosition := r.position, position := r.position + 1, form := some form,
           inlineValue, isPutBack := false }

/-- The reader with no value left to take. -/
def bare (r : OptionReader) : OptionReader := { r with inlineValue := none }

/-- The reader behind a value. -/
def behind (r : OptionReader) : WrittenValue → OptionReader
  | .absent => r
  | .inline _ => r.bare
  | .separate _ => { r with position := r.position + 1 }

/-- The reader in front of an option that was put back. -/
def facing (r : OptionReader) (form : String) : OptionReader :=
  { r with optionPosition := r.position, form := some form, inlineValue := none,
           isPutBack := true }

theorem peek_eq (r : OptionReader) : r.peek = r.rest.head? := (List.head?_drop).symm

theorem length_rest (r : OptionReader) : r.rest.length = r.tokens.length - r.position :=
  List.length_drop

theorem rest_add (h : r.rest = token :: rest) : r.tokens.drop (r.position + 1) = rest := by
  rw [← List.drop_drop]
  exact congrArg (List.drop 1) h

theorem getElem?_position (h : r.rest = token :: rest) : r.tokens[r.position]? = some token := by
  rw [← List.head?_drop]
  exact congrArg List.head? h

theorem rest_onto (h : r.rest = token :: rest) (form : String) (inline? : Option String) :
    (r.onto form inline?).rest = rest := rest_add h

theorem isAfterEndMark_onto (h : r.rest = token :: rest) (form : String)
    (inline? : Option String) :
    (r.onto form inline?).isAfterEndMark = (token == OptionToken.endText) := by
  show (decide (0 < r.position + 1) && r.tokens[r.position]? == some OptionToken.endText) = _
  rw [getElem?_position h]
  simp

theorem rest_behind {value : WrittenValue} (h : r.rest = value.separate?.toList ++ rest) :
    (r.behind value).rest = rest := by
  cases value with
  | absent | inline text => exact h
  | separate text => exact rest_add h

/-- A value is not taken for the end mark. -/
theorem isAfterEndMark_behind {value : WrittenValue} (h : r.rest = value.separate?.toList ++ rest)
    (notMark : value ≠ .separate OptionToken.endText) (before : r.isAfterEndMark = false) :
    (r.behind value).isAfterEndMark = false := by
  cases value with
  | absent | inline text => exact before
  | separate text =>
    show (decide (0 < r.position + 1) && r.tokens[r.position]? == some OptionToken.endText) = false
    rw [getElem?_position h]
    have hne : text ≠ OptionToken.endText := fun h => notMark (by rw [h])
    simp [hne]

theorem inlineValue_behind {value : WrittenValue} (h : r.inlineValue = value.inline?) :
    (r.behind value).inlineValue = none := by
  cases value with
  | absent | separate text => exact h
  | inline text => rfl

/-! ## The next option -/

theorem next_eq (r : OptionReader) :
    next r = match r.rest.head? with
      | none => (.ok none, { r with isPutBack := false })
      | some token =>
        match OptionToken.ofText token with
        | .plain => (.ok none, { r with isPutBack := false })
        | .endMark => (.ok none, r.onto OptionToken.endText none)
        | .named name form inline? => (.ok (some name), r.onto form inline?) := by
  have hpeek : peek { r with isPutBack := false } = r.rest.head? := peek_eq r
  unfold next advance
  simp only [hpeek]
  cases r.rest.head? with
  | none => rfl
  | some token =>
    dsimp only
    cases OptionToken.ofText token <;> rfl

theorem next_of_nil (h : r.rest = []) : next r = (.ok none, { r with isPutBack := false }) := by
  rw [next_eq, h]
  rfl

theorem next_of_plain (h : r.rest = token :: rest) (ht : OptionToken.ofText token = .plain) :
    next r = (.ok none, { r with isPutBack := false }) := by
  rw [next_eq, h]
  dsimp only [List.head?_cons]
  rw [ht]

theorem next_of_endMark (h : r.rest = OptionToken.endText :: rest) :
    next r = (.ok none, r.onto OptionToken.endText none) := by
  rw [next_eq, h]
  rfl

theorem next_of_named (h : r.rest = token :: rest)
    (ht : OptionToken.ofText token = .named name form inline?) :
    next r = (.ok (some name), r.onto form inline?) := by
  rw [next_eq, h]
  dsimp only [List.head?_cons]
  rw [ht]

/-! ## Values -/

variable {description text : String} {value : WrittenValue}

theorem value_of_inline (h : r.inlineValue = some text) (description : String) :
    OptionReader.value description r = (.ok text, r.bare) := by
  rw [OptionReader.value, h]
  rfl

theorem value_of_none (h : r.inlineValue = none) (description : String) :
    OptionReader.value description r =
      if r.rest.head? = none ∨ r.rest.head? = some OptionToken.endText then
        (.error (.options (.valueMissing description r.shownForm)), r)
      else (.ok (r.rest.headD ""), { r with position := r.position + 1 }) := by
  rw [OptionReader.value, h]
  dsimp only
  rw [peek_eq]
  cases r.rest with
  | nil => rfl
  | cons token rest => simp

theorem value_of_text (given : value.text? = some text)
    (notMark : value ≠ .separate OptionToken.endText) (inline : r.inlineValue = value.inline?)
    (h : r.rest = value.separate?.toList ++ rest) :
    OptionReader.value description r = (.ok text, r.behind value) := by
  cases value with
  | absent => cases given
  | inline text =>
    obtain rfl := Option.some.inj given
    exact value_of_inline inline description
  | separate text =>
    obtain rfl := Option.some.inj given
    have hne : text ≠ OptionToken.endText := fun h => notMark (by rw [h])
    rw [value_of_none inline, h, if_neg (by simpa [WrittenValue.separate?] using hne)]
    rfl

theorem value_eq_ok (h : OptionReader.value description r = (.ok text, r')) :
    ∃ value : WrittenValue, value.text? = some text ∧ value ≠ .separate OptionToken.endText ∧
      r.inlineValue = value.inline? ∧ r.rest = value.separate?.toList ++ r'.rest ∧
      r' = r.behind value := by
  cases inline : r.inlineValue with
  | some text =>
    rw [value_of_inline inline] at h
    cases h
    exact ⟨.inline text, rfl, nofun, rfl, rfl, rfl⟩
  | none =>
    rw [value_of_none inline] at h
    split at h
    · cases h
    · next hhead =>
      cases h
      cases hrest : r.rest with
      | nil => simp [hrest] at hhead
      | cons token rest =>
        refine ⟨.separate token, rfl, ?_, rfl, ?_, rfl⟩
        · rintro ⟨⟩
          simp [hrest] at hhead
        · exact congrArg (token :: ·) (rest_add hrest).symm

theorem integer_of_text {n : Int} (given : value.text? = some text)
    (notMark : value ≠ .separate OptionToken.endText) (decimal : Text.integer? text = some n)
    (inline : r.inlineValue = value.inline?) (h : r.rest = value.separate?.toList ++ rest) :
    integer description r = (.ok n, r.behind value) := by
  unfold integer
  rw [Reading.bind_of_ok (value_of_text given notMark inline h), decimal]
  rfl

theorem integer_eq_ok {n : Int} (h : integer description r = (.ok n, r')) :
    ∃ text, OptionReader.value description r = (.ok text, r') ∧ Text.integer? text = some n := by
  unfold integer at h
  obtain ⟨text, v, hvalue, h⟩ := Reading.bind_eq_ok.mp h
  cases decimal : Text.integer? text with
  | some n =>
    rw [decimal] at h
    cases h
    exact ⟨text, hvalue, decimal⟩
  | none =>
    rw [decimal] at h
    cases h

theorem truth?_of_ne (htrue : text ≠ "true") (hfalse : text ≠ "false") :
    WrittenValue.truth? text = none := by
  rw [WrittenValue.truth?, if_neg htrue, if_neg hfalse]

theorem switch_of_inline (h : r.inlineValue = some text) (default : Bool) :
    switch default r = match WrittenValue.truth? text with
      | some b => (.ok b, r.bare)
      | none => (.error (.options (.notBoolean r.shownForm text)), r.bare) := by
  unfold switch
  rw [h]
  split
  · next htext => rw [Option.some.inj htext]; rfl
  · next htext => rw [Option.some.inj htext]; rfl
  · next htrue hfalse htext =>
    obtain rfl := Option.some.inj htext
    rw [truth?_of_ne htrue hfalse]
    rfl
  · next htext => cases htext

theorem switch_of_none (h : r.inlineValue = none) (default : Bool) :
    switch default r = match r.rest.head?.bind WrittenValue.truth? with
      | some b => (.ok b, { r with position := r.position + 1 })
      | none => (.ok default, r) := by
  rw [← peek_eq]
  unfold switch
  rw [h]
  dsimp only
  split
  · next hpeek => rw [hpeek]; rfl
  · next hpeek => rw [hpeek]; rfl
  · next htrue hfalse =>
    cases hpeek : r.peek with
    | none => rfl
    | some text =>
      have hnone : WrittenValue.truth? text = none :=
        truth?_of_ne (fun h => htrue (by rw [hpeek, h])) (fun h => hfalse (by rw [hpeek, h]))
      rw [Option.bind_some, hnone]

/-! ## The tokens after the options -/

theorem remaining_of_nil (h : r.rest = []) : remaining r = (.ok [], r) := by
  have hpeek : r.peek = none := by rw [peek_eq, h]; rfl
  rw [remaining, hpeek]

theorem remaining_of_cons (h : r.rest = token :: rest) :
    remaining r =
      if token.toList.head? = some '-' ∧ token ≠ OptionToken.endText ∧ r.isAfterEndMark = false then
        (.error (.options (.leftOver token)), r)
      else (.ok r.rest, r) := by
  have hpeek : r.peek = some token := by rw [peek_eq, h]; rfl
  rw [remaining, hpeek]

end OptionReader
end PackageSigning
