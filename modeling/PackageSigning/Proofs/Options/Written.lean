import PackageSigning.Options.Reader

/-!
# Options as they are written

`WrittenOption` is an option with its value, and `tokens` are the tokens that it is written as.
What the reader takes for an option is the first token of a legible one
(`WrittenOption.ofText_token`), and there is no other way to write one
(`WrittenOption.exists_of_named`).
-/

namespace PackageSigning

/-- A value and where it stands. -/
inductive WrittenValue where
  | absent
  /-- Behind an equals sign, in the token of the option. -/
  | inline (text : String)
  /-- In a token of its own. -/
  | separate (text : String)
  deriving DecidableEq, Repr

namespace WrittenValue

/-- The value in the token of the option. -/
def inline? : WrittenValue → Option String
  | inline text => some text
  | _ => none

/-- The value in a token of its own. -/
def separate? : WrittenValue → Option String
  | separate text => some text
  | _ => none

/-- The value, wherever it stands. -/
def text? : WrittenValue → Option String
  | absent => none
  | inline text | separate text => some text

/-- What a text says of a switch. -/
def truth? (text : String) : Option Bool :=
  if text = "true" then some true else if text = "false" then some false else none

end WrittenValue

/-- An option with its value, as written. -/
structure WrittenOption where
  name : String
  /-- Whether there are two dashes. -/
  isLong : Bool
  value : WrittenValue
  deriving DecidableEq, Repr

namespace OptionToken

theorem cutAtEquals_of_not_mem {name : List Char} (h : '=' ∉ name) :
    cutAtEquals name = (name, none) := by
  induction name with
  | nil => rfl
  | cons c name ih =>
    have hc : c ≠ '=' := (List.ne_of_not_mem_cons h).symm
    rw [cutAtEquals.eq_3 _ _ hc, ih (List.not_mem_of_not_mem_cons h)]

theorem cutAtEquals_append {name : List Char} (h : '=' ∉ name) (value : List Char) :
    cutAtEquals (name ++ '=' :: value) = (name, some value) := by
  induction name with
  | nil => rfl
  | cons c name ih =>
    have hc : c ≠ '=' := (List.ne_of_not_mem_cons h).symm
    rw [List.cons_append, cutAtEquals.eq_3 _ _ hc, ih (List.not_mem_of_not_mem_cons h)]

theorem not_mem_cutAtEquals (cs : List Char) : '=' ∉ (cutAtEquals cs).1 := by
  fun_induction cutAtEquals cs with
  | case1 => exact List.not_mem_nil
  | case2 => exact List.not_mem_nil
  | case3 c rest hc name value hcut ih =>
    rw [hcut] at ih
    exact List.not_mem_cons_of_ne_of_not_mem (fun h => hc h.symm) ih

/-- What is cut at the equals sign is put together with it again. -/
theorem cutAtEquals_joined (cs : List Char) :
    cs = (cutAtEquals cs).1 ++ ((cutAtEquals cs).2.map ('=' :: ·)).getD [] := by
  fun_induction cutAtEquals cs with
  | case1 => rfl
  | case2 => rfl
  | case3 c rest hc name value hcut ih =>
    rw [hcut] at ih
    exact congrArg (c :: ·) ih

theorem ofText_long {token : String} {rest : List Char} (hne : token ≠ endText)
    (h : token.toList = '-' :: '-' :: rest) :
    ofText token = match cutAtEquals rest with
      | (name, some value) =>
        named (String.ofList name) (String.ofList ('-' :: '-' :: name)) (some (String.ofList value))
      | (name, none) => named (String.ofList name) token none := by
  rw [ofText, if_neg hne, h]
  rfl

theorem ofText_short {token : String} {rest : List Char} (h : token.toList = '-' :: rest)
    (hrest : rest.head? ≠ some '-') : ofText token = named (String.ofList rest) token none := by
  have hne : token ≠ endText := by
    rintro rfl
    obtain rfl : ['-'] = rest := (List.cons.inj h).2
    exact hrest rfl
  rw [ofText, if_neg hne, h]
  split
  · next hlist =>
    obtain rfl := (List.cons.inj hlist).2
    exact absurd rfl hrest
  · next hlist =>
    obtain rfl := (List.cons.inj hlist).2
    rfl
  · next hlist => exact absurd rfl (hlist rest)

theorem ofText_of_no_dash {token : String} (h : token.toList.head? ≠ some '-') :
    ofText token = plain := by
  have hne : token ≠ endText := by
    rintro rfl
    exact h rfl
  rw [ofText, if_neg hne]
  split
  · next hlist => exact absurd (congrArg List.head? hlist) h
  · next hlist => exact absurd (congrArg List.head? hlist) h
  · rfl

theorem eq_endText {token : String} (h : ofText token = .endMark) : token = endText := by
  unfold ofText at h
  split at h
  · assumption
  · split at h
    · split at h <;> cases h
    · cases h
    · cases h

theorem head?_ne_dash {token : String} (h : ofText token = .plain) :
    token.toList.head? ≠ some '-' := by
  unfold ofText at h
  split at h
  · cases h
  · split at h
    · split at h <;> cases h
    · cases h
    · next hother =>
      intro hhead
      obtain ⟨rest, hlist⟩ := List.head?_eq_some_iff.mp hhead
      exact hother rest hlist

/-- What the characters of an option are. -/
theorem toList_of_named {token name form : String} {inline? : Option String}
    (h : ofText token = .named name form inline?) :
    (token.toList = '-' :: '-' :: (name.toList ++ (inline?.map ('=' :: ·.toList)).getD []) ∧
        '=' ∉ name.toList ∧ form.toList = '-' :: '-' :: name.toList ∧ token ≠ endText) ∨
      (token.toList = '-' :: name.toList ∧ name.toList.head? ≠ some '-' ∧ form = token ∧
        inline? = none) := by
  have hne : token ≠ endText := by
    rintro rfl
    cases h
  cases hlist : token.toList with
  | nil =>
    rw [ofText_of_no_dash (by simp [hlist])] at h
    cases h
  | cons c rest =>
    by_cases hc : c = '-'
    · subst hc
      by_cases hrest : rest.head? = some '-'
      · obtain ⟨rest, rfl⟩ : ∃ rest', rest = '-' :: rest' := by
          cases rest with
          | nil => cases hrest
          | cons c rest => exact ⟨rest, by rw [Option.some.inj hrest]⟩
        have hname := not_mem_cutAtEquals rest
        have hjoined := cutAtEquals_joined rest
        rw [ofText_long hne hlist] at h
        cases hcut : cutAtEquals rest with
        | mk cs value =>
          rw [hcut] at h hname hjoined
          cases value with
          | none =>
            obtain ⟨rfl, rfl, rfl⟩ := OptionToken.named.inj h
            have hrest : rest = cs := by simpa using hjoined
            left
            simp [hrest, hlist, hname, hne]
          | some value =>
            obtain ⟨rfl, rfl, rfl⟩ := OptionToken.named.inj h
            left
            simp [hjoined, hname, hne]
      · rw [ofText_short hlist hrest] at h
        obtain ⟨rfl, rfl, rfl⟩ := OptionToken.named.inj h
        right
        simp [hrest]
    · rw [ofText_of_no_dash (by simpa [hlist] using hc)] at h
      cases h

end OptionToken

namespace WrittenOption

/-- The option without its value. -/
def form (o : WrittenOption) : String := (if o.isLong then "--" else "-") ++ o.name

/-- The token of the option. -/
def token (o : WrittenOption) : String :=
  match o.value.inline? with
  | some text => o.form ++ "=" ++ text
  | none => o.form

/-- The tokens of the option and its value. -/
def tokens (o : WrittenOption) : List String := o.token :: o.value.separate?.toList

theorem tokens_ne_nil (o : WrittenOption) : o.tokens ≠ [] := List.cons_ne_nil _ _

/-- The name can be told from the dashes and from the value. With one dash, a value can only
stand in a token of its own. -/
inductive Legible : WrittenOption → Prop
  | long {name : String} {value : WrittenValue} (hname : '=' ∉ name.toList)
      (notMark : name ≠ "" ∨ value.inline?.isSome = true) : Legible ⟨name, true, value⟩
  | short {name : String} {value : WrittenValue} (hname : name.toList.head? ≠ some '-')
      (apart : value.inline? = none) : Legible ⟨name, false, value⟩

theorem toList_form_long (name : String) (value : WrittenValue) :
    (form ⟨name, true, value⟩).toList = '-' :: '-' :: name.toList := by
  rw [form, if_pos rfl, String.toList_append]
  rfl

theorem toList_form_short (name : String) (value : WrittenValue) :
    (form ⟨name, false, value⟩).toList = '-' :: name.toList := by
  rw [form, if_neg nofun, String.toList_append]
  rfl

theorem token_of_absent {o : WrittenOption} (h : o.value.inline? = none) : o.token = o.form := by
  rw [token, h]

theorem toList_token_of_inline {o : WrittenOption} {text : String}
    (h : o.value.inline? = some text) :
    o.token.toList = o.form.toList ++ '=' :: text.toList := by
  rw [token, h]
  dsimp only
  rw [String.toList_append, String.toList_append, List.append_assoc]
  rfl

/-- A legible option is read as what it is. -/
theorem ofText_token {o : WrittenOption} (h : o.Legible) :
    OptionToken.ofText o.token = .named o.name o.form o.value.inline? := by
  cases h with
  | @long name value hname notMark =>
    have hform := toList_form_long name value
    cases hvalue : value.inline? with
    | none =>
      have hne : form ⟨name, true, value⟩ ≠ OptionToken.endText := by
        intro h
        rw [h] at hform
        have hempty : [] = name.toList := (List.cons.inj (List.cons.inj hform).2).2
        obtain notEmpty | inline := notMark
        · exact notEmpty (String.toList_injective hempty.symm)
        · rw [hvalue] at inline
          cases inline
      rw [token_of_absent hvalue, OptionToken.ofText_long hne hform,
        OptionToken.cutAtEquals_of_not_mem hname]
      dsimp only
      rw [String.ofList_toList]
    | some text =>
      have htoken : (token ⟨name, true, value⟩).toList =
          '-' :: '-' :: (name.toList ++ '=' :: text.toList) := by
        rw [toList_token_of_inline hvalue, hform]
        rfl
      have hne : token ⟨name, true, value⟩ ≠ OptionToken.endText := by
        intro h
        rw [h] at htoken
        have hempty : [] = name.toList ++ '=' :: text.toList :=
          (List.cons.inj (List.cons.inj htoken).2).2
        exact List.append_ne_nil_of_right_ne_nil _ (List.cons_ne_nil _ _) hempty.symm
      rw [OptionToken.ofText_long hne htoken, OptionToken.cutAtEquals_append hname]
      dsimp only
      rw [String.ofList_toList, String.ofList_toList, ← hform, String.ofList_toList]
  | @short name value hname apart =>
    have hform := toList_form_short name value
    rw [token_of_absent apart]
    rw [OptionToken.ofText_short hform hname, String.ofList_toList, apart]

theorem token_ne_endMark {o : WrittenOption} (h : o.Legible) : o.token ≠ OptionToken.endText := by
  intro htoken
  have := ofText_token h
  rw [htoken] at this
  cases this

/-- Whatever is read as an option is a legible one, with a value in a token of its own or without
if it has none in its own. -/
theorem exists_of_named {token name form : String} {inline? : Option String}
    (h : OptionToken.ofText token = .named name form inline?) :
    ∃ isLong, ∀ value : WrittenValue, value.inline? = inline? →
      Legible ⟨name, isLong, value⟩ ∧ (⟨name, isLong, value⟩ : WrittenOption).token = token ∧
        (⟨name, isLong, value⟩ : WrittenOption).form = form := by
  obtain ⟨hlist, hname, hform, hne⟩ | ⟨hlist, hname, rfl, rfl⟩ := OptionToken.toList_of_named h
  · refine ⟨true, fun value hvalue => ?_⟩
    have hwritten : (⟨name, true, value⟩ : WrittenOption).form = form :=
      String.toList_injective ((toList_form_long name value).trans hform.symm)
    subst hvalue
    cases hvalue : value.inline? with
    | none =>
      rw [hvalue] at hlist
      have htoken : form = token := String.toList_injective (by simp [hform, hlist])
      refine ⟨.long hname (.inl ?_), (token_of_absent hvalue).trans (hwritten.trans htoken),
        hwritten⟩
      rintro rfl
      exact hne (String.toList_injective hlist)
    | some text =>
      rw [hvalue] at hlist
      refine ⟨.long hname (.inr (by rw [hvalue]; rfl)), String.toList_injective ?_, hwritten⟩
      rw [toList_token_of_inline hvalue, hwritten, hform, hlist]
      rfl
  · have htoken (value : WrittenValue) : (⟨name, false, value⟩ : WrittenOption).form = form :=
      String.toList_injective ((toList_form_short name value).trans hlist.symm)
    exact ⟨false, fun value hvalue =>
      ⟨.short hname hvalue, (token_of_absent hvalue).trans (htoken value), htoken value⟩⟩

end WrittenOption
end PackageSigning
