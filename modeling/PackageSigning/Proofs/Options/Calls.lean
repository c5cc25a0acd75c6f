import PackageSigning.Proofs.Options.Scope

/-!
# Asking a reader again and again

An `OptionCall` is one request to a reader, a whole signer scope included. What a reader answers,
now and later, depends on nothing but what it shows (`OptionReader.view`): the tokens that it has
not read, the last option with its value, and whether the end mark was read last
(`OptionReader.answers_congr`).
-/

namespace PackageSigning

/-- What later answers depend on. -/
structure OptionView where
  rest : List String
  inlineValue : Option String
  form : Option String
  isAfterEndMark : Bool

/-- What a reader shows. -/
def OptionReader.view (r : OptionReader) : OptionView :=
  ⟨r.rest, r.inlineValue, r.form, r.isAfterEndMark⟩

/-- A request to a reader. -/
inductive OptionCall where
  | next
  | value (description : String)
  | integer (description : String)
  | switch (default : Bool)
  | remaining
  | scope
  deriving DecidableEq, Repr

/-- What a reader answers. -/
inductive OptionAnswer where
  | name (name? : Option String)
  | text (text : String)
  | number (n : Int)
  | truth (b : Bool)
  | tokens (tokens : List String)
  | settings (s : SignerSettings)
  deriving DecidableEq, Repr

namespace OptionCall

/-- The reading that is asked for. -/
def reading : OptionCall → Reading OptionAnswer
  | next => return .name (← OptionReader.next)
  | value description => return .text (← OptionReader.value description)
  | integer description => return .number (← OptionReader.integer description)
  | switch default => return .truth (← OptionReader.switch default)
  | remaining => return .tokens (← OptionReader.remaining)
  | scope => return .settings (← SignerSettings.scope)

end OptionCall

namespace OptionReader

/-- The answer to one call. -/
def answer (r : OptionReader) (call : OptionCall) : Except Fault OptionAnswer := (call.reading r).1

/-- The reader after one call, whatever it has answered. -/
def after (r : OptionReader) (call : OptionCall) : OptionReader := (call.reading r).2

/-- The answers to calls one after the other. -/
def answers (r : OptionReader) : List OptionCall → List (Except Fault OptionAnswer)
  | [] => []
  | call :: calls => r.answer call :: (r.after call).answers calls

end OptionReader

/-- A reading that depends on nothing but what the reader shows. -/
def Reading.Plain {α : Type} (x : Reading α) : Prop :=
  ∀ r v : OptionReader, r.view = v.view → (x r).1 = (x v).1 ∧ (x r).2.view = (x v).2.view

namespace Reading.Plain
open OptionReader
variable {α β : Type}

theorem pure (a : α) : (Pure.pure a : Reading α).Plain := fun _ _ h => ⟨rfl, h⟩

theorem throw (fault : Fault) : (MonadExcept.throw fault : Reading α).Plain := fun _ _ h => ⟨rfl, h⟩

theorem bind {x : Reading α} {f : α → Reading β} (hx : x.Plain) (hf : ∀ a, (f a).Plain) :
    (x >>= f).Plain := by
  intro r v h
  obtain ⟨hanswer, hview⟩ := hx r v h
  rw [bind_apply, bind_apply]
  generalize x r = y at hanswer hview ⊢
  generalize x v = z at hanswer hview ⊢
  obtain ⟨result, r'⟩ := y
  obtain ⟨result', v'⟩ := z
  obtain rfl : result = result' := hanswer
  cases result with
  | ok a => exact hf a r' v' hview
  | error fault => exact ⟨rfl, hview⟩

end Reading.Plain

namespace OptionReader
variable {r v : OptionReader} {token : String} {rest : List String}

theorem view_onto (h : r.rest = token :: rest) (form : String) (inline? : Option String) :
    (r.onto form inline?).view = ⟨rest, inline?, some form, token == OptionToken.endText⟩ := by
  rw [view, rest_onto h, isAfterEndMark_onto h]
  rfl

theorem view_add (h : r.rest = token :: rest) :
    view { r with position := r.position + 1 } =
      ⟨rest, r.inlineValue, r.form, token == OptionToken.endText⟩ := by
  have hmark : isAfterEndMark { r with position := r.position + 1 } =
      (token == OptionToken.endText) := isAfterEndMark_onto h "" none
  rw [view, hmark]
  exact congrArg (OptionView.mk · _ _ _) (rest_add h)

theorem next_plain : next.Plain := by
  intro r v h
  have hrest : r.rest = v.rest := congrArg OptionView.rest h
  cases hr : r.rest with
  | nil =>
    rw [next_of_nil hr, next_of_nil (hrest ▸ hr)]
    exact ⟨rfl, h⟩
  | cons token rest =>
    have hv : v.rest = token :: rest := hrest ▸ hr
    cases ht : OptionToken.ofText token with
    | plain =>
      rw [next_of_plain hr ht, next_of_plain hv ht]
      exact ⟨rfl, h⟩
    | endMark =>
      obtain rfl := OptionToken.eq_endText ht
      rw [next_of_endMark hr, next_of_endMark hv, view_onto hr, view_onto hv]
      exact ⟨rfl, rfl⟩
    | named name form inline? =>
      rw [next_of_named hr ht, next_of_named hv ht, view_onto hr, view_onto hv]
      exact ⟨rfl, rfl⟩

theorem shownForm_congr (h : r.view = v.view) : r.shownForm = v.shownForm :=
  congrArg (·.form.getD "None") h

theorem view_bare_congr (h : r.view = v.view) : r.bare.view = v.bare.view :=
  congrArg (fun view : OptionView => { view with inlineValue := none }) h

theorem view_add_congr (h : r.view = v.view) (hr : r.rest ≠ []) :
    view { r with position := r.position + 1 } = view { v with position := v.position + 1 } := by
  obtain ⟨token, rest, hr⟩ := List.exists_cons_of_ne_nil hr
  have hv : v.rest = token :: rest := (congrArg OptionView.rest h).symm.trans hr
  have hinline : r.inlineValue = v.inlineValue := congrArg OptionView.inlineValue h
  have hform : r.form = v.form := congrArg OptionView.form h
  rw [view_add hr, view_add hv, hinline, hform]

theorem value_plain (description : String) : (OptionReader.value description).Plain := by
  intro r v h
  have hrest : r.rest = v.rest := congrArg OptionView.rest h
  have hinline : r.inlineValue = v.inlineValue := congrArg OptionView.inlineValue h
  cases hr : r.inlineValue with
  | some text =>
    rw [value_of_inline hr, value_of_inline (hinline ▸ hr)]
    exact ⟨rfl, view_bare_congr h⟩
  | none =>
    rw [value_of_none hr, value_of_none (hinline ▸ hr), ← hrest, shownForm_congr h]
    split
    · exact ⟨rfl, h⟩
    · next hhead =>
      exact ⟨rfl, view_add_congr h fun hnil => hhead (.inl (by rw [hnil]; rfl))⟩

theorem integer_plain (description : String) : (integer description).Plain := by
  refine .bind (value_plain description) fun text => ?_
  cases Text.integer? text with
  | some n => exact .pure n
  | none =>
    intro r v h
    have hfault : (Except.error (.options (.notDecimal description r.shownForm text)) :
        Except Fault Int) = .error (.options (.notDecimal description v.shownForm text)) := by
      rw [shownForm_congr h]
    exact ⟨hfault, h⟩

theorem switch_plain (default : Bool) : (switch default).Plain := by
  intro r v h
  have hrest : r.rest = v.rest := congrArg OptionView.rest h
  have hinline : r.inlineValue = v.inlineValue := congrArg OptionView.inlineValue h
  cases hr : r.inlineValue with
  | some text =>
    rw [switch_of_inline hr, switch_of_inline (hinline ▸ hr), shownForm_congr h]
    split <;> exact ⟨rfl, view_bare_congr h⟩
  | none =>
    rw [switch_of_none hr, switch_of_none (hinline ▸ hr), ← hrest]
    split
    · next htruth =>
      exact ⟨rfl, view_add_congr h fun hnil => by rw [hnil] at htruth; cases htruth⟩
    · exact ⟨rfl, h⟩

theorem remaining_plain : remaining.Plain := by
  intro r v h
  have hrest : r.rest = v.rest := congrArg OptionView.rest h
  have hmark : r.isAfterEndMark = v.isAfterEndMark := congrArg OptionView.isAfterEndMark h
  cases hr : r.rest with
  | nil =>
    rw [remaining_of_nil hr, remaining_of_nil (hrest ▸ hr)]
    exact ⟨rfl, h⟩
  | cons token rest =>
    rw [remaining_of_cons hr, remaining_of_cons (hrest ▸ hr), hmark, hrest]
    split <;> exact ⟨rfl, h⟩

end OptionReader

theorem OptionRule.read_plain {σ : Type} (rule : OptionRule σ) (s : σ) : (rule.read s).Plain := by
  cases rule with
  | text description put =>
    refine .bind (OptionReader.value_plain description) fun text => ?_
    split
    · exact .pure _
    · exact .throw _
  | number description put => exact .bind (OptionReader.integer_plain description) fun _ => .pure _
  | switch put => exact .bind (OptionReader.switch_plain true) fun _ => .pure _
  | bare put => exact .pure _

namespace SignerSettings
open OptionReader

theorem scopeFrom_plain (fuel : Nat) (s : SignerSettings) : (scopeFrom fuel s).Plain := by
  induction fuel generalizing s with
  | zero => exact .pure s
  | succ fuel ih =>
    intro r v h
    have hrest : r.rest = v.rest := congrArg OptionView.rest h
    cases hr : r.rest with
    | nil =>
      rw [scopeFrom_of_end (next_of_nil hr), scopeFrom_of_end (next_of_nil (hrest ▸ hr))]
      exact ⟨rfl, h⟩
    | cons token rest =>
      have hv : v.rest = token :: rest := hrest ▸ hr
      cases ht : OptionToken.ofText token with
      | plain =>
        rw [scopeFrom_of_end (next_of_plain hr ht), scopeFrom_of_end (next_of_plain hv ht)]
        exact ⟨rfl, h⟩
      | endMark =>
        obtain rfl := OptionToken.eq_endText ht
        rw [scopeFrom_of_end (next_of_endMark hr), scopeFrom_of_end (next_of_endMark hv),
          view_onto hr, view_onto hv]
        exact ⟨rfl, rfl⟩
      | named name form inline? =>
        rw [scopeFrom_of_named hr ht, scopeFrom_of_named hv ht]
        cases scopeRule? name with
        | none =>
          -- Both are in front of the option again, and forget the value that it has.
          have hfacing : (r.facing form).view = (v.facing form).view :=
            congrArg (fun view => OptionView.mk view.rest none (some form) view.isAfterEndMark) h
          exact ⟨rfl, hfacing⟩
        | some rule =>
          have honto : (r.onto form inline?).view = (v.onto form inline?).view :=
            (view_onto hr form inline?).trans (view_onto hv form inline?).symm
          have hread := rule.read_plain s _ _ honto
          dsimp only
          generalize rule.read s (r.onto form inline?) = y at hread ⊢
          generalize rule.read s (v.onto form inline?) = z at hread ⊢
          obtain ⟨result, r'⟩ := y
          obtain ⟨result', v'⟩ := z
          obtain rfl : result = result' := hread.1
          cases result with
          | ok t => exact ih t r' v' hread.2
          | error fault => exact ⟨rfl, hread.2⟩

theorem scope_plain : scope.Plain := by
  intro r v h
  have hrest : r.rest = v.rest := congrArg OptionView.rest h
  rw [scope_eq, scope_eq, ← hrest]
  have hread := scopeFrom_plain (r.rest.length + 1) .empty r v h
  generalize scopeFrom (r.rest.length + 1) .empty r = y at hread ⊢
  generalize scopeFrom (r.rest.length + 1) .empty v = z at hread ⊢
  obtain ⟨result, r'⟩ := y
  obtain ⟨result', v'⟩ := z
  obtain rfl : result = result' := hread.1
  cases result with
  | ok s =>
    dsimp only
    split <;> exact ⟨rfl, hread.2⟩
  | error fault => exact ⟨rfl, hread.2⟩

end SignerSettings

theorem OptionCall.reading_plain (call : OptionCall) : call.reading.Plain := by
  cases call with
  | next => exact .bind OptionReader.next_plain fun _ => .pure _
  | value description => exact .bind (OptionReader.value_plain description) fun _ => .pure _
  | integer description => exact .bind (OptionReader.integer_plain description) fun _ => .pure _
  | switch default => exact .bind (OptionReader.switch_plain default) fun _ => .pure _
  | remaining => exact .bind OptionReader.remaining_plain fun _ => .pure _
  | scope => exact .bind SignerSettings.scope_plain fun _ => .pure _

/-- Readers that show the same give the same answers. -/
theorem OptionReader.answers_congr {r v : OptionReader} (h : r.view = v.view)
    (calls : List OptionCall) : r.answers calls = v.answers calls := by
  induction calls generalizing r v with
  | nil => rfl
  | cons call calls ih =>
    obtain ⟨hanswer, hview⟩ := call.reading_plain r v h
    exact List.cons_eq_cons.mpr ⟨hanswer, ih hview⟩

end PackageSigning
