import PackageSigning.Proofs.Options.Calls

/-!
# What the end mark ends

The end mark is taken like an option, and it leaves nothing behind but its place. A reader behind
it comes upon an option again exactly if there is one among the tokens that it has not read
(`OptionReader.names_behind_mark_iff`).
-/

namespace PackageSigning

/-- Whether a token is an option. -/
def OptionToken.isOption (token : String) : Bool :=
  match ofText token with
  | .named .. => true
  | _ => false

/-- A reading that keeps what is true of the reader, also when it is refused. -/
def Reading.Keeps {α : Type} (P : OptionReader → Prop) (x : Reading α) : Prop :=
  ∀ r, P r → P (x r).2

namespace Reading
variable {α β : Type} {P : OptionReader → Prop}

theorem map_apply (x : Reading α) (f : α → β) (r : OptionReader) :
    (x >>= fun a => pure (f a)) r = ((x r).1.map f, (x r).2) := by
  rw [bind_apply]
  generalize x r = y
  obtain ⟨result, v⟩ := y
  cases result <;> rfl

namespace Keeps

theorem pure (a : α) : (Pure.pure a : Reading α).Keeps P := fun _ h => h

theorem throw (fault : Fault) : (MonadExcept.throw fault : Reading α).Keeps P := fun _ h => h

theorem bind {x : Reading α} {f : α → Reading β} (hx : x.Keeps P) (hf : ∀ a, (f a).Keeps P) :
    (x >>= f).Keeps P := by
  intro r h
  have hv := hx r h
  rw [bind_apply]
  generalize x r = y at hv ⊢
  obtain ⟨result, v⟩ := y
  cases result with
  | ok a => exact hf a v hv
  | error fault => exact hv

theorem integer (h : ∀ description, (OptionReader.value description).Keeps P)
    (description : String) : (OptionReader.integer description).Keeps P := by
  refine .bind (h description) fun text => ?_
  cases Text.integer? text with
  | some n => exact .pure n
  | none => exact fun _ h => h

end Keeps
end Reading

namespace OptionReader

/-! ## What taking a value keeps -/

section
variable {P : OptionReader → Prop} (bare : ∀ r : OptionReader, P r → P r.bare)
  (add : ∀ r : OptionReader, P r → r.inlineValue = none → r.rest ≠ [] →
    P { r with position := r.position + 1 })
include bare add

/-- A value is taken from the option, or it is the next token. -/
theorem value_keeps (description : String) : (OptionReader.value description).Keeps P := by
  intro r h
  cases inline : r.inlineValue with
  | some text =>
    rw [value_of_inline inline]
    exact bare r h
  | none =>
    rw [value_of_none inline]
    split
    · exact h
    · next hhead =>
      apply add r h inline
      intro hnil
      exact hhead (.inl (by rw [hnil]; rfl))

theorem switch_keeps (default : Bool) : (switch default).Keeps P := by
  intro r h
  cases inline : r.inlineValue with
  | some text =>
    rw [switch_of_inline inline]
    split
    · exact bare r h
    · exact bare r h
  | none =>
    rw [switch_of_none inline]
    split
    · next htruth =>
      apply add r h inline
      intro hnil
      rw [hnil] at htruth
      cases htruth
    · exact h

end

/-! ## Behind the mark there is no value -/

/-- The readers that one in front of the first token is turned into, by calls and by putting back
options. -/
inductive Reachable (tokens : List String) : OptionReader → Prop
  | start : Reachable tokens (.start tokens)
  | after {r : OptionReader} (h : Reachable tokens r) (call : OptionCall) :
      Reachable tokens (r.after call)
  | putBack {r : OptionReader} (h : Reachable tokens r) : Reachable tokens (putBack r).2

/-- Behind the end mark there is no value to take. -/
def Tidy (r : OptionReader) : Prop := r.isAfterEndMark = true → r.inlineValue = none

theorem next_keeps_tidy : next.Keeps Tidy := by
  intro r h
  cases hr : r.rest with
  | nil =>
    rw [next_of_nil hr]
    exact h
  | cons token rest =>
    cases ht : OptionToken.ofText token with
    | plain =>
      rw [next_of_plain hr ht]
      exact h
    | endMark =>
      obtain rfl := OptionToken.eq_endText ht
      rw [next_of_endMark hr]
      exact fun _ => rfl
    | named name form inline? =>
      rw [next_of_named hr ht]
      intro hmark
      rw [isAfterEndMark_onto hr] at hmark
      obtain rfl := eq_of_beq hmark
      cases ht

theorem value_keeps_tidy (description : String) : (OptionReader.value description).Keeps Tidy :=
  value_keeps (fun _ _ _ => rfl) (fun _ _ inline _ _ => inline) description

theorem switch_keeps_tidy (default : Bool) : (switch default).Keeps Tidy :=
  switch_keeps (fun _ _ _ => rfl) (fun _ _ inline _ _ => inline) default

theorem remaining_snd (r : OptionReader) : (remaining r).2 = r := by
  cases hr : r.rest with
  | nil => rw [remaining_of_nil hr]
  | cons token rest =>
    rw [remaining_of_cons hr]
    split <;> rfl

theorem putBack_keeps_tidy : putBack.Keeps Tidy := by
  intro r h
  unfold putBack
  split
  · exact h
  · exact fun _ => rfl

end OptionReader

theorem OptionRule.tryRead_keeps_tidy {σ : Type} (rule? : Option (OptionRule σ)) (s : σ) :
    (OptionRule.tryRead rule? s).Keeps OptionReader.Tidy := by
  cases rule? with
  | none => exact .pure _
  | some rule =>
    refine .bind ?_ fun _ => .pure _
    cases rule with
    | text description put =>
      refine .bind (OptionReader.value_keeps_tidy description) fun text => ?_
      split
      · exact .pure _
      · exact .throw _
    | number description put =>
      exact .bind (.integer OptionReader.value_keeps_tidy description) fun _ => .pure _
    | switch put => exact .bind (OptionReader.switch_keeps_tidy true) fun _ => .pure _
    | bare put => exact .pure _

namespace SignerSettings
open OptionReader

theorem scopeFrom_keeps_tidy (fuel : Nat) (s : SignerSettings) : (scopeFrom fuel s).Keeps Tidy := by
  induction fuel generalizing s with
  | zero => exact .pure _
  | succ fuel ih =>
    refine .bind next_keeps_tidy fun name? => ?_
    cases name? with
    | none => exact .pure _
    | some name =>
      have hoption : (scopeOption? name s).Keeps Tidy := by
        rw [scopeOption?_eq]
        exact OptionRule.tryRead_keeps_tidy _ s
      refine .bind hoption fun taken => ?_
      cases taken with
      | some s => exact ih s
      | none => exact .bind putBack_keeps_tidy fun _ => .pure _

theorem scope_snd (r : OptionReader) :
    (scope r).2 = (scopeFrom (r.rest.length + 1) .empty r).2 := by
  rw [scope_eq]
  generalize scopeFrom (r.rest.length + 1) .empty r = y
  obtain ⟨result, v⟩ := y
  cases result with
  | error fault => rfl
  | ok s =>
    dsimp only
    split <;> rfl

end SignerSettings

namespace OptionReader
variable {r : OptionReader} {token : String} {rest : List String}

theorem after_keeps_tidy (h : r.Tidy) (call : OptionCall) : (r.after call).Tidy := by
  unfold after OptionCall.reading
  cases call with
  | next => exact Reading.Keeps.bind next_keeps_tidy (fun _ => .pure _) r h
  | value description =>
    exact Reading.Keeps.bind (value_keeps_tidy description) (fun _ => .pure _) r h
  | integer description =>
    exact Reading.Keeps.bind (.integer value_keeps_tidy description) (fun _ => .pure _) r h
  | switch default => exact Reading.Keeps.bind (switch_keeps_tidy default) (fun _ => .pure _) r h
  | remaining =>
    dsimp only
    rw [Reading.map_apply, remaining_snd]
    exact h
  | scope =>
    dsimp only
    rw [Reading.map_apply, SignerSettings.scope_snd]
    exact SignerSettings.scopeFrom_keeps_tidy _ _ r h

theorem Reachable.tidy {tokens : List String} (h : Reachable tokens r) : r.Tidy := by
  induction h with
  | start => exact fun _ => rfl
  | after _ call ih => exact after_keeps_tidy ih call
  | putBack _ ih => exact putBack_keeps_tidy _ ih

/-! ## Tokens without an option -/

/-- No token is an option. -/
def OptionFree (tokens : List String) : Prop := ∀ token ∈ tokens, OptionToken.isOption token = false

theorem next_of_free (h : OptionFree r.rest) :
    ∃ v, next r = (.ok none, v) ∧ OptionFree v.rest := by
  cases hr : r.rest with
  | nil => exact ⟨_, next_of_nil hr, h⟩
  | cons token rest =>
    rw [hr] at h
    obtain ⟨htoken, hrest⟩ := List.forall_mem_cons.mp h
    cases ht : OptionToken.ofText token with
    | plain => exact ⟨_, next_of_plain hr ht, hr ▸ h⟩
    | endMark =>
      obtain rfl := OptionToken.eq_endText ht
      refine ⟨_, next_of_endMark hr, ?_⟩
      rw [rest_onto hr]
      exact hrest
    | named name form inline? =>
      rw [OptionToken.isOption, ht] at htoken
      cases htoken

theorem rest_add_free (h : OptionFree r.rest) :
    OptionFree (OptionReader.rest { r with position := r.position + 1 }) := by
  intro token htoken
  refine h token (List.mem_of_mem_drop (i := 1) ?_)
  rw [OptionReader.rest, List.drop_drop]
  exact htoken

theorem value_keeps_free (description : String) :
    (OptionReader.value description).Keeps (OptionFree ·.rest) :=
  value_keeps (fun _ h => h) (fun _ h _ _ => rest_add_free h) description

theorem switch_keeps_free (default : Bool) : (switch default).Keeps (OptionFree ·.rest) :=
  switch_keeps (fun _ h => h) (fun _ h _ _ => rest_add_free h) default

/-- An answer that tells of an option that was read. -/
inductive TellsOption : OptionAnswer → Prop
  | name (name : String) : TellsOption (.name (some name))
  | settings (s : SignerSettings) : TellsOption (.settings s)

theorem scope_of_free (h : OptionFree r.rest) :
    ∃ v, SignerSettings.scope r = (.error (.configuration .emptySignerScope), v) ∧
      OptionFree v.rest := by
  obtain ⟨v, hnext, hv⟩ := next_of_free h
  refine ⟨v, ?_, hv⟩
  rw [SignerSettings.scope_eq, SignerSettings.scopeFrom_of_end hnext]
  rfl

theorem not_tells_of_map {α : Type} {f : α → OptionAnswer} (hf : ∀ a, ¬ TellsOption (f a))
    {result : Except Fault α} {a : OptionAnswer} (h : result.map f = .ok a) : ¬ TellsOption a := by
  cases result with
  | error fault => cases h
  | ok b =>
    cases h
    exact hf b

/-- Among tokens without an option, no call comes upon one, and it leaves such tokens. -/
theorem answer_of_free (h : OptionFree r.rest) (call : OptionCall) :
    (∀ a, r.answer call = .ok a → ¬ TellsOption a) ∧ OptionFree (r.after call).rest := by
  unfold answer after OptionCall.reading
  cases call with
  | next =>
    obtain ⟨v, hnext, hv⟩ := next_of_free h
    dsimp only
    rw [Reading.map_apply, hnext]
    refine ⟨?_, hv⟩
    rintro _ ⟨⟩
    exact nofun
  | value description =>
    dsimp only
    rw [Reading.map_apply]
    exact ⟨fun _ => not_tells_of_map nofun, value_keeps_free description r h⟩
  | integer description =>
    dsimp only
    rw [Reading.map_apply]
    exact ⟨fun _ => not_tells_of_map nofun, Reading.Keeps.integer value_keeps_free description r h⟩
  | switch default =>
    dsimp only
    rw [Reading.map_apply]
    exact ⟨fun _ => not_tells_of_map nofun, switch_keeps_free default r h⟩
  | remaining =>
    dsimp only
    rw [Reading.map_apply, remaining_snd]
    exact ⟨fun _ => not_tells_of_map nofun, h⟩
  | scope =>
    obtain ⟨v, hscope, hv⟩ := scope_of_free h
    dsimp only
    rw [Reading.map_apply, hscope]
    refine ⟨fun a h => ?_, hv⟩
    cases h

theorem answers_of_free (h : OptionFree r.rest) (calls : List OptionCall) :
    ∀ a, .ok a ∈ r.answers calls → ¬ TellsOption a := by
  induction calls generalizing r with
  | nil => exact fun a hmem => absurd hmem List.not_mem_nil
  | cons call calls ih =>
    obtain ⟨hanswer, hrest⟩ := answer_of_free h call
    intro a hmem
    cases List.mem_cons.mp hmem with
    | inl hfirst => exact hanswer a hfirst.symm
    | inr hlater => exact ih hrest a hlater

/-! ## Tokens with an option -/

/-- With no value to take, calls can get past whatever is in front of an option. -/
theorem exists_name_of_mem (inline : r.inlineValue = none) (hmem : token ∈ r.rest)
    (h : OptionToken.isOption token = true) :
    ∃ calls name, .ok (.name (some name)) ∈ r.answers calls := by
  generalize hr : r.rest = tokens at hmem
  induction tokens generalizing r with
  | nil => cases hmem
  | cons first rest ih =>
    cases ht : OptionToken.ofText first with
    | named name form inline? =>
      have hanswer : r.answer .next = .ok (.name (some name)) := by
        rw [answer, OptionCall.reading, Reading.bind_of_ok (next_of_named hr ht)]
        rfl
      refine ⟨[.next], name, ?_⟩
      rw [answers, hanswer]
      exact List.mem_cons_self
    | endMark =>
      -- A further mark is taken by asking for an option, which leaves no value to take.
      obtain rfl := OptionToken.eq_endText ht
      have hne : token ≠ OptionToken.endText := by
        rintro rfl
        cases h
      have hafter : r.after .next = r.onto OptionToken.endText none := by
        rw [after, OptionCall.reading, Reading.bind_of_ok (next_of_endMark hr)]
        rfl
      obtain ⟨calls, name, hcalls⟩ := ih (r := r.onto OptionToken.endText none) rfl
        (rest_onto hr _ _) (List.mem_of_ne_of_mem hne hmem)
      exact ⟨.next :: calls, name, List.mem_cons_of_mem _ (hafter ▸ hcalls)⟩
    | plain =>
      -- Any other token is taken as a value.
      have hne : token ≠ first := by
        rintro rfl
        rw [OptionToken.isOption, ht] at h
        cases h
      have hmark : first ≠ OptionToken.endText := by
        rintro rfl
        cases ht
      have hafter : r.after (.value "") = { r with position := r.position + 1 } := by
        rw [after, OptionCall.reading, Reading.map_apply, value_of_none inline, hr, if_neg]
        simpa using hmark
      obtain ⟨calls, name, hcalls⟩ := ih (r := { r with position := r.position + 1 }) inline
        (rest_add hr) (List.mem_of_ne_of_mem hne hmem)
      exact ⟨.value "" :: calls, name, List.mem_cons_of_mem _ (hafter ▸ hcalls)⟩

/-- Behind the end mark no call comes upon an option just if there is none. -/
theorem names_behind_mark_iff (tidy : r.Tidy) (h : r.isAfterEndMark = true) :
    (∀ calls name, .ok (.name (some name)) ∉ r.answers calls) ↔ OptionFree r.rest := by
  constructor
  · intro hnone token hmem
    rw [← Bool.not_eq_true]
    intro hoption
    obtain ⟨calls, name, hname⟩ := exists_name_of_mem (tidy h) hmem hoption
    exact hnone calls name hname
  · intro free calls name hname
    exact answers_of_free free calls _ hname (.name name)

end OptionReader
end PackageSigning
