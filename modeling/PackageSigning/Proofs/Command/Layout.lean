import PackageSigning.Command.Options
import PackageSigning.Proofs.Options.Scope
import PackageSigning.Proofs.World

/-!
# How the tokens of a command are laid out

A command that understands its options by rules (`OptionAction.Understands`) reads its tokens as
entries: an option with its value, and for a signer the whole scope. What it has read was laid out
so (`OptionAction.laid_of_readAll`), and what is laid out so is read
(`OptionAction.readAll_of_laid`).
-/

namespace PackageSigning

/-- How a command understands one of its options. -/
inductive CommandRule (σ : Type) where
  | plain (rule : OptionRule σ)
  /-- The option is followed by a signer scope. -/
  | scope (put : SignerSettings → σ → σ)

/-- An option of a command, with the scope that belongs to it. -/
structure CommandEntry where
  head : WrittenOption
  settings : List WrittenOption
  /-- Whether the scope ends with the end mark. -/
  marked : Bool

namespace CommandEntry

/-- The tokens behind the first one. -/
def further (e : CommandEntry) : List String :=
  e.head.value.separate?.toList ++ (e.settings.flatMap WrittenOption.tokens ++ markIf e.marked)

/-- The tokens of the entry. -/
def tokens (e : CommandEntry) : List String := e.head.token :: e.further

theorem tokens_ne_nil (e : CommandEntry) : e.tokens ≠ [] := List.cons_ne_nil _ _

end CommandEntry

namespace CommandRule
variable {σ : Type} {rule : CommandRule σ} {e : CommandEntry} {behind : List String} {s s' : σ}
  {r r' : OptionReader}

/-- Reads what belongs to the last option into what there is. -/
def read : CommandRule σ → σ → Reading σ
  | plain rule, s => rule.read s
  | scope put, s => return put (← SignerSettings.scope) s

/-- What reading an option comes to for a command: a fault ends it. -/
def outcome (rule : CommandRule σ) (s : σ) (r : OptionReader) :
    Except Fault (Option σ × OptionReader) :=
  match rule.read s r with
  | (.ok s, r) => .ok (some s, r)
  | (.error fault, _) => .error fault

/-- Written like this in front of these tokens, the option changes `s` to `s'`. -/
inductive Takes : CommandRule σ → CommandEntry → List String → σ → σ → Prop
  | plain {rule : OptionRule σ} {head : WrittenOption} {behind : List String} {s s' : σ}
      (takes : rule.Takes head.value behind s s') :
      Takes (.plain rule) ⟨head, [], false⟩ behind s s'
  | scope {put : SignerSettings → σ → σ} {e : CommandEntry} {behind : List String} {s : σ}
      {settings : SignerSettings} (apart : e.head.value.separate? = none)
      (laid : Laid WrittenOption.tokens SignerSettings.IsSetting e.settings
        (markIf e.marked ++ behind) .empty settings)
      (ends : OptionsEnd (SignerSettings.scopeRule? · = none) e.marked behind)
      (notEmpty : settings.isEmpty = false) : Takes (.scope put) e behind s (put settings s)

theorem read_of_takes (h : rule.Takes e behind s s') (inline : r.inlineValue = e.head.value.inline?)
    (hrest : r.rest = e.further ++ behind) :
    ∃ r', rule.read s r = (.ok s', r') ∧ r'.rest = behind := by
  cases h with
  | @plain rule head _ _ _ takes =>
    have hvalue : r.rest = head.value.separate?.toList ++ behind := by
      rw [hrest]
      simp [CommandEntry.further, markIf]
    obtain ⟨r', hread, hbare, -⟩ := OptionRule.read_of_takes takes inline hvalue
    exact ⟨r', hread, (congrArg OptionReader.rest hbare).trans (OptionReader.rest_behind hvalue)⟩
  | scope apart laid ends notEmpty =>
    have hscope : r.rest = e.settings.flatMap WrittenOption.tokens ++ (markIf e.marked ++ behind) := by
      rw [hrest]
      simp [CommandEntry.further, apart]
    obtain ⟨r', hread, hleft, -⟩ := SignerSettings.scope_of_laid laid ends notEmpty hscope
    refine ⟨r', ?_, hleft⟩
    rw [read, Reading.bind_of_ok hread]
    rfl

theorem takes_of_read (h : rule.read s r = (.ok s', r')) :
    ∃ value settings marked, r.inlineValue = value.inline? ∧ ∀ name isLong,
      r.rest = CommandEntry.further ⟨⟨name, isLong, value⟩, settings, marked⟩ ++ r'.rest ∧
      rule.Takes ⟨⟨name, isLong, value⟩, settings, marked⟩ r'.rest s s' := by
  cases rule with
  | plain rule =>
    obtain ⟨value, inline, hvalue, takes⟩ := OptionRule.takes_of_read h
    refine ⟨value, [], false, inline, fun name isLong => ⟨?_, .plain takes⟩⟩
    rw [hvalue]
    simp [CommandEntry.further, markIf]
  | scope put =>
    obtain ⟨settings, v, hread, h⟩ := Reading.bind_eq_ok.mp h
    cases h
    obtain ⟨notEmpty, written, marked, hrest, laid, ends⟩ := SignerSettings.laid_of_scope hread
    cases hvalue : r.inlineValue with
    | none =>
      refine ⟨.absent, written, marked, rfl, fun name isLong => ⟨?_, .scope rfl laid ends notEmpty⟩⟩
      rw [hrest]
      simp [CommandEntry.further, WrittenValue.separate?]
    | some text =>
      refine ⟨.inline text, written, marked, rfl, fun name isLong =>
        ⟨?_, .scope rfl laid ends notEmpty⟩⟩
      rw [hrest]
      simp [CommandEntry.further, WrittenValue.separate?]

end CommandRule

/-- An entry that a command understands by its rules. -/
def IsEntry {σ : Type} (rule? : String → Option (CommandRule σ)) (e : CommandEntry)
    (behind : List String) (s s' : σ) : Prop :=
  e.head.Legible ∧ ∃ rule, rule? e.head.name = some rule ∧ rule.Takes e behind s s'

namespace OptionAction
variable {σ : Type} {w : World} {take : String → σ → OptionAction (Option σ)}
  {rule? : String → Option (CommandRule σ)} {r r' : OptionReader} {s s' : σ}
  {last last' : Option String} {token name form : String} {inline? : Option String}
  {rest left : List String} {fuel : Nat} {marked : Bool}

/-- In these surroundings, the options that a command takes are those that it has rules for, and
each is read by its rule. -/
def Understands (w : World) (take : String → σ → OptionAction (Option σ))
    (rule? : String → Option (CommandRule σ)) : Prop :=
  ∀ name s r, w.run (take name s r) = (match rule? name with
    | none => .ok (none, r)
    | some rule => rule.outcome s r, w)

theorem run_bind_apply {α β : Type} (x : OptionAction α) (f : α → OptionAction β)
    (r : OptionReader) : w.run ((x >>= f) r) = match w.run (x r) with
      | (.ok (a, r), w) => w.run (f a r)
      | (.error fault, w) => (.error fault, w) := by
  refine (World.run_bind w (x r) fun p => f p.1 p.2).trans ?_
  generalize w.run (x r) = y
  obtain ⟨result, v⟩ := y
  cases result <;> rfl

theorem run_step_bind {α β : Type} (x : Reading α) (f : α → OptionAction β) (r : OptionReader) :
    w.run ((step x >>= f) r) = match x r with
      | (.ok a, r) => w.run (f a r)
      | (.error fault, _) => (.error fault, w) := by
  rw [run_bind_apply, step, World.run_ofResult, Reading.commit]
  generalize x r = y
  obtain ⟨result, v⟩ := y
  cases result <;> rfl

theorem run_readFrom_of_end (h : OptionReader.next r = (.ok none, r')) :
    w.run (readFrom take (fuel + 1) s last r) = (.ok ((s, last), r'), w) := by
  rw [readFrom, run_step_bind, h]
  rfl

theorem run_readFrom_of_named (understands : Understands w take rule?) (h : r.rest = token :: rest)
    (ht : OptionToken.ofText token = .named name form inline?) :
    w.run (readFrom take (fuel + 1) s last r) = match rule? name with
      | none => (.error (.configuration (.unknownOption form)), w)
      | some rule =>
        match rule.read s (r.onto form inline?) with
        | (.ok s, r) => w.run (readFrom take fuel s (some form) r)
        | (.error fault, _) => (.error fault, w) := by
  rw [readFrom, run_step_bind, OptionReader.next_of_named h ht]
  have hget : w.run ((get : OptionAction OptionReader) (r.onto form inline?)) =
      (.ok (r.onto form inline?, r.onto form inline?), w) := rfl
  dsimp only
  rw [run_bind_apply, hget]
  dsimp only
  rw [run_bind_apply, understands]
  cases rule? name with
  | none => rfl
  | some rule =>
    dsimp only
    rw [CommandRule.outcome]
    generalize rule.read s (r.onto form inline?) = y
    obtain ⟨result, v⟩ := y
    cases result <;> rfl

/-- Where options have ended: in front of what is left, which is no option of the command, and
behind the end mark if that was read. -/
structure Ended (marked : Bool) (left : List String) (r : OptionReader) : Prop where
  ends : OptionsEnd (fun _ => False) marked left
  rest : r.rest = left
  behind : marked = true → r.isAfterEndMark = true

/-- What is left after the options is not refused. -/
theorem remaining_of_ended (h : Ended marked left r) :
    OptionReader.remaining r = (.ok left, r) := by
  obtain ⟨ends, hrest, behind⟩ := h
  cases ends with
  | marked =>
    cases left with
    | nil => rw [OptionReader.remaining_of_nil hrest]
    | cons token left =>
      rw [OptionReader.remaining_of_cons hrest, if_neg (by simp [behind rfl]), hrest]
  | nil => rw [OptionReader.remaining_of_nil hrest]
  | plain h =>
    rw [OptionReader.remaining_of_cons hrest, if_neg, hrest]
    exact fun refused => OptionToken.head?_ne_dash h refused.1
  | other _ other => exact other.elim

/-- What a command has read was laid out. -/
theorem laid_of_readFrom (understands : Understands w take rule?)
    (h : (w.run (readFrom take fuel s last r)).1 = .ok ((s', last'), r'))
    (hfuel : r.rest.length < fuel) :
    ∃ entries marked left, r.rest = entries.flatMap CommandEntry.tokens ++ (markIf marked ++ left) ∧
      Laid CommandEntry.tokens (IsEntry rule?) entries (markIf marked ++ left) s s' ∧
      Ended marked left r' := by
  induction fuel generalizing s last r with
  | zero => cases hfuel
  | succ fuel ih =>
    cases hrest : r.rest with
    | nil =>
      rw [run_readFrom_of_end (OptionReader.next_of_nil hrest)] at h
      cases h
      exact ⟨[], false, [], rfl, .nil, .nil, hrest, nofun⟩
    | cons token rest =>
      cases ht : OptionToken.ofText token with
      | plain =>
        rw [run_readFrom_of_end (OptionReader.next_of_plain hrest ht)] at h
        cases h
        exact ⟨[], false, token :: rest, rfl, .nil, .plain ht, hrest, nofun⟩
      | endMark =>
        obtain rfl := OptionToken.eq_endText ht
        rw [run_readFrom_of_end (OptionReader.next_of_endMark hrest)] at h
        cases h
        refine ⟨[], true, rest, rfl, .nil, .marked, OptionReader.rest_onto hrest _ _, fun _ => ?_⟩
        rw [OptionReader.isAfterEndMark_onto hrest]
        rfl
      | named name form inline? =>
        rw [run_readFrom_of_named understands hrest ht] at h
        cases hrule : rule? name with
        | none =>
          rw [hrule] at h
          cases h
        | some rule =>
          rw [hrule] at h
          dsimp only at h
          cases hread : rule.read s (r.onto form inline?) with
          | mk result v =>
            rw [hread] at h
            cases result with
            | error fault => cases h
            | ok t =>
              -- The rule tells what belongs to the option, the token how the option was written.
              obtain ⟨value, settings, marked, inline, htakes⟩ := CommandRule.takes_of_read hread
              obtain ⟨isLong, hwritten⟩ := WrittenOption.exists_of_named ht
              obtain ⟨legible, htoken, -⟩ := hwritten value inline.symm
              obtain ⟨hvalue, takes⟩ := htakes name isLong
              rw [OptionReader.rest_onto hrest] at hvalue
              have hlength : v.rest.length < fuel := by
                rw [hrest, hvalue] at hfuel
                simp at hfuel
                omega
              obtain ⟨entries, marked', left, hentries, laid, ended⟩ := ih h hlength
              refine ⟨⟨⟨name, isLong, value⟩, settings, marked⟩ :: entries, marked', left, ?_,
                .cons ⟨legible, rule, hrule, ?_⟩ laid, ended⟩
              · rw [hvalue, hentries, List.flatMap_cons, CommandEntry.tokens, htoken]
                simp
              · rw [← hentries]
                exact takes

/-- What is laid out is read, up to where it ends. -/
theorem readFrom_of_laid (understands : Understands w take rule?) {entries : List CommandEntry}
    (laid : Laid CommandEntry.tokens (IsEntry rule?) entries (markIf marked ++ left) s s')
    (ends : OptionsEnd (fun _ => False) marked left)
    (hrest : r.rest = entries.flatMap CommandEntry.tokens ++ (markIf marked ++ left))
    (hfuel : entries.length < fuel) :
    ∃ last' r', w.run (readFrom take fuel s last r) = (.ok ((s', last'), r'), w) ∧
      Ended marked left r' := by
  induction entries generalizing s last r fuel with
  | nil =>
    cases laid
    obtain ⟨fuel, rfl⟩ : ∃ n, fuel = n + 1 := ⟨fuel - 1, by omega⟩
    have hends := ends
    cases ends with
    | marked =>
      refine ⟨last, _, run_readFrom_of_end (OptionReader.next_of_endMark hrest), hends,
        OptionReader.rest_onto hrest _ _, fun _ => ?_⟩
      rw [OptionReader.isAfterEndMark_onto hrest]
      rfl
    | nil => exact ⟨last, _, run_readFrom_of_end (OptionReader.next_of_nil hrest), hends, hrest, nofun⟩
    | plain h =>
      exact ⟨last, _, run_readFrom_of_end (OptionReader.next_of_plain hrest h), hends, hrest, nofun⟩
    | other _ other => exact other.elim
  | cons e entries ih =>
    obtain ⟨fuel, rfl⟩ : ∃ n, fuel = n + 1 := ⟨fuel - 1, by omega⟩
    cases laid with
    | cons first laid =>
      obtain ⟨legible, rule, hrule, takes⟩ := first
      have hrest' : r.rest = e.head.token :: (e.further ++
          (entries.flatMap CommandEntry.tokens ++ (markIf marked ++ left))) := by
        rw [hrest]
        simp [CommandEntry.tokens]
      obtain ⟨v, hread, hv⟩ :=
        CommandRule.read_of_takes takes rfl
          (OptionReader.rest_onto hrest' e.head.form e.head.value.inline?)
      obtain ⟨last', r', hrun, ended⟩ := ih laid hv (Nat.lt_of_succ_lt_succ hfuel)
      refine ⟨last', r', ?_, ended⟩
      rw [run_readFrom_of_named understands hrest' (WrittenOption.ofText_token legible), hrule]
      dsimp only
      rw [hread]
      exact hrun

theorem run_readAll (tokens : List String) (s : σ) :
    w.run (readAll take s (.start tokens)) =
      w.run (readFrom take (tokens.length + 1) s none (.start tokens)) := rfl

theorem laid_of_readAll (understands : Understands w take rule?) {tokens : List String}
    (h : (w.run (readAll take s (.start tokens))).1 = .ok ((s', last'), r')) :
    ∃ entries marked left, tokens = entries.flatMap CommandEntry.tokens ++ (markIf marked ++ left) ∧
      Laid CommandEntry.tokens (IsEntry rule?) entries (markIf marked ++ left) s s' ∧
      Ended marked left r' :=
  laid_of_readFrom understands h (Nat.lt_succ_self _)

theorem readAll_of_laid (understands : Understands w take rule?) {entries : List CommandEntry}
    (laid : Laid CommandEntry.tokens (IsEntry rule?) entries (markIf marked ++ left) s s')
    (ends : OptionsEnd (fun _ => False) marked left) :
    ∃ last' r', w.run (readAll take s (.start
      (entries.flatMap CommandEntry.tokens ++ (markIf marked ++ left)))) =
        (.ok ((s', last'), r'), w) ∧ Ended marked left r' := by
  rw [run_readAll]
  refine readFrom_of_laid understands laid ends rfl ?_
  have hlength := length_le_flatMap CommandEntry.tokens_ne_nil entries
  rw [List.length_append]
  omega

end OptionAction
end PackageSigning
