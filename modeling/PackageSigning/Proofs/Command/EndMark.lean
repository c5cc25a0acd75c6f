import PackageSigning.Proofs.Command.Rules
import PackageSigning.Proofs.Options.EndMark

/-!
# The end mark in a command

A command stops at an end mark that it comes upon itself, whatever options it has read before
(`OptionAction.StopsAtMarks`). One that ends a signer scope ends nothing else: behind it the command
reads on as though the tokens there were all that it was given (`OptionAction.ReadsOnBehindMarks`).
-/

namespace PackageSigning

theorem WrittenOption.Legible.isOption {o : WrittenOption} (h : o.Legible) :
    OptionToken.isOption o.token = true := by
  rw [OptionToken.isOption, WrittenOption.ofText_token h]

/-- Nothing that follows the options of a command is one. -/
theorem OptionsEnd.isOption_head {marked : Bool} {left : List String}
    (h : OptionsEnd (fun _ => False) marked left) :
    ∀ token ∈ (markIf marked ++ left).head?, OptionToken.isOption token = false := by
  cases h with
  | marked =>
    rintro _ ⟨⟩
    rfl
  | nil => exact nofun
  | plain h =>
    rintro _ ⟨⟩
    rw [OptionToken.isOption, h]
  | other _ other => exact other.elim

theorem OptionsEnd.exists_of_head {tokens : List String}
    (h : ∀ token ∈ tokens.head?, OptionToken.isOption token = false) :
    ∃ marked left, tokens = markIf marked ++ left ∧ OptionsEnd (fun _ => False) marked left := by
  cases tokens with
  | nil => exact ⟨false, [], rfl, .nil⟩
  | cons token rest =>
    cases ht : OptionToken.ofText token with
    | plain => exact ⟨false, token :: rest, rfl, .plain ht⟩
    | endMark =>
      obtain rfl := OptionToken.eq_endText ht
      exact ⟨true, rest, rfl, .marked⟩
    | named name form inline? =>
      have htoken := h token rfl
      rw [OptionToken.isOption, ht] at htoken
      cases htoken

theorem CommandRule.read_plain {σ : Type} (rule : CommandRule σ) (s : σ) : (rule.read s).Plain := by
  cases rule with
  | plain rule => exact rule.read_plain s
  | scope put => exact .bind SignerSettings.scope_plain fun _ => .pure _

namespace OptionAction
variable {σ : Type} {w : World} {take : String → σ → OptionAction (Option σ)}
  {rule? : String → Option (CommandRule σ)} {s t : σ} {r v : OptionReader}
  {behind left : List String}

/-- What the options come to from `s`, and the tokens that are left. -/
def reached (w : World) (take : String → σ → OptionAction (Option σ)) (s : σ)
    (tokens : List String) : Except Fault (σ × List String) :=
  (w.run (readAll take s (.start tokens))).1.map fun p => (p.1.1, p.2.rest)

/-- What the options come to depends on nothing but the tokens that have not been read. -/
theorem readFrom_of_rest (understands : Understands w take rule?) {fuel fuel' : Nat}
    {last last' : Option String} (h : r.rest = v.rest) (hfuel : r.rest.length < fuel)
    (hfuel' : r.rest.length < fuel') :
    (w.run (readFrom take fuel s last r)).1.map (fun p => (p.1.1, p.2.rest)) =
      (w.run (readFrom take fuel' s last' v)).1.map fun p => (p.1.1, p.2.rest) := by
  induction fuel generalizing fuel' s last last' r v with
  | zero => cases hfuel
  | succ fuel ih =>
    obtain ⟨fuel', rfl⟩ : ∃ n, fuel' = n + 1 := ⟨fuel' - 1, by omega⟩
    cases hr : r.rest with
    | nil =>
      have hv : v.rest = [] := h ▸ hr
      rw [run_readFrom_of_end (OptionReader.next_of_nil hr),
        run_readFrom_of_end (OptionReader.next_of_nil hv)]
      exact congrArg (fun rest => Except.ok (s, rest)) h
    | cons token rest =>
      have hv : v.rest = token :: rest := h ▸ hr
      cases ht : OptionToken.ofText token with
      | plain =>
        rw [run_readFrom_of_end (OptionReader.next_of_plain hr ht),
          run_readFrom_of_end (OptionReader.next_of_plain hv ht)]
        exact congrArg (fun rest => Except.ok (s, rest)) h
      | endMark =>
        obtain rfl := OptionToken.eq_endText ht
        rw [run_readFrom_of_end (OptionReader.next_of_endMark hr),
          run_readFrom_of_end (OptionReader.next_of_endMark hv)]
        exact congrArg (fun rest => Except.ok (s, rest))
          ((OptionReader.rest_onto hr _ _).trans (OptionReader.rest_onto hv _ _).symm)
      | named name form inline? =>
        rw [run_readFrom_of_named understands hr ht, run_readFrom_of_named understands hv ht]
        cases rule? name with
        | none => rfl
        | some rule =>
          have honto : (r.onto form inline?).view = (v.onto form inline?).view :=
            (OptionReader.view_onto hr form inline?).trans
              (OptionReader.view_onto hv form inline?).symm
          have hread := rule.read_plain s _ _ honto
          -- What the option takes is gone, so the fuel of either run lasts for the others.
          have htakes (s' : σ) (r' : OptionReader)
              (h : rule.read s (r.onto form inline?) = (.ok s', r')) :
              r'.rest.length ≤ rest.length := by
            obtain ⟨value, settings, marked, -, htakes⟩ := CommandRule.takes_of_read h
            have hrest := (htakes "" true).1
            rw [OptionReader.rest_onto hr] at hrest
            simp [hrest]
          dsimp only
          generalize rule.read s (r.onto form inline?) = y at hread htakes ⊢
          generalize rule.read s (v.onto form inline?) = z at hread ⊢
          obtain ⟨result, r'⟩ := y
          obtain ⟨result', v'⟩ := z
          obtain rfl : result = result' := hread.1
          cases result with
          | error fault => rfl
          | ok s' =>
            have hlength := htakes s' r' rfl
            rw [hr, List.length_cons] at hfuel hfuel'
            exact ih (congrArg OptionView.rest hread.2) (by omega) (by omega)

theorem reached_of_entry (understands : Understands w take rule?) {e : CommandEntry}
    (h : IsEntry rule? e behind s t) :
    reached w take s (e.tokens ++ behind) = reached w take t behind := by
  obtain ⟨legible, rule, hrule, takes⟩ := h
  have hrest : (OptionReader.start (e.tokens ++ behind)).rest =
      e.head.token :: (e.further ++ behind) := rfl
  obtain ⟨v, hread, hv⟩ := CommandRule.read_of_takes takes rfl
    (OptionReader.rest_onto hrest e.head.form e.head.value.inline?)
  have hlength : behind.length < (e.tokens ++ behind).length := by
    rw [CommandEntry.tokens, List.cons_append, List.length_cons, List.length_append]
    omega
  rw [reached, reached, run_readAll, run_readAll,
    run_readFrom_of_named understands hrest (WrittenOption.ofText_token legible), hrule]
  dsimp only
  rw [hread]
  exact readFrom_of_rest understands hv (hv ▸ hlength) (hv ▸ Nat.lt_succ_self _)

/-- Behind entries that are laid out, a command reads on as though nothing stood before. -/
theorem reached_of_laid (understands : Understands w take rule?) {entries : List CommandEntry}
    (laid : Laid CommandEntry.tokens (IsEntry rule?) entries behind s t) :
    reached w take s (entries.flatMap CommandEntry.tokens ++ behind) = reached w take t behind := by
  induction laid with
  | nil => rfl
  | cons first _ ih =>
    rw [List.flatMap_cons, List.append_assoc, reached_of_entry understands first]
    exact ih

theorem reached_of_end (understands : Understands w take rule?) {marked : Bool}
    (ends : OptionsEnd (fun _ => False) marked left) :
    reached w take s (markIf marked ++ left) = .ok (s, left) := by
  have laid : Laid CommandEntry.tokens (IsEntry rule?) [] (markIf marked ++ left) s s := .nil
  obtain ⟨last, r, hrun, ended⟩ := readAll_of_laid understands laid ends
  have hreached : reached w take s (markIf marked ++ left) = .ok (s, r.rest) :=
    congrArg (fun p : _ × World => p.1.map fun p => (p.1.1, p.2.rest)) hrun
  rw [hreached, ended.rest]

theorem laid_of_reached (understands : Understands w take rule?) {tokens : List String}
    (h : reached w take s tokens = .ok (t, left)) :
    ∃ entries marked, tokens = entries.flatMap CommandEntry.tokens ++ (markIf marked ++ left) ∧
      Laid CommandEntry.tokens (IsEntry rule?) entries (markIf marked ++ left) s t ∧
      OptionsEnd (fun _ => False) marked left := by
  cases hrun : (w.run (readAll take s (.start tokens))).1 with
  | error fault =>
    rw [reached, hrun] at h
    cases h
  | ok p =>
    obtain ⟨⟨t', last⟩, r⟩ := p
    rw [reached, hrun] at h
    cases h
    obtain ⟨entries, marked, left, htokens, laid, ended⟩ := laid_of_readAll understands hrun
    obtain rfl := ended.rest
    exact ⟨entries, marked, htokens, laid, ended.ends⟩

/-- Tokens are left alone, but for an end mark in front, just if the first is not an option. -/
theorem leaves_alone_iff (understands : Understands w take rule?) :
    (∃ marked left, behind = markIf marked ++ left ∧ reached w take t behind = .ok (t, left)) ↔
      ∀ token ∈ behind.head?, OptionToken.isOption token = false := by
  constructor
  · rintro ⟨marked, left, rfl, h⟩
    cases marked with
    | true =>
      rintro _ ⟨⟩
      rfl
    | false =>
      obtain ⟨entries, marked, htokens, -, ends⟩ := laid_of_reached understands h
      have hleft : left = entries.flatMap CommandEntry.tokens ++ (markIf marked ++ left) := htokens
      have hnone : entries.flatMap CommandEntry.tokens = [] := by
        have hlength := congrArg List.length hleft
        rw [List.length_append, List.length_append] at hlength
        exact List.eq_nil_of_length_eq_zero (by omega)
      rw [hleft, hnone]
      exact ends.isOption_head
  · intro h
    obtain ⟨marked, left, hbehind, ends⟩ := OptionsEnd.exists_of_head h
    exact ⟨marked, left, hbehind, hbehind ▸ reached_of_end understands ends⟩

/-- A command stops at an end mark of its own, behind whatever it has read, and leaves alone all that
stands behind it. -/
def StopsAtMarks (w : World) (take : String → σ → OptionAction (Option σ))
    (rule? : String → Option (CommandRule σ)) : Prop :=
  ∀ entries left s t,
    Laid CommandEntry.tokens (IsEntry rule?) entries (OptionToken.endText :: left) s t →
    reached w take s (entries.flatMap CommandEntry.tokens ++ OptionToken.endText :: left) =
      .ok (t, left)

theorem stopsAtMarks (understands : Understands w take rule?) : StopsAtMarks w take rule? := by
  intro entries left s t laid
  rw [reached_of_laid understands laid]
  show reached w take t (markIf true ++ left) = _
  exact reached_of_end understands .marked

/-- Behind a scope that ends with the end mark, a command reads on as though the tokens there were
all that it was given. It leaves them alone just if the first of them is not an option. -/
def ReadsOnBehindMarks (w : World) (take : String → σ → OptionAction (Option σ))
    (rule? : String → Option (CommandRule σ)) : Prop :=
  ∀ entries e behind s t, e.marked = true →
    Laid CommandEntry.tokens (IsEntry rule?) (entries ++ [e]) behind s t →
      reached w take s ((entries ++ [e]).flatMap CommandEntry.tokens ++ behind) =
        reached w take t behind ∧
      ((∃ marked left, behind = markIf marked ++ left ∧ reached w take t behind = .ok (t, left)) ↔
        ∀ token ∈ behind.head?, OptionToken.isOption token = false)

theorem readsOnBehindMarks (understands : Understands w take rule?) :
    ReadsOnBehindMarks w take rule? :=
  fun _ _ _ _ _ _ laid => ⟨reached_of_laid understands laid, leaves_alone_iff understands⟩

end OptionAction

namespace OptionReader
open OptionAction

/-- Right behind an end mark, whatever led there, no later call comes upon an option just if no
option is left, and then no later scope is read either. A command stops at an end mark of its own,
and it reads on behind a scope that ends with one. -/
theorem mark_ends_options_iff (w : World) :
    (∀ tokens r, Reachable tokens r → r.isAfterEndMark = true →
      ((∀ later name, .ok (.name (some name)) ∉ r.answers later) ↔ OptionFree r.rest) ∧
      (OptionFree r.rest → ∀ later s, .ok (.settings s) ∉ r.answers later)) ∧
    StopsAtMarks w RotateOptions.take RotateOptions.rule? ∧
    StopsAtMarks w LineageOptions.take LineageOptions.rule? ∧
    ReadsOnBehindMarks w RotateOptions.take RotateOptions.rule? ∧
    ReadsOnBehindMarks w LineageOptions.take LineageOptions.rule? := by
  refine ⟨?_, stopsAtMarks (RotateOptions.understands w), stopsAtMarks (LineageOptions.understands w),
    readsOnBehindMarks (RotateOptions.understands w),
    readsOnBehindMarks (LineageOptions.understands w)⟩
  intro tokens r reachable hmark
  exact ⟨names_behind_mark_iff reachable.tidy hmark,
    fun free later s hscope => answers_of_free free later _ hscope (.settings s)⟩

/-- A signer scope that ends with the end mark. -/
def sampleMarked (name : String) : CommandEntry :=
  ⟨⟨name, true, .absent⟩, [⟨"key", true, .separate "k"⟩], true⟩

/-- What the scope says. -/
def sampleSigner : SignerSettings := { keyFile := some "k" }

theorem sample_marks_passed :
    isAfterEndMark ⟨["--", "-w"], 1, 0, some "--", none, false⟩ = true ∧
    ((∀ later name, .ok (.name (some name)) ∉
      answers ⟨["--", "-w"], 1, 0, some "--", none, false⟩ later) ↔ OptionFree ["-w"]) ∧
    reached LineageCommand.sampleWorld LineageOptions.take .initial ["-v", "--", "--in", "f"] =
      .ok ({ verbose := true }, ["--in", "f"]) ∧
    reached LineageCommand.sampleWorld RotateOptions.take .initial
      ["--old-signer", "--key", "k", "--", "--min-sdk-version", "3"] =
        reached LineageCommand.sampleWorld RotateOptions.take { old := some sampleSigner }
          ["--min-sdk-version", "3"] ∧
    reached LineageCommand.sampleWorld LineageOptions.take .initial
      ["--signer", "--key", "k", "--", "--in", "f"] =
        reached LineageCommand.sampleWorld LineageOptions.take { signers := [sampleSigner] }
          ["--in", "f"] := by
  obtain ⟨hcalls, -, hstops, hrotate, hlineage⟩ := mark_ends_options_iff LineageCommand.sampleWorld
  have scope (behind : List String) : Laid WrittenOption.tokens SignerSettings.IsSetting
      [⟨"key", true, .separate "k"⟩] (markIf true ++ behind) .empty sampleSigner :=
    .cons ⟨.long (by decide) (by decide), _, rfl, .text rfl (by decide) rfl⟩ .nil
  have old : Laid CommandEntry.tokens (IsEntry RotateOptions.rule?) ([] ++ [sampleMarked "old-signer"])
      ["--min-sdk-version", "3"] .initial { old := some sampleSigner } :=
    .cons ⟨.long (by decide) (by decide), _, rfl, .scope rfl (scope _) .marked rfl⟩ .nil
  have signer : Laid CommandEntry.tokens (IsEntry LineageOptions.rule?) ([] ++ [sampleMarked "signer"])
      ["--in", "f"] .initial { signers := [sampleSigner] } :=
    .cons ⟨.long (by decide) (by decide), _, rfl, .scope rfl (scope _) .marked rfl⟩ .nil
  have verbose : Laid CommandEntry.tokens (IsEntry LineageOptions.rule?)
      [⟨⟨"v", false, .absent⟩, [], false⟩] (OptionToken.endText :: ["--in", "f"]) .initial
      { verbose := true } :=
    .cons ⟨.short (by decide) (by decide), _, rfl, .plain (.on rfl)⟩ .nil
  have hafter : after (.start ["--", "-w"]) .next = ⟨["--", "-w"], 1, 0, some "--", none, false⟩ := by
    decide +kernel
  have reachable : Reachable ["--", "-w"] ⟨["--", "-w"], 1, 0, some "--", none, false⟩ :=
    hafter ▸ .after .start .next
  have hold : ([] ++ [sampleMarked "old-signer"]).flatMap CommandEntry.tokens =
      ["--old-signer", "--key", "k", "--"] := by decide +kernel
  have hsigner : ([] ++ [sampleMarked "signer"]).flatMap CommandEntry.tokens =
      ["--signer", "--key", "k", "--"] := by decide +kernel
  have rotated := (hrotate [] _ _ _ _ rfl old).1
  have updated := (hlineage [] _ _ _ _ rfl signer).1
  rw [hold] at rotated
  rw [hsigner] at updated
  exact ⟨rfl, (hcalls _ _ reachable rfl).1, hstops _ _ _ _ verbose, rotated, updated⟩

/-- Behind the end mark options are read as before, by the reader and by the commands. -/
theorem sample_option_behind_mark :
    answers (start ["--", "-w"]) [.next, .next] = [.ok (.name none), .ok (.name (some "w"))] ∧
    (reached LineageCommand.sampleWorld RotateOptions.take .initial
      ["--old-signer", "--key", "k", "--", "--min-sdk-version", "3"]).map (·.1.minSdk) = .ok 3 ∧
    (reached LineageCommand.sampleWorld LineageOptions.take .initial
      ["--signer", "--key", "k", "--", "--in", "f"]).map (·.1.input) =
        .ok (some ⟨.relative, ["f"]⟩) :=
  ⟨by decide +kernel, by decide +kernel, by decide +kernel⟩

end OptionReader
end PackageSigning
