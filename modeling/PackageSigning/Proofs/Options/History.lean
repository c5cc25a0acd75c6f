import Mathlib.Data.List.Induction
import PackageSigning.Proofs.Failure
import PackageSigning.Proofs.Options.EndMark

/-!
# Calls in any order

Whoever reads options may call a reader in any order, go on after a refusal, and put options back.
A `ReaderCall` is one such call, a history is a list of them. What a call keeps of a reader
(`OptionReader.Sound`) holds after every history, a second option is refused exactly while one is
put back, and to put an option back and to read it again comes to nothing
(`OptionReader.sound_under_any_calls`).
-/

namespace PackageSigning

/-- A call of a reader. -/
inductive ReaderCall where
  | next
  | putBack
  | value (description : String)
  | integer (description : String)
  | switch (default : Bool)
  | remaining
  deriving DecidableEq, Repr

namespace ReaderCall

/-- What is called, the answer left out. -/
def reading : ReaderCall → Reading Unit
  | next => do
    let _ ← OptionReader.next
    return ()
  | putBack => OptionReader.putBack
  | value description => do
    let _ ← OptionReader.value description
    return ()
  | integer description => do
    let _ ← OptionReader.integer description
    return ()
  | switch default => do
    let _ ← OptionReader.switch default
    return ()
  | remaining => do
    let _ ← OptionReader.remaining
    return ()

/-- How a call may be refused: with a fault of the options, or as a misuse if it puts an option
back while another one is. -/
inductive Refusal : ReaderCall → Fault → Prop
  | options {call : ReaderCall} (reads : call ≠ putBack) (problem : OptionProblem) :
      Refusal call (.options problem)
  | putBack : Refusal putBack (.misuse .secondPutBack)

end ReaderCall

namespace OptionReader
variable {tokens : List String} {r : OptionReader} {history : List ReaderCall}

/-- The reader after some calls, whatever they have answered. -/
def afterCalls (r : OptionReader) (history : List ReaderCall) : OptionReader :=
  history.foldl (fun r call => (call.reading r).2) r

theorem afterCalls_concat (r : OptionReader) (history : List ReaderCall) (call : ReaderCall) :
    r.afterCalls (history ++ [call]) = (call.reading (r.afterCalls history)).2 := by
  simp [afterCalls]

/-! ## What every call keeps -/

/-- The tokens are the same, and the places are among them. -/
structure Sound (tokens : List String) (r : OptionReader) : Prop where
  tokens_eq : r.tokens = tokens
  option_le : r.optionPosition ≤ r.position
  position_le : r.position ≤ tokens.length

theorem Sound.start (tokens : List String) : (OptionReader.start tokens).Sound tokens :=
  ⟨rfl, Nat.le_refl 0, Nat.zero_le _⟩

/-- In front of a token there is a place behind it. -/
theorem Sound.position_lt (h : r.Sound tokens) {token : String} {rest : List String}
    (hrest : r.rest = token :: rest) : r.position < tokens.length := by
  have hlength := r.length_rest
  rw [hrest, h.tokens_eq, List.length_cons] at hlength
  omega

theorem Sound.add (h : r.Sound tokens) (hrest : r.rest ≠ []) :
    Sound tokens { r with position := r.position + 1 } := by
  obtain ⟨token, rest, hcons⟩ := List.exists_cons_of_ne_nil hrest
  have hlt := h.position_lt hcons
  exact ⟨h.tokens_eq, Nat.le_succ_of_le h.option_le, hlt⟩

theorem Sound.bare (h : r.Sound tokens) : r.bare.Sound tokens :=
  ⟨h.tokens_eq, h.option_le, h.position_le⟩

theorem next_keeps_sound : next.Keeps (Sound tokens) := by
  intro r h
  have hstay : Sound tokens { r with isPutBack := false } :=
    ⟨h.tokens_eq, h.option_le, h.position_le⟩
  cases hr : r.rest with
  | nil =>
    rw [next_of_nil hr]
    exact hstay
  | cons token rest =>
    have hlt := h.position_lt hr
    have honto (form : String) (inline? : Option String) : (r.onto form inline?).Sound tokens :=
      ⟨h.tokens_eq, Nat.le_succ r.position, hlt⟩
    cases ht : OptionToken.ofText token with
    | plain =>
      rw [next_of_plain hr ht]
      exact hstay
    | endMark =>
      obtain rfl := OptionToken.eq_endText ht
      rw [next_of_endMark hr]
      exact honto _ _
    | named name form inline? =>
      rw [next_of_named hr ht]
      exact honto _ _

theorem putBack_keeps_sound : putBack.Keeps (Sound tokens) := by
  intro r h
  unfold putBack
  split
  · exact h
  · exact ⟨h.tokens_eq, Nat.le_refl _, Nat.le_trans h.option_le h.position_le⟩

theorem value_keeps_sound (description : String) :
    (OptionReader.value description).Keeps (Sound tokens) :=
  value_keeps (fun _ h => h.bare) (fun _ h _ hrest => h.add hrest) description

theorem switch_keeps_sound (default : Bool) : (switch default).Keeps (Sound tokens) :=
  switch_keeps (fun _ h => h.bare) (fun _ h _ hrest => h.add hrest) default

theorem remaining_keeps_sound : remaining.Keeps (Sound tokens) := by
  intro r h
  rw [remaining_snd]
  exact h

theorem call_keeps_sound (call : ReaderCall) : call.reading.Keeps (Sound tokens) := by
  cases call with
  | next => exact .bind next_keeps_sound fun _ => .pure _
  | putBack => exact putBack_keeps_sound
  | value description => exact .bind (value_keeps_sound description) fun _ => .pure _
  | integer description => exact .bind (.integer value_keeps_sound description) fun _ => .pure _
  | switch default => exact .bind (switch_keeps_sound default) fun _ => .pure _
  | remaining => exact .bind remaining_keeps_sound fun _ => .pure _

/-- After any calls, the reader is as sound as before. -/
theorem afterCalls_sound (h : r.Sound tokens) (history : List ReaderCall) :
    (r.afterCalls history).Sound tokens := by
  induction history generalizing r with
  | nil => exact h
  | cons call history ih =>
    apply ih
    exact call_keeps_sound call r h

/-! ## What calls are refused with -/

theorem value_fails (description : String) (r : OptionReader) :
    FailsOnly (∃ problem, · = .options problem) (OptionReader.value description r).1 := by
  cases inline : r.inlineValue with
  | some text =>
    rw [value_of_inline inline]
    exact .ok _
  | none =>
    rw [value_of_none inline]
    split
    · exact .error ⟨_, rfl⟩
    · exact .ok _

theorem integer_fails (description : String) (r : OptionReader) :
    FailsOnly (∃ problem, · = .options problem) (integer description r).1 := by
  have hvalue := value_fails description r
  unfold integer
  rw [Reading.bind_apply]
  generalize OptionReader.value description r = y at hvalue ⊢
  obtain ⟨result, v⟩ := y
  cases result with
  | error fault => exact .error (hvalue fault rfl)
  | ok text =>
    dsimp only
    cases Text.integer? text with
    | some n => exact .ok _
    | none => exact .error ⟨_, rfl⟩

theorem switch_fails (default : Bool) (r : OptionReader) :
    FailsOnly (∃ problem, · = .options problem) (switch default r).1 := by
  cases inline : r.inlineValue with
  | some text =>
    rw [switch_of_inline inline]
    split
    · exact .ok _
    · exact .error ⟨_, rfl⟩
  | none =>
    rw [switch_of_none inline]
    split
    · exact .ok _
    · exact .ok _

theorem remaining_fails (r : OptionReader) :
    FailsOnly (∃ problem, · = .options problem) (remaining r).1 := by
  cases hr : r.rest with
  | nil =>
    rw [remaining_of_nil hr]
    exact .ok _
  | cons token rest =>
    rw [remaining_of_cons hr]
    split
    · exact .error ⟨_, rfl⟩
    · exact .ok _

theorem putBack_fst (r : OptionReader) :
    (putBack r).1 = if r.isPutBack then .error (.misuse .secondPutBack) else .ok () := by
  unfold putBack
  split
  · rfl
  · rfl

/-- A call that reads is refused with a fault of the options if what it reads is. -/
theorem refusal_of_reads {α : Type} {x : Reading α} {call : ReaderCall} (reads : call ≠ .putBack)
    (h : FailsOnly (∃ problem, · = .options problem) (x r).1) :
    FailsOnly call.Refusal ((x >>= fun _ => pure ()) r).1 := by
  rw [Reading.map_apply]
  refine (h.map _).mono ?_
  rintro _ ⟨problem, rfl⟩
  exact .options reads problem

theorem call_refusal (call : ReaderCall) (r : OptionReader) :
    FailsOnly call.Refusal (call.reading r).1 := by
  cases call with
  | next => exact refusal_of_reads nofun (.ok _)
  | putBack =>
    show FailsOnly _ (putBack r).1
    rw [putBack_fst]
    split
    · exact .error .putBack
    · exact .ok _
  | value description => exact refusal_of_reads nofun (value_fails description r)
  | integer description => exact refusal_of_reads nofun (integer_fails description r)
  | switch default => exact refusal_of_reads nofun (switch_fails default r)
  | remaining => exact refusal_of_reads nofun (remaining_fails r)

/-! ## While an option is put back -/

theorem isPutBack_next (r : OptionReader) : (next r).2.isPutBack = false := by
  rw [next_eq]
  split
  · rfl
  · split
    · rfl
    · rfl
    · rfl

theorem isPutBack_putBack (r : OptionReader) : (putBack r).2.isPutBack = true := by
  unfold putBack
  split
  · assumption
  · rfl

/-- The other calls leave it at that. -/
theorem isPutBack_call {call : ReaderCall} (notNext : call ≠ .next) (notPutBack : call ≠ .putBack)
    (r : OptionReader) : (call.reading r).2.isPutBack = r.isPutBack := by
  have hvalue (description : String) :
      (OptionReader.value description).Keeps (·.isPutBack = r.isPutBack) :=
    value_keeps (fun _ h => h) (fun _ h _ _ => h) description
  cases call with
  | next => exact absurd rfl notNext
  | putBack => exact absurd rfl notPutBack
  | value description => exact Reading.Keeps.bind (hvalue description) (fun _ => .pure _) r rfl
  | integer description =>
    exact Reading.Keeps.bind (.integer hvalue description) (fun _ => .pure _) r rfl
  | switch default =>
    exact Reading.Keeps.bind (switch_keeps (P := (·.isPutBack = r.isPutBack)) (fun _ h => h)
      (fun _ h _ _ => h) default) (fun _ => .pure _) r rfl
  | remaining =>
    unfold ReaderCall.reading
    dsimp only
    rw [Reading.map_apply, remaining_snd]

/-- Some call of a history has put an option back, and no option was read since. -/
def PutBackPending (r : OptionReader) (history : List ReaderCall) : Prop :=
  ∃ before later, history = before ++ .putBack :: later ∧
    (putBack (r.afterCalls before)).1 = .ok () ∧ .next ∉ later

theorem not_pending_nil : ¬ r.PutBackPending [] := by
  rintro ⟨before, later, heq, -⟩
  simp at heq

/-- The call that has put an option back is the last one, or one of those before. -/
theorem concat_eq_append_cons {call putter : ReaderCall} {before later : List ReaderCall}
    (h : history ++ [call] = before ++ putter :: later) :
    (later = [] ∧ call = putter) ∨
      ∃ later', later = later' ++ [call] ∧ history = before ++ putter :: later' := by
  rcases List.eq_nil_or_concat later with rfl | ⟨later', last, rfl⟩
  · left
    obtain ⟨-, hlast⟩ := List.append_inj' h rfl
    exact ⟨rfl, List.singleton_inj.mp hlast⟩
  · right
    have hsplit : history ++ [call] = (before ++ putter :: later') ++ [last] := by simpa using h
    obtain ⟨hhistory, hlast⟩ := List.append_inj' hsplit rfl
    obtain rfl := List.singleton_inj.mp hlast
    exact ⟨later', by simp, hhistory⟩

theorem not_pending_next : ¬ r.PutBackPending (history ++ [.next]) := by
  rintro ⟨before, later, heq, -, hlater⟩
  rcases concat_eq_append_cons heq with ⟨-, hcall⟩ | ⟨later', rfl, -⟩
  · cases hcall
  · exact hlater (by simp)

/-- Only a call that puts an option back or reads one changes whether one is put back. -/
theorem pending_concat_iff {call : ReaderCall} (notNext : call ≠ .next)
    (notPutBack : call ≠ .putBack) :
    r.PutBackPending (history ++ [call]) ↔ r.PutBackPending history := by
  constructor
  · rintro ⟨before, later, heq, hok, hlater⟩
    rcases concat_eq_append_cons heq with ⟨-, hcall⟩ | ⟨later', rfl, rfl⟩
    · exact absurd hcall notPutBack
    · exact ⟨before, later', rfl, hok, fun hmem => hlater (by simp [hmem])⟩
  · rintro ⟨before, later, rfl, hok, hlater⟩
    exact ⟨before, later ++ [call], by simp, hok, by simp [hlater, Ne.symm notNext]⟩

/-- Behind a call that puts an option back there is one that was, this one or another. -/
theorem pending_putBack (h : (r.afterCalls history).isPutBack = true → r.PutBackPending history) :
    r.PutBackPending (history ++ [.putBack]) := by
  cases hbefore : (r.afterCalls history).isPutBack with
  | true =>
    obtain ⟨before, later, rfl, hok, hlater⟩ := h hbefore
    exact ⟨before, later ++ [.putBack], by simp, hok, by simp [hlater]⟩
  | false =>
    refine ⟨history, [], rfl, ?_, List.not_mem_nil⟩
    rw [putBack_fst, hbefore]
    rfl

/-- An option is put back just if some call has put one back and none was read since. -/
theorem isPutBack_afterCalls (hr : r.isPutBack = false) (history : List ReaderCall) :
    (r.afterCalls history).isPutBack = true ↔ r.PutBackPending history := by
  -- By the last call: it decides, or else it leaves everything as it was.
  induction history using List.reverseRecOn with
  | nil => simp [afterCalls, hr, not_pending_nil]
  | append_singleton history call ih =>
    rw [afterCalls_concat]
    by_cases hnext : call = .next
    · subst hnext
      have hread : (ReaderCall.next.reading (r.afterCalls history)).2.isPutBack = false := by
        unfold ReaderCall.reading
        dsimp only
        rw [Reading.map_apply]
        exact isPutBack_next _
      simp [hread, not_pending_next]
    by_cases hput : call = .putBack
    · subst hput
      have hstate : (ReaderCall.putBack.reading (r.afterCalls history)).2.isPutBack = true :=
        isPutBack_putBack _
      simp [hstate, pending_putBack ih.mp]
    · rw [isPutBack_call hnext hput, ih, pending_concat_iff hnext hput]

/-! ## Reading an option again -/

/-- An option that was read, put back and read again is read as before, and leaves the reader as
before. -/
theorem next_putBack_next {name : String} {v : OptionReader} (h : next r = (.ok (some name), v)) :
    ∃ u, putBack v = (.ok (), u) ∧ next u = (.ok (some name), v) := by
  cases hr : r.rest with
  | nil =>
    rw [next_of_nil hr] at h
    cases h
  | cons token rest =>
    cases ht : OptionToken.ofText token with
    | plain =>
      rw [next_of_plain hr ht] at h
      cases h
    | endMark =>
      obtain rfl := OptionToken.eq_endText ht
      rw [next_of_endMark hr] at h
      cases h
    | named name' form inline? =>
      rw [next_of_named hr ht] at h
      cases h
      -- The option is in front again, and whatever is known of it is told by its token.
      have hagain : (r.facing form).rest = token :: rest := hr
      refine ⟨r.facing form, rfl, ?_⟩
      rw [next_of_named hagain ht]
      rfl

theorem remaining_suffix (h : r.Sound tokens) {left : List String}
    (hleft : (remaining r).1 = .ok left) : left <:+ tokens := by
  have hrest : r.rest <:+ tokens := by
    rw [rest, h.tokens_eq]
    exact List.drop_suffix _ _
  cases hr : r.rest with
  | nil =>
    rw [remaining_of_nil hr] at hleft
    cases hleft
    exact List.nil_suffix
  | cons token rest =>
    rw [remaining_of_cons hr] at hleft
    split at hleft
    · cases hleft
    · cases hleft
      exact hrest

/-- After any calls: the place is among the tokens; a call is refused with a fault of the options
or not at all, but for one that puts an option back, which is a misuse exactly while the option
that was last put back has not been read again; what is left is the end of the tokens; and an
option that is put back as soon as it was read is read again, and the reader is as it was. -/
theorem sound_under_any_calls (tokens : List String) (history : List ReaderCall) :
    let r := (OptionReader.start tokens).afterCalls history
    r.tokens = tokens ∧ r.position ≤ tokens.length ∧
      (∀ (call : ReaderCall) (fault : Fault), (call.reading r).1 = .error fault →
        call.Refusal fault) ∧
      ((putBack r).1 = .error (.misuse .secondPutBack) ↔
        (OptionReader.start tokens).PutBackPending history) ∧
      (∀ left, (remaining r).1 = .ok left → left <:+ tokens) ∧
      ∀ name v, next r = (.ok (some name), v) →
        ∃ u, putBack v = (.ok (), u) ∧ next u = (.ok (some name), v) := by
  intro r
  have hsound : r.Sound tokens := afterCalls_sound (.start tokens) history
  have hpending : (putBack r).1 = .error (.misuse .secondPutBack) ↔
      (OptionReader.start tokens).PutBackPending history := by
    rw [← isPutBack_afterCalls rfl history, putBack_fst]
    show _ ↔ r.isPutBack = true
    cases r.isPutBack <;> simp
  exact ⟨hsound.tokens_eq, hsound.position_le, fun call => call_refusal call r, hpending,
    fun left => remaining_suffix hsound, fun name v => next_putBack_next⟩

/-- An option whose value is taken before it is put back, and then taken for a value itself. -/
def sampleHistory : List ReaderCall := [.next, .value "Output", .putBack, .value "Output"]

/-- The reader after these calls. -/
def sampleReader : OptionReader := ⟨["--out=a", "--in=b"], 1, 0, some "--out", none, true⟩

theorem sample_sound_under_any_calls :
    (OptionReader.start ["--out=a", "--in=b"]).afterCalls sampleHistory = sampleReader ∧
    (ReaderCall.remaining.reading sampleReader).1 = .error (.options (.leftOver "--in=b")) ∧
    (OptionReader.start ["--out=a", "--in=b"]).PutBackPending sampleHistory ∧
    (next sampleReader).1 = .ok (some "in") ∧
    (∃ u, putBack (next sampleReader).2 = (.ok (), u) ∧ next u = next sampleReader) ∧
    (remaining (.start ["a", "b"])).1 = .ok ["a", "b"] ∧ ["a", "b"] <:+ ["a", "b"] := by
  have hreader : (OptionReader.start ["--out=a", "--in=b"]).afterCalls sampleHistory =
      sampleReader := by decide +kernel
  have hnext : (next sampleReader).1 = .ok (some "in") := by decide +kernel
  have hleft : (remaining (.start ["a", "b"])).1 = .ok ["a", "b"] := by decide +kernel
  obtain ⟨-, -, -, hpending, -, hagain⟩ :=
    sound_under_any_calls ["--out=a", "--in=b"] sampleHistory
  obtain ⟨-, -, -, -, hremaining, -⟩ := sound_under_any_calls ["a", "b"] []
  rw [hreader] at hpending hagain
  exact ⟨hreader, by decide +kernel, hpending.mp (by decide +kernel), hnext,
    hagain "in" _ (Prod.ext hnext rfl), hleft, hremaining _ hleft⟩

end OptionReader
end PackageSigning
