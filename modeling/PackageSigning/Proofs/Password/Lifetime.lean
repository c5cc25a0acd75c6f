import PackageSigning.Platform.Standard
import PackageSigning.Proofs.Password.Asking
import PackageSigning.Proofs.World.Input

/-!
# How long passwords live

Passwords are asked for and closed any number of times, one call after the other
(`World.after`). What a call hands out stays what it is until the next closing and is wiped from
then on; what is closed stays closed; and the lines of input go to the calls that ask for them,
one by one (`Password.passwords_live_until_closing`).
-/

namespace PackageSigning

open PackageSigning.Action

section General
variable [Platform]

namespace Password
variable {w v : World} {spec label : String} {further : List String}

/-! ## One call -/

theorem fileLines_looks (path : Path) : (fileLines path).Only Query.Looks := by
  refine .bind (.query trivial) fun contents => ?_
  split
  · exact .throw _
  · exact .throw _
  · refine .bind (.bind (.query trivial) fun _ => .ofResult _) fun encoding => ?_
    split
    · exact .pure _
    · exact .throw _
    · exact .throw _

/-- All sources but the input are only looked at. -/
theorem lines_looks (elsewhere : spec ≠ PasswordSource.inputSpec) :
    (lines spec label).Only Query.Looks := by
  unfold lines
  split
  · next source hsource =>
    cases source with
    | input => exact absurd (PasswordSource.ofSpec?_eq_input_iff.mp hsource) elsewhere
    | literal text => exact .pure _
    | environment name =>
      refine .bind (.query trivial) fun value => ?_
      split
      · exact .pure _
      · exact .throw _
    | file path => exact fileLines_looks _
  · exact .throw _

theorem linesAsked_lines (noTerminal : w.isTerminal = false) :
    w.linesAsked (lines spec label) = if spec = PasswordSource.inputSpec then 1 else 0 := by
  split
  · next hspec =>
    have hasked : w.asked (lines spec label) = [.isTerminal, .complain s!"{label}: ", .line] := by
      rw [hspec]
      show .isTerminal :: w.asked ((if w.isTerminal = true then _ else _) >>= fun line =>
        pure (Option.toList line)) = _
      rw [if_neg (by simp [noTerminal])]
      show .isTerminal :: .complain s!"{label}: " :: .line ::
        World.asked _ (ofMishap w.takeLine.1 >>= _ >>= _) = _
      cases w.takeLine.1 <;> rfl
    unfold World.linesAsked
    rw [hasked]
    rfl
  · next elsewhere =>
    exact World.linesAsked_of_only ((lines_looks elsewhere).mono fun _ => Query.Looks.leavesInput)

theorem run_lines_vault (noTerminal : w.isTerminal = false) (spec label : String) :
    (w.run (lines spec label)).2.vault = w.vault := by
  by_cases hspec : spec = PasswordSource.inputSpec
  · rw [hspec, run_lines_input noTerminal]
  · rw [World.run_of_looks (lines_looks hspec)]

omit [Platform] in
theorem log_leavesInput (text : String) : (log text).Only Query.LeavesInput := .query rfl

/-- Only the source asks for a line, and only when it is come to. -/
theorem linesAsked_candidates (w : World) (spec label : String) (further : List String) :
    w.linesAsked (candidates spec label further) =
      if w.vault.isOpen then
        match encodings w further with
        | .error _ => 0
        | .ok _ => w.linesAsked (lines spec label)
      else 0 := by
  unfold candidates encodings
  show (Query.vaultIsOpen :: w.asked (if (!w.vault.isOpen) = true then _ else _)).countP
    Query.takesLine = _
  cases w.vault.isOpen with
  | false => rfl
  | true =>
    rw [if_neg (by simp), if_pos rfl]
    show (Query.vaultIsOpen :: .nativeEncoding ::
      w.asked (ofResult (Text.Encoding.named w.native) >>= _)).countP Query.takesLine = _
    cases Text.Encoding.named w.native with
    | error fault => rfl
    | ok native =>
      show (Query.vaultIsOpen :: .nativeEncoding ::
        w.asked (ofResult (further.mapM encodingNamed) >>= _)).countP Query.takesLine = _
      cases further.mapM encodingNamed with
      | error fault => rfl
      | ok others =>
        exact World.linesAsked_bind_of_only fun texts => .bind (.forM (fun _ => log_leavesInput _) _)
          fun _ => .bind (.ofResult _) fun _ => .bind (.query rfl) fun _ => .bind (log_leavesInput _)
          fun _ => .pure _

theorem linesAsked_ne_zero_iff (noTerminal : w.isTerminal = false) (spec label : String)
    (further : List String) :
    w.linesAsked (candidates spec label further) ≠ 0 ↔ w.vault.isOpen = true ∧
      spec = PasswordSource.inputSpec ∧ ∃ found, encodings w further = .ok found := by
  rw [linesAsked_candidates, linesAsked_lines noTerminal]
  cases w.vault.isOpen <;> cases encodings w further <;> simp

theorem run_candidates_of_linesAsked (noTerminal : w.isTerminal = false)
    (h : w.linesAsked (candidates spec label further) ≠ 0) :
    w.linesAsked (candidates spec label further) = 1 ∧
      (w.run (candidates spec label further)).1 = (do
        let found ← encodings w further
        Candidate.all found (← w.lineAt 0)) := by
  obtain ⟨isOpen, hspec, found, hfound⟩ := (linesAsked_ne_zero_iff noTerminal spec label further).mp h
  constructor
  · rw [linesAsked_candidates, if_pos isOpen, hfound]
    exact (linesAsked_lines noTerminal).trans (if_pos hspec)
  · rw [run_candidates_fst, if_pos isOpen, hspec, run_lines_input noTerminal]

/-- Nothing is looked at behind a closing. -/
theorem run_candidates_of_closed (closed : w.vault.isOpen = false) (spec label : String)
    (further : List String) :
    w.run (candidates spec label further) = (.error (.misuse .closedRetriever), w) ∧
      w.asked (candidates spec label further) = [.vaultIsOpen] := by
  constructor
  · rw [run_candidates, closed]
    rfl
  · show .vaultIsOpen :: w.asked (if (!w.vault.isOpen) = true then _ else _) = _
    rw [closed]
    rfl

omit [Platform] in
theorem encodings_of_refused {name : String} (hname : name ∈ further)
    (refused : ∀ e, encodingNamed name ≠ .ok e) (found : List Text.Encoding) :
    encodings w further ≠ .ok found := by
  intro h
  obtain ⟨native, -, h⟩ := bind_eq_ok.mp h
  obtain ⟨others, hothers, -⟩ := bind_eq_ok.mp h
  obtain ⟨e, he⟩ := exists_of_mapM hothers hname
  exact refused e he

/-- What was handed out grows by what a call hands out. -/
theorem run_candidates_vault (noTerminal : w.isTerminal = false) (spec label : String)
    (further : List String) :
    (w.run (candidates spec label further)).2.vault =
      match (w.run (candidates spec label further)).1 with
      | .ok handed => w.vault.issue handed
      | .error _ => w.vault := by
  have hvault := run_lines_vault noTerminal spec label
  rw [run_candidates]
  split
  · cases encodings w further with
    | error fault => rfl
    | ok found =>
      dsimp only
      generalize w.run (lines spec label) = source at hvault
      obtain ⟨texts, v⟩ := source
      cases texts with
      | error fault => exact hvault
      | ok texts =>
        dsimp only at hvault ⊢
        unfold handOut
        cases Candidate.all found texts with
        | error fault => exact hvault
        | ok handed => exact congrArg (Vault.issue · handed) hvault
  · rfl

end Password

/-- What is done with passwords. -/
inductive PasswordCall where
  /-- Asks for the passwords that a specification stands for. -/
  | ask (spec label : String) (further : List String)
  /-- Wipes what was handed out, and hands out nothing any more. -/
  | close
  deriving DecidableEq

def PasswordCall.action : PasswordCall → Action (List Candidate)
  | ask spec label further => Password.candidates spec label further
  | close => do
    query .closeVault
    return []

/-! ## Calls in a row -/

namespace World
variable {w : World}

/-- The surroundings after calls in a row. -/
def after (w : World) (calls : List PasswordCall) : World :=
  calls.foldl (fun w call => (w.run call.action).2) w

/-- How many lines of input calls in a row ask for. -/
def linesTaken (w : World) : List PasswordCall → Nat
  | [] => 0
  | call :: calls => w.linesAsked call.action + linesTaken (w.run call.action).2 calls

theorem after_append (w : World) (calls later : List PasswordCall) :
    w.after (calls ++ later) = (w.after calls).after later := List.foldl_append

theorem run_call_alike (w : World) (call : PasswordCall) :
    (w.run call.action).2.native = w.native ∧
      (w.run call.action).2.isTerminal = w.isTerminal := by
  cases call with
  | ask spec label further =>
    have halike := run_alike (Password.candidates_gathering spec label further) w
    exact ⟨halike.native, halike.isTerminal⟩
  | close => exact ⟨rfl, rfl⟩

theorem after_alike (w : World) (calls : List PasswordCall) :
    (w.after calls).native = w.native ∧ (w.after calls).isTerminal = w.isTerminal := by
  induction calls generalizing w with
  | nil => exact ⟨rfl, rfl⟩
  | cons call calls ih =>
    obtain ⟨hnative, hterminal⟩ := run_call_alike w call
    obtain ⟨hnative', hterminal'⟩ := ih (w.run call.action).2
    exact ⟨hnative'.trans hnative, hterminal'.trans hterminal⟩

theorem after_isOpen (w : World) (calls : List PasswordCall) :
    (w.after calls).vault.isOpen = (w.vault.isOpen && !calls.contains .close) := by
  induction calls generalizing w with
  | nil => simp [after]
  | cons call calls ih =>
    show ((w.run call.action).2.after calls).vault.isOpen = _
    rw [ih]
    cases call with
    | ask spec label further =>
      have hopen := (run_alike (Password.candidates_gathering spec label further) w).isOpen
      show ((w.run (Password.candidates spec label further)).2.vault.isOpen && _) = _
      rw [hopen]
      simp
    | close =>
      show (false && _) = _
      simp

section
omit [Platform]

/-- What is left of a candidate after calls. -/
def leftOf (calls : List PasswordCall) (c : Candidate) : Candidate :=
  if .close ∈ calls then c.wiped else c

theorem leftOf_of_mem {calls : List PasswordCall} (h : .close ∈ calls) (c : Candidate) :
    leftOf calls c = c.wiped := if_pos h

theorem leftOf_of_not_mem {calls : List PasswordCall} (h : .close ∉ calls) (c : Candidate) :
    leftOf calls c = c := if_neg h

theorem map_leftOf_of_not_mem {calls : List PasswordCall} (h : .close ∉ calls)
    (candidates : List Candidate) : candidates.map (leftOf calls) = candidates :=
  (List.map_congr_left fun c _ => leftOf_of_not_mem h c).trans (List.map_id' _)

theorem leftOf_append (calls later : List PasswordCall) (c : Candidate) :
    leftOf (calls ++ later) c = leftOf later (leftOf calls c) := by
  unfold leftOf
  simp only [List.mem_append]
  by_cases hcalls : .close ∈ calls
  · rw [if_pos (.inl hcalls), if_pos hcalls]
    exact (ite_self c.wiped).symm
  · simp only [hcalls, false_or, if_false]

end

/-- What was handed out stays first in line. -/
theorem after_issued (noTerminal : w.isTerminal = false) (calls : List PasswordCall) :
    ∃ more, (w.after calls).vault.issued = w.vault.issued.map (leftOf calls) ++ more := by
  induction calls generalizing w with
  | nil => exact ⟨[], by rw [map_leftOf_of_not_mem List.not_mem_nil, List.append_nil]; rfl⟩
  | cons call calls ih =>
    have hstep : ∃ more, (w.run call.action).2.vault.issued =
        w.vault.issued.map (leftOf [call]) ++ more := by
      cases call with
      | close => exact ⟨[], (List.append_nil _).symm⟩
      | ask spec label further =>
        -- Nothing that was there is touched, whether the call hands something out or fails.
        have hkept : w.vault.issued.map (leftOf [.ask spec label further]) = w.vault.issued :=
          map_leftOf_of_not_mem (by simp) _
        show ∃ more, (w.run (Password.candidates spec label further)).2.vault.issued = _
        rw [Password.run_candidates_vault noTerminal spec label further, hkept]
        cases (w.run (Password.candidates spec label further)).1 with
        | ok handed => exact ⟨handed, rfl⟩
        | error fault => exact ⟨[], (List.append_nil _).symm⟩
    obtain ⟨more, hmore⟩ := hstep
    obtain ⟨others, hrest⟩ := ih ((run_call_alike w call).2.trans noTerminal)
    refine ⟨more.map (leftOf calls) ++ others, ?_⟩
    calc (w.after (call :: calls)).vault.issued
      _ = (w.run call.action).2.vault.issued.map (leftOf calls) ++ others := hrest
      _ = w.vault.issued.map (leftOf (call :: calls)) ++ (more.map (leftOf calls) ++ others) := by
        rw [hmore, List.map_append, List.map_map, List.append_assoc]
        exact congrArg (· ++ _) (List.map_congr_left fun c _ => (leftOf_append [call] calls c).symm)

/-- The lines of input that calls leave are those that they do not ask for. -/
theorem after_inputLines (w : World) (calls : List PasswordCall) :
    (w.after calls).inputLines = w.inputLines.drop (w.linesTaken calls) := by
  induction calls generalizing w with
  | nil => rfl
  | cons call calls ih =>
    calc (w.after (call :: calls)).inputLines
      _ = (w.run call.action).2.inputLines.drop (linesTaken (w.run call.action).2 calls) := ih _
      _ = w.inputLines.drop (w.linesTaken (call :: calls)) := by
        rw [run_inputLines, List.drop_drop]
        rfl

end World

namespace Password
variable {w : World}

theorem issued_slice (noTerminal : w.isTerminal = false) {spec label : String}
    {further : List String} {handed : List Candidate}
    (h : (w.run (candidates spec label further)).1 = .ok handed) (later : List PasswordCall) :
    (((w.after (.ask spec label further :: later)).vault.issued.drop w.vault.issued.length).take
      handed.length) = handed.map (World.leftOf later) := by
  have hvault := run_candidates_vault noTerminal spec label further
  rw [h] at hvault
  have halike := (World.run_call_alike w (.ask spec label further)).2
  obtain ⟨more, hmore⟩ := World.after_issued (halike.trans noTerminal) later
  have hissued : (w.after (.ask spec label further :: later)).vault.issued =
      (w.vault.issued ++ handed).map (World.leftOf later) ++ more := by
    refine hmore.trans ?_
    show ((w.run (candidates spec label further)).2.vault.issued.map _) ++ more = _
    rw [hvault]
    rfl
  rw [hissued, List.map_append, List.append_assoc]
  simp

/-- What is handed out stays what it is, or is wiped. -/
theorem left_of_handed (noTerminal : w.isTerminal = false) {spec label : String}
    {further : List String} {handed : List Candidate}
    (h : (w.run (candidates spec label further)).1 = .ok handed) (later : List PasswordCall) :
    let left := ((w.after (.ask spec label further :: later)).vault.issued.drop
      w.vault.issued.length).take handed.length
    (.close ∉ later → left = handed) ∧
      (.close ∈ later → left.length = handed.length ∧ ∀ c ∈ left, c.text = "" ∧ c.value = []) := by
  intro left
  have hleft : left = handed.map (World.leftOf later) := issued_slice noTerminal h later
  rw [hleft]
  constructor
  · intro hopen
    exact World.map_leftOf_of_not_mem hopen handed
  · intro hclosed
    refine ⟨List.length_map .., ?_⟩
    intro c hc
    obtain ⟨original, -, rfl⟩ := List.mem_map.mp hc
    rw [World.leftOf_of_mem hclosed]
    exact ⟨rfl, rfl⟩

/-- Whatever is asked for and closed before and after, in surroundings that are not typed at:
passwords that are handed out stay what they are until the next closing, and have no text and no
value from then on; behind a closing nothing is handed out, shown or read; a call that asks for a
line of input asks for one, and gets the one behind those that were asked for before; and a call
for another source, or with the name of an encoding that is refused, leaves the input alone. -/
theorem passwords_live_until_closing (isNew : w.vault = .fresh) (noTerminal : w.isTerminal = false)
    (before later : List PasswordCall) (spec label : String) (further : List String) :
    let v := w.after before
    let call := PasswordCall.ask spec label further
    let outcome := v.run call.action
    (∀ handed, outcome.1 = .ok handed →
      let left := ((w.after (before ++ call :: later)).vault.issued.drop
        v.vault.issued.length).take handed.length
      (.close ∉ later → left = handed) ∧
      (.close ∈ later → left.length = handed.length ∧ ∀ c ∈ left, c.text = "" ∧ c.value = [])) ∧
    (.close ∈ before → outcome = (.error (.misuse .closedRetriever), v) ∧
      v.asked call.action = [.vaultIsOpen]) ∧
    (v.linesAsked call.action ≠ 0 ↔ .close ∉ before ∧ spec = PasswordSource.inputSpec ∧
      ∃ found, encodings w further = .ok found) ∧
    (v.linesAsked call.action ≠ 0 → v.linesAsked call.action = 1 ∧ outcome.1 = (do
      let found ← encodings w further
      Candidate.all found (← w.lineAt (w.linesTaken before)))) ∧
    (spec ≠ PasswordSource.inputSpec ∨ (∃ name ∈ further, ∀ e, encodingNamed name ≠ .ok e) →
      v.linesAsked call.action = 0 ∧ outcome.2.input = v.input) := by
  intro v call outcome
  have hterminal : v.isTerminal = false := (World.after_alike w before).2.trans noTerminal
  have hencodings : encodings v further = encodings w further := by
    unfold encodings
    rw [(World.after_alike w before).1]
  have hisOpen : v.vault.isOpen = !before.contains .close := by
    show (w.after before).vault.isOpen = _
    rw [World.after_isOpen, isNew]
    rfl
  have hne : v.linesAsked call.action ≠ 0 ↔ .close ∉ before ∧
      spec = PasswordSource.inputSpec ∧ ∃ found, encodings w further = .ok found := by
    rw [← hencodings]
    show v.linesAsked (candidates spec label further) ≠ 0 ↔ _
    simpa [hisOpen] using linesAsked_ne_zero_iff hterminal spec label further
  refine ⟨?_, ?_, ?_, ?_, ?_⟩
  · intro handed hhanded
    rw [World.after_append]
    exact left_of_handed hterminal hhanded later
  · intro hclosed
    have closed : v.vault.isOpen = false := by simpa [hisOpen] using hclosed
    exact run_candidates_of_closed closed spec label further
  · exact hne
  · intro hasked
    obtain ⟨hone, hresult⟩ := run_candidates_of_linesAsked hterminal hasked
    have hline : v.lineAt 0 = w.lineAt (w.linesTaken before) := by
      unfold World.lineAt
      rw [World.after_inputLines, List.getElem?_drop, Nat.add_zero]
    rw [← hencodings, ← hline]
    exact ⟨hone, hresult⟩
  · intro hspared
    have hnone : v.linesAsked call.action = 0 := by
      refine Decidable.byContradiction fun hasked => ?_
      obtain ⟨-, hspec, found, hfound⟩ := hne.mp hasked
      obtain elsewhere | ⟨name, hname, refused⟩ := hspared
      · exact elsewhere hspec
      · exact encodings_of_refused hname refused found hfound
    refine ⟨hnone, ?_⟩
    rw [World.run_input, hnone]
    rfl

end Password
end General

section Samples
attribute [local instance] Platform.standard

namespace Password

/-- The second line goes to the second call that asks for one, and is gone once it is closed. -/
theorem sample_second_line :
    let w : World := { World.ofFiles (.ofContents []) with input := .ofText "a\nb\n" }
    let call := PasswordCall.ask PasswordSource.inputSpec "Password" []
    let handed : List Candidate := [⟨"b", "utf-8", Bytes.ofAscii "b"⟩]
    w.vault = .fresh ∧ w.isTerminal = false ∧
    ((w.after [call]).run call.action).1 = .ok handed ∧
    ∀ c ∈ ((w.after [call, call, .close]).vault.issued.drop
      (w.after [call]).vault.issued.length).take handed.length, c.text = "" ∧ c.value = [] := by
  intro w call handed
  obtain ⟨hleft, -, hasked, hline, -⟩ := passwords_live_until_closing (w := w) rfl rfl [call]
    [.close] PasswordSource.inputSpec "Password" []
  have hfound : encodings w [] = .ok [.utf8] := by decide +kernel
  have hresult := (hline (hasked.mpr ⟨by decide, rfl, _, hfound⟩)).2
  have hhanded : ((w.after [call]).run call.action).1 = .ok handed :=
    hresult.trans (by decide +kernel)
  exact ⟨rfl, rfl, hhanded, ((hleft handed hhanded).2 (by decide)).2⟩

end Password
end Samples
end PackageSigning
