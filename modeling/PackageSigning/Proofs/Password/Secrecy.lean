import PackageSigning.Proofs.Password.Lifetime
import PackageSigning.Proofs.Password.Sources

/-!
# What is told of passwords

Two askings for passwords that differ in the password alone (`Password.Twins`) show the same text,
whatever they end with. The log is told more (`Password.notes`): which encodings cannot write the
passwords, and how many candidates they come to. When both askings fail with a fault of the tool,
it is the same fault, unless the specifications name no source: then each is repeated in its
message, and a password that was meant to follow `pass:` with it (`Password.told_alike_iff`).
-/

namespace PackageSigning

open PackageSigning.Action

section General
variable [Platform]

namespace Password

/-- Two askings, each in its surroundings, that differ in the password and in nothing else. -/
inductive Twins (w : World) : String → World → String → Prop
  | literal (text text' : String) : Twins w ("pass:" ++ text) w ("pass:" ++ text')
  | environment {name text text' : String} {environment : List (String × String)}
      (set : w.environment.lookup name = some text)
      (set' : environment.lookup name = some text') :
      Twins w ("env:" ++ name) { w with environment } ("env:" ++ name)
  | file {path : String} {contents contents' : Bytes} {files : Files}
      (held : w.files.read (Path.ofText path) = .ok contents)
      (held' : files.read (Path.ofText path) = .ok contents') :
      Twins w ("file:" ++ path) { w with files } ("file:" ++ path)
  | typed {input : Input} (here : w.inputLines ≠ []) (here' : input.lines ≠ []) :
      Twins w PasswordSource.inputSpec { w with input } PasswordSource.inputSpec
  | unknown {spec spec' : String} (h : PasswordSource.ofSpec? spec = none)
      (h' : PasswordSource.ofSpec? spec' = none) : Twins w spec w spec'

variable {w v : World} {spec spec' label : String} {further : List String}

omit [Platform] in
theorem Twins.same (twins : Twins w spec v spec') :
    v.native = w.native ∧ v.shown = w.shown ∧ v.log = w.log ∧ v.vault = w.vault := by
  cases twins <;> exact ⟨rfl, rfl, rfl, rfl⟩

omit [Platform] in
/-- Only specifications that name no source can differ without one. -/
theorem Twins.of_unknown (twins : Twins w spec v spec')
    (unknown : (PasswordSource.ofSpec? spec).isSome ≠ true) :
    v = w ∧ PasswordSource.ofSpec? spec = none ∧ PasswordSource.ofSpec? spec' = none := by
  cases twins with
  | literal => simp [PasswordSource.ofSpec?_literal] at unknown
  | environment => simp [PasswordSource.ofSpec?_environment] at unknown
  | file => simp [PasswordSource.ofSpec?_file] at unknown
  | typed => exact absurd rfl unknown
  | unknown h h' => exact ⟨rfl, h, h'⟩

omit [Platform] in
theorem Twins.encodings (twins : Twins w spec v spec') :
    Password.encodings v further = Password.encodings w further := by
  unfold Password.encodings
  rw [twins.same.1]

/-! ## One source -/

/-- A file that is there fails to give passwords in one way, whatever it holds. -/
theorem fault_of_held {path : String} {contents : Bytes}
    (held : w.files.read (Path.ofText path) = .ok contents) {fault : Fault}
    (h : (w.run (lines ("file:" ++ path) label)).1 = .error fault) (own : fault.isOwn = true) :
    ∃ native, Text.Encoding.named w.native = .ok native ∧ fault =
      .configuration (.passwordFileUndecodable (Path.ofText path).toText native.name) := by
  unfold lines at h
  rw [PasswordSource.ofSpec?_file] at h
  have hcontents : w.run (query (.read (Path.ofText path))) = (.ok (.ok contents), w) := by
    show (Except.ok (w.files.read (Path.ofText path)), w) = _
    rw [held]
  change (w.run (query (.read (Path.ofText path)) >>= _)).1 = _ at h
  rw [World.run_bind_of_ok hcontents] at h
  dsimp only at h
  rw [World.run_bind, run_native_eq] at h
  cases hnative : Text.Encoding.named w.native with
  | error problem =>
    rw [hnative] at h
    obtain rfl := Except.error.inj h
    obtain ⟨m, rfl⟩ := Text.Encoding.named_fails _ _ hnative
    cases own
  | ok native =>
    rw [hnative] at h
    dsimp only at h
    refine ⟨native, rfl, ?_⟩
    split at h
    · cases h
    · exact (Except.error.inj h).symm
    · next problem _ hdecode =>
      obtain rfl := Except.error.inj h
      obtain ⟨m, rfl⟩ := Text.Encoding.decode_fails _ _ _ hdecode
      cases own

/-- What the input is asked with. -/
def asking (w : World) (label : String) : Shown :=
  if w.isTerminal then .prompted s!"{label}: " else .complained s!"{label}: "

/-- A line that is there is asked for, and not shown. It gives a password or is lost. -/
theorem run_lines_here (here : w.inputLines ≠ []) (label : String) :
    (w.run (lines PasswordSource.inputSpec label)).2.shown = w.shown ++ [asking w label] ∧
      ∀ fault, (w.run (lines PasswordSource.inputSpec label)).1 = .error fault →
        fault.isOwn = false := by
  unfold asking
  cases hterminal : w.isTerminal with
  | false =>
    rw [run_lines_input hterminal]
    refine ⟨rfl, ?_⟩
    intro fault h
    change w.lineAt 0 = _ at h
    unfold World.lineAt at h
    split at h <;> cases h
    rfl
  | true =>
    have hasked : w.run (query (.hiddenLine s!"{label}: ")) =
        (.ok (w.takeLine.1.map (Option.map fun text =>
            String.ofList (text.toList.filter (· != '\n')))),
          { w with input := w.takeLine.2.input,
                   shown := w.shown ++ [.prompted s!"{label}: "] }) := rfl
    obtain ⟨outcome, houtcome⟩ : ∃ p, w.run (lines PasswordSource.inputSpec label) = p := ⟨_, rfl⟩
    rw [houtcome]
    change World.run w ((if w.isTerminal = true then _ else _) >>= _) = _ at houtcome
    rw [if_pos hterminal, Action.bind_assoc, World.run_bind_of_ok hasked] at houtcome
    subst houtcome
    cases htaken : w.takeLine.1 with
    | error m => exact ⟨rfl, by rintro _ ⟨⟩; rfl⟩
    | ok line =>
      cases line with
      | none => exact absurd htaken (World.takeLine_ne_end here)
      | some text => exact ⟨rfl, nofun⟩

theorem run_lines_unknown (h : PasswordSource.ofSpec? spec = none) (w : World) (label : String) :
    w.run (lines spec label) =
      (.error (.configuration (.unknownPasswordSource label spec)), w) := by
  unfold lines
  rw [h]
  rfl

/-! ## Two askings -/

/-- What two runs show and the faults of the tool that they fail with are the same. -/
structure ToldAlike {α : Type} (x y : Except Fault α × World) : Prop where
  shown : y.2.shown = x.2.shown
  fault : ∀ fault fault', x.1 = .error fault → y.1 = .error fault' → fault.isOwn = true →
    fault'.isOwn = true → fault = fault'

section
omit [Platform]

theorem ToldAlike.of_ok {α : Type} {a : α} {u u' : World} {y : Except Fault α}
    (h : u'.shown = u.shown) : ToldAlike (.ok a, u) (y, u') := ⟨h, nofun⟩

theorem ToldAlike.of_error {α : Type} {fault : Fault} {u u' : World} (h : u'.shown = u.shown) :
    ToldAlike (α := α) (.error fault, u) (.error fault, u') := by
  refine ⟨h, ?_⟩
  rintro _ _ ⟨⟩ ⟨⟩ _ _
  rfl

end

/-- Passwords of a known source are told alike. -/
theorem Twins.lines (twins : Twins w spec v spec')
    (known : (PasswordSource.ofSpec? spec).isSome = true) (label : String) :
    ToldAlike (w.run (lines spec label)) (v.run (lines spec' label)) := by
  cases twins with
  | literal text text' =>
    rw [run_lines_literal, run_lines_literal]
    exact .of_ok rfl
  | environment set set' =>
    rw [run_lines_environment set, run_lines_environment set']
    exact .of_ok rfl
  | @file path _ _ files held held' =>
    have elsewhere : "file:" ++ path ≠ PasswordSource.inputSpec :=
      PasswordSource.ne_inputSpec (by simp [String.toList_append])
    constructor
    · rw [World.run_of_looks (lines_looks elsewhere), World.run_of_looks (lines_looks elsewhere)]
    · intro fault fault' h h' own own'
      obtain ⟨native, hnative, rfl⟩ := fault_of_held held h own
      obtain ⟨native', hnative', rfl⟩ :=
        fault_of_held (w := { w with files }) held' h' own'
      obtain rfl := Except.ok.inj (hnative.symm.trans hnative')
      rfl
  | @typed input here here' =>
    obtain ⟨hshown, hforeign⟩ := run_lines_here here label
    obtain ⟨hshown', -⟩ := run_lines_here (w := { w with input }) here' label
    constructor
    · rw [hshown, hshown']
      rfl
    · intro fault fault' h _ own
      rw [hforeign fault h] at own
      cases own
  | unknown h =>
    rw [h] at known
    cases known

omit [Platform] in
/-- What comes after does not tell two runs apart if it shows nothing and fails with no fault of
the tool. -/
theorem ToldAlike.bind {α β : Type} {x y : Except Fault α × World}
    {f g : α → World → Except Fault β × World} (silent : ∀ a u, (f a u).2.shown = u.shown)
    (silent' : ∀ a u, (g a u).2.shown = u.shown)
    (foreign : ∀ a u fault, (f a u).1 = .error fault → fault.isOwn = false)
    (foreign' : ∀ a u fault, (g a u).1 = .error fault → fault.isOwn = false) :
    ToldAlike x y → ToldAlike
      (match x with
        | (.error fault, u) => (.error fault, u)
        | (.ok a, u) => f a u)
      (match y with
        | (.error fault, u) => (.error fault, u)
        | (.ok a, u) => g a u) := by
  obtain ⟨told, u⟩ := x
  obtain ⟨told', u'⟩ := y
  rintro ⟨hshown, hfault⟩
  cases told with
  | error fault =>
    cases told' with
    | error fault' =>
      refine ⟨hshown, ?_⟩
      rintro _ _ ⟨⟩ ⟨⟩
      exact hfault fault fault' rfl rfl
    | ok a' =>
      refine ⟨(silent' a' u').trans hshown, ?_⟩
      intro _ fault' _ h' _ own'
      rw [foreign' _ _ _ h'] at own'
      cases own'
  | ok a =>
    have notOwn : ∀ fault, (f a u).1 = .error fault → fault.isOwn ≠ true := by
      intro fault h own
      rw [foreign _ _ _ h] at own
      cases own
    cases told' with
    | error fault' =>
      exact ⟨hshown.trans (silent a u).symm, fun fault _ h _ own => absurd own (notOwn fault h)⟩
    | ok a' =>
      exact ⟨((silent' a' u').trans hshown).trans (silent a u).symm,
        fun fault _ h _ own => absurd own (notOwn fault h)⟩

/-- A text that an encoding balks at is a mishap. -/
theorem foreign_of_handOut {found : List Text.Encoding} {texts : List String} {fault : Fault}
    (h : (handOut spec label found texts w).1 = .error fault) : fault.isOwn = false := by
  rw [handOut_fst] at h
  exact all_fails (E := fun fault => fault.isOwn = false) texts (fun _ _ _ _ => rfl) _ h

/-- Passwords that are told alike come in encodings alike. -/
theorem ToldAlike.candidates (twins : Twins w spec v spec')
    (h : ToldAlike (w.run (lines spec label)) (v.run (lines spec' label)))
    (further : List String) :
    ToldAlike (w.run (candidates spec label further)) (v.run (candidates spec' label further)) := by
  obtain ⟨-, hshown, -, hvault⟩ := twins.same
  rw [run_candidates, run_candidates, twins.encodings, hvault]
  cases w.vault.isOpen with
  | false => exact .of_error hshown
  | true =>
    cases Password.encodings w further with
    | error fault => exact .of_error hshown
    | ok found =>
      have told := ToldAlike.bind (handOut_shown spec label found) (handOut_shown spec' label found)
        (fun _ _ _ => foreign_of_handOut) (fun _ _ _ => foreign_of_handOut) h
      rw [if_pos rfl, if_pos rfl]
      dsimp only
      generalize w.run (lines spec label) = x at told ⊢
      generalize v.run (lines spec' label) = y at told ⊢
      obtain ⟨texts | texts, u⟩ := x <;> obtain ⟨texts' | texts', u'⟩ := y <;> exact told

omit [Platform] in
theorem message_unknown_inj {quoted : String → String} {label spec spec' : String}
    (h : (Fault.configuration (.unknownPasswordSource label spec)).messageWith quoted =
      (Fault.configuration (.unknownPasswordSource label spec')).messageWith quoted) :
    spec = spec' := by
  have htold (spec : String) :
      (Fault.configuration (.unknownPasswordSource label spec)).messageWith quoted =
        "Unsupported password spec for " ++ label ++ ": " ++ spec := rfl
  rw [htold, htold] at h
  have hlist := congrArg String.toList h
  simp only [String.toList_append, List.append_assoc, List.append_right_inj] at hlist
  exact String.toList_injective hlist

/-- Asking with a specification that names no source shows nothing, and fails. -/
theorem run_candidates_unknown (h : PasswordSource.ofSpec? spec = none) (w : World)
    (label : String) (further : List String) :
    w.run (candidates spec label further) =
      (if w.vault.isOpen = true then
        match encodings w further with
        | .error refusal => .error refusal
        | .ok _ => .error (.configuration (.unknownPasswordSource label spec))
      else .error (.misuse .closedRetriever), w) := by
  rw [run_candidates, run_lines_unknown h]
  cases w.vault.isOpen with
  | false => rfl
  | true => cases encodings w further <;> rfl

/-- The faults of the tool that such an asking fails with. -/
theorem own_of_unknown {fault : Fault} (unknown : PasswordSource.ofSpec? spec = none)
    (failed : (w.run (candidates spec label further)).1 = .error fault)
    (own : fault.isOwn = true) :
    encodings w further = .error fault ∨ (∃ found, encodings w further = .ok found) ∧
      fault = .configuration (.unknownPasswordSource label spec) := by
  rw [run_candidates_unknown unknown] at failed
  dsimp only at failed
  split at failed
  · cases hencodings : encodings w further with
    | error refusal =>
      rw [hencodings] at failed
      exact .inl (congrArg _ (Except.error.inj failed))
    | ok found =>
      rw [hencodings] at failed
      exact .inr ⟨⟨found, rfl⟩, (Except.error.inj failed).symm⟩
  · -- a closed vault is no fault of the tool
    obtain rfl := Except.error.inj failed
    cases own

/-- When two such askings fail with faults of the tool, it is the same fault, and reads the same,
just if they have the same specification or an encoding is refused. -/
theorem faults_of_unknown {fault fault' : Fault} (unknown : PasswordSource.ofSpec? spec = none)
    (unknown' : PasswordSource.ofSpec? spec' = none)
    (failed : (w.run (candidates spec label further)).1 = .error fault)
    (failed' : (w.run (candidates spec' label further)).1 = .error fault')
    (own : fault.isOwn = true) (own' : fault'.isOwn = true) :
    (fault = fault' ↔ spec = spec' ∨ ∃ refusal, encodings w further = .error refusal) ∧
      ∀ quoted, fault.messageWith quoted = fault'.messageWith quoted ↔ fault = fault' := by
  obtain h | ⟨⟨found, hfound⟩, rfl⟩ := own_of_unknown unknown failed own <;>
    obtain h' | ⟨⟨found', hfound'⟩, rfl⟩ := own_of_unknown unknown' failed' own'
  · obtain rfl := Except.error.inj (h.symm.trans h')
    exact ⟨iff_of_true rfl (.inr ⟨_, h⟩), fun _ => iff_of_true rfl rfl⟩
  · cases h.symm.trans hfound'
  · cases hfound.symm.trans h'
  · constructor
    · rw [hfound]
      constructor
      · rintro ⟨⟩
        exact .inl rfl
      · rintro (rfl | ⟨_, ⟨⟩⟩)
        rfl
    · intro quoted
      exact ⟨fun h => by rw [message_unknown_inj h], fun h => by rw [h]⟩

/-! ## The log -/

/-- What the log is told in an asking for passwords. -/
def notes (w : World) (spec label : String) (further : List String) : List Note :=
  match encodings w further, (w.run (lines spec label)).1 with
  | .ok found, .ok texts =>
    if w.vault.isOpen then
      leftOutNotes found texts ++
        (Candidate.all found texts).toOption.toList.map fun handed => .handedOut handed.length
    else []
  | _, _ => []

section
omit [Platform]

theorem Note.text_leftOut (spec label encoding : String) : Note.text spec label (.leftOut encoding) =
    "Skipping " ++ encoding ++ " candidate for " ++ label ++ ": not representable" := rfl

theorem Note.text_handedOut (spec label : String) (count : Nat) :
    Note.text spec label (.handedOut count) =
      "Resolved " ++ count.repr ++ " candidate password(s) for " ++ label ++ " from " ++
        described spec := rfl

theorem Note.text_ne (spec label encoding : String) (count : Nat) :
    Note.text spec label (.leftOut encoding) ≠ Note.text spec label (.handedOut count) := by
  intro h
  have hfirst := congrArg (·.toList.head?) h
  simp [text_leftOut, text_handedOut, String.toList_append] at hfirst

/-- A note tells apart the encodings, and the numbers of candidates. -/
theorem Note.text_injective (spec label : String) : Function.Injective (Note.text spec label) := by
  intro a b h
  cases a with
  | leftOut encoding =>
    cases b with
    | leftOut encoding' =>
      simp only [text_leftOut, String.append_left_inj, String.append_right_inj] at h
      rw [h]
    | handedOut count => exact absurd h (text_ne spec label encoding count)
  | handedOut count =>
    cases b with
    | leftOut encoding => exact absurd h.symm (text_ne spec label encoding count)
    | handedOut count' =>
      simp only [text_handedOut, String.append_left_inj, String.append_right_inj] at h
      have hcount : count = count' := by
        simpa using congrArg (fun text : String => Nat.ofDigitChars 10 text.toList 0) h
      rw [hcount]

end

omit [Platform] in
theorem inputLine_leavesLog (label : String) : (inputLine label).Only Query.LeavesLog := by
  refine .bind (.query trivial) fun isTerminal => ?_
  split
  · refine .bind (.query trivial) fun answer => .bind (.ofMishap _) fun line => ?_
    split
    · exact .pure _
    · exact .bind (.query trivial) fun _ => .throw _
  · exact .bind (.query trivial) fun _ => .bind (.query trivial) fun _ =>
      .bind (.ofMishap _) fun _ => .pure _

/-- The log is not told of the passwords of a source. -/
theorem lines_leavesLog (spec label : String) : (lines spec label).Only Query.LeavesLog := by
  by_cases hspec : spec = PasswordSource.inputSpec
  · rw [hspec]
    exact .bind (inputLine_leavesLog label) fun _ => .pure _
  · refine (lines_looks hspec).mono fun q looks => ?_
    cases q <;> trivial

theorem log_run_candidates (w : World) (spec label : String) (further : List String) :
    (w.run (candidates spec label further)).2.log =
      w.log ++ (notes w spec label further).map (Note.text spec label) := by
  have hlines := World.log_of_only (w := w) (lines_leavesLog spec label)
  rw [run_candidates]
  unfold notes
  cases encodings w further with
  | error fault => split <;> exact (List.append_nil _).symm
  | ok found =>
    generalize w.run (lines spec label) = source at hlines ⊢
    obtain ⟨texts, u⟩ := source
    cases hopen : w.vault.isOpen with
    | false => cases texts <;> exact (List.append_nil _).symm
    | true =>
      cases texts with
      | error fault =>
        rw [← hlines]
        exact (List.append_nil _).symm
      | ok texts =>
        rw [← hlines]
        dsimp only
        unfold handOut
        cases Candidate.all found texts with
        | error fault => simp [World.note, Except.toOption]
        | ok handed => simp [World.note, Except.toOption]

theorem notes_of_unknown (h : PasswordSource.ofSpec? spec = none) (w : World) (label : String)
    (further : List String) : notes w spec label further = [] := by
  unfold notes
  rw [run_lines_unknown h]
  cases encodings w further <;> rfl

omit [Platform] in
/-- Notes read the same for specifications that differ in the password alone. -/
theorem Twins.text_note (twins : Twins w spec v spec')
    (known : (PasswordSource.ofSpec? spec).isSome = true) (label : String) :
    Note.text spec' label = Note.text spec label := by
  cases twins with
  | literal text text' =>
    have hdescribed (text : String) : described ("pass:" ++ text) = "pass:<hidden>" := by
      unfold described
      rw [PasswordSource.after?_append]
      rfl
    funext note
    unfold Note.text
    rw [hdescribed, hdescribed]
  | unknown h =>
    rw [h] at known
    cases known
  | _ => rfl

/-- The log is the same just if it is told the same encodings and the same numbers. -/
theorem Twins.log_iff (twins : Twins w spec v spec') (label : String) (further : List String) :
    (v.run (candidates spec' label further)).2.log = (w.run (candidates spec label further)).2.log ↔
      notes v spec' label further = notes w spec label further := by
  rw [log_run_candidates, log_run_candidates, twins.same.2.2.1, List.append_right_inj]
  by_cases known : (PasswordSource.ofSpec? spec).isSome = true
  · rw [twins.text_note known]
    exact (List.map_injective_iff.mpr (Note.text_injective spec label)).eq_iff
  · obtain ⟨-, unknown, unknown'⟩ := twins.of_unknown known
    rw [notes_of_unknown unknown, notes_of_unknown unknown']
    exact iff_of_true rfl rfl

/-- Two askings that differ in the password alone show the same text, whatever they end with. The
log is the same just if it is told of the same encodings that cannot write the passwords and of the
same number of candidates, and a candidate shows nothing but its encoding. When both fail with a
fault of the tool, it is the same fault, and reads the same, just if the specifications name a
source, or are the same, or an encoding is refused before they are looked at. -/
theorem told_alike_iff (twins : Twins w spec v spec') (label : String) (further : List String) :
    let outcome := w.run (candidates spec label further)
    let outcome' := v.run (candidates spec' label further)
    outcome'.2.shown = outcome.2.shown ∧
      (outcome'.2.log = outcome.2.log ↔
        notes v spec' label further = notes w spec label further) ∧
      (∀ fault fault', outcome.1 = .error fault → outcome'.1 = .error fault' →
        fault.isOwn = true → fault'.isOwn = true →
        (fault = fault' ↔ (PasswordSource.ofSpec? spec).isSome = true ∨ spec = spec' ∨
          ∃ refusal, encodings w further = .error refusal) ∧
        ∀ quoted, fault.messageWith quoted = fault'.messageWith quoted ↔ fault = fault') ∧
      ∀ c c' : Candidate, c.encoding = c'.encoding → c.shown = c'.shown := by
  intro outcome outcome'
  have shownByEncoding (c c' : Candidate) (h : c.encoding = c'.encoding) : c.shown = c'.shown := by
    unfold Candidate.shown
    rw [h]
  by_cases known : (PasswordSource.ofSpec? spec).isSome = true
  · obtain ⟨hshown, hfault⟩ := (twins.lines known label).candidates twins further
    refine ⟨hshown, twins.log_iff label further, ?_, shownByEncoding⟩
    intro fault fault' h h' own own'
    obtain rfl := hfault fault fault' h h' own own'
    exact ⟨iff_of_true rfl (.inl known), fun _ => iff_of_true rfl rfl⟩
  · refine ⟨?_, twins.log_iff label further, ?_, shownByEncoding⟩
    all_goals
      obtain ⟨rfl, unknown, unknown'⟩ := twins.of_unknown known
    · show (v.run (candidates spec' label further)).2.shown =
        (v.run (candidates spec label further)).2.shown
      rw [run_candidates_unknown unknown, run_candidates_unknown unknown']
    · intro fault fault' h h' own own'
      rw [or_iff_right known]
      exact faults_of_unknown unknown unknown' h h' own own'

end Password
end General

section Samples
attribute [local instance] Platform.standard

namespace Password

/-- Two password files that are not in the native encoding fail alike. -/
theorem sample_files_told_alike :
    let w := World.ofFiles (.ofContents [(["pw"], [0xff])])
    let v := World.ofFiles (.ofContents [(["pw"], [0x68, 0xfe])])
    let outcome := w.run (candidates "file:pw" "Password" ["latin1"])
    let outcome' := v.run (candidates "file:pw" "Password" ["latin1"])
    Twins w "file:pw" v "file:pw" ∧ outcome'.2.shown = outcome.2.shown ∧
      outcome'.2.log = outcome.2.log ∧
      ∃ fault, outcome.1 = .error fault ∧ fault.isOwn = true ∧ outcome'.1 = .error fault ∧
        fault.messageWith Text.quoted = "Failed to read password file pw: not valid utf-8" := by
  intro w v outcome outcome'
  have held : w.files.read (Path.ofText "pw") = .ok [0xff] := by decide +kernel
  have held' : v.files.read (Path.ofText "pw") = .ok [0x68, 0xfe] := by decide +kernel
  have twins : Twins w "file:pw" v "file:pw" := .file held held'
  have hfault : outcome.1 =
      .error (.configuration (.passwordFileUndecodable "pw" "utf-8")) := by decide +kernel
  have hfails : ∃ fault, outcome'.1 = .error fault ∧ fault.isOwn = true :=
    ⟨.configuration (.passwordFileUndecodable "pw" "utf-8"), by decide +kernel, rfl⟩
  obtain ⟨fault', hfault', own'⟩ := hfails
  obtain ⟨hshown, hlog, halike, -⟩ := told_alike_iff twins "Password" ["latin1"]
  obtain rfl := (halike _ fault' hfault hfault' rfl own').1.mpr (.inl (by decide +kernel))
  exact ⟨twins, hshown, hlog.mpr (by decide +kernel), _, hfault, rfl, hfault', by decide +kernel⟩

/-- Two passwords without the `pass:` that belongs before them are both repeated. -/
theorem sample_unknown_specs_told_apart :
    let w := World.ofFiles (.ofContents [])
    Twins w "hunter2" w "hunter3" ∧
      ∃ fault fault', (w.run (candidates "hunter2" "Password" [])).1 = .error fault ∧
        (w.run (candidates "hunter3" "Password" [])).1 = .error fault' ∧
        fault.isOwn = true ∧ fault'.isOwn = true ∧
        fault.messageWith Text.quoted = "Unsupported password spec for Password: hunter2" ∧
        fault'.messageWith Text.quoted = "Unsupported password spec for Password: hunter3" := by
  intro w
  exact ⟨.unknown (by decide +kernel) (by decide +kernel),
    .configuration (.unknownPasswordSource "Password" "hunter2"),
    .configuration (.unknownPasswordSource "Password" "hunter3"), by decide +kernel,
    by decide +kernel, rfl, rfl, by decide +kernel, by decide +kernel⟩

end Password
end Samples
end PackageSigning
