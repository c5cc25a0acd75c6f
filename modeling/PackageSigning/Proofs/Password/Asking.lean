import PackageSigning.Proofs.Failure.Passwords
import PackageSigning.Proofs.Text.Encoding

/-!
# Asking for passwords

What asking for passwords does, step by step (`Password.run_candidates`). A source is the only part
of it that looks at the surroundings beyond the vault and the encoding that the platform prefers.
Behind the source, the log is told what an encoding cannot write and how many candidates there are,
and the vault keeps them (`Password.handOut`).
-/

namespace PackageSigning

open PackageSigning.Action

variable {w v : World}

namespace PasswordSource

theorem ofSpec?_eq_input_iff {spec : String} : ofSpec? spec = some .input ↔ spec = inputSpec := by
  unfold ofSpec?
  split
  · next h => exact iff_of_true rfl h
  · next h =>
    refine iff_of_false ?_ h
    cases after? "pass:" spec <;> cases after? "env:" spec <;> cases after? "file:" spec <;> nofun

theorem after?_append (beginning text : String) :
    after? beginning (beginning ++ text) = some text := by
  unfold after?
  rw [String.toList_append, if_pos (by simp), ← String.length_toList, List.drop_left,
    String.ofList_toList]

theorem ne_inputSpec {spec : String} (h : ':' ∈ spec.toList) : spec ≠ inputSpec := by
  intro hspec
  rw [hspec] at h
  revert h
  decide

theorem ofSpec?_literal (text : String) : ofSpec? ("pass:" ++ text) = some (.literal text) := by
  unfold ofSpec?
  rw [if_neg (ne_inputSpec (by simp [String.toList_append])), after?_append]
  rfl

theorem ofSpec?_environment (name : String) :
    ofSpec? ("env:" ++ name) = some (.environment name) := by
  have hliteral : after? "pass:" ("env:" ++ name) = none := by
    simp [after?, String.toList_append]
  unfold ofSpec?
  rw [if_neg (ne_inputSpec (by simp [String.toList_append])), hliteral, after?_append]
  rfl

theorem ofSpec?_file (path : String) : ofSpec? ("file:" ++ path) = some (.file path) := by
  have hliteral : after? "pass:" ("file:" ++ path) = none := by
    simp [after?, String.toList_append]
  have henvironment : after? "env:" ("file:" ++ path) = none := by
    simp [after?, String.toList_append]
  unfold ofSpec?
  rw [if_neg (ne_inputSpec (by simp [String.toList_append])), hliteral, henvironment, after?_append]
  rfl

end PasswordSource

namespace Password

/-- The encodings that passwords come in. -/
def encodings (w : World) (further : List String) : Except Fault (List Text.Encoding) := do
  let native ← Text.Encoding.named w.native
  let others ← further.mapM encodingNamed
  return native :: others

theorem run_native_eq (w : World) : w.run native = (Text.Encoding.named w.native, w) :=
  World.run_ofResult w _

variable [Platform]

/-- What is asked for with a label comes to the line that is there, and is shown with it. -/
theorem run_lines_input (noTerminal : w.isTerminal = false) (label : String) :
    w.run (lines PasswordSource.inputSpec label) = (w.lineAt 0,
      { w with input := w.takeLine.2.input, shown := w.shown ++ [.complained s!"{label}: "] }) := by
  have htaken := World.takeLine_inputLines w
  have hline : w.run (inputLine label) = ((w.inputLines.head?.mapM id).mapError .mishap,
      { w with input := w.takeLine.2.input, shown := w.shown ++ [.complained s!"{label}: "] }) := by
    unfold inputLine
    rw [World.run_bind]
    show World.run w (if w.isTerminal = true then _ else _) = _
    rw [if_neg (by simp [noTerminal]), ← htaken]
    show World.run _ (ofMishap w.takeLine.1 >>= _) = _
    cases w.takeLine.1 <;> rfl
  show w.run (inputLine label >>= fun line => pure line.toList) = _
  rw [World.run_bind, hline, World.lineAt, ← List.head?_eq_getElem?]
  cases w.inputLines.head? with
  | none => rfl
  | some line => cases line <;> rfl

/-- What the log is told of candidates that are left out. -/
def leftOutNotes (encodings : List Text.Encoding) (texts : List String) : List Note :=
  (Candidate.leftOut (Candidate.attempts encodings texts)).map (.leftOut ·.name)

/-- What texts come to in encodings, and the surroundings that have been told of it. -/
def handOut (spec label : String) (encodings : List Text.Encoding) (texts : List String)
    (w : World) : Except Fault (List Candidate) × World :=
  let noted := w.note ((leftOutNotes encodings texts).map (Note.text spec label))
  match Candidate.all encodings texts with
  | .error fault => (.error fault, noted)
  | .ok candidates => (.ok candidates, { noted with vault := w.vault.issue candidates }.note
    [Note.text spec label (.handedOut candidates.length)])

/-- Asking for passwords, step by step. -/
theorem run_candidates (w : World) (spec label : String) (further : List String) :
    w.run (candidates spec label further) =
      if w.vault.isOpen then
        match encodings w further with
        | .error fault => (.error fault, w)
        | .ok encodings =>
          match w.run (lines spec label) with
          | (.error fault, v) => (.error fault, v)
          | (.ok texts, v) => handOut spec label encodings texts v
      else (.error (.misuse .closedRetriever), w) := by
  unfold candidates encodings
  rw [World.run_bind]
  show World.run w (if (!w.vault.isOpen) = true then _ else _) = _
  cases w.vault.isOpen with
  | false => rfl
  | true =>
    rw [if_neg (by simp), if_pos rfl, World.run_bind, run_native_eq]
    cases Text.Encoding.named w.native with
    | error fault => rfl
    | ok native =>
      dsimp only
      rw [World.run_bind, World.run_ofResult]
      cases further.mapM encodingNamed with
      | error fault => rfl
      | ok others =>
        dsimp only
        rw [World.run_bind]
        obtain ⟨texts, v⟩ := w.run (lines spec label)
        cases texts with
        | error fault => rfl
        | ok texts =>
          dsimp only
          rw [World.run_bind_of_ok (World.run_forM_log v _ _), World.run_bind, World.run_ofResult]
          show _ = handOut spec label (native :: others) texts v
          unfold handOut leftOutNotes
          rw [List.map_map]
          cases Candidate.all (native :: others) texts <;> rfl

theorem handOut_fst (spec label : String) (encodings : List Text.Encoding) (texts : List String)
    (w : World) : (handOut spec label encodings texts w).1 = Candidate.all encodings texts := by
  unfold handOut
  cases Candidate.all encodings texts <;> rfl

theorem handOut_shown (spec label : String) (encodings : List Text.Encoding) (texts : List String)
    (w : World) : (handOut spec label encodings texts w).2.shown = w.shown := by
  unfold handOut
  cases Candidate.all encodings texts <;> rfl

theorem handOut_input (spec label : String) (encodings : List Text.Encoding) (texts : List String)
    (w : World) : (handOut spec label encodings texts w).2.input = w.input := by
  unfold handOut
  cases Candidate.all encodings texts <;> rfl

/-- What asking ends with, in encodings that were found. -/
theorem run_candidates_fst (w : World) (spec label : String) (further : List String) :
    (w.run (candidates spec label further)).1 =
      if w.vault.isOpen then do
        let found ← encodings w further
        Candidate.all found (← (w.run (lines spec label)).1)
      else .error (.misuse .closedRetriever) := by
  rw [run_candidates]
  split
  · cases encodings w further with
    | error fault => rfl
    | ok found =>
      dsimp only
      obtain ⟨texts, v⟩ := w.run (lines spec label)
      cases texts with
      | error fault => rfl
      | ok texts => exact handOut_fst spec label found texts v
  · rfl

/-- Where there are candidates, every encoding has done its work on one text. -/
theorem tried_of_all {encodings : List Text.Encoding} {texts : List String}
    {candidates : List Candidate} (h : Candidate.all encodings texts = .ok candidates)
    (hne : candidates ≠ []) :
    ∀ e ∈ encodings, ∃ text candidate, Candidate.encode? text e = .ok candidate := by
  obtain ⟨groups, hgroups, hflatten⟩ := bind_eq_ok.mp h
  cases texts with
  | nil =>
    obtain rfl := pure_eq_ok.mp hgroups
    exact absurd (pure_eq_ok.mp hflatten).symm hne
  | cons text rest =>
    rw [List.mapM_cons] at hgroups
    obtain ⟨group, hgroup, -⟩ := bind_eq_ok.mp hgroups
    obtain ⟨found, hfound, -⟩ := bind_eq_ok.mp hgroup
    exact fun e he => ⟨text, exists_of_mapM hfound he⟩

/-- Passwords can be asked for, and come in these encodings, each of which has done its work on
one text. -/
structure Ready (w : World) (further : List String) (encodings : List Text.Encoding) : Prop where
  isOpen : w.vault.isOpen = true
  found : Password.encodings w further = .ok encodings
  tried : ∀ e ∈ encodings, ∃ text candidate, Candidate.encode? text e = .ok candidate

theorem Ready.alike {further : List String} {encodings : List Text.Encoding}
    (h : Ready v further encodings) (hv : v.Alike w) : Ready w further encodings where
  isOpen := hv.isOpen.trans h.isOpen
  found := by
    rw [← h.found]
    unfold Password.encodings
    rw [hv.native]
  tried := h.tried

/-- Where passwords were handed out, more can be asked for. -/
theorem ready_of_candidates {spec label : String} {further : List String}
    {handed : List Candidate} (h : (v.run (candidates spec label further)).1 = .ok handed)
    (hne : handed ≠ []) : ∃ encodings, Ready v further encodings := by
  rw [run_candidates_fst] at h
  split at h
  · next isOpen =>
    obtain ⟨encodings, found, h⟩ := bind_eq_ok.mp h
    obtain ⟨texts, -, hall⟩ := bind_eq_ok.mp h
    exact ⟨encodings, isOpen, found, tried_of_all hall hne⟩
  · cases h

/-- An encoding that is spelled out does its work on every text, if it does so on one. -/
theorem exists_encode? {e : Text.Encoding} (known : e.IsKnown)
    (h : ∃ text candidate, Candidate.encode? text e = .ok candidate) (text : String) :
    ∃ candidate, Candidate.encode? text e = .ok candidate := by
  obtain ⟨other, candidate, h⟩ := h
  unfold Candidate.encode? at h ⊢
  unfold Text.Encoding.encode at h ⊢
  cases e with
  | other name => exact absurd rfl (known name)
  | transform | undefined => cases h
  | _ =>
    dsimp only
    generalize Text.Encoding.encodeBare _ text.toList = body
    cases body <;> exact ⟨_, rfl⟩

/-- So all passwords come in encodings that are spelled out. -/
theorem Ready.exists_all {further : List String} {encodings : List Text.Encoding}
    (ready : Ready w further encodings) (known : ∀ e ∈ encodings, e.IsKnown)
    (texts : List String) : ∃ candidates, Candidate.all encodings texts = .ok candidates := by
  have hfails : FailsOnly (fun _ => False) (Candidate.all encodings texts) := by
    refine all_fails texts fun e he m hm => ?_
    cases hm with
    | missing h => cases h
    | @refuses _ text found h other =>
      obtain rfl := Except.ok.inj found
      obtain ⟨candidate, hcandidate⟩ := exists_encode? (known e he) (ready.tried e he) text
      unfold Candidate.encode? at hcandidate
      rw [h] at hcandidate
      cases m <;> first | exact other rfl | cases hcandidate
  cases hall : Candidate.all encodings texts with
  | ok candidates => exact ⟨candidates, rfl⟩
  | error fault => exact (hfails fault hall).elim

end Password

end PackageSigning
