import PackageSigning.Proofs.Password.Expansion
import PackageSigning.Proofs.Text.Encoding
import PackageSigning.Proofs.World.Input

/-!
# Passwords from different sources

A password from the environment or from the input gives the candidates that it gives as it
stands. So do the lines of a file. Whether these are the passwords that were written into it, one
per line, is another matter (`Password.sources_agree_iff`): an encoding need not read back what it
has written, and a password with a character in it that ends a line is taken apart.
-/

namespace PackageSigning

open PackageSigning.Action

section General
variable [Platform]

namespace Password
variable {w : World} {label : String} {further : List String} {native : Text.Encoding}
  {others : List Text.Encoding}

theorem run_lines_literal (w : World) (text label : String) :
    w.run (lines ("pass:" ++ text) label) = (.ok [text], w) := by
  unfold lines
  rw [PasswordSource.ofSpec?_literal]
  rfl

theorem run_lines_environment {name text : String} (h : w.environment.lookup name = some text)
    (label : String) : w.run (lines ("env:" ++ name) label) = (.ok [text], w) := by
  unfold lines
  rw [PasswordSource.ofSpec?_environment]
  have hvalue : w.run (query (.environment name)) = (.ok (some text), w) := by
    show (Except.ok (w.environment.lookup name), w) = _
    rw [h]
  show w.run (query (.environment name) >>= _) = _
  rw [World.run_bind_of_ok hvalue]
  rfl

/-- The lines of a file are those of its text, if the native encoding can read it. -/
theorem run_lines_file {path : String} {contents : Bytes}
    (preferred : Text.Encoding.named w.native = .ok native)
    (held : w.files.read (Path.ofText path) = .ok contents) (label : String) :
    w.run (lines ("file:" ++ path) label) = (match native.decode contents with
      | .ok text => .ok (Text.lines text)
      | .error (.mishap .undecodable) =>
        .error (.configuration (.passwordFileUndecodable (Path.ofText path).toText native.name))
      | .error fault => .error fault, w) := by
  unfold lines
  rw [PasswordSource.ofSpec?_file]
  have hcontents : w.run (query (.read (Path.ofText path))) = (.ok (.ok contents), w) := by
    show (Except.ok (w.files.read (Path.ofText path)), w) = _
    rw [held]
  have hnative : w.run Password.native = (.ok native, w) := by
    rw [run_native_eq, preferred]
  show w.run (query (.read (Path.ofText path)) >>= _) = _
  rw [World.run_bind_of_ok hcontents]
  dsimp only
  rw [World.run_bind_of_ok hnative]
  cases native.decode contents with
  | ok text => rfl
  | error fault =>
    cases fault with
    | mishap m => cases m <;> rfl
    | _ => rfl

theorem run_lines_typed {text : String} (noTerminal : w.isTerminal = false)
    (hfeed : '\n' ∉ text.toList) (hreturn : '\r' ∉ text.toList)
    (typed : (∃ rest behind, w.input = ⟨text.toList ++ '\n' :: rest, behind⟩) ∨
      w.input = .ofText text ∧ text ≠ "") (label : String) :
    (w.run (lines PasswordSource.inputSpec label)).1 = .ok [text] := by
  have htold : Input.told text.toList = .ok text := by
    unfold Input.told
    rw [String.ofList_toList, Text.dropLineFeeds_of_plain hfeed hreturn]
  have hfirst : w.inputLines[0]? = some (.ok text) := by
    unfold World.inputLines
    obtain ⟨rest, behind, hinput⟩ | ⟨hinput, hne⟩ := typed
    · rw [hinput, Input.lines_cons hfeed, htold]
      rfl
    · have hlines : Input.lines (.ofText text) = [Input.told text.toList] := congrArg (List.map _)
        (Input.feedLines_of_line hfeed (by simpa using hne))
      rw [hinput, hlines, htold]
      rfl
  rw [run_lines_input noTerminal, World.lineAt, hfirst]

theorem run_candidates_congr {spec spec' : String}
    (source : (w.run (lines spec label)).1 = (w.run (lines spec' label)).1) :
    (w.run (candidates spec label further)).1 = (w.run (candidates spec' label further)).1 := by
  rw [run_candidates_fst, run_candidates_fst, source]

/-- What passwords give as they stand, one password after the other. -/
def literally (w : World) (label : String) (further texts : List String) :
    Except Fault (List Candidate) := do
  return (← texts.mapM fun text => (w.run (candidates ("pass:" ++ text) label further)).1).flatten

section
variable (isOpen : w.vault.isOpen = true)
  (preferred : Text.Encoding.named w.native = .ok native) (accepted : Accepted further others)
include isOpen preferred accepted

theorem literally_eq (label : String) (texts : List String) :
    literally w label further texts = Candidate.all (native :: others) texts := by
  have hone : (fun text => (w.run (candidates ("pass:" ++ text) label further)).1) =
      Candidate.inEncodings (native :: others) := by
    funext text
    rw [run_candidates_fst, if_pos isOpen, encodings_of_accepted preferred accepted,
      run_lines_literal]
    show Candidate.all (native :: others) [text] = _
    unfold Candidate.all
    rw [List.mapM_cons, List.mapM_nil]
    cases Candidate.inEncodings (native :: others) text with
    | error _ => rfl
    | ok group => exact congrArg Except.ok (List.append_nil group)
  unfold literally Candidate.all
  rw [hone]

theorem run_candidates_file {path : String} {contents : Bytes}
    (held : w.files.read (Path.ofText path) = .ok contents) (label : String) :
    (∀ text, native.decode contents = .ok text →
      (w.run (candidates ("file:" ++ path) label further)).1 =
        literally w label further (Text.lines text)) ∧
    (∀ fault, native.decode contents = .error fault →
      ∃ fault', (w.run (candidates ("file:" ++ path) label further)).1 = .error fault') := by
  rw [run_candidates_fst, if_pos isOpen, encodings_of_accepted preferred accepted,
    run_lines_file preferred held]
  constructor
  · intro text hdecode
    rw [hdecode, literally_eq isOpen preferred accepted]
    rfl
  · intro fault hdecode
    rw [hdecode]
    cases fault with
    | mishap m => cases m <;> exact ⟨_, rfl⟩
    | _ => exact ⟨_, rfl⟩

end

/-! ## Which texts candidates come from -/

/-- A text that one of the encodings can write. -/
def Writable (encodings : List Text.Encoding) (text : String) : Prop :=
  ∃ e ∈ encodings, ∃ b, e.encode text = .ok b

instance (encodings : List Text.Encoding) (text : String) : Decidable (Writable encodings text) :=
  decidable_of_iff (encodings.any fun e => (Candidate.of? text e).isSome = true) (by
    simp only [List.any_eq_true, decide_eq_true_eq, Candidate.isSome_of?_iff, Writable])

theorem filterMap_of?_eq_nil_iff {encodings : List Text.Encoding} {text : String} :
    encodings.filterMap (Candidate.of? text) = [] ↔ ¬Writable encodings text := by
  unfold Writable
  simp only [List.filterMap_eq_nil_iff, ← Candidate.isSome_of?_iff, not_exists, not_and,
    Bool.not_eq_true, Option.isSome_eq_false_iff, Option.isNone_iff_eq_none]

/-- Texts that no encoding can write give no candidates. -/
theorem pairs_filter (encodings : List Text.Encoding) (texts : List String) :
    Candidate.pairs encodings (texts.filter (Writable encodings)) =
      Candidate.pairs encodings texts := by
  induction texts with
  | nil => rfl
  | cons text rest ih =>
    rw [Candidate.pairs_eq, Candidate.pairs_eq] at ih ⊢
    rw [List.flatMap_cons, ← ih, List.filter_cons]
    split
    · rw [List.flatMap_cons]
    · next h =>
      rw [filterMap_of?_eq_nil_iff.mpr (by simpa using h)]
      rfl

/-- The candidates of texts that can be written tell the texts. -/
theorem pairs_inj {encodings : List Text.Encoding} {texts texts' : List String}
    (h : ∀ text ∈ texts, Writable encodings text) (h' : ∀ text ∈ texts', Writable encodings text)
    (heq : Candidate.pairs encodings texts = Candidate.pairs encodings texts') :
    texts = texts' := by
  have hgroup {text : String} (h : Writable encodings text) (rest : List Candidate) :
      (((encodings.filterMap (Candidate.of? text)) ++ rest).head?.map (·.text)) = some text := by
    cases hfound : encodings.filterMap (Candidate.of? text) with
    | nil => exact absurd h (filterMap_of?_eq_nil_iff.mp hfound)
    | cons candidate others =>
      have hmem : candidate ∈ encodings.filterMap (Candidate.of? text) := by simp [hfound]
      obtain ⟨e, -, he⟩ := List.mem_filterMap.mp hmem
      exact congrArg some (Candidate.text_of_of? he)
  rw [Candidate.pairs_eq, Candidate.pairs_eq] at heq
  induction texts generalizing texts' with
  | nil =>
    cases texts' with
    | nil => rfl
    | cons text' rest' =>
      have hhead := hgroup (h' text' List.mem_cons_self)
        (rest'.flatMap fun text => encodings.filterMap (Candidate.of? text))
      rw [List.flatMap_nil, List.flatMap_cons] at heq
      rw [← heq] at hhead
      cases hhead
  | cons text rest ih =>
    obtain ⟨htext, hrest⟩ := List.forall_mem_cons.mp h
    have hhead := hgroup htext
      (rest.flatMap fun text => encodings.filterMap (Candidate.of? text))
    rw [List.flatMap_cons] at heq
    rw [heq] at hhead
    cases texts' with
    | nil => cases hhead
    | cons text' rest' =>
      obtain ⟨htext', hrest'⟩ := List.forall_mem_cons.mp h'
      rw [List.flatMap_cons] at heq hhead
      rw [hgroup htext'] at hhead
      obtain rfl := Option.some.inj hhead
      rw [ih hrest hrest' (List.append_cancel_left heq)]

/-- Texts that can be written give just the candidates that other texts give, when the others are
no obstacle and those of them that can be written are the texts. -/
theorem all_eq_all_iff {encodings : List Text.Encoding} {texts told : List String}
    (writable : ∀ text ∈ texts, Writable encodings text)
    (clear : ∀ text ∈ texts, ∀ e ∈ encodings, Candidate.obstacle? text e = none) :
    Candidate.all encodings told = Candidate.all encodings texts ↔
      (∀ text ∈ told, ∀ e ∈ encodings, Candidate.obstacle? text e = none) ∧
        told.filter (Writable encodings) = texts := by
  rw [Candidate.all_eq, Candidate.all_eq, Candidate.firstObstacle?_eq_none_iff.mpr clear,
    ← Candidate.firstObstacle?_eq_none_iff]
  cases Candidate.firstObstacle? encodings told with
  | some fault => simp
  | none =>
    simp only [Option.elim_none, Except.ok.injEq, true_and]
    constructor
    · intro heq
      rw [← pairs_filter] at heq
      exact pairs_inj (fun text htext => by simpa using (List.mem_filter.mp htext).2) writable heq
    · intro heq
      rw [← pairs_filter, heq]

/-- The pieces of texts that can be written are these texts just if none has a line end in it. -/
theorem filter_pieces_eq_iff {encodings : List Text.Encoding} {texts : List String}
    (writable : ∀ text ∈ texts, Writable encodings text) :
    (texts.flatMap Text.pieces).filter (Writable encodings) = texts ↔
      ∀ text ∈ texts, ∀ c ∈ text.toList, Text.isLineEnd c = false := by
  constructor
  · intro heq text htext
    rw [← heq] at htext
    obtain ⟨_, -, hpiece⟩ := List.mem_flatMap.mp (List.mem_filter.mp htext).1
    exact Text.plain_of_mem_pieces hpiece
  · intro plain
    rw [Text.flatMap_pieces_of_plain plain]
    exact List.filter_eq_self.mpr fun text htext => by simpa using writable text htext

/-- A file gives what some passwords give that can be written just if it is decoded and its lines
are these passwords, but for lines that no encoding can write. -/
theorem run_file_eq_iff (isOpen : w.vault.isOpen = true)
    (preferred : Text.Encoding.named w.native = .ok native) (accepted : Accepted further others)
    (willing : ∀ e ∈ others, ∀ text, Candidate.obstacle? text e = none)
    {texts : List String} (written : ∀ text ∈ texts, ∃ b, native.encode text = .ok b)
    {path : String} {contents : Bytes} (held : w.files.read (Path.ofText path) = .ok contents)
    (label : String) :
    (w.run (candidates ("file:" ++ path) label further)).1 = literally w label further texts ↔
      ∃ told, native.decode contents = .ok told ∧
        (∀ text ∈ Text.lines told, Candidate.obstacle? text native = none) ∧
        (Text.lines told).filter (Writable (native :: others)) = texts := by
  have clear {texts : List String} (h : ∀ text ∈ texts, Candidate.obstacle? text native = none) :
      ∀ text ∈ texts, ∀ e ∈ native :: others, Candidate.obstacle? text e = none :=
    fun text htext => List.forall_mem_cons.mpr ⟨h text htext, fun e he => willing e he text⟩
  have hclear := clear fun text htext => Candidate.obstacle?_of_ok (written text htext)
  obtain ⟨hlines, hfails⟩ := run_candidates_file isOpen preferred accepted held label
  have hgiven := literally_eq isOpen preferred accepted label
  cases hdecode : native.decode contents with
  | error fault =>
    obtain ⟨fault', hfault'⟩ := hfails fault hdecode
    refine iff_of_false (fun h => ?_) (by rintro ⟨_, ⟨⟩, -⟩)
    rw [hfault', hgiven, Candidate.all_eq, Candidate.firstObstacle?_eq_none_iff.mpr hclear] at h
    cases h
  | ok told =>
    have hobstacles : (∀ text ∈ Text.lines told, ∀ e ∈ native :: others,
        Candidate.obstacle? text e = none) ↔
          ∀ text ∈ Text.lines told, Candidate.obstacle? text native = none :=
      ⟨fun h text htext => h text htext native List.mem_cons_self, clear⟩
    have writable (text : String) (htext : text ∈ texts) : Writable (native :: others) text :=
      ⟨native, List.mem_cons_self, written text htext⟩
    rw [hlines told hdecode, hgiven, hgiven, all_eq_all_iff writable hclear, hobstacles]
    simp

/-- The kind of source makes no difference for one password, nor for the lines of a file: they give
what they give as passwords. A file to which passwords were written, one per line, gives what these
give exactly when it is read as them, but for lines that no encoding can write. If the native
encoding reads what was written, as those that are spelled out do, that is when no password has a
character in it that ends a line; there are more of them than the line feed and the carriage
return. -/
theorem sources_agree_iff (isOpen : w.vault.isOpen = true)
    (preferred : Text.Encoding.named w.native = .ok native) (accepted : Accepted further others)
    (willing : ∀ e ∈ others, ∀ text, Candidate.obstacle? text e = none) (label : String) :
    let handed (spec : String) := (w.run (candidates spec label further)).1
    (∀ name text, w.environment.lookup name = some text →
      handed ("env:" ++ name) = handed ("pass:" ++ text)) ∧
    (w.isTerminal = false → ∀ text : String, '\n' ∉ text.toList → '\r' ∉ text.toList →
      (∃ rest behind, w.input = ⟨text.toList ++ '\n' :: rest, behind⟩) ∨
        w.input = .ofText text ∧ text ≠ "" →
      handed PasswordSource.inputSpec = handed ("pass:" ++ text)) ∧
    (∀ path contents, w.files.read (Path.ofText path) = .ok contents →
      (∀ told, native.decode contents = .ok told →
        handed ("file:" ++ path) = literally w label further (Text.lines told)) ∧
      (∀ fault, native.decode contents = .error fault →
        ∃ fault', handed ("file:" ++ path) = .error fault')) ∧
    ∀ texts : List String, (∀ text ∈ texts, '\r' ∉ text.toList ∧
        ∃ b, native.encode text = .ok b) →
      (∃ given, literally w label further texts = .ok given) ∧
      (native.IsKnown → texts ≠ [] → ∃ contents, native.encode (Text.joined texts) = .ok contents) ∧
      ∀ path contents, native.encode (Text.joined texts) = .ok contents →
        w.files.read (Path.ofText path) = .ok contents →
        (handed ("file:" ++ path) = literally w label further texts ↔
          ∃ told, native.decode contents = .ok told ∧
            (∀ text ∈ Text.lines told, Candidate.obstacle? text native = none) ∧
            (Text.lines told).filter (Writable (native :: others)) = texts) ∧
        (native.IsKnown → native.decode contents = .ok (Text.joined texts)) ∧
        (native.decode contents = .ok (Text.joined texts) →
          handed ("file:" ++ path) = literally w label further (texts.flatMap Text.pieces) ∧
          (handed ("file:" ++ path) = literally w label further texts ↔
            ∀ text ∈ texts, ∀ c ∈ text.toList, Text.isLineEnd c = false)) := by
  intro handed
  have hfile {path : String} {contents : Bytes}
      (held : w.files.read (Path.ofText path) = .ok contents) :=
    run_candidates_file isOpen preferred accepted held label
  refine ⟨?_, ?_, fun path contents held => hfile held, ?_⟩
  · intro name text set
    refine run_candidates_congr ?_
    rw [run_lines_environment set, run_lines_literal]
  · intro noTerminal text hfeed hreturn typed
    refine run_candidates_congr ?_
    rw [run_lines_typed noTerminal hfeed hreturn typed, run_lines_literal]
  · intro texts htexts
    have written (text : String) (htext : text ∈ texts) : ∃ b, native.encode text = .ok b :=
      (htexts text htext).2
    have clear : ∀ text ∈ texts, ∀ e ∈ native :: others, Candidate.obstacle? text e = none :=
      fun text htext => List.forall_mem_cons.mpr
        ⟨Candidate.obstacle?_of_ok (written text htext), fun e he => willing e he text⟩
    refine ⟨?_, fun known hne => Text.Encoding.exists_encode_joined known hne written, ?_⟩
    · rw [literally_eq isOpen preferred accepted, Candidate.all_eq,
        Candidate.firstObstacle?_eq_none_iff.mpr clear]
      exact ⟨_, rfl⟩
    · intro path contents encoded held
      have hagree := run_file_eq_iff isOpen preferred accepted willing written held label
      refine ⟨hagree, fun known => Text.Encoding.decode_encode known encoded, ?_⟩
      intro hread
      have hlines : Text.lines (Text.joined texts) = texts.flatMap Text.pieces :=
        Text.lines_joined fun text htext => (htexts text htext).1
      have writable (text : String) (htext : text ∈ texts) : Writable (native :: others) text :=
        ⟨native, List.mem_cons_self, written text htext⟩
      refine ⟨((hfile held).1 _ hread).trans (by rw [hlines]), hagree.trans ?_⟩
      rw [hread]
      simp only [Except.ok.injEq, exists_eq_left', hlines, filter_pieces_eq_iff writable]
      refine and_iff_right_of_imp fun plain text htext => ?_
      rw [Text.flatMap_pieces_of_plain plain] at htext
      exact clear text htext native List.mem_cons_self

end Password
end General

section Samples
attribute [local instance] Platform.standard

namespace Password

/-- Surroundings with a password file. -/
def samplePasswordFile (text : String) : World :=
  .ofFiles (.ofContents [(["pw"], Bytes.ofText text)])

/-- Two lines of a file give what the two passwords give. -/
theorem sample_two_lines :
    let w := samplePasswordFile "a\nb\n"
    w.vault.isOpen = true ∧ Text.Encoding.named w.native = .ok .utf8 ∧
    Accepted ["latin1"] [.latin1] ∧
    (w.run (candidates "file:pw" "Password" ["latin1"])).1 =
      literally w "Password" ["latin1"] ["a", "b"] := by
  intro w
  have preferred : Text.Encoding.named w.native = .ok .utf8 := by decide +kernel
  have accepted : Accepted ["latin1"] [.latin1] := .cons (by decide +kernel) .nil
  have willing : ∀ e ∈ [Text.Encoding.latin1], ∀ text, Candidate.obstacle? text e = none := by
    intro e he text
    obtain rfl := List.mem_singleton.mp he
    have known : Text.Encoding.latin1.IsKnown := fun _ => nofun
    exact Candidate.obstacle?_of_known known text
  obtain ⟨-, -, -, hfile⟩ := sources_agree_iff (w := w) rfl preferred accepted willing "Password"
  have writable : ∀ text ∈ ["a", "b"], '\r' ∉ text.toList ∧
      ∃ b, Text.Encoding.utf8.encode text = .ok b :=
    fun text htext => ⟨by revert text; decide +kernel, _, rfl⟩
  obtain ⟨-, -, hheld⟩ := hfile ["a", "b"] writable
  obtain ⟨-, hread, hiff⟩ := hheld "pw" (Bytes.ofText "a\nb\n") (by decide +kernel)
    (by decide +kernel)
  have plain : ["a", "b"].all (fun text => text.toList.all fun c => !Text.isLineEnd c) = true := by
    decide +kernel
  have hplain : ∀ text ∈ ["a", "b"], ∀ c ∈ text.toList, Text.isLineEnd c = false := by
    intro text htext
    simpa using List.all_eq_true.mp plain text htext
  exact ⟨rfl, preferred, accepted, (hiff (hread fun _ => nofun)).2.mpr hplain⟩

/-- A vertical tabulator in a password ends a line of the file. -/
theorem sample_password_taken_apart :
    let w := samplePasswordFile "a\x0bb\n"
    Text.Encoding.utf8.encode (Text.joined ["a\x0bb"]) = .ok (Bytes.ofText "a\x0bb\n") ∧
    (w.run (candidates "file:pw" "Password" [])).1 =
      .ok [⟨"a", "utf-8", Bytes.ofText "a"⟩, ⟨"b", "utf-8", Bytes.ofText "b"⟩] ∧
    (w.run (candidates "file:pw" "Password" [])).1 ≠ literally w "Password" [] ["a\x0bb"] := by
  decide +kernel

end Password
end Samples
end PackageSigning
