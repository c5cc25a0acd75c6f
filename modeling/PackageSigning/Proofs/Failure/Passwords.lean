import PackageSigning.Proofs.Failure.Actions
import PackageSigning.Proofs.Outcome

/-!
# What asking for passwords fails with

When candidates can be handed out and nobody types at a terminal, passwords fail with faults
of the tool, with the path of a password file that is unusable, with a line of input that is
lost, or with an encoding that is none or fails in a way of its own
(`Password.candidates_fails`).
-/

namespace PackageSigning

open PackageSigning.Action

variable [Platform] {E : Fault → Prop} {w v : World}

namespace Text.Encoding

/-- No encoding was found, or one that fails otherwise than at characters that it does not
have. -/
inductive Balks (lookup : Except Fault Encoding) (m : Mishap) : Prop
  | missing (h : lookup = .error (.mishap m))
  | refuses {e : Encoding} {text : String} (found : lookup = .ok e)
      (h : e.encode text = .error (.mishap m)) (other : m ≠ .unencodable)

omit [Platform] in
theorem mapError_fails {α : Type} (result : Except Mishap α) :
    PackageSigning.FailsOnly (fun fault => ∃ m, fault = .mishap m)
      (result.mapError Fault.mishap) := by
  cases result with
  | ok _ => exact .ok _
  | error _ => exact .error ⟨_, rfl⟩

theorem encode_fails (e : Encoding) (text : String) :
    PackageSigning.FailsOnly (fun fault => ∃ m, fault = .mishap m) (e.encode text) := by
  unfold encode
  split
  · exact mapError_fails _
  · exact .error ⟨_, rfl⟩
  · exact .error ⟨_, rfl⟩
  · split
    · exact .ok _
    · exact .error ⟨_, rfl⟩

theorem decode_fails (e : Encoding) (b : Bytes) :
    PackageSigning.FailsOnly (fun fault => ∃ m, fault = .mishap m) (e.decode b) := by
  unfold decode
  split
  · exact mapError_fails _
  · exact .error ⟨_, rfl⟩
  · exact .error ⟨_, rfl⟩
  · split
    · exact .ok _
    · exact .error ⟨_, rfl⟩

omit [Platform] in
theorem named_fails (name : String) :
    PackageSigning.FailsOnly (fun fault => ∃ m, fault = .mishap m) (named name) := by
  unfold named
  split
  · exact .error ⟨_, rfl⟩
  · split
    · exact .ok _
    · exact .error ⟨_, rfl⟩

end Text.Encoding

/-! ## Files that cannot be read -/

section Files
omit [Platform]

variable {fs : Files} {path : Path}

theorem Files.isSystem_of_enter {text name : String} {place : List String} {fault : FileFault}
    (h : fs.enter text place name = .error fault) : fault.isSystem = true := by
  unfold enter at h
  split at h
  · cases h; rfl
  · cases h; rfl
  · cases h; rfl
  · split at h <;> cases h
    rfl

theorem Files.isSystem_of_advance {text : String} {place names : List String} {fault : FileFault}
    {jump : List String → List String → Except FileFault (List String)}
    (hjump : ∀ place names fault, jump place names = .error fault → fault.isSystem = true)
    (h : fs.advance text jump place names = .error fault) : fault.isSystem = true := by
  induction names generalizing place with
  | nil => cases h
  | cons name rest ih =>
    obtain henter | ⟨next, -, h⟩ := bind_eq_error.mp h
    · exact isSystem_of_enter henter
    · split at h
      · exact hjump _ _ _ h
      · exact ih h

theorem Files.isSystem_of_follow {text : String} {links : Nat} {place names : List String}
    {fault : FileFault} (h : fs.follow text links place names = .error fault) :
    fault.isSystem = true := by
  induction links generalizing place names fault with
  | zero =>
    refine isSystem_of_advance (fun _ _ fault hfault => ?_) h
    cases hfault
    rfl
  | succ links ih => exact isSystem_of_advance (fun _ _ _ => ih) h

/-- What cannot be read is refused by the system, or has a path that no file can have. -/
theorem Files.refusal_of_read {fault : FileFault} (h : fs.read path = .error fault) :
    fault.isSystem = true ∨ fault = .unusablePath ∧ path.isUnusable = true := by
  obtain hlocate | ⟨n, -, h⟩ := bind_eq_error.mp h
  · unfold locate at hlocate
    split at hlocate
    · next unusable => exact .inr ⟨(Except.error.inj hlocate).symm, unusable⟩
    · exact .inl (isSystem_of_follow hlocate)
  · split at h
    · cases h
    · cases h; exact .inl rfl
    · cases h; exact .inl rfl
    · cases h; exact .inl rfl

end Files

namespace Password

/-- The path that a specification names. -/
def path? (spec : String) : Option String :=
  match PasswordSource.ofSpec? spec with
  | some (.file path) => some path
  | _ => none

/-- The preferred encoding fails for what a file holds, otherwise than by finding it malformed. -/
structure Misread (w : World) (path : String) (m : Mishap) : Prop where
  fails : ∃ e b, Text.Encoding.named w.native = .ok e ∧
    w.files.read (Path.ofText path) = .ok b ∧ e.decode b = .error (.mishap m)
  other : m ≠ .undecodable

omit [Platform] in
theorem encodingNamed_fails (name : String) :
    FailsOnly (fun fault => fault.isOwn = true ∨ ∃ m, fault = .mishap m) (encodingNamed name) := by
  refine .bind (fun fault hfault => ?_) fun _ _ => .pure _
  unfold charsetNamed at hfault
  split at hfault
  · cases hfault
  · cases hfault
    exact .inl rfl
  · next hnamed =>
    cases hfault
    exact .inr (Text.Encoding.named_fails name _ hnamed)

/-- Text that an encoding cannot write is no failure; an encoding that fails otherwise is one. -/
theorem encode?_fails (text : String) (e : Text.Encoding) :
    FailsOnly (fun fault => ∃ m, Text.Encoding.Balks (.ok e) m ∧ fault = .mishap m)
      (Candidate.encode? text e) := by
  unfold Candidate.encode?
  split
  · exact .ok _
  · exact .ok _
  · next fault hne hencode =>
    obtain ⟨m, rfl⟩ := Text.Encoding.encode_fails e text fault hencode
    exact .error ⟨m, .refuses rfl hencode fun hm => hne (congrArg Fault.mishap hm), rfl⟩

theorem all_fails {encodings : List Text.Encoding} (texts : List String)
    (h : ∀ e ∈ encodings, ∀ m, Text.Encoding.Balks (.ok e) m → E (.mishap m)) :
    FailsOnly E (Candidate.all encodings texts) := by
  refine .bind (.mapM fun text _ => .bind (.mapM fun e he => ?_) fun _ _ => .pure _)
    fun _ _ => .pure _
  refine (encode?_fails text e).mono ?_
  rintro _ ⟨m, hm, rfl⟩
  exact h e he m hm

/-- What can go wrong with the encoding that the platform prefers. -/
theorem native_fails (h : ∀ m, Text.Encoding.Balks (Text.Encoding.named w.native) m →
    E (.mishap m)) : w.FailsOnly E native := by
  refine .query_bind trivial fun v hv => .ofResult fun fault hfault => ?_
  change Text.Encoding.named v.native = _ at hfault
  rw [hv.native] at hfault
  obtain ⟨m, rfl⟩ := Text.Encoding.named_fails _ fault hfault
  exact h m (.missing hfault)

omit [Platform] in
theorem run_native (hv : w.Alike v) :
    (v.run native).1 = Text.Encoding.named w.native := by
  rw [← hv.native]
  exact congrArg Prod.fst (World.run_ofResult v (Text.Encoding.named v.native))

omit [Platform] in
theorem inputLine_fails (noTerminal : w.isTerminal = false)
    (lost : ∀ m, .error m ∈ w.inputLines → E (.mishap m)) (label : String) :
    w.FailsOnly E (inputLine label) := by
  refine .query_bind trivial fun v hv => ?_
  have hterminal : (v.answer .isTerminal).1 = false := hv.isTerminal.trans noTerminal
  rw [hterminal]
  refine .query_bind trivial fun _ _ => .query_bind trivial fun u hu =>
    .bind (.ofMishap _) (.ofMishap fun m hm => lost m ?_) fun _ => .pure _
  exact hu.inputLines.subset (World.mem_inputLines_of_takeLine hm)

theorem fileLines_fails {path : String} (own : ∀ fault, fault.isOwn = true → E fault)
    (unusable : (Path.ofText path).isUnusable = true → E (.file .unusablePath))
    (native : ∀ m, Text.Encoding.Balks (Text.Encoding.named w.native) m → E (.mishap m))
    (misread : ∀ m, Misread w path m → E (.mishap m)) :
    w.FailsOnly E (fileLines (Path.ofText path)) := by
  refine .query_bind trivial fun v hv => ?_
  have hfiles : (v.answer (.read (Path.ofText path))).1 = w.files.read (Path.ofText path) :=
    congrArg (·.read (Path.ofText path)) hv.files
  rw [hfiles]
  split
  · next hread =>
    exact .throw (unusable ((Files.refusal_of_read hread).resolve_left nofun).2)
  · exact .throw (own _ rfl)
  · next b hread =>
    refine .bind_of native_gathering (native_fails native) fun u e hu he => ?_
    rw [run_native hu] at he
    split
    · exact .pure _
    · exact .throw (own _ rfl)
    · next fault hne hdecode =>
      obtain ⟨m, rfl⟩ := Text.Encoding.decode_fails e b fault hdecode
      exact .throw (misread m ⟨⟨e, b, he, hread, hdecode⟩, fun hm => hne (congrArg Fault.mishap hm)⟩)

theorem lines_fails {spec label : String} (noTerminal : w.isTerminal = false)
    (own : ∀ fault, fault.isOwn = true → E fault)
    (lost : ∀ m, .error m ∈ w.inputLines → E (.mishap m))
    (unusable : ∀ p, path? spec = some p → (Path.ofText p).isUnusable = true →
      E (.file .unusablePath))
    (native : ∀ m, Text.Encoding.Balks (Text.Encoding.named w.native) m → E (.mishap m))
    (misread : ∀ p, path? spec = some p → ∀ m, Misread w p m → E (.mishap m)) :
    w.FailsOnly E (lines spec label) := by
  unfold lines
  split
  · next source hsource =>
    cases source with
    | input =>
      exact .bind (inputLine_gathering label) (inputLine_fails noTerminal lost label) fun _ =>
        .pure _
    | literal text => exact .pure _
    | environment name =>
      refine .query_bind trivial fun v _ => ?_
      split
      · exact .pure _
      · exact .throw (own _ rfl)
    | file path =>
      have hpath : path? spec = some path := by simp only [path?, hsource]
      exact fileLines_fails own (unusable path hpath) native (misread path hpath)
  · exact .throw (own _ rfl)

/-- What can go wrong with passwords, when the candidates can be handed out and nobody types at
a terminal. -/
theorem candidates_fails {spec label : String} {further : List String}
    (isOpen : w.vault.isOpen = true) (noTerminal : w.isTerminal = false)
    (own : ∀ fault, fault.isOwn = true → E fault)
    (lost : ∀ m, .error m ∈ w.inputLines → E (.mishap m))
    (unusable : ∀ p, path? spec = some p → (Path.ofText p).isUnusable = true →
      E (.file .unusablePath))
    (native : ∀ m, Text.Encoding.Balks (Text.Encoding.named w.native) m → E (.mishap m))
    (misread : ∀ p, path? spec = some p → ∀ m, Misread w p m → E (.mishap m))
    (encoding : ∀ name ∈ further, ∀ m, Text.Encoding.Balks (encodingNamed name) m →
      E (.mishap m)) :
    w.FailsOnly E (candidates spec label further) := by
  have hfurther : FailsOnly E (further.mapM encodingNamed) := by
    refine .mapM fun name hname fault hfault => ?_
    obtain hown | ⟨m, rfl⟩ := encodingNamed_fails name fault hfault
    · exact own fault hown
    · exact encoding name hname m (.missing hfault)
  refine .query_bind trivial fun v hv => ?_
  have hopen : (v.answer .vaultIsOpen).1 = true := hv.isOpen.trans isOpen
  rw [hopen]
  refine .bind_of native_gathering (native_fails native) fun u e hu he => ?_
  rw [run_native hu] at he
  refine .ofResult_bind hfurther fun es hes => ?_
  refine .bind (lines_gathering spec label)
    (lines_fails noTerminal own lost unusable native misread) fun texts => ?_
  refine .bind (.forM (fun _ => .query trivial) _) (fun v _ => ?_) fun _ => ?_
  · rw [World.run_forM_log]
    exact .ok _
  refine .ofResult_bind (all_fails texts fun e' he' m hm => ?_) fun _ _ =>
    .query_bind trivial fun _ _ => .query_bind trivial fun _ _ => .pure _
  cases hm with
  | missing h => cases h
  | @refuses e'' text found h other =>
    obtain rfl := Except.ok.inj found
    obtain rfl | he' := List.mem_cons.mp he'
    · exact native m (.refuses he h other)
    · obtain ⟨name, hname, hnamed⟩ := exists_of_mem_mapM hes he'
      exact encoding name hname m (.refuses hnamed h other)

end Password
end PackageSigning
