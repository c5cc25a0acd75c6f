import PackageSigning.Proofs.Command.Lineage
import PackageSigning.Proofs.World.Asked
import PackageSigning.Proofs.World.Files

/-!
# What failing commands leave in files

A rotation writes last of all, so when it fails, no file has changed
(`RotateCommand.run_allOrNothing`). The lineage command says where it has written, and that line can
fail: the path in it is taken for markup. Nothing else can fail behind the writing, and what is
written is always read back, with the nodes of the input but for their flags
(`LineageCommand.leaves_files_or_readable`).
-/

namespace PackageSigning

open PackageSigning.Action

/-! ## Failing without a trace -/

/-- When the action fails, all files are as they were. -/
def Action.AllOrNothing {α : Type} (x : Action α) : Prop :=
  ∀ (w : World) fault, (w.run x).1 = .error fault → (w.run x).2.files = w.files

namespace Action.AllOrNothing
variable {α β : Type} {x : Action α} {f : α → Action β}

/-- Behind what changes no file. -/
theorem behind (hx : x.Only Query.Spares) (hf : ∀ a, (f a).AllOrNothing) :
    (x >>= f).AllOrNothing := by
  intro w fault
  have hfiles : (w.run x).2.files = w.files := World.files_of_spares hx
  rw [World.run_bind]
  generalize w.run x = outcome at hfiles
  obtain ⟨result, v⟩ := outcome
  cases result with
  | error _ => exact fun _ => hfiles
  | ok a => exact fun failed => (hf a v fault failed).trans hfiles

/-- In front of what cannot fail. -/
theorem before (hx : x.AllOrNothing) (hf : ∀ a (v : World), ∃ b, (v.run (f a)).1 = .ok b) :
    (x >>= f).AllOrNothing := by
  intro w fault
  have hfailed := hx w
  rw [World.run_bind]
  generalize w.run x = outcome at hfailed
  obtain ⟨result, v⟩ := outcome
  cases result with
  | error fault' => exact fun _ => hfailed fault' rfl
  | ok a =>
    intro failed
    obtain ⟨b, hb⟩ := hf a v
    cases hb.symm.trans failed

end Action.AllOrNothing

namespace Lineage
variable {l : Lineage} {path : String} {data : Bytes} {files : Files} {w : World}

theorem run_save (hdata : l.toBytes = .ok data)
    (hwrite : w.files.write (Path.ofText path) data = .ok files) :
    w.run (l.save path) = (.ok (), { w with files }) := by
  have hanswer : w.answer (.write (Path.ofText path) data) = (.ok (), { w with files }) :=
    congrArg w.keep hwrite
  unfold save
  rw [World.run_ofResult_bind hdata]
  show w.run (.ask (.write (Path.ofText path) data) _) = _
  rw [World.run_ask, hanswer]
  rfl

/-- A lineage that cannot be saved changes no file. -/
theorem save_allOrNothing (l : Lineage) (path : String) : (l.save path).AllOrNothing := by
  intro w fault failed
  cases hdata : l.toBytes with
  | error _ =>
    unfold save
    rw [hdata]
    rfl
  | ok data =>
    cases hwrite : w.files.write (Path.ofText path) data with
    | ok files =>
      rw [run_save hdata hwrite] at failed
      cases failed
    | error refusal =>
      have hanswer : w.answer (.write (Path.ofText path) data) = (.error refusal, w) :=
        congrArg w.keep hwrite
      unfold save
      rw [World.run_ofResult_bind hdata]
      show (w.run (.ask (.write (Path.ofText path) data) _)).2.files = _
      rw [World.run_ask, hanswer]
      exact World.files_of_spares (reach_only _ _)

end Lineage

section General
variable [Platform]

namespace RotateCommand

theorem rotated_spares (e : Equipment) (q : RotateRequest) : (rotated e q).Only Query.Spares := by
  have hload (s : SignerSettings) (name : String) (services : Services) :
      (s.loadAs name services).Only Query.Spares :=
    (SignerSettings.load_gathering _ services).mono fun _ => Query.Gathers.spares
  refine .bind (.ofResult _) fun services => .bind (.finally_ (.bind (hload _ _ _) fun _ =>
    .bind (hload _ _ _) fun _ => .pure _) (.query ⟨trivial, trivial⟩)) fun (old, new) =>
    .bind ?_ fun existing => .bind (.ofResult _) fun _ => .bind (.ofResult _) fun _ => .ofResult _
  cases q.input with
  | none => exact .pure _
  | some path => exact .bind (Lineage.load_only ⟨trivial, trivial⟩ _) fun _ => .pure _

/-- A rotation that fails leaves all files as they were. -/
theorem run_allOrNothing (e : Equipment) (tokens : List String) : (run e tokens).AllOrNothing := by
  refine .behind (read_asks (.start tokens)) fun (q, _) => .behind (rotated_spares e q) fun l =>
    .before (l.save_allOrNothing _) fun _ v => ⟨(), ?_⟩
  split
  · exact Console.run_say (Console.canSay_of_plain (by decide +kernel)) v
  · rfl

end RotateCommand

theorem Console.run_say_eq_ok_iff {line : String} {w : World} :
    (w.run (say line)).1 = .ok () ↔ CanSay line := by
  refine ⟨fun h => ?_, fun h => run_say h w⟩
  unfold say at h
  unfold CanSay
  cases hshown : Platform.rendered line with
  | ok text => rfl
  | error m =>
    rw [hshown] at h
    cases h

/-! ## What updates leave -/

section
omit [Platform]

namespace Lineage
variable {notary : Notary} {l l' : Lineage}

/-- Flags are of no account to whether nodes are read. -/
theorem Readable.of_bare {nodes nodes' : List LineageNode} (readable : Readable notary nodes)
    (h : nodes'.map LineageNode.bare = nodes.map LineageNode.bare) : Readable notary nodes' where
  ne_nil := by
    rintro rfl
    exact readable.ne_nil (List.map_eq_nil_iff.mp h.symm)
  known n hn := by
    obtain ⟨m, hm, hbare⟩ := List.mem_map.mp (h ▸ List.mem_map_of_mem hn)
    have hcertificate : m.certificate = n.certificate := congrArg (·.certificate) hbare
    rw [← hcertificate]
    exact readable.known m hm
  verified := by
    rw [← verify_bare, h, verify_bare]
    exact readable.verified

/-- What updates leave of a lineage that was read is written, and read back. -/
theorem ofBytes_of_updateAll (faithful : notary.Faithful) {data data' : Bytes}
    {requests : List Rotation.Request} {us : List Rotation.Update}
    (lineage : ofBytes notary data = .ok l) (h : Rotation.updateAll l requests = .ok (l', us))
    (hdata' : l'.toBytes = .ok data') : ofBytes notary data' = .ok l' := by
  obtain ⟨hsdk, hreadable, -⟩ := (ofBytes_eq_ok faithful).mp lineage
  refine (ofBytes_eq_ok faithful).mpr ⟨(Rotation.minSdk_of_updateAll h).trans hsdk, ?_, hdata'⟩
  exact hreadable.of_bare (Rotation.map_bare_of_updateAll h)

end Lineage
end

namespace LineageCommand

variable {w : World} {e : Equipment} {tokens : List String}

/-- Updates that go through are updates made one after the other. -/
theorem exists_updateAll_of_updateFrom {services : Services} {verbose changed : Bool}
    {number : Nat} {settings : List SignerSettings} {l l' : Lineage}
    (h : (w.run (updateFrom services verbose number settings l)).1 = .ok (l', changed)) :
    ∃ requests us, Rotation.updateAll l requests = .ok (l', us) ∧
      Rotation.anyChanged us = changed := by
  induction settings generalizing w number l l' changed with
  | nil =>
    obtain ⟨rfl, rfl⟩ := Prod.mk.inj (Except.ok.inj h)
    exact ⟨[], [], rfl, rfl⟩
  | cons s rest ih =>
    obtain ⟨loaded, v, -, h⟩ := World.run_bind_eq_ok.mp h
    obtain ⟨signer, -, h⟩ := World.run_ofResult_bind_eq_ok.mp h
    obtain ⟨u, hu, h⟩ := World.run_ofResult_bind_eq_ok.mp h
    -- whether the update is shown or not, the others come next
    obtain ⟨v', h⟩ : ∃ v' : World,
        (v'.run (updateFrom services verbose (number + 1) rest u.lineage >>= fun p =>
          return (p.1, u.changed || p.2))).1 = .ok (l', changed) := by
      dsimp only at h
      split at h
      · obtain ⟨_, v', -, h⟩ := World.run_bind_eq_ok.mp h
        exact ⟨v', h⟩
      · exact ⟨v, h⟩
    obtain ⟨⟨m, others⟩, v'', hothers, h⟩ := World.run_bind_eq_ok.mp h
    obtain ⟨rfl, rfl⟩ := Prod.mk.inj (Except.ok.inj h)
    obtain ⟨requests, us, hrequests, rfl⟩ := ih (congrArg Prod.fst hothers)
    exact ⟨⟨signer, loaded.capabilities.freeze, loaded.shownName⟩ :: requests, u :: us,
      Rotation.updateAll_cons_eq_ok.mpr ⟨u, us, hu, hrequests, rfl⟩, rfl⟩

/-! ## Before the writing -/

/-- What is ready when there is only the writing left. -/
structure Ready where
  options : LineageOptions
  before : Lineage
  after : Lineage
  changed : Bool

/-- Everything before the writing. -/
def prepared (e : Equipment) (tokens : List String) : Action Ready := do
  let ((options, _), _) ← OptionAction.readAll LineageOptions.take .initial (.start tokens)
  let input ← ofResult (RotateCommand.required .inputLineageMissing options.input)
  let before ← Lineage.load e.notary input.toText
  let (after, changed) ←
    SignerSettings.wiping (updateFrom e.services options.verbose 1 options.signers before)
  if options.certificates then
    CertificateReport.numbered (showSigner after options.verbose) 1 after.certificates
  return { options, before, after, changed }

theorem run_eq (e : Equipment) (tokens : List String) : run e tokens = (do
    let ready ← prepared e tokens
    if ready.changed then save ready.options ready.after else pure ()) := by
  unfold run prepared
  simp only [bind_assoc]
  congr
  funext ((o, _), _)
  congr
  funext input
  congr
  funext l
  congr
  funext (l', changed)
  dsimp only
  split
  · rw [bind_assoc]
    rfl
  · rfl

theorem prepared_spares (e : Equipment) (tokens : List String) :
    (prepared e tokens).Only Query.Spares := by
  refine .bind (OptionAction.readAll_asks LineageOptions.take_asks .initial (.start tokens))
    fun ((o, _), _) => .bind (.ofResult _) fun input =>
    .bind (Lineage.load_only ⟨trivial, trivial⟩ _) fun l => .bind (.finally_ (updateFrom_only
      (fun _ => Query.Gathers.spares) (fun _ => Query.Shows.spares) _ _ _ _ _)
      (.query ⟨trivial, trivial⟩)) fun (l', changed) => ?_
  dsimp only
  split
  · exact .bind (CertificateReport.numbered_only
      (fun _ _ => (showSigner_shows _ _ _ _).mono fun _ => Query.Shows.spares) _ _) fun _ => .pure _
  · exact .pure _

omit [Platform] in
/-- A lineage that has been loaded was in the file. -/
theorem read_of_load {notary : Notary} {path : String} {l : Lineage}
    (h : (w.run (Lineage.load notary path)).1 = .ok l) :
    ∃ data, w.files.read (Path.ofText path) = .ok data ∧ Lineage.ofBytes notary data = .ok l := by
  obtain ⟨answer, v, hquery, h⟩ := World.run_bind_eq_ok.mp h
  have hanswer : (.ok (w.files.read (Path.ofText path)), w) =
      ((.ok answer, v) : Except Fault _ × World) := hquery
  cases hanswer
  obtain ⟨data, v, hreach, h⟩ := World.run_bind_eq_ok.mp h
  cases hread : w.files.read (Path.ofText path) with
  | ok data' =>
    rw [hread] at hreach
    cases hreach
    exact ⟨data, rfl, by rwa [World.run_ofResult] at h⟩
  | error fault =>
    rw [hread] at hreach
    cases fault <;> cases hreach

/-- When everything is ready, the input has been read and its signers have been updated. -/
theorem updated_of_prepared {ready : Ready} (h : (w.run (prepared e tokens)).1 = .ok ready) :
    ∃ last r input data requests us,
      (w.run (OptionAction.readAll LineageOptions.take .initial (.start tokens))).1 =
        .ok ((ready.options, last), r) ∧
      ready.options.input = some input ∧
      w.files.read (Path.ofText input.toText) = .ok data ∧
      Lineage.ofBytes e.notary data = .ok ready.before ∧
      Rotation.updateAll ready.before requests = .ok (ready.after, us) ∧
      Rotation.anyChanged us = ready.changed := by
  obtain ⟨⟨⟨o, last⟩, r⟩, v, hparsed, hrest⟩ := World.run_bind_eq_ok.mp h
  obtain rfl : v = w := World.eq_of_looks
    (OptionAction.readAll_asks LineageOptions.take_asks .initial (.start tokens)) hparsed
  obtain ⟨input, hinput, hrest⟩ := World.run_ofResult_bind_eq_ok.mp hrest
  obtain ⟨l, u, hload, hrest⟩ := World.run_bind_eq_ok.mp hrest
  obtain ⟨data, hdata, hlineage⟩ := read_of_load (congrArg Prod.fst hload)
  obtain ⟨⟨l', changed⟩, u', hupdates, hrest⟩ := World.run_bind_eq_ok.mp hrest
  obtain ⟨requests, us, hupdate, hchanged⟩ :=
    exists_updateAll_of_updateFrom ((run_wiping u _).symm.trans (congrArg Prod.fst hupdates))
  have hready : ready = ⟨o, l, l', changed⟩ := by
    dsimp only at hrest
    split at hrest
    · obtain ⟨_, _, -, hrest⟩ := World.run_bind_eq_ok.mp hrest
      exact (Except.ok.inj hrest).symm
    · exact (Except.ok.inj hrest).symm
  subst hready
  exact ⟨last, r, input, data, requests, us, congrArg Prod.fst hparsed,
    RotateCommand.required_eq_ok.mp hinput, hdata, hlineage, hupdate, hchanged⟩

/-! ## The writing, and the line behind it -/

/-- The line that tells where a lineage was saved. -/
def savedLine (output : Path) : String := s!"Updated lineage saved to {output.toText}."

/-- Everything is ready, some update was a change, and what the updates leave can be written. -/
structure Saves (e : Equipment) (tokens : List String) (w : World) (ready : Ready) (output : Path)
    (data : Bytes) : Prop where
  prepared : (w.run (prepared e tokens)).1 = .ok ready
  changed : ready.changed = true
  output : ready.options.output = some output
  data : ready.after.toBytes = .ok data

theorem writes_of_saves {ready : Ready} {output : Path} {data : Bytes}
    (h : Saves e tokens w ready output data) :
    w.writes (run e tokens) = [(Path.ofText output.toText, data)] := by
  have hkeeps := (prepared_spares e tokens).mono fun _ => And.left
  rw [run_eq, World.writes_bind_of_ok h.prepared hkeeps, if_pos h.changed]
  exact writes_save h.output h.data

/-- The command writes the lineage that the updates leave, or nothing. -/
theorem writes_run (e : Equipment) (tokens : List String) (w : World) :
    w.writes (run e tokens) = [] ∨ ∃ ready output data, Saves e tokens w ready output data ∧
      w.writes (run e tokens) = [(Path.ofText output.toText, data)] := by
  have hkeeps := (prepared_spares e tokens).mono fun _ => And.left
  cases hprepared : (w.run (prepared e tokens)).1 with
  | error fault =>
    left
    rw [run_eq, World.writes_bind, World.writes_of_only hkeeps]
    generalize w.run (prepared e tokens) = outcome at hprepared
    obtain ⟨_, v⟩ := outcome
    subst hprepared
    rfl
  | ok ready =>
    have hrun : w.writes (run e tokens) = (w.run (prepared e tokens)).2.writes
        (if ready.changed then save ready.options ready.after else pure ()) := by
      rw [run_eq, World.writes_bind_of_ok hprepared hkeeps]
    split at hrun
    · next hchanged =>
      cases houtput : ready.options.output with
      | none =>
        left
        rw [hrun, save, houtput]
        rfl
      | some output =>
        cases hdata : ready.after.toBytes with
        | error fault =>
          left
          rw [hrun]
          unfold save Lineage.save
          rw [houtput, hdata]
          rfl
        | ok data =>
          have h : Saves e tokens w ready output data := ⟨hprepared, hchanged, houtput, hdata⟩
          exact .inr ⟨ready, output, data, h, writes_of_saves h⟩
    · exact .inl hrun

theorem files_run (e : Equipment) (tokens : List String) (w : World) :
    (w.run (run e tokens)).2.files =
      (w.writes (run e tokens)).foldl (fun fs p => World.put fs p.1 p.2) w.files :=
  World.run_files (run_settled e tokens)

/-- When the lineage gets into its file, only the line behind the writing can fail. -/
theorem ends_well_iff {ready : Ready} {output : Path} {data : Bytes}
    (h : Saves e tokens w ready output data)
    (touched : World.put w.files (Path.ofText output.toText) data ≠ w.files) :
    (w.run (run e tokens)).1 = .ok () ↔
      (ready.options.verbose = true → Console.CanSay (savedLine output)) := by
  have hfiles : (w.run (prepared e tokens)).2.files = w.files :=
    World.files_of_spares (prepared_spares e tokens)
  obtain ⟨files, hwrite⟩ : ∃ files, w.files.write (Path.ofText output.toText) data = .ok files := by
    unfold World.put at touched
    cases hwrite : w.files.write (Path.ofText output.toText) data with
    | ok files => exact ⟨files, rfl⟩
    | error _ =>
      rw [hwrite] at touched
      exact absurd rfl touched
  rw [run_eq, World.run_bind_fst h.prepared, if_pos h.changed]
  unfold save
  rw [h.output]
  dsimp only
  rw [← hfiles] at hwrite
  rw [World.run_bind_of_ok (Lineage.run_save h.data hwrite)]
  split
  · next hverbose =>
    rw [Console.run_say_eq_ok_iff]
    exact ⟨fun hsay _ => hsay, fun hsay => hsay hverbose⟩
  · next hquiet => exact ⟨fun _ hverbose => absurd hverbose hquiet, fun _ => rfl⟩

/-- The command fails without a trace unless the line behind the writing cannot be shown. -/
theorem fails_without_trace_iff (e : Equipment) (tokens : List String) (w : World) :
    (∀ fault, (w.run (run e tokens)).1 = .error fault → (w.run (run e tokens)).2.files = w.files) ↔
      ∀ ready output data, Saves e tokens w ready output data →
        World.put w.files (Path.ofText output.toText) data ≠ w.files →
        ready.options.verbose = true → Console.CanSay (savedLine output) := by
  have hfiles := files_run e tokens w
  constructor
  · intro traceless ready output data h touched
    rw [← ends_well_iff h touched]
    cases hresult : (w.run (run e tokens)).1 with
    | ok _ => rfl
    | error fault =>
      have hput : (w.run (run e tokens)).2.files =
          World.put w.files (Path.ofText output.toText) data := by
        rw [hfiles, writes_of_saves h]
        rfl
      exact absurd (hput.symm.trans (traceless fault hresult)) touched
  · intro sayable fault failed
    obtain hnone | ⟨ready, output, data, h, hone⟩ := writes_run e tokens w
    · rw [hfiles, hnone]
      rfl
    · by_contra touched
      rw [hfiles, hone] at touched
      rw [(ends_well_iff h touched).mpr (sayable ready output data h touched)] at failed
      cases failed

/-- Commands that write lineages leave all files as they were, or one file that is read. -/
structure LeavesFilesOrReadable (e : Equipment) (tokens : List String) (w : World) : Prop where
  /-- A rotation that fails changes no file. -/
  rotation : ∀ fault, (w.run (RotateCommand.run e tokens)).1 = .error fault →
    (w.run (RotateCommand.run e tokens)).2.files = w.files
  /-- Neither does the lineage command, exactly when the line behind a writing can be shown. -/
  updates : (∀ fault, (w.run (run e tokens)).1 = .error fault →
      (w.run (run e tokens)).2.files = w.files) ↔
    ∀ ready output data, Saves e tokens w ready output data →
      World.put w.files (Path.ofText output.toText) data ≠ w.files →
      ready.options.verbose = true → Console.CanSay (savedLine output)
  /-- It changes no file, or it writes to one, when everything is ready. -/
  writes : (w.writes (run e tokens) = [] ∧ (w.run (run e tokens)).2.files = w.files) ∨
    ∃ ready output data, Saves e tokens w ready output data ∧
      w.writes (run e tokens) = [(Path.ofText output.toText, data)] ∧
      (w.run (run e tokens)).2.files = World.put w.files (Path.ofText output.toText) data
  /-- What it writes is read back, with the nodes that were read, but for their flags. -/
  readable : ∀ ready output data, Saves e tokens w ready output data →
    ∃ input old, ready.options.input = some input ∧
      w.files.read (Path.ofText input.toText) = .ok old ∧
      Lineage.ofBytes e.notary old = .ok ready.before ∧
      Lineage.ofBytes e.notary data = .ok ready.after ∧
      ready.after.nodes.map LineageNode.bare = ready.before.nodes.map LineageNode.bare

/-- Commands that write lineages leave all files as they were, or one file that is read. -/
theorem leaves_files_or_readable (faithful : e.notary.Faithful) (tokens : List String) (w : World) :
    LeavesFilesOrReadable e tokens w where
  rotation := RotateCommand.run_allOrNothing e tokens w
  updates := fails_without_trace_iff e tokens w
  writes := by
    rw [files_run]
    obtain hnone | ⟨ready, output, data, h, hone⟩ := writes_run e tokens w
    · exact .inl ⟨hnone, by rw [hnone]; rfl⟩
    · exact .inr ⟨ready, output, data, h, hone, by rw [hone]; rfl⟩
  readable := by
    intro ready output data h
    obtain ⟨_, _, input, old, requests, us, -, hinput, hread, hlineage, hupdate, -⟩ :=
      updated_of_prepared h.prepared
    exact ⟨input, old, hinput, hread, hlineage,
      Lineage.ofBytes_of_updateAll faithful hlineage hupdate h.data,
      Rotation.map_bare_of_updateAll hupdate⟩

end LineageCommand
end General

section Samples
attribute [local instance] Platform.standard

namespace LineageCommand

/-- Those files, and a directory whose name looks like the beginning of a tag. -/
def sampleTagged : World := { sampleWorld with files := sampleWorld.files.put ["d["] .directory }

/-- Words that have a lineage saved in that directory, and told of. -/
def sampleTaggedTokens : List String :=
  ["--in", "lineage", "--out", "d[/b]", "-v"] ++ sampleScope "true"

theorem sample_leaves_files_or_readable :
    sampleEquipment.notary.Faithful ∧
    LeavesFilesOrReadable sampleEquipment sampleTaggedTokens sampleTagged ∧
    sampleTagged.writes (run sampleEquipment sampleTaggedTokens) =
      [(⟨.relative, ["d[", "b]"]⟩, Rotation.sampleFile 16)] ∧
    Lineage.ofBytes sampleEquipment.notary (Rotation.sampleFile 16) =
      .ok (Rotation.sampleLineage 16) :=
  ⟨Notary.recorded_faithful, leaves_files_or_readable Notary.recorded_faithful _ _,
    by decide +kernel, by decide +kernel⟩

/-- The lineage is saved, and the command fails: its path closes a tag that is not open. -/
theorem sample_fails_with_trace :
    let ends := sampleTagged.run (run sampleEquipment sampleTaggedTokens)
    ends.1 = .error (.mishap .badMarkup) ∧
    sampleTagged.files.isThere ⟨.relative, ["d[", "b]"]⟩ = false ∧
    ends.2.files.read ⟨.relative, ["d[", "b]"]⟩ = .ok (Rotation.sampleFile 16) :=
  ⟨by decide +kernel, by decide +kernel, by decide +kernel⟩

end LineageCommand
end Samples
end PackageSigning
