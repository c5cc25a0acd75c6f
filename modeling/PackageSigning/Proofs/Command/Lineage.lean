import PackageSigning.Platform.Standard
import PackageSigning.Proofs.Command.Asking
import PackageSigning.Proofs.Rotation.Run
import PackageSigning.Proofs.World

/-!
# When the lineage command writes

The command loads signers and updates them one after the other, and shows this or that in
between. It writes what the updates leave exactly when one of them was a change
(`writes_iff_changed`), also when a later one took it back.
-/

namespace PackageSigning

open PackageSigning.Action

section General
variable [Platform]

namespace Console

/-- A line that the console shows. -/
def CanSay (line : String) : Prop := (Platform.rendered line).isOk = true

instance (line : String) : Decidable (CanSay line) := inferInstanceAs (Decidable (_ = _))

theorem canSay_of_plain {line : String}
    (h : line.toList.all (fun c => 32 ≤ c.toNat && c.toNat < 127 && c != '[') = true) :
    CanSay line := by
  have hplain : ∀ c ∈ line.toList, 32 ≤ c.toNat ∧ c.toNat < 127 ∧ c ≠ '[' := by
    simpa [and_assoc] using h
  obtain ⟨text, htext⟩ := Platform.shows_plain hplain
  rw [CanSay, htext]
  rfl

theorem run_say {line : String} (h : CanSay line) (w : World) : (w.run (say line)).1 = .ok () := by
  unfold CanSay at h
  unfold say
  cases hshown : Platform.rendered line with
  | ok text => rfl
  | error fault => rw [hshown] at h; cases h

theorem run_forM_say {lines : List String} (h : ∀ line ∈ lines, CanSay line) (w : World) :
    (w.run (lines.forM say)).1 = .ok () := by
  induction lines generalizing w with
  | nil => rfl
  | cons line lines ih =>
    obtain ⟨hline, hlines⟩ := List.forall_mem_cons.mp h
    exact (World.run_bind_fst (run_say hline w)).trans (ih hlines _)

theorem say_shows (line : String) : (say line).Only Query.Shows :=
  .bind (.ofMishap _) fun _ => .query trivial

end Console

namespace CertificateReport

theorem show_shows (name : String) (detailed : Bool) (c : Certificate) :
    (show_ name detailed c).Only Query.Shows := by
  refine .bind (.ofResult _) fun _ => .bind (Console.say_shows _) fun _ =>
    .bind (.forM Console.say_shows _) fun _ => ?_
  split
  · exact .bind (.ofResult _) fun _ => .forM Console.say_shows _
  · exact .pure _

theorem showCapabilities_shows (c : Capabilities) : (showCapabilities c).Only Query.Shows :=
  .forM Console.say_shows _

omit [Platform] in
theorem numbered_only {α : Type} {P : Query → Prop} {f : Nat → α → Action Unit}
    (hf : ∀ number a, (f number a).Only P) (number : Nat) (as : List α) :
    (numbered f number as).Only P := by
  induction as generalizing number with
  | nil => exact .pure _
  | cons a as ih => exact .bind (hf number a) fun _ => ih (number + 1)

/-- What a signer may do can always be shown. -/
theorem run_showCapabilities (w : World) (c : Capabilities) :
    (w.run (showCapabilities c)).1 = .ok () := by
  refine Console.run_forM_say (fun line hline => Console.canSay_of_plain ?_) w
  simp only [capabilityLines, List.mem_cons, List.not_mem_nil, or_false] at hline
  rcases hline with rfl | rfl | rfl | rfl | rfl
  · cases c.granted.installedData <;> decide +kernel
  · cases c.granted.sharedUid <;> decide +kernel
  · cases c.granted.permission <;> decide +kernel
  · cases c.granted.rollback <;> decide +kernel
  · cases c.granted.auth <;> decide +kernel

end CertificateReport

namespace LineageCommand

/-! ## Loading and updating -/

omit [Platform] in
theorem run_wiping {α : Type} (w : World) (x : Action α) :
    (w.run (SignerSettings.wiping x)).1 = (w.run x).1 := by
  have h : w.run (finally_ x (query .closeVault)) =
      ((w.run x).1, ((w.run x).2.run (query .closeVault)).2) := World.run_finally_ rfl rfl
  rw [SignerSettings.wiping, h]

/-- Signers loaded one after the other, the first of which has a number. -/
def loadFrom (services : Services) : Nat → List SignerSettings → Action (List Rotation.Request)
  | _, [] => return []
  | number, s :: rest => do
    let loaded ← s.loadAs s!"signer #{number}" services
    let signer ← ofResult (loaded.lineageSigner none)
    let requests ← loadFrom services (number + 1) rest
    return ⟨signer, loaded.capabilities.freeze, loaded.shownName⟩ :: requests

theorem showUpdate_shows (changed : Bool) (name : String) :
    (showUpdate changed name).Only Query.Shows := by
  unfold showUpdate
  split <;> exact Console.say_shows _

/-- Updating looks for what signers are loaded from, and shows lines. -/
theorem updateFrom_only {P : Query → Prop} (gathers : ∀ q : Query, q.Gathers → P q)
    (shows : ∀ q : Query, q.Shows → P q) (services : Services) (verbose : Bool) (number : Nat)
    (settings : List SignerSettings) (l : Lineage) :
    (updateFrom services verbose number settings l).Only P := by
  induction settings generalizing number l with
  | nil => exact .pure _
  | cons s rest ih =>
    refine .bind ((SignerSettings.load_gathering _ services).mono gathers) fun loaded =>
      .bind (.ofResult _) fun signer => .bind (.ofResult _) fun update => ?_
    dsimp only
    split
    · exact .bind ((showUpdate_shows _ _).mono shows) fun _ => .bind (ih _ _) fun _ => .pure _
    · exact .bind (ih _ _) fun _ => .pure _

/-- The lines on updates can be shown. -/
def CanTell (verbose : Bool) (requests : List Rotation.Request) : Prop :=
  verbose = true → ∀ q ∈ requests, ∀ changed w, (World.run w (showUpdate changed q.name)).1 = .ok ()

/-- When the signers load, updating them comes to what the updates come to, whatever is
shown in between. -/
theorem run_updateFrom {w : World} {services : Services} {verbose : Bool} {number : Nat}
    {settings : List SignerSettings} {requests : List Rotation.Request} {l l' : Lineage}
    {us : List Rotation.Update}
    (loaded : (w.run (loadFrom services number settings)).1 = .ok requests)
    (tell : CanTell verbose requests) (h : Rotation.updateAll l requests = .ok (l', us)) :
    (w.run (updateFrom services verbose number settings l)).1 = .ok (l', Rotation.anyChanged us) := by
  induction settings generalizing w number requests l us with
  | nil =>
    obtain rfl : [] = requests := Except.ok.inj loaded
    obtain ⟨rfl, rfl⟩ := Prod.mk.inj (pure_eq_ok.mp h)
    rfl
  | cons s rest ih =>
    obtain ⟨settings, v, hload, loaded⟩ := World.run_bind_eq_ok.mp loaded
    obtain ⟨signer, hsigner, loaded⟩ := World.run_ofResult_bind_eq_ok.mp loaded
    obtain ⟨others, v', hothers, loaded⟩ := World.run_bind_eq_ok.mp loaded
    obtain rfl := Except.ok.inj loaded
    obtain ⟨u, rest', hu, hrest, rfl⟩ := Rotation.updateAll_cons_eq_ok.mp h
    have tell' : CanTell verbose others := fun hv q hq => tell hv q (List.mem_cons_of_mem _ hq)
    -- whatever line is shown after this update, the others go on as they would without it
    have hothers' (v' : World) (hv' : v'.unseen = v.unseen) :
        (v'.run (updateFrom services verbose (number + 1) rest u.lineage >>= fun p =>
          return (p.1, u.changed || p.2))).1 = .ok (l', u.changed || Rotation.anyChanged rest') := by
      have hload' : (v'.run (loadFrom services (number + 1) rest)).1 = .ok others := by
        rw [(World.run_congr hv' _).1, hothers]
      rw [World.run_bind_fst (ih hload' tell' hrest)]
      rfl
    rw [updateFrom, World.run_bind_of_ok hload, World.run_ofResult_bind hsigner,
      World.run_ofResult_bind hu]
    dsimp only
    split
    · next hverbose =>
      rw [World.run_bind_fst (tell hverbose _ List.mem_cons_self _ _)]
      exact hothers' _ (World.run_shows (showUpdate_shows _ _))
    · exact hothers' v rfl

/-! ## Reporting and writing -/

/-- The lines on certificates can be shown, if they are asked for. -/
def CanReport (o : LineageOptions) (l : Lineage) : Prop :=
  o.certificates = true → ∀ c ∈ l.certificates, ∀ (number : Nat) w,
    (World.run w (CertificateReport.show_ s!"Signer #{number} in lineage" o.verbose c)).1 = .ok ()

theorem showSigner_shows (l : Lineage) (verbose : Bool) (number : Nat) (c : Certificate) :
    (showSigner l verbose number c).Only Query.Shows := by
  unfold showSigner
  exact .bind (CertificateReport.show_shows _ _ _) fun _ => .bind (.ofResult _) fun _ =>
    CertificateReport.showCapabilities_shows _

theorem run_showSigners {l : Lineage} {verbose : Bool} {cs : List Certificate}
    (report : ∀ c ∈ cs, ∀ (number : Nat) w,
      (World.run w (CertificateReport.show_ s!"Signer #{number} in lineage" verbose c)).1 = .ok ())
    (known : ∀ c ∈ cs, l.includes c = true) (number : Nat) (w : World) :
    (w.run (CertificateReport.numbered (showSigner l verbose) number cs)).1 = .ok () := by
  induction cs generalizing number w with
  | nil => rfl
  | cons c cs ih =>
    obtain ⟨hc, hcs⟩ := List.forall_mem_cons.mp report
    obtain ⟨kc, kcs⟩ := List.forall_mem_cons.mp known
    obtain ⟨capabilities, hcapabilities⟩ := Lineage.exists_capabilitiesOf kc c.subject.toText
    have hsigner : (w.run (showSigner l verbose number c)).1 = .ok () := by
      unfold showSigner
      rw [World.run_bind_fst (hc number w), World.run_ofResult_bind hcapabilities]
      exact CertificateReport.run_showCapabilities _ _
    rw [CertificateReport.numbered, World.run_bind_fst hsigner]
    exact ih hcs kcs _ _

omit [Platform] in
theorem includes_of_mem {l : Lineage} {c : Certificate} (h : c ∈ l.certificates) :
    l.includes c = true := by
  obtain ⟨n, hn, rfl⟩ := List.mem_map.mp h
  exact List.any_eq_true.mpr ⟨n, hn, beq_self_eq_true _⟩

omit [Platform] in
theorem run_load {w : World} {notary : Notary} {path : String} {data : Bytes} {l : Lineage}
    (read : w.files.read (Path.ofText path) = .ok data)
    (lineage : Lineage.ofBytes notary data = .ok l) :
    w.run (Lineage.load notary path) = (.ok l, w) := by
  have hquery : w.run (query (.read (Path.ofText path))) = (.ok (.ok data), w) := by
    rw [← read]
    rfl
  refine (World.run_bind_of_ok hquery).trans ?_
  refine (World.run_bind_of_ok (a := data) (v := w) rfl).trans ?_
  rw [World.run_ofResult, lineage]

/-- Saving puts the lineage into its file, and nothing anywhere else. -/
theorem writes_save {w : World} {o : LineageOptions} {output : Path} {l : Lineage} {data : Bytes}
    (houtput : o.output = some output) (hdata : l.toBytes = .ok data) :
    w.writes (save o l) = [(Path.ofText output.toText, data)] := by
  have hsave : w.writes (l.save output.toText) = [(Path.ofText output.toText, data)] := by
    unfold Lineage.save
    rw [hdata]
    exact World.writes_bind_of_keeps fun _ => Lineage.reach_only _ _
  unfold save
  rw [houtput]
  refine (World.writes_bind_of_keeps fun _ => ?_).trans hsave
  split
  · exact (Console.say_shows _).mono fun _ => Query.Shows.keeps
  · exact .pure _

theorem save_settled (o : LineageOptions) (l : Lineage) : (save o l).Only Query.Settled := by
  unfold save
  split
  · exact .throw _
  · refine .bind (.bind (.ofResult _) fun _ => .bind (.query trivial) fun _ =>
      Lineage.reach_only _ _) fun _ => ?_
    split
    · exact (Console.say_shows _).mono fun _ => Query.Shows.settled
    · exact .pure _

/-- The command moves and removes no files. -/
theorem run_settled (e : Equipment) (tokens : List String) : (run e tokens).Only Query.Settled := by
  refine .bind (OptionAction.readAll_asks LineageOptions.take_asks .initial (.start tokens))
    fun ((o, _), _) => .bind (.ofResult _) fun input =>
    .bind (Lineage.load_only trivial _) fun l => .bind (.finally_ (updateFrom_only
      (fun _ => Query.Gathers.settled) (fun _ => Query.Shows.settled) _ _ _ _ _) (.query trivial))
      fun (l, changed) => ?_
  have hsave : (if changed = true then save o l else pure ()).Only Query.Settled := by
    split
    · exact save_settled o l
    · exact .pure _
  dsimp only
  split
  · exact .bind (CertificateReport.numbered_only
      (fun _ _ => (showSigner_shows _ _ _ _).mono fun _ => Query.Shows.settled) _ _) fun _ => hsave
  · exact hsave

/-- What the command writes, by what the updates come to. -/
theorem writes_of_updateAll {w : World} {e : Equipment}
    {tokens : List String} {o : LineageOptions} {last : Option String} {r : OptionReader}
    (parsed : (w.run (OptionAction.readAll LineageOptions.take .initial (.start tokens))).1 =
      .ok ((o, last), r)) {input output : Path} (hinput : o.input = some input)
    (houtput : o.output = some output) {data data' : Bytes}
    (read : w.files.read (Path.ofText input.toText) = .ok data) {l l' : Lineage}
    (lineage : Lineage.ofBytes e.notary data = .ok l) {requests : List Rotation.Request}
    {us : List Rotation.Update} (loaded : (w.run (loadFrom e.services 1 o.signers)).1 = .ok requests)
    (tell : CanTell o.verbose requests) (report : CanReport o l)
    (hupdate : Rotation.updateAll l requests = .ok (l', us)) (hdata' : l'.toBytes = .ok data') :
    w.writes (run e tokens) =
      if Rotation.anyChanged us then [(Path.ofText output.toText, data')] else [] := by
  have hsilent : (OptionAction.readAll LineageOptions.take .initial (.start tokens)).Silent :=
    OptionAction.readAll_asks LineageOptions.take_asks .initial (.start tokens)
  obtain ⟨result, hresult⟩ := hsilent.eq_ofResult
  rw [hresult, World.run_ofResult] at parsed
  have hrequired : RotateCommand.required .inputLineageMissing o.input = .ok input := by
    rw [hinput]
    rfl
  have hload := run_load read lineage
  have hupdates : (w.run (SignerSettings.wiping
      (updateFrom e.services o.verbose 1 o.signers l))).1 = .ok (l', Rotation.anyChanged us) :=
    (run_wiping w _).trans (run_updateFrom loaded tell hupdate)
  have hfinal (v : World) : v.writes (if Rotation.anyChanged us = true then save o l' else pure ()) =
      if Rotation.anyChanged us = true then [(Path.ofText output.toText, data')] else [] := by
    split
    · exact writes_save houtput hdata'
    · rfl
  rw [run, hresult, World.writes_ofResult_bind parsed]
  dsimp only
  rw [World.writes_ofResult_bind hrequired, World.writes_bind_of_ok (congrArg Prod.fst hload)
    (Lineage.load_only trivial _), hload, World.writes_bind_of_ok hupdates (.finally_ (updateFrom_only
    (fun _ => Query.Gathers.keeps) (fun _ => Query.Shows.keeps) _ _ _ _ _) (.query trivial))]
  dsimp only
  split
  · next hshow =>
    have hcertificates := Rotation.certificates_of_updateAll hupdate
    have known (c : Certificate) (hc : c ∈ l'.certificates) : l'.includes c = true :=
      includes_of_mem hc
    rw [hcertificates] at known
    rw [hcertificates, World.writes_bind_of_ok (run_showSigners (report hshow) known 1 _)
      (CertificateReport.numbered_only
        (fun _ _ => (showSigner_shows _ _ _ _).mono fun _ => Query.Shows.keeps) _ _)]
    exact hfinal _
  · exact hfinal _

/-- When all signers load and are in the lineage, and what is to be shown can be, the command
writes the lineage that the updates leave exactly when one of them was a change, and does
nothing else to files. What it writes is different from what it read when no signer is given
twice; and where flag words hold nothing but grants, it writes whenever that is different. -/
theorem writes_iff_changed {w : World} {e : Equipment} (faithful : e.notary.Faithful)
    {tokens : List String} {o : LineageOptions} {last : Option String} {r : OptionReader}
    (parsed : (w.run (OptionAction.readAll LineageOptions.take .initial (.start tokens))).1 =
      .ok ((o, last), r)) {input output : Path} (hinput : o.input = some input)
    (houtput : o.output = some output) {data : Bytes}
    (read : w.files.read (Path.ofText input.toText) = .ok data) {l : Lineage}
    (lineage : Lineage.ofBytes e.notary data = .ok l) {requests : List Rotation.Request}
    (loaded : (w.run (loadFrom e.services 1 o.signers)).1 = .ok requests)
    (known : ∀ q ∈ requests, l.includes q.signer.certificate = true)
    (tell : CanTell o.verbose requests) (report : CanReport o l) :
    ∃ l' us data', Rotation.updateAll l requests = .ok (l', us) ∧ l'.toBytes = .ok data' ∧
      w.writes (run e tokens) =
        (if Rotation.anyChanged us then [(Path.ofText output.toText, data')] else []) ∧
      (w.run (run e tokens)).2.files =
        (if Rotation.anyChanged us then World.put w.files (Path.ofText output.toText) data'
          else w.files) ∧
      ((requests.map (·.signer.certificate.der)).Nodup → Rotation.anyChanged us = true →
        data' ≠ data) ∧
      (Rotation.GrantsOnly l → data' ≠ data → Rotation.anyChanged us = true) := by
  obtain ⟨_, hread, hdata⟩ := (Lineage.ofBytes_eq_ok faithful).mp lineage
  obtain ⟨l', us, hupdate⟩ := Rotation.exists_updateAll known
  obtain ⟨data', hdata'⟩ := Rotation.exists_toBytes_of_updateAll hupdate hdata
  have hsame := Rotation.toBytes_eq_iff (Rotation.certificates_of_updateAll hupdate) hdata hdata'
  have hwrites := writes_of_updateAll parsed hinput houtput read lineage loaded tell report hupdate
    hdata'
  refine ⟨l', us, data', hupdate, hdata', hwrites, ?_, ?_, ?_⟩
  · rw [World.run_files (run_settled e tokens), hwrites]
    split <;> rfl
  · intro distinct hchanged
    rw [Ne, hsame]
    exact Rotation.nodes_ne_of_changed distinct hupdate hchanged
  · intro hgrants hne
    by_contra hunchanged
    exact hne (hsame.mpr (Rotation.nodes_of_unchanged hgrants known hupdate
      (Bool.eq_false_of_not_eq_true hunchanged)))

end LineageCommand
end General

section Samples
attribute [local instance] Platform.standard

namespace LineageCommand

/-- The file of the older signer's key. -/
def sampleKey : Bytes :=
  [48, 120, 2, 1, 0, 48, 16, 6, 7, 42, 134, 72, 206, 61, 2, 1, 6, 5, 43, 129, 4, 0, 33, 4, 97,
   48, 95, 2, 1, 1, 4, 28, 91, 111, 50, 46, 126, 29, 56, 87, 180, 145, 129, 162, 224, 105, 81,
   101, 36, 230, 139, 140, 59, 66, 251, 159, 204, 244, 245, 193, 161, 60, 3, 58, 0, 4, 207, 54,
   193, 93, 129, 2, 188, 253, 247, 104, 213, 203, 155, 91, 128, 116, 67, 85, 110, 190, 221, 66,
   83, 61, 134, 110, 20, 18, 27, 154, 16, 219, 119, 133, 133, 245, 223, 217, 246, 225, 139,
   225, 116, 96, 136, 198, 92, 10, 85, 124, 114, 24, 34, 135, 50, 100]

/-- Files with that key, its certificate, and a lineage of the older signer alone. -/
def sampleWorld : World :=
  .ofFiles (.ofContents [(["key"], sampleKey), (["certificate"], Sample.older.certificate.der),
    (["lineage"], Rotation.sampleFile 0)])

/-- What the program works with, signatures apart. -/
def sampleEquipment : Equipment :=
  ⟨⟨.builtIn, .standard⟩, ⟨EngineCatalogue.noEngines, []⟩, Sample.notary⟩

/-- Words that grant the older signer to authenticate apps, or refuse it. -/
def sampleScope (granted : String) : List String :=
  ["--signer", "--key", "key", "--cert", "certificate", "--set-auth", granted]

/-- Words of the command, with what is said of signers. -/
def sampleTokens (scopes : List String) : List String :=
  ["--in", "lineage", "--out", "new"] ++ scopes

/-- The settings that one scope makes. -/
def sampleSettings (granted : Bool) : SignerSettings :=
  { keyFile := some "key", certificateFile := some "certificate",
    capabilities := CapabilityChoices.empty.choose .auth granted }

/-- The update that one scope asks for. -/
def sampleRequest (granted : Bool) : Rotation.Request :=
  ⟨{ Sample.older with name := some "key" }, (sampleSettings granted).capabilities.freeze, "key"⟩

deriving instance DecidableEq for LineageOptions

theorem sample_writes_iff_changed :
    (sampleWorld.run (loadFrom sampleEquipment.services 1 [sampleSettings true])).1 =
      .ok [sampleRequest true] ∧
    ∃ l' us data', Rotation.updateAll (Rotation.sampleLineage 0) [sampleRequest true] = .ok (l', us) ∧
      l'.toBytes = .ok data' ∧
      sampleWorld.writes (run sampleEquipment (sampleTokens (sampleScope "true"))) =
        if Rotation.anyChanged us then [(⟨.relative, ["new"]⟩, data')] else [] := by
  have parsed : (sampleWorld.run (OptionAction.readAll LineageOptions.take .initial
      (.start (sampleTokens (sampleScope "true"))))).1 =
      .ok (({ input := some ⟨.relative, ["lineage"]⟩, output := some ⟨.relative, ["new"]⟩,
              signers := [sampleSettings true] }, some "--signer"),
        ⟨sampleTokens (sampleScope "true"), 11, 9, some "--set-auth", none, false⟩) := by
    decide +kernel
  have read : sampleWorld.files.read (Path.ofText (Path.toText ⟨.relative, ["lineage"]⟩)) =
      .ok (Rotation.sampleFile 0) := by decide +kernel
  have lineage : Lineage.ofBytes sampleEquipment.notary (Rotation.sampleFile 0) =
      .ok (Rotation.sampleLineage 0) := by decide +kernel
  have loaded : (sampleWorld.run (loadFrom sampleEquipment.services 1 [sampleSettings true])).1 =
      .ok [sampleRequest true] := by decide +kernel
  have known : ∀ q ∈ [sampleRequest true],
      (Rotation.sampleLineage 0).includes q.signer.certificate = true := by decide +kernel
  have output : Path.ofText (Path.toText ⟨.relative, ["new"]⟩) = ⟨.relative, ["new"]⟩ := by
    decide +kernel
  obtain ⟨l', us, data', hupdate, hdata', hwrites, _⟩ := writes_iff_changed
    Notary.recorded_faithful parsed rfl rfl read lineage loaded known nofun nofun
  rw [output] at hwrites
  exact ⟨loaded, l', us, data', hupdate, hdata', hwrites⟩

/-- A grant that is taken back by the next update is written, though it leaves the lineage that
was read. -/
theorem sample_taken_back_and_written :
    (sampleWorld.run (loadFrom sampleEquipment.services 1
      [sampleSettings true, sampleSettings false])).1 = .ok [sampleRequest true, sampleRequest false] ∧
    sampleWorld.files.read ⟨.relative, ["lineage"]⟩ = .ok (Rotation.sampleFile 0) ∧
    Lineage.ofBytes sampleEquipment.notary (Rotation.sampleFile 0) = .ok (Rotation.sampleLineage 0) ∧
    (Rotation.updateAll (Rotation.sampleLineage 0) [sampleRequest true, sampleRequest false]).map
      (·.1) = .ok (Rotation.sampleLineage 0) ∧
    sampleWorld.writes (run sampleEquipment
      (sampleTokens (sampleScope "true" ++ sampleScope "false"))) =
        [(⟨.relative, ["new"]⟩, Rotation.sampleFile 0)] :=
  ⟨by decide +kernel, by decide +kernel, by decide +kernel, by decide +kernel, by decide +kernel⟩

end LineageCommand
end Samples
end PackageSigning
