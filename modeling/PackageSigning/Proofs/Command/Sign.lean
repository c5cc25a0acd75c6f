import PackageSigning.Proofs.Command.Lineage
import PackageSigning.Proofs.Failure.Actions
import PackageSigning.Proofs.World.Asked
import PackageSigning.Proofs.World.Ways

/-!
# Signing wholly or not at all

The command calls its engine once, between a part that changes no file and ends with every signer
loaded, and a part that puts the package where it belongs (`SignCommand.run_eq`). A package is
signed in place when the paths of input and output are resolved to one place, as they are when they
lead to one name. Then it is what it was when anything goes wrong, and otherwise what the engine has
written stands under the name of the output, or in the file that the output leads to where that is
on another file system than new files are. In neither case is there another file
(`SignCommand.signs_wholly_or_not_at_all`).

Two names of one file are two places. An engine that is to write under one of them writes to the
other as well (`SignCommand.sample_not_in_place`).
-/

namespace PackageSigning

open PackageSigning.Action

/-- An engine that changes no file but the output of a request, whatever it comes to. -/
def SigningEngine.WritesOutputOnly (engine : SigningEngine) : Prop :=
  ∀ q w, (World.run w (engine.sign q)).2.files = w.files ∨
    ∃ b, w.files.write q.output b = .ok (World.run w (engine.sign q)).2.files

/-- What an action that changes files only by writing one of them leaves behind is what it has
written last, if anything. -/
theorem World.files_of_writes_one {α : Type} {x : Action α} {p : Path}
    (h : x.Only fun question => question.Spares ∨ ∃ b, question = .write p b) (w : World) :
    (w.run x).2.files = w.files ∨ ∃ b, w.files.write p b = .ok (w.run x).2.files := by
  induction h generalizing w with
  | done _ | fail _ => exact .inl rfl
  | @ask question next allowed _ ih =>
    have hrest := ih (w.answer question).1 (w.answer question).2
    rw [World.run_ask]
    obtain spares | ⟨b, rfl⟩ := allowed
    · have hfiles : (w.answer question).2.files = w.files :=
        World.files_of_spares (x := .query question) (.query spares)
      rwa [hfiles] at hrest
    · cases hwrite : w.files.write p b with
      | error fault =>
        have hkept : (w.answer (.write p b)).2 = w := by simp only [World.answer, hwrite]; rfl
        rwa [hkept] at hrest ⊢
      | ok files =>
        have hkept : (w.answer (.write p b)).2.files = files := by
          simp only [World.answer, hwrite]
          rfl
        rw [hkept] at hrest
        obtain hsame | ⟨c, hagain⟩ := hrest
        · exact .inr ⟨b, hwrite.trans (congrArg Except.ok hsame.symm)⟩
        · exact .inr ⟨c, Files.write_of_written hwrite hagain⟩

namespace SignCommand

/-! ## The engine and what comes after it -/

/-- The request as the engine gets it, with the new file if the package is signed in place. -/
def placed (q : SignRequest) : Action (SignRequest × Option Path) := do
  let source ← ofFile (← query (.resolve q.input))
  let target ← ofFile (← query (.resolve q.output))
  if source = target then
    let unfinished ← ofFile (← query .temporary)
    return ({ q with output := unfinished }, some unfinished)
  else return (q, none)

/-- Takes out a file, if it is there. -/
def clearUp (unfinished : Path) : Action Unit := do
  if ← isThere unfinished then ofFile (← query (.remove unfinished))

/-- Puts what the engine has written in its place, if it is done, and clears up. -/
def finished (q : SignRequest) (unfinished : Path) (outcome : Except Fault Unit) : Action Unit :=
  finally_ (do ofResult outcome; ofFile (← query (.move unfinished q.output))) (clearUp unfinished)

/-- What comes after the engine. -/
def settled (q : SignRequest) (unfinished? : Option Path) (outcome : Except Fault Unit) :
    Action Unit :=
  match unfinished? with
  | none => ofResult outcome
  | some unfinished => finished q unfinished outcome

theorem attempt_bind_ofResult {α : Type} (x : Action α) : attempt x >>= ofResult = x := by
  induction x with
  | done _ | fail _ => rfl
  | ask q next ih => exact congrArg (ask q) (funext ih)

/-- What is cleared up in the end does not concern the beginning. -/
theorem finally_bind {α β : Type} (x : Action α) (f : α → Action β) (cleanup : Action Unit) :
    finally_ (x >>= f) cleanup =
      attempt x >>= fun outcome => finally_ (ofResult outcome >>= f) cleanup := by
  induction x with
  | done _ | fail _ => rfl
  | ask q next ih => exact congrArg (ask q) (funext ih)

theorem signInPlace_eq (engine : SigningEngine) (q : SignRequest) : signInPlace engine q = (do
    let unfinished ← ofFile (← query .temporary)
    let outcome ← attempt (engine.sign { q with output := unfinished })
    finished q unfinished outcome) :=
  congrArg (query .temporary >>= ·) (funext fun made => congrArg (ofFile made >>= ·)
    (funext fun _ => finally_bind _ _ _))

theorem deliver_eq (engine : SigningEngine) (q : SignRequest) : deliver engine q = (do
    let (q', unfinished?) ← placed q
    let outcome ← attempt (engine.sign q')
    settled q unfinished? outcome) := by
  unfold deliver placed
  simp only [bind_assoc]
  congr
  funext source?
  congr
  funext source
  congr
  funext target?
  congr
  funext target
  split
  · rw [signInPlace_eq]
    simp only [bind_assoc]
    rfl
  · exact (attempt_bind_ofResult _).symm

variable {w v u : World}

/-! ## In place -/

section InPlace
variable {fs gs : Files} {engine : SigningEngine} {q : SignRequest} {unfinished place : Path}
  {n : List String} {b : Bytes}

theorem run_clearUp_of_gone (h : u.files.isThere unfinished = false) :
    u.run (clearUp unfinished) = (.ok (), u) := by
  show u.run (if u.files.isThere unfinished then _ else _) = _
  rw [h]
  rfl

theorem run_move {target : Path} {result : Except FileFault Files}
    (h : u.files.move unfinished target = result) :
    u.run (do ofResult (.ok ()); ofFile (← query (.move unfinished target))) =
      ((u.keep result).1.mapError .file, (u.keep result).2) := by
  have hanswer : u.answer (.move unfinished target) = u.keep result := congrArg u.keep h
  show u.run (.ask (.move unfinished target) _) = _
  rw [World.run_ask, hanswer]
  cases result <;> rfl

section Unfinished
variable (new : fs.IsNew unfinished n)
include new

/-- The new file is cleared up, and what was there before it is left. -/
theorem run_clearUp_of_there (h : u.files = fs.create n b) :
    u.run (clearUp unfinished) = (.ok (), { u with files := fs }) := by
  have hthere : u.files.isThere unfinished = true := by
    rw [h, Files.isThere_eq (new.locate b), new.there]
    rfl
  have hremove : u.files.remove unfinished = .ok fs := by rw [h, new.remove]
  show u.run (if u.files.isThere unfinished then _ else _) = _
  rw [hthere]
  show u.run (.ask (.remove unfinished) _) = _
  have hanswer : u.answer (.remove unfinished) = (.ok (), { u with files := fs }) :=
    congrArg u.keep hremove
  rw [World.run_ask, hanswer]
  rfl

/-- The engine leaves something in the new file, and everything else as it was. -/
theorem exists_files_of_sign (only : engine.WritesOutputOnly) (q : SignRequest)
    (hv : v.files = fs.create n []) :
    ∃ b, (v.run (engine.sign { q with output := unfinished })).2.files = fs.create n b := by
  obtain hsame | ⟨b, hwrite⟩ := only { q with output := unfinished } v
  · exact ⟨[], hsame.trans hv⟩
  · rw [hv] at hwrite
    exact ⟨b, Except.ok.inj (hwrite.symm.trans (new.write [] b))⟩

/-- What is left behind the engine is cleared up, or has been moved. -/
theorem run_finished (h : u.files = fs.create n b) (q : SignRequest)
    (outcome : Except Fault Unit) :
    (∃ result, u.run (finished q unfinished outcome) = (result, { u with files := fs }) ∧
      ∀ fault, outcome = .error fault → result = .error fault) ∨
    ∃ gs, outcome = .ok () ∧ u.files.move unfinished q.output = .ok gs ∧
      gs.isThere unfinished = false ∧
      u.run (finished q unfinished outcome) = (.ok (), { u with files := gs }) := by
  cases outcome with
  | error fault =>
    exact .inl ⟨_, World.run_finally_ rfl (run_clearUp_of_there new h), fun _ => id⟩
  | ok _ =>
    cases moved : u.files.move unfinished q.output with
    | error fault =>
      exact .inl ⟨_, World.run_finally_ (run_move moved) (run_clearUp_of_there new h), nofun⟩
    | ok gs =>
      obtain rfl | hgone := new.gone_of_move b (h ▸ moved)
      · exact .inl ⟨_, World.run_finally_ (run_move moved) (run_clearUp_of_there new rfl), nofun⟩
      · exact .inr ⟨gs, rfl, rfl, hgone,
          World.run_finally_ (run_move moved) (run_clearUp_of_gone hgone)⟩

end Unfinished

/-- How signing in place may end. -/
inductive EndsInPlace (engine : SigningEngine) (q : SignRequest) (v : World) :
    Except Fault Unit × World → Prop
  /-- There is no new file. -/
  | refused {fault : FileFault} (made : v.files.newFile v.workshop = .error fault) :
      EndsInPlace engine q v (.error (.file fault), v)
  /-- The new file is cleared up. -/
  | cleared {unfinished : Path} {files : Files} {outcome result : Except Fault Unit} {u : World}
      (made : v.files.newFile v.workshop = .ok (unfinished, files))
      (signed : World.run { v with files } (engine.sign { q with output := unfinished }) =
        (outcome, u))
      (failed : ∀ fault, outcome = .error fault → result = .error fault) :
      EndsInPlace engine q v (result, { u with files := v.files })
  | moved {unfinished : Path} {files gs : Files} {u : World}
      (made : v.files.newFile v.workshop = .ok (unfinished, files))
      (signed : World.run { v with files } (engine.sign { q with output := unfinished }) = (.ok (), u))
      (moved : u.files.move unfinished q.output = .ok gs) (gone : gs.isThere unfinished = false) :
      EndsInPlace engine q v (.ok (), { u with files := gs })

theorem run_signInPlace (only : engine.WritesOutputOnly) (q : SignRequest) (v : World) :
    EndsInPlace engine q v (v.run (signInPlace engine q)) := by
  rw [signInPlace_eq]
  show EndsInPlace engine q v (v.run (.ask .temporary _))
  cases made : v.files.newFile v.workshop with
  | error fault =>
    have hanswer : v.answer .temporary = (.error fault, v) := by simp only [World.answer, made]; rfl
    rw [World.run_ask, hanswer]
    exact .refused made
  | ok new =>
    obtain ⟨unfinished, files⟩ := new
    have hanswer : v.answer .temporary = (.ok unfinished, { v with files }) := by
      simp only [World.answer, made]
      rfl
    obtain ⟨n, new, rfl⟩ := Files.newFile_eq_ok made
    rw [World.run_ask, hanswer]
    have hattempt := World.run_attempt { v with files := v.files.create n [] }
      (engine.sign { q with output := unfinished })
    obtain ⟨b, hfiles⟩ := exists_files_of_sign (v := { v with files := v.files.create n [] })
      new only q rfl
    obtain ⟨⟨outcome, u⟩, signed⟩ : ∃ signed, World.run { v with files := v.files.create n [] }
      (engine.sign { q with output := unfinished }) = signed := ⟨_, rfl⟩
    rw [signed] at hattempt hfiles
    show EndsInPlace engine q v (World.run _ (attempt _ >>= _))
    rw [World.run_bind_of_ok hattempt]
    obtain ⟨result, hrun, failed⟩ | ⟨gs, rfl, moved, gone, hrun⟩ := run_finished new hfiles q outcome
    · rw [hrun]
      exact .cleared made signed failed
    · rw [hrun]
      exact .moved made signed moved gone

namespace EndsInPlace

variable {outcome : Except Fault Unit × World} {files : Files} {result : Except Fault Unit}

/-- When a package is signed in place and anything goes wrong, all files are as they were. -/
theorem files_of_error {fault : Fault} (h : EndsInPlace engine q v outcome)
    (failed : outcome.1 = .error fault) : outcome.2.files = v.files := by
  cases h with
  | refused | cleared => rfl
  | moved => cases failed

/-- The new file is there in no case. -/
theorem isThere_unfinished (h : EndsInPlace engine q v outcome)
    (made : v.files.newFile v.workshop = .ok (unfinished, files)) :
    outcome.2.files.isThere unfinished = false := by
  cases h with
  | refused made' => cases made.symm.trans made'
  | cleared =>
    obtain ⟨n, new, -⟩ := Files.newFile_eq_ok made
    exact new.isThere_of_gone (fun _ => id) new.free
  | moved made' _ _ gone =>
    cases made.symm.trans made'
    exact gone

/-- When the engine fails, so does signing in place. -/
theorem eq_of_failed {fault : Fault} (h : EndsInPlace engine q v outcome)
    (made : v.files.newFile v.workshop = .ok (unfinished, files))
    (signed : World.run { v with files } (engine.sign { q with output := unfinished }) =
      (.error fault, u)) :
    outcome = (.error fault, { u with files := v.files }) := by
  cases h with
  | refused made' => cases made.symm.trans made'
  | cleared made' signed' failed =>
    cases made.symm.trans made'
    cases signed.symm.trans signed'
    rw [failed fault rfl]
  | moved made' signed' =>
    cases made.symm.trans made'
    cases signed.symm.trans signed'

end EndsInPlace

/-- What the engine leaves in the new file. -/
theorem exists_created_of_signed (only : engine.WritesOutputOnly) {files : Files}
    {result : Except Fault Unit} (made : v.files.newFile v.workshop = .ok (unfinished, files))
    (signed : World.run { v with files } (engine.sign { q with output := unfinished }) = (result, u)) :
    ∃ n b, v.files.IsNew unfinished n ∧ u.files = v.files.create n b ∧
      u.files.read unfinished = .ok b := by
  obtain ⟨n, new, rfl⟩ := Files.newFile_eq_ok made
  obtain ⟨b, hfiles⟩ := exists_files_of_sign (v := { v with files := v.files.create n [] })
    new only q rfl
  rw [signed] at hfiles
  exact ⟨n, b, new, hfiles, by rw [hfiles, new.read]⟩

/-- When the new file has been moved, there is nothing to clear up. -/
theorem run_signInPlace_of_moved {files : Files}
    (made : v.files.newFile v.workshop = .ok (unfinished, files))
    (signed : World.run { v with files } (engine.sign { q with output := unfinished }) = (.ok (), u))
    (moved : u.files.move unfinished q.output = .ok gs) (gone : gs.isThere unfinished = false) :
    v.run (signInPlace engine q) = (.ok (), { u with files := gs }) := by
  have hanswer : v.answer .temporary = (.ok unfinished, { v with files }) := by
    simp only [World.answer, made]
    rfl
  rw [signInPlace_eq]
  show v.run (.ask .temporary _) = _
  rw [World.run_ask, hanswer]
  show World.run _ (attempt _ >>= _) = _
  rw [World.run_bind, World.run_attempt, signed]
  exact World.run_finally_ (run_move moved) (run_clearUp_of_gone gone)

/-- On one file system the new file is put in the place of whatever stands at the end of the path. -/
theorem renewed_of_signed {m : List String} {e : FileEntry} (new : v.files.IsNew unfinished n)
    (created : u.files = v.files.create n b) (output : v.files.entryOf q.output = .ok m)
    (there : v.files.at? m = some e) (hdirectory : v.files.isDirectory q.output = false)
    (together : v.files.volume unfinished.names = v.files.volume m) :
    ∃ gs, u.files.move unfinished q.output = .ok gs ∧ gs.isThere unfinished = false ∧
      v.files.Renewed m b gs := by
  have hmove : u.files.move unfinished q.output = .ok (v.files.renew m b) := by
    rw [new.path] at together
    rw [created]
    exact new.move b output there hdirectory together
  have hentry : e ≠ .directory := by
    rintro rfl
    rw [Files.isDirectory_of_entryOf output there] at hdirectory
    cases hdirectory
  have hrenewed := Files.renewed_renew there hentry b
  refine ⟨_, hmove, ?_, hrenewed⟩
  obtain heq | hgone := new.gone_of_move b (created ▸ hmove)
  · -- the new name is among those that there were
    have hn := hrenewed.others n (by rintro rfl; cases new.free.symm.trans there)
    rw [heq, new.there, new.free] at hn
    cases hn.1
  · exact hgone

/-- On another file system the file that the path leads to holds what the new file held. -/
theorem stored_of_signed {k m : List String} {id : Nat} (new : v.files.IsNew unfinished n)
    (created : u.files = v.files.create n b) (output : v.files.entryOf q.output = .ok m)
    (leads : v.files.locate q.output = .ok k) (file : v.files.at? k = some (.file id))
    (apart : v.files.volume unfinished.names ≠ v.files.volume m) :
    u.files.move unfinished q.output = .ok (v.files.store id b) ∧
      (v.files.store id b).isThere unfinished = false := by
  rw [new.path] at apart
  rw [created]
  exact ⟨new.move_apart b output leads file apart, new.isThere_of_gone (fun _ h => h) new.free⟩

theorem run_deliver_of_same (input : v.files.resolve q.input = .ok place)
    (output : v.files.resolve q.output = .ok place) :
    v.run (deliver engine q) = v.run (signInPlace engine q) := by
  have hinput : v.run (query (.resolve q.input)) = (.ok (.ok place), v) := by
    rw [← input]
    rfl
  have houtput : v.run (query (.resolve q.output)) = (.ok (.ok place), v) := by
    rw [← output]
    rfl
  unfold deliver
  rw [World.run_bind_of_ok hinput, World.run_bind_of_ok (a := place) (v := v) rfl,
    World.run_bind_of_ok houtput, World.run_bind_of_ok (a := place) (v := v) rfl, if_pos rfl]

end InPlace

/-! ## Before the engine -/

section General
variable [Platform]

/-- What comes before the engine is called, which is all about the request. `found` is what
looking for the engine comes to. -/
def prepared {ε : Type} (e : Equipment) (found : Except Fault ε) (tokens : List String) :
    Action (ε × SignRequest × Bool) := do
  let ((o, input), _) ← read e.notary (.start tokens)
  let engine ← ofResult found
  let services ← ofResult (e.equipped o.allProviders)
  let signers ← SignerSettings.wiping (loadFrom services 1 o.allSigners)
  return (engine,
    { input, output := o.output.getD input, signers, schemes := o.schemes,
      debuggable := o.debuggable, minSdk := o.minSdk, lineage := o.lineage }, o.verbose)

theorem run_eq_deliver (e : Equipment) (name : String) (tokens : List String) :
    run e name tokens = (do
      let (engine, q, verbose) ← prepared e (e.engines.find name) tokens
      deliver engine q
      if verbose then Console.say "Signed") := by
  unfold run prepared
  simp only [bind_assoc]
  rfl

/-- The engine is called once, with everything before it ready. -/
theorem run_eq (e : Equipment) (engines : EngineCatalogue) (name : String) (tokens : List String) :
    run { e with engines } name tokens = (do
      let (engine, q, verbose) ← prepared e (engines.find name) tokens
      let (q', unfinished?) ← placed q
      let outcome ← attempt (engine.sign q')
      settled q unfinished? outcome
      if verbose then Console.say "Signed") := by
  rw [run_eq_deliver]
  simp only [deliver_eq, bind_assoc]
  rfl

variable {services : Services} {s : SignerSettings} {signer : EngineSigner}

theorem loadFrom_gathering (services : Services) (number : Nat) (settings : List SignerSettings) :
    (loadFrom services number settings).Gathering := by
  induction settings generalizing number with
  | nil => exact .pure _
  | cons s rest ih =>
    exact .bind (SignerSettings.load_gathering _ services) fun _ => .bind (.ofResult _) fun _ =>
      .bind (ih (number + 1)) fun _ => .pure _

/-- Settings from which a signer has been loaded, in surroundings like these. -/
def Loads (services : Services) (w : World) (s : SignerSettings) (signer : EngineSigner) : Prop :=
  ∃ name v loaded, w.Alike v ∧ (v.run (s.loadAs name services)).1 = .ok loaded ∧
    engineSigner loaded = .ok signer

theorem Loads.of_alike (h : w.Alike v) (loads : Loads services v s signer) :
    Loads services w s signer := by
  obtain ⟨name, u, loaded, halike, hload, hsigner⟩ := loads
  exact ⟨name, u, loaded, h.trans halike, hload, hsigner⟩

/-- Signers are there when all of them have been loaded. -/
theorem loads_of_loadFrom {number : Nat} {settings : List SignerSettings}
    {signers : List EngineSigner}
    (h : (w.run (loadFrom services number settings)).1 = .ok signers) :
    List.Forall₂ (Loads services w) settings signers := by
  induction settings generalizing w number signers with
  | nil =>
    obtain rfl : [] = signers := Except.ok.inj h
    exact .nil
  | cons s rest ih =>
    obtain ⟨loaded, v, hload, h⟩ := World.run_bind_eq_ok.mp h
    obtain ⟨signer, hsigner, h⟩ := World.run_ofResult_bind_eq_ok.mp h
    obtain ⟨others, v'', hothers, h⟩ := World.run_bind_eq_ok.mp h
    obtain rfl := Except.ok.inj h
    have halike : w.Alike v := World.alike_of_run (SignerSettings.load_gathering _ services) hload
    exact .cons ⟨_, w, loaded, .refl w, congrArg Prod.fst hload, hsigner⟩
      ((ih (congrArg Prod.fst hothers)).imp fun _ _ => Loads.of_alike halike)

variable {ε : Type} {e : Equipment} {found : Except Fault ε} {engine : ε} {q : SignRequest}
  {verbose : Bool} {tokens : List String}

/-- Nothing that comes before the engine changes a file. -/
theorem prepared_spares (e : Equipment) (found : Except Fault ε) (tokens : List String) :
    (prepared e found tokens).Only Query.Spares :=
  .bind (read_asks (fun _ => ⟨trivial, trivial⟩) e.notary (.start tokens)) fun ((_, _), _) =>
    .bind (.ofResult _) fun _ => .bind (.ofResult _) fun _ =>
    .bind (.finally_ ((loadFrom_gathering _ _ _).mono fun _ => Query.Gathers.spares)
      (.query ⟨trivial, trivial⟩)) fun _ => .pure _

/-- What is ready when everything before the engine has gone well. -/
theorem ready_of_prepared (h : (w.run (prepared e found tokens)).1 = .ok (engine, q, verbose)) :
    found = .ok engine ∧ ∃ o r services,
      w.run (read e.notary (.start tokens)) = (.ok ((o, q.input), r), w) ∧
      q.output = o.output.getD q.input ∧ e.equipped o.allProviders = .ok services ∧
      List.Forall₂ (Loads services w) o.allSigners q.signers := by
  obtain ⟨⟨⟨o, input⟩, r⟩, v, hread, hrest⟩ := World.run_bind_eq_ok.mp h
  obtain rfl : v = w :=
    World.eq_of_looks (read_asks (fun _ => trivial) e.notary (.start tokens)) hread
  obtain ⟨engine', hfound, hrest⟩ := World.run_ofResult_bind_eq_ok.mp hrest
  obtain ⟨services, hservices, hrest⟩ := World.run_ofResult_bind_eq_ok.mp hrest
  obtain ⟨signers, u, hsigners, hrest⟩ := World.run_bind_eq_ok.mp hrest
  cases hrest
  have hload := (LineageCommand.run_wiping v _).symm.trans (congrArg Prod.fst hsigners)
  exact ⟨hfound, o, r, services, hread, rfl, hservices, loads_of_loadFrom hload⟩

/-- Once everything is ready, the command comes to what delivering the package comes to. -/
theorem run_of_prepared {name : String} {engine : SigningEngine}
    (h : w.run (prepared e (e.engines.find name) tokens) = (.ok (engine, q, verbose), v)) :
    (w.run (run e name tokens)).1 = (v.run (deliver engine q)).1 ∧
      (w.run (run e name tokens)).2.files = (v.run (deliver engine q)).2.files := by
  rw [run_eq_deliver, World.run_bind_of_ok h]
  dsimp only
  rw [World.run_bind]
  obtain ⟨result, u⟩ := v.run (deliver engine q)
  cases result with
  | error fault => exact ⟨rfl, rfl⟩
  | ok _ =>
    cases verbose with
    | false => exact ⟨rfl, rfl⟩
    | true =>
      exact ⟨Console.run_say (Console.canSay_of_plain (by decide +kernel)) u,
        World.files_of_spares ((Console.say_shows _).mono fun _ => Query.Shows.spares)⟩

/-- Signing does all that it is to do, or changes nothing. -/
structure SignsWhollyOrNotAtAll (e : Equipment) (name : String) (tokens : List String) (w : World) :
    Prop where
  /-- Whatever engines there are, the one that is found is called once, when everything else is
  ready. -/
  calls_once : ∀ engines : EngineCatalogue, run { e with engines } name tokens = (do
    let (engine, q, verbose) ← prepared e (engines.find name) tokens
    let (q', unfinished?) ← placed q
    let outcome ← attempt (engine.sign q')
    settled q unfinished? outcome
    if verbose then Console.say "Signed")
  /-- Until then no file is changed. -/
  spares : (w.run (prepared e (e.engines.find name) tokens)).2.files = w.files
  /-- What goes wrong until then is the end. -/
  refuses : ∀ fault v, w.run (prepared e (e.engines.find name) tokens) = (.error fault, v) →
    w.run (run e name tokens) = (.error fault, v)
  /-- When everything is ready, every signer has been loaded. -/
  loads : ∀ engine q verbose v,
    w.run (prepared e (e.engines.find name) tokens) = (.ok (engine, q, verbose), v) →
    e.engines.find name = .ok engine ∧ ∃ o r services,
      w.run (read e.notary (.start tokens)) = (.ok ((o, q.input), r), w) ∧
      q.output = o.output.getD q.input ∧ e.equipped o.allProviders = .ok services ∧
      List.Forall₂ (Loads services w) o.allSigners q.signers
  /-- Paths that lead to one name are resolved to one place. -/
  recognised : ∀ (input output : Path) m, w.files.locate input = .ok m →
    w.files.locate output = .ok m →
    w.files.resolve input = .ok ⟨.absolute, m⟩ ∧ w.files.resolve output = .ok ⟨.absolute, m⟩
  /-- If both paths are resolved to one place and anything goes wrong, all files are as they were. -/
  unchanged : ∀ engine q verbose v,
    w.run (prepared e (e.engines.find name) tokens) = (.ok (engine, q, verbose), v) →
    ∀ place, w.files.resolve q.input = .ok place → w.files.resolve q.output = .ok place →
    ∀ fault, (w.run (run e name tokens)).1 = .error fault →
      (w.run (run e name tokens)).2.files = w.files
  /-- In no case is the new file still there. -/
  cleared : ∀ engine q verbose v,
    w.run (prepared e (e.engines.find name) tokens) = (.ok (engine, q, verbose), v) →
    ∀ place, w.files.resolve q.input = .ok place → w.files.resolve q.output = .ok place →
    ∀ unfinished files, v.files.newFile v.workshop = .ok (unfinished, files) →
      (w.run (run e name tokens)).2.files.isThere unfinished = false
  /-- When both paths are resolved to one place, the engine gets a new file to write to. When it
  fails, so does the command. When it is done, what it has written stands under the name of the
  output, or in the file that the output leads to if that is on another file system, and is all that
  has changed. -/
  in_place : ∀ engine q verbose v,
    w.run (prepared e (e.engines.find name) tokens) = (.ok (engine, q, verbose), v) →
    ∀ place, w.files.resolve q.input = .ok place → w.files.resolve q.output = .ok place →
    ∀ unfinished files result u, v.files.newFile v.workshop = .ok (unfinished, files) →
    World.run { v with files } (engine.sign { q with output := unfinished }) = (result, u) →
    (∀ fault, result = .error fault → (w.run (run e name tokens)).1 = .error fault ∧
      (w.run (run e name tokens)).2.files = w.files) ∧
    (result = .ok () → ∃ b, u.files.read unfinished = .ok b ∧
      ∀ m, w.files.entryOf q.output = .ok m →
        (w.files.volume unfinished.names = w.files.volume m → ∀ entry, w.files.at? m = some entry →
          w.files.isDirectory q.output = false →
          (w.run (run e name tokens)).1 = .ok () ∧
            w.files.Renewed m b (w.run (run e name tokens)).2.files) ∧
        (w.files.volume unfinished.names ≠ w.files.volume m → ∀ k id,
          w.files.locate q.output = .ok k → w.files.at? k = some (.file id) →
          (w.run (run e name tokens)).1 = .ok () ∧
            (w.run (run e name tokens)).2.files = w.files.store id b))

end General
end SignCommand

section Samples
attribute [local instance] Platform.standard

namespace SignCommand

/-- An engine that writes something, and then fails when packages that can be debugged may not be
signed. -/
def sampleEngine : SigningEngine where
  className := "Engine"
  sign q := do
    ofFile (← query (.write q.output [1, 2]))
    if !q.debuggable then throw (.engine .toolMissing)
  verify _ := return ⟨true, .all, [], [], []⟩

/-- What the program works with, and that engine. -/
def sampleEquipped : Equipment :=
  { LineageCommand.sampleEquipment with
    engines := ⟨EngineCatalogue.noEngines, [⟨"engine", .ok sampleEngine⟩]⟩ }

/-- Words that have a file signed. -/
def sampleTokens (debuggable output : String) : List String :=
  ["--key", "key", "--cert", "certificate", "--debuggable-apk-permitted", debuggable,
    "--out", output, "lineage"]

theorem sampleEquipped_only (engine : SigningEngine)
    (h : sampleEquipped.engines.find "engine" = .ok engine) : engine.WritesOutputOnly := by
  have hfound : sampleEquipped.engines.find "engine" = .ok sampleEngine := rfl
  obtain rfl := Except.ok.inj (hfound.symm.trans h)
  refine fun q => World.files_of_writes_one (.bind (.query (.inr ⟨[1, 2], rfl⟩))
    fun _ => .bind (.ofFile _) fun _ => ?_)
  split
  · exact .throw _
  · exact .pure _

/-- What these words come to. -/
def sampleRun (w : World) (debuggable output : String) : Except Fault Unit × World :=
  w.run (run sampleEquipped "engine" (sampleTokens debuggable output))

/-- Files with another name of one of them, and a link to it. -/
def sampleLinked : World :=
  { LineageCommand.sampleWorld with
    files := (LineageCommand.sampleWorld.files.put ["other"] (.file 2)).put ["link"]
      (.link ⟨.relative, ["lineage"]⟩) }

/-- The same files, with a file system of its own for new files. -/
def sampleApart : World :=
  { sampleLinked with
    workshop := ["new"]
    files := { sampleLinked.files.put ["new"] .directory with mounts := [["new"]] } }

end SignCommand
end Samples
end PackageSigning
