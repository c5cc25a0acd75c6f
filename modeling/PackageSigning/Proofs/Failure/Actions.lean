import PackageSigning.Proofs.Failure
import PackageSigning.Proofs.Signer.Gathering
import PackageSigning.Proofs.World.Input

/-!
# What actions fail with

Gathering leaves the surroundings alike: the files, the encoding and the kind of input stay
what they are. So what a step can fail with is told by the surroundings at the start
(`World.FailsOnly`), whatever was read and asked before it.
-/

namespace PackageSigning

open PackageSigning.Action

variable {α β : Type} {E F : Fault → Prop} {w v : World}

namespace World

/-- Surroundings that differ at most in how far the input has been read, and in what was shown,
noted and handed out. -/
structure Alike (w v : World) : Prop where
  files : v.files = w.files
  native : v.native = w.native
  isTerminal : v.isTerminal = w.isTerminal
  isOpen : v.vault.isOpen = w.vault.isOpen
  inputLines : v.inputLines <:+ w.inputLines

theorem Alike.refl (w : World) : w.Alike w := ⟨rfl, rfl, rfl, rfl, List.suffix_rfl⟩

theorem Alike.trans {u : World} (h : w.Alike v) (h' : v.Alike u) : w.Alike u :=
  ⟨h'.files.trans h.files, h'.native.trans h.native, h'.isTerminal.trans h.isTerminal,
    h'.isOpen.trans h.isOpen, h'.inputLines.trans h.inputLines⟩

/-- What was not read is still there. -/
theorem Alike.of_input (files : v.files = w.files) (native : v.native = w.native)
    (isTerminal : v.isTerminal = w.isTerminal) (isOpen : v.vault.isOpen = w.vault.isOpen)
    (input : v.input = w.input) : w.Alike v where
  files := files
  native := native
  isTerminal := isTerminal
  isOpen := isOpen
  inputLines := by
    have hlines : v.inputLines = w.inputLines := by
      rw [World.inputLines, World.inputLines, input]
    exact hlines ▸ List.suffix_rfl

theorem takeLine_alike (w : World) : w.Alike w.takeLine.2 where
  files := rfl
  native := rfl
  isTerminal := rfl
  isOpen := rfl
  inputLines := (congrArg (· <:+ w.inputLines) w.input.take_eq.2).mpr (List.tail_suffix _)

/-- A line that cannot be taken is one that is lost. -/
theorem mem_inputLines_of_takeLine {m : Mishap} (h : w.takeLine.1 = .error m) :
    .error m ∈ w.inputLines := by
  have hhead := takeLine_inputLines w
  rw [h] at hhead
  cases hlines : w.inputLines with
  | nil =>
    rw [hlines] at hhead
    cases hhead
  | cons first rest =>
    rw [hlines] at hhead
    cases first with
    | ok line => cases hhead
    | error _ =>
      cases hhead
      exact List.mem_cons_self

/-- Gathering leaves the surroundings alike. -/
theorem run_alike {x : Action α} (h : x.Gathering) (w : World) : w.Alike (w.run x).2 := by
  induction h generalizing w with
  | done _ | fail _ => exact .refl w
  | @ask q next question _ ih =>
    have hq : w.Alike (w.answer q).2 := by
      cases q with
      | line => exact takeLine_alike w
      | hiddenLine prompt =>
        have hseen : w.Alike (w.see (.prompted prompt)) := .of_input rfl rfl rfl rfl rfl
        exact hseen.trans (takeLine_alike _)
      | write | isThere | resolve | temporary | move | remove | print | closeVault =>
        exact question.elim
      | _ => exact .of_input rfl rfl rfl rfl rfl
    exact hq.trans (ih _ _)

theorem alike_of_run {x : Action α} (h : x.Gathering) {result : Except Fault α}
    (hrun : w.run x = (result, v)) : w.Alike v := by
  have halike := run_alike h w
  rwa [hrun] at halike

/-- In surroundings like these an action fails with faults of some kind, if it fails at all. -/
def FailsOnly (w : World) (E : Fault → Prop) (x : Action α) : Prop :=
  ∀ v, w.Alike v → PackageSigning.FailsOnly E (v.run x).1

namespace FailsOnly

theorem pure (a : α) : w.FailsOnly E (Pure.pure a : Action α) := fun _ _ => .ok a

theorem throw {fault : Fault} (h : E fault) :
    w.FailsOnly E (MonadExcept.throw fault : Action α) :=
  fun _ _ => .error h

theorem ofResult {result : Except Fault α} (h : PackageSigning.FailsOnly E result) :
    w.FailsOnly E (Action.ofResult result) := by
  intro v _
  rw [run_ofResult]
  exact h

/-- The rest of an action has to be looked at for the values only that its beginning can end
with. -/
theorem bind_of {x : Action α} {f : α → Action β} (gathering : x.Gathering) (hx : w.FailsOnly E x)
    (hf : ∀ v a, w.Alike v → (v.run x).1 = .ok a → w.FailsOnly E (f a)) :
    w.FailsOnly E (x >>= f) := by
  intro v hv
  have hrun := run_alike gathering v
  have hfails := hx v hv
  have hvalue (a : α) := hf v a hv
  rw [run_bind]
  generalize v.run x = outcome at hrun hfails hvalue
  obtain ⟨result, u⟩ := outcome
  cases result with
  | ok a => exact hvalue a rfl u (hv.trans hrun)
  | error fault => exact .error (hfails fault rfl)

theorem bind {x : Action α} {f : α → Action β} (gathering : x.Gathering) (hx : w.FailsOnly E x)
    (hf : ∀ a, w.FailsOnly E (f a)) : w.FailsOnly E (x >>= f) :=
  bind_of gathering hx fun _ a _ _ => hf a

theorem ofResult_bind {result : Except Fault α} {f : α → Action β}
    (h : PackageSigning.FailsOnly E result) (hf : ∀ a, result = .ok a → w.FailsOnly E (f a)) :
    w.FailsOnly E (Action.ofResult result >>= f) := by
  refine bind_of (.ofResult result) (ofResult h) fun v a _ ha => hf a ?_
  rw [run_ofResult] at ha
  exact ha

/-- A question asks for something that surroundings like these give. -/
theorem query_bind {q : Query} {f : q.Answer → Action β} (question : q.Gathers)
    (hf : ∀ v, w.Alike v → w.FailsOnly E (f (v.answer q).1)) :
    w.FailsOnly E (Action.query q >>= f) := by
  refine bind_of (.query question) (fun _ _ => .ok _) fun v a hv ha => ?_
  obtain rfl := Except.ok.inj ha
  exact hf v hv

theorem tryCatch {x : Action α} {f : Fault → Action α} (gathering : x.Gathering)
    (hx : w.FailsOnly F x) (hf : ∀ fault, F fault → w.FailsOnly E (f fault)) :
    w.FailsOnly E (MonadExcept.tryCatch x f) := by
  intro v hv
  have hrun := run_alike gathering v
  have hfails := hx v hv
  rw [run_tryCatch]
  generalize v.run x = outcome at hrun hfails
  obtain ⟨result, u⟩ := outcome
  cases result with
  | ok a => exact .ok a
  | error fault => exact hf fault (hfails fault rfl) u (hv.trans hrun)

theorem ofMishap {result : Except Mishap α} (h : ∀ m, result = .error m → E (.mishap m)) :
    w.FailsOnly E (Action.ofMishap result) := by
  cases result with
  | ok a => exact pure a
  | error m => exact throw (h m rfl)

theorem ofFile {result : Except FileFault α}
    (h : ∀ fault, result = .error fault → E (.file fault)) :
    w.FailsOnly E (Action.ofFile result) := by
  cases result with
  | ok a => exact pure a
  | error fault => exact throw (h fault rfl)

/-- The contents of a file are what the surroundings hold. -/
theorem contentsOf_bind {path : Path} {f : Bytes → Action β}
    (hfault : ∀ fault, w.files.read path = .error fault → E (.file fault))
    (hf : ∀ b, w.files.read path = .ok b → w.FailsOnly E (f b)) :
    w.FailsOnly E (contentsOf path >>= f) := by
  refine bind_of (contentsOf_gathering path) (query_bind trivial fun v hv => ?_) fun v b hv hb => ?_
  · change w.FailsOnly E (Action.ofFile (v.files.read path))
    rw [hv.files]
    exact ofFile hfault
  · change (v.run (Action.ofFile (v.files.read path))).1 = _ at hb
    rw [hv.files] at hb
    cases hread : w.files.read path with
    | ok c =>
      rw [hread] at hb
      cases hb
      exact hf b hread
    | error fault =>
      rw [hread] at hb
      cases hb

/-- A refusal in front of the rest of an action. -/
theorem refuse_if {c : Prop} [Decidable c] {fault : Fault} {f : PUnit → Action α} (h : E fault)
    (hf : ∀ u, w.FailsOnly E (f u)) :
    w.FailsOnly E (if c then (MonadExcept.throw fault : Action PUnit) >>= f else f ⟨⟩) := by
  split
  · exact bind (.throw fault) (throw h) hf
  · exact hf ⟨⟩

end FailsOnly
end World

end PackageSigning
