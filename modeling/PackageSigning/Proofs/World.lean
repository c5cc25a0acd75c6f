import PackageSigning.Proofs.Action
import PackageSigning.World

/-!
# How actions run

Running follows an action part by part. What is written on the way (`World.writes`) is
what the parts write. Nobody can ask what was shown, so that makes no difference
(`World.run_congr`), and what an action cannot ask for stays as it is.
-/

namespace PackageSigning

namespace World
open PackageSigning.Action

variable {α β : Type} {w v : World}

/-! ## Parts of actions -/

theorem run_ask (w : World) (q : Query) (next : q.Answer → Action α) :
    w.run (.ask q next) = (w.answer q).2.run (next (w.answer q).1) := rfl

theorem run_bind (w : World) (x : Action α) (f : α → Action β) :
    w.run (x >>= f) = match w.run x with
      | (.ok a, w) => w.run (f a)
      | (.error fault, w) => (.error fault, w) := by
  induction x generalizing w with
  | done _ | fail _ => rfl
  | ask q next ih => exact ih _ _

theorem run_tryCatch (w : World) (x : Action α) (f : Fault → Action α) :
    w.run (tryCatch x f) = match w.run x with
      | (.ok a, w) => (.ok a, w)
      | (.error fault, w) => w.run (f fault) := by
  induction x generalizing w with
  | done _ | fail _ => rfl
  | ask q next ih => exact ih _ _

theorem run_bind_of_ok {x : Action α} {f : α → Action β} {a : α} (h : w.run x = (.ok a, v)) :
    w.run (x >>= f) = v.run (f a) := by
  rw [run_bind, h]

/-- What an action ends with is what its rest ends with, once the beginning has ended well. -/
theorem run_bind_fst {x : Action α} {f : α → Action β} {a : α} (h : (w.run x).1 = .ok a) :
    (w.run (x >>= f)).1 = ((w.run x).2.run (f a)).1 := by
  rw [run_bind]
  generalize w.run x = p at h ⊢
  obtain ⟨_, v⟩ := p
  subst h
  rfl

theorem run_bind_eq_ok {x : Action α} {f : α → Action β} {b : β} :
    (w.run (x >>= f)).1 = .ok b ↔ ∃ a v, w.run x = (.ok a, v) ∧ (v.run (f a)).1 = .ok b := by
  rw [run_bind]
  obtain ⟨result, v⟩ := w.run x
  cases result with
  | ok a =>
    constructor
    · intro h; exact ⟨a, v, rfl, h⟩
    · rintro ⟨_, _, ⟨⟩, h⟩; exact h
  | error fault =>
    constructor
    · intro h; cases h
    · rintro ⟨_, _, h, _⟩; cases h

@[simp] theorem run_ofResult (w : World) (result : Except Fault α) :
    w.run (ofResult result) = (result, w) := by
  cases result <;> rfl

theorem run_ofResult_bind {result : Except Fault α} {f : α → Action β} {a : α}
    (h : result = .ok a) : w.run (ofResult result >>= f) = w.run (f a) := by
  rw [h]
  rfl

theorem run_ofResult_bind_eq_ok {result : Except Fault α} {f : α → Action β} {b : β} :
    (w.run (ofResult result >>= f)).1 = .ok b ↔
      ∃ a, result = .ok a ∧ (w.run (f a)).1 = .ok b := by
  cases result with
  | ok a =>
    constructor
    · intro h; exact ⟨a, rfl, h⟩
    · rintro ⟨_, ⟨⟩, h⟩; exact h
  | error fault =>
    constructor
    · intro h; cases h
    · rintro ⟨_, h, _⟩; cases h

@[simp] theorem run_attempt (w : World) (x : Action α) :
    w.run (attempt x) = (.ok (w.run x).1, (w.run x).2) := by
  refine (run_tryCatch w _ _).trans ?_
  rw [run_bind]
  obtain ⟨result, v⟩ := w.run x
  cases result <;> rfl

/-- What is done in the end comes between an action and its outcome. -/
theorem run_finally_ {x : Action α} {cleanup : Action Unit} {result : Except Fault α} {u : World}
    (hx : w.run x = (result, v)) (hc : v.run cleanup = (.ok (), u)) :
    w.run (finally_ x cleanup) = (result, u) := by
  have hresult : w.run (attempt x) = (.ok result, v) := by rw [run_attempt, hx]
  calc w.run (finally_ x cleanup)
    _ = v.run (cleanup >>= fun _ => ofResult result) := run_bind_of_ok hresult
    _ = u.run (ofResult result) := run_bind_of_ok hc
    _ = (result, u) := run_ofResult u result

/-! ## What is noted -/

/-- Adds lines to the log. -/
def note (w : World) (lines : List String) : World := { w with log := w.log ++ lines }

theorem keep_log (w : World) (result : Except FileFault Files) : (w.keep result).2.log = w.log := by
  cases result <;> rfl

theorem run_forM_log (w : World) (f : β → String) (as : List β) :
    w.run (as.forM fun a => Action.log (f a)) = (.ok (), w.note (as.map f)) := by
  induction as generalizing w with
  | nil =>
    show _ = (_, { w with log := w.log ++ [] })
    rw [List.append_nil]
    rfl
  | cons a as ih =>
    calc w.run ((a :: as).forM fun a => Action.log (f a))
      _ = (w.note [f a]).run (as.forM fun a => Action.log (f a)) := run_bind_of_ok rfl
      _ = (.ok (), w.note ((a :: as).map f)) := by
        rw [ih]
        exact congrArg (fun lines => (_, { w with log := lines })) (List.append_assoc ..)

/-- An action that notes nothing leaves the log as it is. -/
theorem log_of_only {x : Action α} (h : x.Only Query.LeavesLog) : (w.run x).2.log = w.log := by
  induction h generalizing w with
  | done _ | fail _ => rfl
  | @ask q next question _ ih =>
    have hq : (w.answer q).2.log = w.log := by
      cases q with
      | write | move | remove | temporary => exact keep_log w _
      | log => exact question.elim
      | _ => rfl
    exact (ih _).trans hq

/-! ## What is written -/

/-- What a question puts into a file. -/
def written : Query → List (Path × Bytes)
  | .write path contents => [(path, contents)]
  | _ => []

/-- What an action puts into files, one after the other. -/
def writes (w : World) : Action α → List (Path × Bytes)
  | .done _ | .fail _ => []
  | .ask q next => written q ++ writes (w.answer q).2 (next (w.answer q).1)

theorem writes_bind (w : World) (x : Action α) (f : α → Action β) :
    w.writes (x >>= f) = w.writes x ++ match w.run x with
      | (.ok a, w) => w.writes (f a)
      | (.error _, _) => [] := by
  induction x generalizing w with
  | done _ | fail _ => rfl
  | ask q next ih =>
    change written q ++ (w.answer q).2.writes (next (w.answer q).1 >>= f) = _
    rw [ih, ← List.append_assoc]
    rfl

theorem writes_of_only {x : Action α} (h : x.Only Query.Keeps) : w.writes x = [] := by
  induction h generalizing w with
  | done _ | fail _ => rfl
  | @ask q next question _ ih =>
    have hq : written q = [] := by
      cases q <;> first | rfl | exact question.elim
    change written q ++ _ = []
    rw [hq, ih]
    rfl

/-- An action that ends well in front of another one, and writes nothing. -/
theorem writes_bind_of_ok {x : Action α} {f : α → Action β} {a : α} (h : (w.run x).1 = .ok a)
    (hx : x.Only Query.Keeps) : w.writes (x >>= f) = (w.run x).2.writes (f a) := by
  rw [writes_bind, writes_of_only hx, List.nil_append]
  generalize w.run x = p at h ⊢
  obtain ⟨_, v⟩ := p
  subst h
  rfl

theorem writes_ofResult_bind {result : Except Fault α} {f : α → Action β} {a : α}
    (h : result = .ok a) : w.writes (ofResult result >>= f) = w.writes (f a) := by
  rw [h]
  rfl

/-- An action that writes nothing behind another one. -/
theorem writes_bind_of_keeps {x : Action α} {f : α → Action β}
    (hf : ∀ a, (f a).Only Query.Keeps) : w.writes (x >>= f) = w.writes x := by
  rw [writes_bind]
  obtain ⟨result, v⟩ := w.run x
  cases result with
  | ok a =>
    change w.writes x ++ v.writes (f a) = w.writes x
    rw [writes_of_only (hf a), List.append_nil]
  | error _ => exact List.append_nil _

/-- Files with contents put into one of them, if that is possible. -/
def put (fs : Files) (path : Path) (contents : Bytes) : Files :=
  match fs.write path contents with
  | .ok fs => fs
  | .error _ => fs

/-- What files hold in the end is what was put into them, if they are not moved or removed. -/
theorem run_files {x : Action α} (h : x.Only Query.Settled) :
    (w.run x).2.files = (w.writes x).foldl (fun fs p => put fs p.1 p.2) w.files := by
  induction h generalizing w with
  | done _ | fail _ => rfl
  | @ask q next question _ ih =>
    have hq : (w.answer q).2.files = (written q).foldl (fun fs p => put fs p.1 p.2) w.files := by
      cases q with
      | write path contents =>
        simp only [answer, written, List.foldl_cons, List.foldl_nil, put, keep]
        cases w.files.write path contents <;> rfl
      | temporary | move | remove => exact question.elim
      | _ => rfl
    change (run (w.answer q).2 (next (w.answer q).1)).2.files =
      (written q ++ _).foldl (fun fs p => put fs p.1 p.2) w.files
    rw [ih, hq, List.foldl_append]

/-- An action that puts nothing into files and leaves them where they are leaves them all. -/
theorem files_of_spares {x : Action α} (h : x.Only Query.Spares) : (w.run x).2.files = w.files := by
  rw [run_files (h.mono fun _ => And.right), writes_of_only (h.mono fun _ => And.left)]
  rfl

/-! ## What is shown -/

/-- The surroundings but for what was shown. -/
def unseen (w : World) : World := { w with shown := [] }

theorem unseen_eq_iff : w.unseen = v.unseen ↔ ∃ shown, v = { w with shown } := by
  constructor
  · intro h
    refine ⟨v.shown, ?_⟩
    cases w; cases v
    simp_all [unseen]
  · rintro ⟨shown, rfl⟩
    rfl

theorem keep_shown (w : World) (shown : List Shown) (result : Except FileFault Files) :
    (keep { w with shown } result).1 = (w.keep result).1 ∧
      (keep { w with shown } result).2.unseen = (w.keep result).2.unseen := by
  cases result <;> exact ⟨rfl, rfl⟩

theorem answer_shown (w : World) (shown : List Shown) (q : Query) :
    (answer { w with shown } q).1 = (w.answer q).1 ∧
      (answer { w with shown } q).2.unseen = (w.answer q).2.unseen := by
  cases q with
  | write => exact keep_shown w shown _
  | move => exact keep_shown w shown _
  | remove => exact keep_shown w shown _
  | temporary => exact ⟨rfl, (keep_shown w shown _).2⟩
  | _ => exact ⟨rfl, rfl⟩

/-- What was shown makes no difference. -/
theorem run_congr (h : w.unseen = v.unseen) (x : Action α) :
    (w.run x).1 = (v.run x).1 ∧ (w.run x).2.unseen = (v.run x).2.unseen := by
  induction x generalizing w v with
  | done _ | fail _ => exact ⟨rfl, h⟩
  | ask q next ih =>
    obtain ⟨shown, rfl⟩ := unseen_eq_iff.mp h
    obtain ⟨hanswer, hworld⟩ := answer_shown w shown q
    rw [run_ask, run_ask, hanswer]
    exact ih _ hworld.symm

theorem run_shows {x : Action α} (h : x.Only Query.Shows) : (w.run x).2.unseen = w.unseen := by
  induction h generalizing w with
  | done _ | fail _ => rfl
  | @ask q next question _ ih =>
    have hq : (w.answer q).2.unseen = w.unseen := by
      cases q <;> first | rfl | exact question.elim
    exact (ih _).trans hq

end World
end PackageSigning
