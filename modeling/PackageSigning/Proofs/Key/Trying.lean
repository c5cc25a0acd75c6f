import Mathlib.Data.List.Induction
import PackageSigning.Proofs.Key.Decryption

/-!
# Trying passwords in turn

An encrypted key is decrypted with passwords in turn. That ends in one of four ways, and they say
which passwords were tried (`EncryptedKey.Settles`). The first password decides whose outcome no
other password may mend, be it the key or a failure, and none behind it is tried. If there is no
such password, the last one that was plainly wrong gives the failure, wherever it stands; if none
was, the last one does; and if there is no password at all, that is the failure. The loop ends in
exactly these ways (`EncryptedKey.first_working_password_decides`), so passwords in front of a
deciding one that another may mend make no difference.

What the loop keeps is the last failure of each of the two kinds that may be mended
(`Attempts.after`). Which passwords are tried is seen when the loop runs with attempts that note
them down (`EncryptedKey.noting`).
-/

namespace PackageSigning.EncryptedKey

variable {α β : Type} {attempt : α → Except Fault β} {a : Attempts} {password : α}
  {passwords tried : List α} {outcome : Except Fault β}

/-- Whether another password may mend the outcome with this one. -/
def mendable : Except Fault β → Bool
  | .error (.decryption _) | .error (.invalidKey _) => true
  | _ => false

/-- The last failures of each kind, after one more outcome. -/
def Attempts.after (a : Attempts) : Except Fault β → Attempts
  | .error (.decryption report) => { a with decryption := some (.decryption report) }
  | .error (.invalidKey problem) => { a with invalidKey := some (.invalidKey problem) }
  | _ => a

/-- The last failures of each kind, after the outcomes with some passwords in turn. -/
def Attempts.afterAll (attempt : α → Except Fault β) (a : Attempts) (passwords : List α) :
    Attempts :=
  passwords.foldl (fun a p => a.after (attempt p)) a

/-- The loop of `firstSuccess` with attempts that have effects. -/
def firstSuccessM {m : Type → Type} [Monad m] (attempt : α → m (Except Fault β)) (a : Attempts) :
    List α → m (Except Fault β)
  | [] => return .error a.verdict
  | password :: rest => do
    match ← attempt password with
    | .error (.decryption report) =>
      firstSuccessM attempt { a with decryption := some (.decryption report) } rest
    | .error (.invalidKey problem) =>
      firstSuccessM attempt { a with invalidKey := some (.invalidKey problem) } rest
    | outcome => return outcome

/-- An attempt that notes down the password. -/
def noting (attempt : α → Except Fault β) (password : α) : StateM (List α) (Except Fault β) := do
  modify (· ++ [password])
  return attempt password

/-- How trying passwords in turn is to end, with the passwords that are tried. -/
inductive Settles (attempt : α → Except Fault β) : List α → Except Fault β → List α → Prop
  /-- The first password that gives the key, or a failure that no other may mend. -/
  | decided {earlier later : List α} {password : α}
      (failed : ∀ p ∈ earlier, mendable (attempt p) = true)
      (decides : mendable (attempt password) = false) :
      Settles attempt (earlier ++ password :: later) (attempt password) (earlier ++ [password])
  /-- The last one of those that are plainly wrong. -/
  | wrong {earlier later : List α} {password : α} {report : String}
      (failed : ∀ p ∈ earlier ++ password :: later, mendable (attempt p) = true)
      (wrong : attempt password = .error (.decryption report))
      (last : ∀ p ∈ later, ∀ report, attempt p ≠ .error (.decryption report)) :
      Settles attempt (earlier ++ password :: later) (.error (.decryption report))
        (earlier ++ password :: later)
  /-- None is plainly wrong, but what comes out with any of them is no key. -/
  | noKey {earlier : List α} {password : α} {problem : InvalidKey}
      (failed : ∀ p ∈ earlier, ∃ problem, attempt p = .error (.invalidKey problem))
      (last : attempt password = .error (.invalidKey problem)) :
      Settles attempt (earlier ++ [password]) (.error (.invalidKey problem))
        (earlier ++ [password])
  | noPassword : Settles attempt [] (.error (.noPasswords .key)) []

/-! ## One password -/

theorem mendable_iff : mendable outcome = true ↔
    (∃ report, outcome = .error (.decryption report)) ∨
      ∃ problem, outcome = .error (.invalidKey problem) := by
  cases outcome with
  | ok b => simp [mendable]
  | error fault => cases fault <;> simp [mendable]

/-- The first password decides, unless another one may mend the outcome. -/
theorem firstSuccess_cons (attempt : α → Except Fault β) (a : Attempts) (password : α)
    (rest : List α) :
    firstSuccess attempt a (password :: rest) =
      if mendable (attempt password) = true then
        firstSuccess attempt (a.after (attempt password)) rest
      else attempt password := by
  rw [firstSuccess]
  generalize attempt password = outcome
  cases outcome with
  | ok b => rfl
  | error fault => cases fault <;> rfl

/-- Without effects the loop is `firstSuccess`. -/
theorem firstSuccessM_id (attempt : α → Except Fault β) (a : Attempts) (passwords : List α) :
    firstSuccessM (m := Id) attempt a passwords = firstSuccess attempt a passwords := by
  induction passwords generalizing a with
  | nil => rfl
  | cons password rest ih =>
    show (match attempt password with
      | .error (.decryption _) => firstSuccessM (m := Id) attempt _ rest
      | .error (.invalidKey problem) => firstSuccessM (m := Id) attempt _ rest
      | outcome => outcome : Except Fault β) = _
    rw [firstSuccess]
    generalize attempt password = outcome
    cases outcome with
    | ok b => rfl
    | error fault =>
      cases fault with
      | decryption report => exact ih _
      | invalidKey problem => exact ih _
      | _ => rfl

theorem run_noting_cons (attempt : α → Except Fault β) (a : Attempts) (password : α)
    (rest tried : List α) :
    (firstSuccessM (noting attempt) a (password :: rest)).run tried =
      if mendable (attempt password) = true then
        (firstSuccessM (noting attempt) (a.after (attempt password)) rest).run
          (tried ++ [password])
      else (attempt password, tried ++ [password]) := by
  show (match attempt password with
    | .error (.decryption _) => firstSuccessM (noting attempt) _ rest
    | .error (.invalidKey problem) => firstSuccessM (noting attempt) _ rest
    | outcome => pure outcome : StateM (List α) (Except Fault β)).run (tried ++ [password]) = _
  generalize attempt password = outcome
  cases outcome with
  | ok b => rfl
  | error fault => cases fault <;> rfl

/-- Noting passwords down changes nothing else. -/
theorem fst_run_noting (attempt : α → Except Fault β) (a : Attempts) (passwords tried : List α) :
    ((firstSuccessM (noting attempt) a passwords).run tried).1 =
      firstSuccess attempt a passwords := by
  induction passwords generalizing a tried with
  | nil => rfl
  | cons password rest ih =>
    rw [run_noting_cons, firstSuccess_cons]
    split
    · exact ih _ _
    · rfl

/-! ## What is kept of failures -/

theorem Attempts.after_decryption (h : ∀ report, outcome ≠ .error (.decryption report)) :
    (a.after outcome).decryption = a.decryption := by
  unfold Attempts.after
  split
  · exact absurd rfl (h _)
  · rfl
  · rfl

theorem Attempts.afterAll_append (earlier later : List α) :
    a.afterAll attempt (earlier ++ later) = (a.afterAll attempt earlier).afterAll attempt later :=
  List.foldl_append

/-- A password that is not plainly wrong leaves the last one that was. -/
theorem Attempts.afterAll_decryption (h : ∀ p ∈ passwords, ∀ report, attempt p ≠ .error (.decryption report)) :
    (a.afterAll attempt passwords).decryption = a.decryption := by
  induction passwords generalizing a with
  | nil => rfl
  | cons password rest ih =>
    obtain ⟨hpassword, hrest⟩ := List.forall_mem_cons.mp h
    calc (a.afterAll attempt (password :: rest)).decryption
      _ = (a.after (attempt password)).decryption := ih hrest
      _ = a.decryption := Attempts.after_decryption hpassword

theorem Attempts.verdict_of_decryption {fault : Fault} (h : a.decryption = some fault) :
    a.verdict = fault := by
  unfold Attempts.verdict
  rw [h]
  rfl

theorem Attempts.verdict_of_invalidKey {fault : Fault} (hdecryption : a.decryption = none)
    (h : a.invalidKey = some fault) : a.verdict = fault := by
  unfold Attempts.verdict
  rw [hdecryption, h]
  rfl

/-! ## Passwords in turn -/

/-- Passwords whose outcomes another one may mend are tried, and their failures kept. -/
theorem run_noting_append {earlier : List α} (h : ∀ p ∈ earlier, mendable (attempt p) = true)
    (a : Attempts) (rest tried : List α) :
    (firstSuccessM (noting attempt) a (earlier ++ rest)).run tried =
      (firstSuccessM (noting attempt) (a.afterAll attempt earlier) rest).run
        (tried ++ earlier) := by
  induction earlier generalizing a tried with
  | nil => rw [List.append_nil]; rfl
  | cons password earlier ih =>
    obtain ⟨hpassword, hearlier⟩ := List.forall_mem_cons.mp h
    rw [List.cons_append, run_noting_cons, if_pos hpassword, ih hearlier, List.append_assoc]
    rfl

/-- When all outcomes may be mended, all passwords are tried, and what was kept tells. -/
theorem run_noting_of_mendable (h : ∀ p ∈ passwords, mendable (attempt p) = true) :
    (firstSuccessM (noting attempt) a passwords).run [] =
      (.error (a.afterAll attempt passwords).verdict, passwords) := by
  calc (firstSuccessM (noting attempt) a passwords).run []
    _ = (firstSuccessM (noting attempt) a (passwords ++ [])).run [] := by rw [List.append_nil]
    _ = (.error (a.afterAll attempt passwords).verdict, [] ++ passwords) :=
        run_noting_append h a [] []

/-- The loop ends in each of the ways that it is to end in. -/
theorem Settles.run (h : Settles attempt passwords outcome tried) :
    (firstSuccessM (noting attempt) ⟨none, none⟩ passwords).run [] = (outcome, tried) := by
  cases h with
  | decided failed decides =>
    rw [run_noting_append failed, run_noting_cons, if_neg (by simp [decides]), List.nil_append]
  | @wrong earlier later password report failed wrong last =>
    -- The passwords behind the last one that is wrong do not replace what was kept of it.
    have hkept : (Attempts.afterAll attempt ⟨none, none⟩
        (earlier ++ password :: later)).decryption = some (.decryption report) := by
      rw [Attempts.afterAll_append]
      calc (Attempts.afterAll attempt _ later).decryption
        _ = (Attempts.after _ (attempt password)).decryption := Attempts.afterAll_decryption last
        _ = some (.decryption report) := by rw [wrong]; rfl
    rw [run_noting_of_mendable failed, Attempts.verdict_of_decryption hkept]
  | @noKey earlier password problem failed last =>
    have hall : ∀ p ∈ earlier ++ [password], ∃ problem, attempt p = .error (.invalidKey problem) :=
      List.forall_mem_append.mpr ⟨failed, List.forall_mem_singleton.mpr ⟨problem, last⟩⟩
    have hdecryption : (Attempts.afterAll attempt ⟨none, none⟩
        (earlier ++ [password])).decryption = none := by
      refine Attempts.afterAll_decryption fun p hp report => ?_
      obtain ⟨problem, hproblem⟩ := hall p hp
      rw [hproblem]
      nofun
    have hkept : (Attempts.afterAll attempt ⟨none, none⟩
        (earlier ++ [password])).invalidKey = some (.invalidKey problem) := by
      rw [Attempts.afterAll_append]
      show (Attempts.after _ (attempt password)).invalidKey = _
      rw [last]
      rfl
    rw [run_noting_of_mendable fun p hp => mendable_iff.mpr (.inr (hall p hp)),
      Attempts.verdict_of_invalidKey hdecryption hkept]
  | noPassword => rfl

/-- One more password behind those whose outcomes may all be mended. -/
theorem Settles.exists_concat (h : Settles attempt passwords outcome tried)
    (failed : ∀ p ∈ passwords, mendable (attempt p) = true) (password : α) :
    ∃ outcome' tried', Settles attempt (passwords ++ [password]) outcome' tried' := by
  cases hpassword : mendable (attempt password) with
  | false => exact ⟨_, _, .decided failed hpassword⟩
  | true =>
    have hfailed : ∀ p ∈ passwords ++ [password], mendable (attempt p) = true :=
      List.forall_mem_append.mpr ⟨failed, List.forall_mem_singleton.mpr hpassword⟩
    obtain ⟨report, hwrong⟩ | ⟨problem, hproblem⟩ := mendable_iff.mp hpassword
    · exact ⟨_, _, .wrong hfailed hwrong nofun⟩
    · cases h with
      | @decided earlier later decider _ decides =>
        have hdecider := failed decider (by simp)
        rw [decides] at hdecider
        cases hdecider
      | @wrong earlier later last report _ wrong hlast =>
        -- The last password that is plainly wrong is still the same.
        have hlater : ∀ p ∈ later ++ [password], ∀ report,
            attempt p ≠ .error (.decryption report) :=
          List.forall_mem_append.mpr
            ⟨hlast, List.forall_mem_singleton.mpr (by rw [hproblem]; nofun)⟩
        rw [List.append_assoc, List.cons_append] at hfailed ⊢
        exact ⟨_, _, .wrong hfailed wrong hlater⟩
      | @noKey earlier last problem' noKey hlast =>
        exact ⟨_, _, .noKey (List.forall_mem_append.mpr
          ⟨noKey, List.forall_mem_singleton.mpr ⟨problem', hlast⟩⟩) hproblem⟩
      | noPassword =>
        have first : ∀ p ∈ [], ∃ problem, attempt p = .error (.invalidKey problem) := nofun
        exact ⟨_, _, .noKey first hproblem⟩

/-- There is a way to end for any passwords and any outcomes. -/
theorem exists_settles (attempt : α → Except Fault β) (passwords : List α) :
    ∃ outcome tried, Settles attempt passwords outcome tried := by
  induction passwords using List.reverseRecOn with
  | nil => exact ⟨_, _, .noPassword⟩
  | append_singleton front password ih =>
    obtain ⟨outcome, tried, h⟩ := ih
    cases h with
    | @decided earlier later decider failed decides =>
      rw [List.append_assoc, List.cons_append]
      exact ⟨_, _, .decided failed decides⟩
    | wrong failed wrong last => exact (Settles.wrong failed wrong last).exists_concat failed _
    | @noKey earlier last problem failed hlast =>
      refine (Settles.noKey failed hlast).exists_concat (fun p hp => mendable_iff.mpr (.inr ?_)) _
      exact List.forall_mem_append.mpr ⟨failed, List.forall_mem_singleton.mpr ⟨_, hlast⟩⟩ p hp
    | noPassword => exact Settles.noPassword.exists_concat nofun _

/-- The loop ends in the way that there is, and in no other. -/
theorem run_noting_eq_iff :
    (firstSuccessM (noting attempt) ⟨none, none⟩ passwords).run [] = (outcome, tried) ↔
      Settles attempt passwords outcome tried := by
  constructor
  · intro hrun
    obtain ⟨outcome', tried', h⟩ := exists_settles attempt passwords
    obtain ⟨rfl, rfl⟩ := Prod.mk.inj (h.run.symm.trans hrun)
    exact h
  · exact Settles.run

theorem firstSuccess_eq_iff :
    firstSuccess attempt ⟨none, none⟩ passwords = outcome ↔
      ∃ tried, Settles attempt passwords outcome tried := by
  rw [← fst_run_noting attempt ⟨none, none⟩ passwords []]
  constructor
  · rintro rfl
    exact ⟨_, run_noting_eq_iff.mp rfl⟩
  · rintro ⟨tried, h⟩
    rw [h.run]

/-- The first password that decides is the only one that counts. -/
theorem firstSuccess_of_find?
    (h : passwords.find? (fun p => !mendable (attempt p)) = some password) :
    firstSuccess attempt ⟨none, none⟩ passwords = attempt password := by
  obtain ⟨decides, earlier, later, rfl, failed⟩ := List.find?_eq_some_iff_append.mp h
  refine firstSuccess_eq_iff.mpr ⟨_, .decided (fun p hp => ?_) (by simpa using decides)⟩
  simpa using failed p hp

/-- Passwords whose outcomes may be mended make no difference in front of one that decides. -/
theorem firstSuccess_insert {earlier more rest : List α}
    (failed : ∀ p ∈ more, mendable (attempt p) = true)
    (decides : ∃ p ∈ rest, mendable (attempt p) = false) :
    firstSuccess attempt ⟨none, none⟩ (earlier ++ more ++ rest) =
      firstSuccess attempt ⟨none, none⟩ (earlier ++ rest) := by
  have hmore : more.find? (fun p => !mendable (attempt p)) = none :=
    List.find?_eq_none.mpr fun p hp => by simp [failed p hp]
  have hsame : (earlier ++ more ++ rest).find? (fun p => !mendable (attempt p)) =
      (earlier ++ rest).find? fun p => !mendable (attempt p) := by
    simp only [List.find?_append, hmore, Option.or_none]
  have hsome : ((earlier ++ rest).find? fun p => !mendable (attempt p)).isSome = true := by
    obtain ⟨p, hp, hdecides⟩ := decides
    exact List.find?_isSome.mpr ⟨p, List.mem_append_right _ hp, by simp [hdecides]⟩
  obtain ⟨password, hpassword⟩ := Option.isSome_iff_exists.mp hsome
  rw [firstSuccess_of_find? hpassword, firstSuccess_of_find? (hsame.trans hpassword)]

/-- Only to have no passwords is told as such. -/
theorem decryptFirst_eq_noPasswords_iff [Platform] (k : EncryptedKey) (passwords : List Bytes)
    (use : PasswordUse) :
    k.decryptFirst passwords = .error (.noPasswords use) ↔ passwords = [] ∧ use = .key := by
  constructor
  · intro hnone
    obtain ⟨tried, h⟩ := firstSuccess_eq_iff.mp hnone
    generalize hfault : (.error (.noPasswords use) : Except Fault Bytes) = outcome at h
    cases h with
    | @decided earlier later password failed decides =>
      -- Decrypting fails as documented or with a mishap.
      by_cases unworkable : k.Unworkable password
      · obtain ⟨m, hm⟩ := exists_mishap_of_unworkable unworkable
        cases hfault.trans hm
      · cases documented_of_workable unworkable _ hfault.symm
    | wrong | noKey => cases hfault
    | noPassword =>
      cases hfault
      exact ⟨rfl, rfl⟩
  · rintro ⟨rfl, rfl⟩
    rfl

/-- Whatever the outcomes with passwords are, trying them in turn ends in the one way that there
is, and the passwords that are tried are those of that way. The first one decides that works, or
that fails in a way which no other may mend, and none behind it is tried. If there is none, the
last one that is plainly wrong gives the failure, wherever it stands, or else the last one. That
there is no password is told only if there is none. Passwords whose failure another one may mend
make no difference in front of one that decides. Decrypting an encrypted key is such a trying. -/
theorem first_working_password_decides [Platform] (attempt : α → Except Fault β) (passwords : List α) :
    firstSuccessM (m := Id) attempt ⟨none, none⟩ passwords =
      firstSuccess attempt ⟨none, none⟩ passwords ∧
    (∀ outcome tried,
      (firstSuccessM (noting attempt) ⟨none, none⟩ passwords).run [] = (outcome, tried) ↔
        Settles attempt passwords outcome tried) ∧
    (∀ outcome, firstSuccess attempt ⟨none, none⟩ passwords = outcome ↔
      ∃ tried, Settles attempt passwords outcome tried) ∧
    (∀ earlier more rest, passwords = earlier ++ rest →
      (∀ p ∈ more, mendable (attempt p) = true) → (∃ p ∈ rest, mendable (attempt p) = false) →
      firstSuccess attempt ⟨none, none⟩ (earlier ++ more ++ rest) =
        firstSuccess attempt ⟨none, none⟩ passwords) ∧
    ∀ (k : EncryptedKey) (given : List Bytes),
      (∀ outcome, k.decryptFirst given = outcome ↔
        ∃ tried, Settles k.decrypt given outcome tried) ∧
      ∀ use, k.decryptFirst given = .error (.noPasswords use) ↔ given = [] ∧ use = .key := by
  refine ⟨firstSuccessM_id attempt _ passwords, fun outcome tried => run_noting_eq_iff,
    fun outcome => firstSuccess_eq_iff, ?_, ?_⟩
  · rintro earlier more rest rfl failed decides
    exact firstSuccess_insert failed decides
  · intro k given
    exact ⟨fun outcome => firstSuccess_eq_iff, decryptFirst_eq_noPasswords_iff k given⟩

section Samples
attribute [local instance] Platform.standard

/-- Outcomes with five passwords, the fourth of which works. -/
def sampleOutcomes : List (Except Fault Nat) :=
  [.error .badDecrypt, .error (.decryption "cut short"), .error (.invalidKey .notPkcs8), .ok 1,
   .error (.mishap .badValue)]

/-- The fourth password decides, the fifth is not tried, and the first three make no difference. If
no password works, the failure is that of the last one that is plainly wrong. -/
theorem sample_first_working_decides :
    (firstSuccessM (noting id) ⟨none, none⟩ sampleOutcomes).run [] =
      (.ok 1, sampleOutcomes.take 4) ∧
    firstSuccess id ⟨none, none⟩ sampleOutcomes =
      firstSuccess id ⟨none, none⟩ (sampleOutcomes.drop 3) ∧
    firstSuccess id ⟨none, none⟩ (sampleOutcomes.take 3) = .error (.decryption "cut short") := by
  obtain ⟨-, hends, -⟩ := first_working_password_decides id sampleOutcomes
  obtain ⟨-, -, -, hinsert, -⟩ := first_working_password_decides id (sampleOutcomes.drop 3)
  obtain ⟨-, -, hfails, -⟩ := first_working_password_decides id (sampleOutcomes.take 3)
  have decided : Settles id sampleOutcomes (.ok 1) (sampleOutcomes.take 4) := by
    have failed : ∀ p ∈ sampleOutcomes.take 3, mendable (id p) = true := by decide
    exact .decided failed rfl
  have wrong : Settles id (sampleOutcomes.take 3) (.error (.decryption "cut short"))
      (sampleOutcomes.take 3) := by
    have failed : ∀ p ∈ sampleOutcomes.take 1 ++ (sampleOutcomes.drop 1).take 2,
      mendable (id p) = true := by decide
    exact .wrong failed rfl (List.forall_mem_singleton.mpr nofun)
  refine ⟨(hends _ _).mpr decided, ?_, (hfails _).mpr ⟨_, wrong⟩⟩
  exact hinsert [] (sampleOutcomes.take 3) (sampleOutcomes.drop 3) rfl (by decide)
    ⟨.ok 1, List.mem_cons_self, rfl⟩

end Samples

end PackageSigning.EncryptedKey
