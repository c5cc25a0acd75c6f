import PackageSigning.Signer.FromStore

/-!
# Unlocking a key with passwords in turn

The first password decides that does not leave the key locked, and no password behind it is
tried (`KeystoreKind.tried`). Which passwords are tried is told by whether it matters what the
store makes of them: what it makes of others makes no difference (`settled_congr`), and a tried
one that unlocks the key decides (`settled_answering`).
-/

namespace PackageSigning

namespace KeystoreKind
variable {σ : Type} (kind : KeystoreKind σ) (state : σ) (name : EntryName)

/-- Whether a password leaves the key of an entry locked. -/
def locks (password : Bytes) : Bool :=
  match kind.key state name (some password) with
  | .error (.lockedKey _) => true
  | _ => false

/-- The passwords that are tried, of those that there are: up to the first that does not leave
the key locked. -/
def tried : List Bytes → List Bytes
  | [] => []
  | password :: rest => password :: if kind.locks state name password then tried rest else []

/-- What passwords in turn come to. The first that does not leave the key locked decides. When
all of them do, the entry and the store are named; to have none is a fault of its own. -/
def settled (store : String) (passwords : List Bytes) : Except Fault (Option PrivateKey) :=
  match passwords.find? fun p => !kind.locks state name p with
  | some password => kind.key state name (some password)
  | none =>
    if passwords.isEmpty then .error (.noPasswords .key)
    else .error (.lockedKey (.keyFrom name.shown store))

/-- The kind of keystore that makes something of its own of one password. -/
def answering (password : Bytes) (answer : Except Fault (Option PrivateKey)) : KeystoreKind σ :=
  { kind with key := fun s n p => if p = some password then answer else kind.key s n p }

variable {kind state name}

theorem nameLocked_of_not_locks {password : Bytes} (store entry : String)
    (h : kind.locks state name password = false) :
    (kind.key state name (some password)).mapError (SignerSettings.nameLocked store entry) =
      kind.key state name (some password) := by
  unfold locks at h
  generalize kind.key state name (some password) = outcome at h ⊢
  cases outcome with
  | ok key => rfl
  | error fault =>
    cases fault with
    | lockedKey problem => cases h
    | _ => rfl

theorem nameLocked_of_locks {password : Bytes} (store : String)
    (h : kind.locks state name password = true) :
    (kind.key state name (some password)).mapError (SignerSettings.nameLocked store name.shown) =
      .error (.lockedKey (.keyFrom name.shown store)) := by
  unfold locks at h
  generalize kind.key state name (some password) = outcome at h ⊢
  cases outcome with
  | ok key => cases h
  | error fault =>
    cases fault with
    | lockedKey problem => rfl
    | _ => cases h

/-- The first password decides, unless it leaves the key locked and there are more. -/
theorem recoverKey_cons (kind : KeystoreKind σ) (state : σ) (name : EntryName) (password : Bytes)
    (rest : List Bytes) :
    kind.recoverKey state name (password :: rest) =
      if kind.locks state name password = true ∧ rest ≠ [] then kind.recoverKey state name rest
      else kind.key state name (some password) := by
  cases rest with
  | nil => simp [recoverKey]
  | cons next rest =>
    rw [recoverKey]
    · unfold locks
      generalize kind.key state name (some password) = outcome
      cases outcome with
      | ok key => simp
      | error fault => cases fault <;> simp
    · exact List.cons_ne_nil next rest

theorem settled_cons (store : String) (password : Bytes) (rest : List Bytes) :
    kind.settled state name store (password :: rest) =
      if kind.locks state name password = true then
        if rest = [] then .error (.lockedKey (.keyFrom name.shown store))
        else kind.settled state name store rest
      else kind.key state name (some password) := by
  unfold settled
  cases h : kind.locks state name password with
  | false => simp [h]
  | true => cases rest <;> simp [h]

/-- Recovering a key is settled by the first password that does not leave it locked. -/
theorem recoverKey_settled (kind : KeystoreKind σ) (state : σ) (name : EntryName) (store : String)
    (passwords : List Bytes) :
    (kind.recoverKey state name passwords).mapError (SignerSettings.nameLocked store name.shown) =
      kind.settled state name store passwords := by
  induction passwords with
  | nil => rfl
  | cons password rest ih =>
    rw [recoverKey_cons, settled_cons]
    cases h : kind.locks state name password with
    | false => simpa using nameLocked_of_not_locks store name.shown h
    | true =>
      by_cases hrest : rest = []
      · simpa [hrest] using nameLocked_of_locks store h
      · simpa [hrest] using ih

theorem locks_iff {password : Bytes} : kind.locks state name password = true ↔
    ∃ problem, kind.key state name (some password) = .error (.lockedKey problem) := by
  unfold locks
  generalize kind.key state name (some password) = outcome
  cases outcome with
  | ok key => simp
  | error fault => cases fault <;> simp

/-- Recovering a key leaves it locked when every password does. -/
theorem recoverKey_locked_iff {passwords : List Bytes} (hne : passwords ≠ []) :
    (∃ problem, kind.recoverKey state name passwords = .error (.lockedKey problem)) ↔
      passwords.all (kind.locks state name) = true := by
  induction passwords with
  | nil => exact absurd rfl hne
  | cons password rest ih =>
    rw [recoverKey_cons, List.all_cons]
    by_cases hrest : rest = []
    · simp [hrest, locks_iff]
    · cases hpassword : kind.locks state name password with
      | false =>
        have unlocked : ¬∃ problem, kind.key state name (some password) =
            .error (.lockedKey problem) := by
          simp [← locks_iff, hpassword]
        simpa using unlocked
      | true => simpa [hrest] using ih hrest

/-! ## Which passwords are tried -/

theorem locks_answering (password : Bytes) (key : Option PrivateKey) (p : Bytes) :
    (kind.answering password (.ok key)).locks state name p =
      (!(p == password) && kind.locks state name p) := by
  unfold locks answering
  by_cases h : p = password
  · simp [h]
  · simp [h]

theorem tried_of_locks {passwords : List Bytes}
    (h : ∀ p ∈ passwords, kind.locks state name p = true) :
    kind.tried state name passwords = passwords := by
  induction passwords with
  | nil => rfl
  | cons password rest ih =>
    obtain ⟨hpassword, hrest⟩ := List.forall_mem_cons.mp h
    rw [tried, if_pos hpassword, ih hrest]

theorem mem_of_mem_tried {password : Bytes} {passwords : List Bytes}
    (h : password ∈ kind.tried state name passwords) : password ∈ passwords := by
  induction passwords with
  | nil => exact h
  | cons first rest ih =>
    unfold tried at h
    obtain rfl | h := List.mem_cons.mp h
    · exact List.mem_cons_self
    · split at h
      · exact List.mem_cons_of_mem first (ih h)
      · cases h

/-- Two kinds of keystore that make the same of the passwords that are tried settle alike. -/
theorem settled_congr {other : KeystoreKind σ} {passwords : List Bytes} (store : String)
    (h : ∀ p ∈ kind.tried state name passwords,
      other.key state name (some p) = kind.key state name (some p)) :
    other.settled state name store passwords = kind.settled state name store passwords ∧
      passwords.all (other.locks state name) = passwords.all (kind.locks state name) := by
  induction passwords with
  | nil => exact ⟨rfl, rfl⟩
  | cons password rest ih =>
    obtain ⟨hpassword, hrest⟩ := List.forall_mem_cons.mp h
    have hlocks : other.locks state name password = kind.locks state name password := by
      unfold locks
      rw [hpassword]
    rw [settled_cons, settled_cons, List.all_cons, List.all_cons, hlocks, hpassword]
    cases hlocked : kind.locks state name password with
    | false => simp
    | true =>
      rw [if_pos hlocked] at hrest
      obtain ⟨hsettled, hall⟩ := ih hrest
      rw [hsettled, hall]
      exact ⟨rfl, rfl⟩

/-- A password that is tried decides, if it unlocks the key. -/
theorem settled_answering {password : Bytes} {passwords : List Bytes} (store : String)
    (key : Option PrivateKey) (h : password ∈ kind.tried state name passwords) :
    (kind.answering password (.ok key)).settled state name store passwords = .ok key := by
  induction passwords with
  | nil => cases h
  | cons first rest ih =>
    rw [settled_cons, locks_answering]
    by_cases heq : first = password
    · subst heq
      simp [answering]
    · have hlater : password ∈ if kind.locks state name first = true
          then kind.tried state name rest else [] :=
        (List.mem_cons.mp h).resolve_left (Ne.symm heq)
      split at hlater
      · next hlocked =>
        have hne : rest ≠ [] := by
          rintro rfl
          cases hlater
        simpa [heq, hlocked, hne] using ih hlater
      · cases hlater

end KeystoreKind
end PackageSigning
