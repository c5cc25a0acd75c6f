import Mathlib.Data.List.Nodup
import PackageSigning.Proofs.Failure
import PackageSigning.Proofs.Lineage.Verification
import PackageSigning.Proofs.Notary.Recorded

/-!
# Which lineages are rejected, and as what

Verifying goes from node to node and stops at the first one that its front, the nodes before
it, does not go with (`verify_eq_error`). What it objects to is a fault of the format, unless
the node cannot be asked: the key of the signer before cannot be extracted, the statement to
sign cannot be written, or the key cannot be used (`verify_eq_mishap`). Where keys are
extracted and used, the statement is left: an algorithm number that does not fit its field is
no fault of the format, though a number that stands for no algorithm is one
(`verify_accepts_well_formed`).
-/

namespace PackageSigning

/-! ## What a node cannot be asked for -/

namespace LineageField

theorem number_eq_error {n : Int} {fault : Fault} :
    number n = .error fault ↔ ¬(0 ≤ n ∧ n < bound) ∧ fault = .mishap .doesNotFit := by
  unfold number
  split
  · next h => simp [h]
  · next h => simp [h, eq_comm]

theorem counted_eq_error {b : Bytes} {fault : Fault} :
    counted b = .error fault ↔ bound ≤ b.length ∧ fault = .mishap .doesNotFit := by
  have hfit : ¬(0 ≤ (b.length : Int) ∧ (b.length : Int) < bound) ↔ bound ≤ b.length := by omega
  unfold counted
  rw [bind_eq_error, number_eq_error, hfit]
  constructor
  · rintro (h | ⟨_, _, h⟩)
    · exact h
    · cases h
  · exact .inl

end LineageField

open LineageField in
/-- A statement that cannot be written: its certificate is too long, or its algorithm's number
does not fit. -/
theorem LineageNode.statement_eq_error {c : Certificate} {a : Int} {fault : Fault} :
    LineageNode.statement c a = .error fault ↔
      ¬(c.der.length < bound ∧ 0 ≤ a ∧ a < bound) ∧ fault = .mishap .doesNotFit := by
  unfold LineageNode.statement
  simp only [bind_eq_error, counted_eq_error, number_eq_error]
  constructor
  · rintro (⟨h, rfl⟩ | ⟨_, _, ⟨h, rfl⟩ | ⟨_, _, h⟩⟩)
    · exact ⟨fun hfit => absurd hfit.1 (Nat.not_lt.mpr h), rfl⟩
    · exact ⟨fun hfit => h hfit.2, rfl⟩
    · cases h
  · rintro ⟨h, rfl⟩
    by_cases hlen : bound ≤ c.der.length
    · exact .inl ⟨hlen, rfl⟩
    · have hlt := Nat.not_le.mp hlen
      obtain ⟨d, hd⟩ : ∃ d, counted c.der = .ok d := by
        cases hd : counted c.der with
        | ok d => exact ⟨d, rfl⟩
        | error fault => exact absurd (counted_eq_error.mp hd).1 hlen
      exact .inr ⟨d, hd, .inl ⟨fun hfit => h ⟨hlt, hfit⟩, rfl⟩⟩

namespace Notary
variable {notary : Notary}

/-- An algorithm is told by its number. -/
theorem algorithm_eq_ok {id : Int} {a : SignatureAlgorithm} :
    algorithm id = .ok a ↔ (a.id : Int) = id := by
  constructor
  · intro h
    unfold algorithm at h
    split at h
    · next b hb =>
      cases h
      unfold SignatureAlgorithm.ofId? at hb
      have hid := List.find?_some hb
      exact of_decide_eq_true hid
    · cases h
  · rintro rfl
    exact algorithm_id a

/-- A number that stands for no algorithm is a problem of the lineage. -/
theorem algorithm_fails {id : Int} {fault : Fault} (h : algorithm id = .error fault) :
    fault = .lineage (.unknownAlgorithm id) := by
  unfold algorithm at h
  split at h
  · cases h
  · cases h
    rfl

theorem checkWith_eq_mishap {key : PublicKey} {id : Int} {signature message : Bytes} {m : Mishap} :
    notary.checkWith key id signature message = .error (.mishap m) ↔
      ∃ a : SignatureAlgorithm, (a.id : Int) = id ∧ key.signingKind? = some a.kind ∧
        notary.check a key signature message = .error (.mishap m) := by
  unfold checkWith
  rw [bind_eq_error]
  simp only [algorithm_eq_ok]
  constructor
  · rintro (h | ⟨a, ha, h⟩)
    · cases algorithm_fails h
    · split at h
      · next hkind => exact ⟨a, ha, hkind, h⟩
      · cases h
  · rintro ⟨a, ha, hkind, h⟩
    refine .inr ⟨a, ha, ?_⟩
    rw [if_pos hkind]
    exact h

end Notary

namespace Lineage
variable {notary : Notary} {m : Mishap}

theorem asFormat_eq_mishap {result : Except Fault Bool} :
    asFormat result = .error (.mishap m) ↔ result = .error (.mishap m) := by
  unfold asFormat
  split
  · simp
  · rfl

/-- The key of a node is of no use for the node behind it: it cannot be extracted, or it cannot
check a signature with the algorithm, though it is a key of that kind. -/
inductive KeyFails (notary : Notary) (p n : LineageNode) (m : Mishap) : Prop
  | extracting (h : notary.publicKey p.certificate = .error (.mishap m))
  | checking {key : PublicKey} {st : Bytes} {a : SignatureAlgorithm}
      (hkey : notary.publicKey p.certificate = .ok key) (hst : n.signedData = .ok st)
      (ha : (a.id : Int) = n.parentAlgorithm) (hkind : key.signingKind? = some a.kind)
      (h : notary.check a key n.signature st = .error (.mishap m))

/-- The statement of a node cannot be written, though there is a key to check it with. -/
def StatementFails (notary : Notary) (p n : LineageNode) (m : Mishap) : Prop :=
  ∃ key, notary.publicKey p.certificate = .ok key ∧ n.signedData = .error (.mishap m)

/-- A link comes to a mishap when the two nodes agree on the algorithm and the later one cannot be
checked. -/
theorem checkLink_eq_mishap {i : Nat} {p n : LineageNode} :
    checkLink notary i p n = .error (.mishap m) ↔ n.parentAlgorithm = p.algorithm ∧
      (KeyFails notary p n m ∨ StatementFails notary p n m) := by
  unfold checkLink
  simp only [refuse_if_eq_error, bind_eq_error, asFormat_eq_mishap, Decidable.not_not]
  constructor
  · rintro (⟨_, h⟩ | ⟨ha, hkey | ⟨key, hkey, hst | ⟨st, hst, hcheck | ⟨valid, _, h⟩⟩⟩⟩)
    · cases h
    · exact ⟨ha, .inl (.extracting hkey)⟩
    · exact ⟨ha, .inr ⟨key, hkey, hst⟩⟩
    · obtain ⟨a, hid, hkind, hcheck⟩ := Notary.checkWith_eq_mishap.mp hcheck
      exact ⟨ha, .inl (.checking hkey hst hid hkind hcheck)⟩
    · cases valid <;> cases h
  · rintro ⟨ha, (h | ⟨hkey, hst, hid, hkind, h⟩) | ⟨key, hkey, h⟩⟩
    · exact .inr ⟨ha, .inl h⟩
    · have hcheck := Notary.checkWith_eq_mishap.mpr ⟨_, hid, hkind, h⟩
      exact .inr ⟨ha, .inr ⟨_, hkey, .inr ⟨_, hst, .inl hcheck⟩⟩⟩
    · exact .inr ⟨ha, .inr ⟨key, hkey, .inl h⟩⟩

/-! ## One node after the other -/

/-- What verifying checks of a node behind some others. -/
def checkBehind (notary : Notary) (front : List LineageNode) (n : LineageNode) :
    Except Fault Unit := do
  if (front.reverse.map (·.certificate.der)).contains n.certificate.der then
    throw (.lineageFormat (.duplicateCertificate front.length))
  match front.getLast? with
  | none => checkFirst n
  | some p => checkLink notary front.length p n

theorem checkBehind_eq_ok {front : List LineageNode} {n : LineageNode} :
    checkBehind notary front n = .ok () ↔ n.certificate.der ∉ front.map (·.certificate.der) ∧
      (front = [] → n.parentAlgorithm = 0 ∧ n.signature = []) ∧
      ∀ p ∈ front.getLast?, Linked notary p n := by
  unfold checkBehind
  rw [refuse_if_eq_ok, List.contains_iff_mem, List.map_reverse, List.mem_reverse]
  refine and_congr_right fun _ => ?_
  rcases List.eq_nil_or_concat' front with rfl | ⟨front, p, rfl⟩
  · simp [checkFirst_eq_ok]
  · simp [checkLink_eq_ok]

/-- What can come to a mishap is the link to the last one of the others. -/
theorem checkBehind_eq_mishap {front : List LineageNode} {n : LineageNode} :
    checkBehind notary front n = .error (.mishap m) ↔
      n.certificate.der ∉ front.map (·.certificate.der) ∧ ∃ p ∈ front.getLast?,
        n.parentAlgorithm = p.algorithm ∧ (KeyFails notary p n m ∨ StatementFails notary p n m) := by
  have hfirst : checkFirst n ≠ .error (.mishap m) := by
    unfold checkFirst
    split <;> nofun
  unfold checkBehind
  simp only [refuse_if_eq_error, List.contains_iff_mem, List.map_reverse, List.mem_reverse]
  rcases List.eq_nil_or_concat' front with rfl | ⟨front, p, rfl⟩
  · simp [hfirst]
  · simp [checkLink_eq_mishap]

/-- Verifying nodes behind some others that have been checked. -/
def verifyBehind (notary : Notary) (front rest : List LineageNode) : Except Fault Unit :=
  verifyFrom notary front.length (front.reverse.map (·.certificate.der)) front.getLast? rest

theorem verifyBehind_nil (front : List LineageNode) :
    verifyBehind notary front [] = checkLast front.getLast? := rfl

theorem verifyBehind_cons (front : List LineageNode) (n : LineageNode) (rest : List LineageNode) :
    verifyBehind notary front (n :: rest) =
      checkBehind notary front n >>= fun _ => verifyBehind notary (front ++ [n]) rest := by
  simp only [verifyBehind, verifyFrom, checkBehind, List.length_append, List.length_singleton,
    List.reverse_append, List.reverse_singleton, List.singleton_append, List.map_cons,
    List.getLast?_concat]
  split
  · rfl
  · cases front.getLast? <;> rfl

/-- Nodes that nothing is wrong with so far: the certificates are distinct, nobody signed the
first node, and each one follows the one before. -/
structure Sound (notary : Notary) (nodes : List LineageNode) : Prop where
  distinct : (nodes.map (·.certificate.der)).Nodup
  first : ∀ n ∈ nodes.head?, n.parentAlgorithm = 0 ∧ n.signature = []
  links : nodes.IsChain (Linked notary)

theorem Sound.nil : Sound notary [] := ⟨List.nodup_nil, nofun, List.isChain_nil⟩

/-- A node can be added to sound ones exactly when its check passes. -/
theorem sound_concat {front : List LineageNode} {n : LineageNode} :
    Sound notary (front ++ [n]) ↔ Sound notary front ∧ checkBehind notary front n = .ok () := by
  have hdistinct : ((front ++ [n]).map (·.certificate.der)).Nodup ↔
      (front.map (·.certificate.der)).Nodup ∧
        n.certificate.der ∉ front.map (·.certificate.der) := by
    rw [List.map_append, List.map_singleton, List.nodup_append_comm, List.singleton_append,
      List.nodup_cons, and_comm]
  have hfirst : (∀ x ∈ (front ++ [n]).head?, x.parentAlgorithm = 0 ∧ x.signature = []) ↔
      (∀ x ∈ front.head?, x.parentAlgorithm = 0 ∧ x.signature = []) ∧
      (front = [] → n.parentAlgorithm = 0 ∧ n.signature = []) := by
    cases front <;> simp
  have hlinks : (front ++ [n]).IsChain (Linked notary) ↔
      front.IsChain (Linked notary) ∧ ∀ p ∈ front.getLast?, Linked notary p n := by
    rw [List.isChain_append]
    simp
  rw [checkBehind_eq_ok]
  constructor
  · rintro ⟨hd, hf, hl⟩
    obtain ⟨hd, hnew⟩ := hdistinct.mp hd
    obtain ⟨hf, hn⟩ := hfirst.mp hf
    obtain ⟨hl, hlink⟩ := hlinks.mp hl
    exact ⟨⟨hd, hf, hl⟩, hnew, hn, hlink⟩
  · rintro ⟨⟨hd, hf, hl⟩, hnew, hn, hlink⟩
    exact ⟨hdistinct.mpr ⟨hd, hnew⟩, hfirst.mpr ⟨hf, hn⟩, hlinks.mpr ⟨hl, hlink⟩⟩

/-- Sound nodes are passed. -/
theorem verify_append {front : List LineageNode} (h : Sound notary front)
    (rest : List LineageNode) : verify notary (front ++ rest) = verifyBehind notary front rest := by
  -- one node after the other goes from the rest to the front
  induction front using List.reverseRecOn generalizing rest with
  | nil => rfl
  | append_singleton front n ih =>
    obtain ⟨hfront, hn⟩ := sound_concat.mp h
    rw [List.append_assoc, List.singleton_append, ih hfront, verifyBehind_cons, hn]
    rfl

theorem verify_of_sound {nodes : List LineageNode} (h : Sound notary nodes) :
    verify notary nodes = checkLast nodes.getLast? := by
  rw [← @verifyBehind_nil notary, ← verify_append h, List.append_nil]

/-- Nodes that are not sound have a first one whose check fails. -/
theorem sound_or_fails (notary : Notary) (nodes : List LineageNode) :
    Sound notary nodes ∨ ∃ front n back fault, nodes = front ++ n :: back ∧ Sound notary front ∧
      checkBehind notary front n = .error fault := by
  induction nodes using List.reverseRecOn with
  | nil => exact .inl .nil
  | append_singleton nodes n ih =>
    rcases ih with hsound | ⟨front, x, back, fault, rfl, hfront, hx⟩
    · cases hn : checkBehind notary nodes n with
      | ok u => exact .inl (sound_concat.mpr ⟨hsound, hn⟩)
      | error fault => exact .inr ⟨nodes, n, [], fault, rfl, hsound, hn⟩
    · refine .inr ⟨front, x, back ++ [n], fault, ?_, hfront, hx⟩
      rw [List.append_assoc, List.cons_append]

/-- What verifying fails with, the first node with something wrong has failed with, or else the
end of the nodes has. -/
theorem verify_eq_error {nodes : List LineageNode} {fault : Fault} :
    verify notary nodes = .error fault ↔
      (∃ front n back, nodes = front ++ n :: back ∧ Sound notary front ∧
        checkBehind notary front n = .error fault) ∨
      (Sound notary nodes ∧ checkLast nodes.getLast? = .error fault) := by
  have hfails {front back : List LineageNode} {n : LineageNode} {fault : Fault}
      (h : Sound notary front) (hn : checkBehind notary front n = .error fault) :
      verify notary (front ++ n :: back) = .error fault := by
    rw [verify_append h, verifyBehind_cons, hn]
    rfl
  constructor
  · intro h
    rcases sound_or_fails notary nodes with hsound | ⟨front, n, back, first, rfl, hfront, hn⟩
    · rw [verify_of_sound hsound] at h
      exact .inr ⟨hsound, h⟩
    · obtain rfl : first = fault := Except.error.inj ((hfails hfront hn).symm.trans h)
      exact .inl ⟨front, n, back, rfl, hfront, hn⟩
  · rintro (⟨front, n, back, rfl, hfront, hn⟩ | ⟨hsound, h⟩)
    · exact hfails hfront hn
    · rw [verify_of_sound hsound]
      exact h

/-! ## Mishaps, and what is left -/

/-- Verifying comes to a mishap when the first node with something wrong is a new one that agrees
with the one before on the algorithm, and cannot be checked. -/
theorem verify_eq_mishap {nodes : List LineageNode} :
    verify notary nodes = .error (.mishap m) ↔ ∃ front p n back, nodes = front ++ p :: n :: back ∧
      Sound notary (front ++ [p]) ∧ n.certificate.der ∉ (front ++ [p]).map (·.certificate.der) ∧
      n.parentAlgorithm = p.algorithm ∧ (KeyFails notary p n m ∨ StatementFails notary p n m) := by
  have hlast (o : Option LineageNode) : checkLast o ≠ .error (.mishap m) := by
    unfold checkLast
    split
    · split <;> nofun
    · nofun
  have happend (front : List LineageNode) (p n : LineageNode) (back : List LineageNode) :
      front ++ p :: n :: back = (front ++ [p]) ++ n :: back := by
    rw [List.append_assoc, List.singleton_append]
  rw [verify_eq_error]
  simp only [hlast, and_false, or_false, checkBehind_eq_mishap]
  constructor
  · rintro ⟨front, n, back, rfl, hfront, hnew, p, hp, h⟩
    obtain ⟨front, rfl⟩ := List.getLast?_eq_some_iff.mp hp
    exact ⟨front, p, n, back, (happend ..).symm, hfront, hnew, h⟩
  · rintro ⟨front, p, n, back, rfl, hfront, hnew, h⟩
    exact ⟨front ++ [p], n, back, happend .., hfront, hnew, p, List.getLast?_concat .., h⟩

/-- A link fails as keys, statements and checks do, if it is not the format that is wrong. -/
theorem checkLink_fails {E : Fault → Prop} (format : ∀ problem, E (.lineageFormat problem))
    {i : Nat} {p n : LineageNode} (key : FailsOnly E (notary.publicKey p.certificate))
    (statement : FailsOnly E n.signedData)
    (checks : ∀ a key s st, FailsOnly E (notary.check a key s st)) :
    FailsOnly E (checkLink notary i p n) := by
  have hcheck (key : PublicKey) (st : Bytes) :
      FailsOnly E (asFormat (notary.checkWith key n.parentAlgorithm n.signature st)) := by
    unfold asFormat
    split
    · exact .error (format _)
    · next hproblem =>
      -- an algorithm that is not known has been dealt with
      intro fault h
      unfold Notary.checkWith at h
      rcases bind_eq_error.mp h with ha | ⟨a, ha, h⟩
      · obtain rfl := Notary.algorithm_fails ha
        refine absurd ?_ (hproblem (.unknownAlgorithm n.parentAlgorithm))
        unfold Notary.checkWith
        rw [ha]
        rfl
      · split at h
        · exact checks a key n.signature st fault h
        · cases h
  unfold checkLink
  split
  · exact .error (format _)
  · refine .bind key fun key _ => .bind statement fun st _ =>
      .bind (hcheck key st) fun valid _ => ?_
    split
    · exact .error (format _)
    · exact .ok _

theorem checkBehind_fails {E : Fault → Prop} (format : ∀ problem, E (.lineageFormat problem))
    {front : List LineageNode} {n : LineageNode}
    (keys : ∀ p ∈ front, FailsOnly E (notary.publicKey p.certificate))
    (statement : FailsOnly E n.signedData)
    (checks : ∀ a key s st, FailsOnly E (notary.check a key s st)) :
    FailsOnly E (checkBehind notary front n) := by
  have hfirst : FailsOnly E (checkFirst n) := by
    unfold checkFirst
    split
    · exact .ok _
    · exact .error (format _)
  intro fault h
  unfold checkBehind at h
  rcases refuse_if_eq_error.mp h with ⟨-, rfl⟩ | ⟨-, h⟩
  · exact format _
  · split at h
    · exact hfirst fault h
    · next p hp =>
      exact checkLink_fails format (keys p (List.mem_of_getLast? hp)) statement checks fault h

theorem checkLast_fails {E : Fault → Prop} (format : ∀ problem, E (.lineageFormat problem))
    (o : Option LineageNode) : FailsOnly E (checkLast o) := by
  unfold checkLast
  split
  · split
    · exact .ok _
    · exact .error (format _)
  · exact .ok _

/-- Verifying fails as keys, statements and checks do, if it is not the format that is wrong. -/
theorem verify_fails {E : Fault → Prop} (format : ∀ problem, E (.lineageFormat problem))
    {nodes : List LineageNode} (keys : ∀ n ∈ nodes, FailsOnly E (notary.publicKey n.certificate))
    (statements : ∀ n ∈ nodes, FailsOnly E n.signedData)
    (checks : ∀ a key s st, FailsOnly E (notary.check a key s st)) :
    FailsOnly E (verify notary nodes) := by
  intro fault h
  rcases verify_eq_error.mp h with ⟨front, n, back, rfl, -, h⟩ | ⟨-, h⟩
  · obtain ⟨hfront, hback⟩ := List.forall_mem_append.mp keys
    have hn : n ∈ front ++ n :: back := List.mem_append_right _ List.mem_cons_self
    exact checkBehind_fails format hfront (statements n hn) checks fault h
  · exact checkLast_fails format _ fault h

/-! ## Keys that can be asked -/

/-- What verifying is to accept, with the key of each certificate and the answers to signature
checks: distinct certificates, a first node that nobody signed, each other node signed with
the algorithm and the key of the one before, and a last node that signed nobody. -/
structure WellFormed (key : Certificate → PublicKey)
    (valid : SignatureAlgorithm → PublicKey → Bytes → Bytes → Bool) (nodes : List LineageNode) :
    Prop where
  distinct : (nodes.map (·.certificate.der)).Nodup
  first : ∀ n, nodes[0]? = some n → n.parentAlgorithm = 0 ∧ n.signature = []
  signed : ∀ i p n, nodes[i]? = some p → nodes[i + 1]? = some n →
    n.parentAlgorithm = p.algorithm ∧ ∃ (a : SignatureAlgorithm) (st : Bytes),
      (a.id : Int) = n.parentAlgorithm ∧ (key p.certificate).signingKind? = some a.kind ∧
      n.signedData = .ok st ∧ valid a (key p.certificate) n.signature st = true
  last : ∀ n, nodes.getLast? = some n → n.algorithm = 0

section Answers
variable {nodes : List LineageNode} {key : Certificate → PublicKey}
  {valid : SignatureAlgorithm → PublicKey → Bytes → Bytes → Bool}

/-- A link, where keys and checks come to something. -/
theorem linked_iff {p n : LineageNode}
    (hkey : notary.publicKey p.certificate = .ok (key p.certificate))
    (checks : ∀ a k s st, notary.check a k s st = .ok (valid a k s st)) :
    Linked notary p n ↔ n.parentAlgorithm = p.algorithm ∧ ∃ (a : SignatureAlgorithm) (st : Bytes),
      (a.id : Int) = n.parentAlgorithm ∧ (key p.certificate).signingKind? = some a.kind ∧
      n.signedData = .ok st ∧ valid a (key p.certificate) n.signature st = true := by
  unfold Linked SignedBy
  simp only [hkey, Except.ok.injEq, Notary.checkWith_eq_true, Notary.algorithm_eq_ok, checks]
  refine and_congr_right fun _ => ?_
  constructor
  · rintro ⟨_, st, rfl, hst, a, ha, hkind, hvalid⟩
    exact ⟨a, st, ha, hkind, hst, hvalid⟩
  · rintro ⟨a, st, ha, hkind, hst, hvalid⟩
    exact ⟨_, st, rfl, hst, a, ha, hkind, hvalid⟩

theorem verify_eq_ok_iff_wellFormed
    (keys : ∀ n ∈ nodes, notary.publicKey n.certificate = .ok (key n.certificate))
    (checks : ∀ a k s st, notary.check a k s st = .ok (valid a k s st)) :
    verify notary nodes = .ok () ↔ WellFormed key valid nodes := by
  have hlinked {i : Nat} {p n : LineageNode} (hp : nodes[i]? = some p) :=
    linked_iff (n := n) (keys p (List.mem_of_getElem? hp)) checks
  rw [verify_eq_ok, List.isChain_iff_getElem]
  constructor
  · rintro ⟨hdistinct, hfirst, hlinks, hlast⟩
    refine ⟨hdistinct, ?_, ?_, hlast⟩
    · intro n hn
      apply hfirst
      rw [List.head?_eq_getElem?]
      exact hn
    · intro i p n hp hn
      obtain ⟨hi, rfl⟩ := List.getElem?_eq_some_iff.mp hn
      obtain ⟨_, hp'⟩ := List.getElem?_eq_some_iff.mp hp
      refine (hlinked hp).mp ?_
      rw [← hp']
      exact hlinks i hi
  · rintro ⟨hdistinct, hfirst, hsigned, hlast⟩
    refine ⟨hdistinct, ?_, ?_, hlast⟩
    · intro n hn
      apply hfirst
      rw [← List.head?_eq_getElem?]
      exact hn
    · intro i hi
      have hp := List.getElem?_eq_getElem (Nat.lt_of_succ_lt hi)
      exact (hlinked hp).mpr (hsigned i _ _ hp (List.getElem?_eq_getElem hi))

/-- Where the keys of the certificates can be had and used, verifying accepts exactly what is well
formed. What it rejects is a fault of the format, or a number that does not fit: that is so
when what comes first is a new node that agrees with the one before on an algorithm whose
number no field of four bytes holds, or whose certificate is too long for a file. -/
theorem verify_accepts_well_formed
    (keys : ∀ n ∈ nodes, notary.publicKey n.certificate = .ok (key n.certificate))
    (checks : ∀ a k s st, notary.check a k s st = .ok (valid a k s st)) :
    (verify notary nodes = .ok () ↔ WellFormed key valid nodes) ∧
    (∀ fault, verify notary nodes = .error fault →
      (∃ problem, fault = .lineageFormat problem) ∨ fault = .mishap .doesNotFit) ∧
    (verify notary nodes = .error (.mishap .doesNotFit) ↔
      ∃ front p n back, nodes = front ++ p :: n :: back ∧ Sound notary (front ++ [p]) ∧
        n.certificate.der ∉ (front ++ [p]).map (·.certificate.der) ∧
        n.parentAlgorithm = p.algorithm ∧
        ¬(n.certificate.der.length < 0x100000000 ∧ 0 ≤ n.parentAlgorithm ∧
          n.parentAlgorithm < 0x100000000)) := by
  refine ⟨verify_eq_ok_iff_wellFormed keys checks, ?_, ?_⟩
  · refine verify_fails (fun problem => .inl ⟨problem, rfl⟩) ?_ ?_ ?_
    · intro n hn
      rw [keys n hn]
      exact .ok _
    · intro n _ fault h
      exact .inr (LineageNode.statement_eq_error.mp h).2
    · intro a k s st
      rw [checks]
      exact .ok _
  · rw [verify_eq_mishap]
    refine exists_congr fun front => exists_congr fun p => exists_congr fun n =>
      exists_congr fun back => and_congr_right fun hnodes => and_congr_right fun _ =>
      and_congr_right fun _ => and_congr_right fun _ => ?_
    have hkey := keys p (by rw [hnodes]; simp)
    -- keys and checks come to something, so it is the statement that cannot be written
    constructor
    · rintro ((h | ⟨_, _, _, _, h⟩) | ⟨_, _, h⟩)
      · rw [hkey] at h
        cases h
      · rw [checks] at h
        cases h
      · exact (LineageNode.statement_eq_error.mp h).1
    · intro h
      exact .inr ⟨_, hkey, LineageNode.statement_eq_error.mpr ⟨h, rfl⟩⟩

end Answers

/-- The keys of the certificates that a recorded notary reads. -/
def sampleKey (c : Certificate) : PublicKey :=
  (Sample.notary.publicKey c).toOption.getD Sample.handover.publicKey

/-- The answers of a recorded notary. -/
def sampleValid (a : SignatureAlgorithm) (key : PublicKey) (signature message : Bytes) : Bool :=
  (Sample.notary.check a key signature message).toOption.getD false

theorem sample_accepts_well_formed :
    (∀ n ∈ Sample.nodes, Sample.notary.publicKey n.certificate = .ok (sampleKey n.certificate)) ∧
    (∀ a k s st, Sample.notary.check a k s st = .ok (sampleValid a k s st)) ∧
    verify Sample.notary Sample.nodes = .ok () ∧
    WellFormed sampleKey sampleValid Sample.nodes := by
  have keys : ∀ n ∈ Sample.nodes,
      Sample.notary.publicKey n.certificate = .ok (sampleKey n.certificate) := by decide +kernel
  have checks : ∀ a k s st, Sample.notary.check a k s st = .ok (sampleValid a k s st) :=
    fun _ _ _ _ => rfl
  have verified : verify Sample.notary Sample.nodes = .ok () := by decide +kernel
  exact ⟨keys, checks, verified, (verify_accepts_well_formed keys checks).1.mp verified⟩

/-- Two nodes that agree on a number for their algorithm. -/
def sampleNumbered (id : Int) : List LineageNode :=
  [⟨Sample.older.certificate, 0, id, [], 0⟩, ⟨Sample.younger.certificate, id, 0, [], 0⟩]

/-- A number that stands for no algorithm is a fault of the format, but a larger one is not. -/
theorem sample_number_does_not_fit :
    (∀ n ∈ sampleNumbered 0x100000000,
      Sample.notary.publicKey n.certificate = .ok (sampleKey n.certificate)) ∧
    (∀ a k s st, Sample.notary.check a k s st = .ok (sampleValid a k s st)) ∧
    verify Sample.notary (sampleNumbered 0xffffffff) =
      .error (.lineageFormat (.check (.unknownAlgorithm 0xffffffff))) ∧
    ∃ fault, verify Sample.notary (sampleNumbered 0x100000000) = .error fault ∧
      ∀ problem, fault ≠ .lineageFormat problem :=
  ⟨by decide +kernel, fun _ _ _ _ => rfl, by decide +kernel, .mishap .doesNotFit,
    by decide +kernel, nofun⟩

end Lineage
end PackageSigning
