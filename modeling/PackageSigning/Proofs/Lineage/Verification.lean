import Mathlib.Data.List.Chain
import PackageSigning.Lineage
import PackageSigning.Proofs.Notary
import PackageSigning.Proofs.Outcome

/-!
# What verified lineages are

`Lineage.verify` accepts a list of nodes exactly when no certificate comes twice, the
first node is unsigned, each node is linked to the one before it (`Linked`), and the
last node names no algorithm. None of this looks at the flags of a node, so granting
capabilities neither makes nor breaks a verified lineage.
-/

namespace PackageSigning

namespace Notary

@[simp] theorem algorithm_id (a : SignatureAlgorithm) : algorithm a.id = .ok a := by
  cases a <;> rfl

/-- No algorithm has the number zero. -/
theorem algorithm_zero_ne_ok (a : SignatureAlgorithm) : algorithm 0 ≠ .ok a := by
  intro h
  cases h

theorem checkWith_eq_true {n : Notary} {key : PublicKey} {id : Int} {signature message : Bytes} :
    n.checkWith key id signature message = .ok true ↔ ∃ a, algorithm id = .ok a ∧
      key.signingKind? = some a.kind ∧ n.check a key signature message = .ok true := by
  unfold checkWith
  rw [bind_eq_ok]
  refine exists_congr fun a => and_congr_right fun _ => ?_
  split
  · next h => simp [h]
  · next h => simp [h, pure, Except.pure]

end Notary

namespace Lineage

/-- The signature of a node checks with the key of a certificate. -/
def SignedBy (notary : Notary) (parent : Certificate) (n : LineageNode) : Prop :=
  ∃ key statement, notary.publicKey parent = .ok key ∧ n.signedData = .ok statement ∧
    notary.checkWith key n.parentAlgorithm n.signature statement = .ok true

/-- A node follows another one: it names that one's algorithm, and its signature checks
with the key of that one's certificate. -/
def Linked (notary : Notary) (p n : LineageNode) : Prop :=
  n.parentAlgorithm = p.algorithm ∧ SignedBy notary p.certificate n

variable {notary : Notary}

theorem asFormat_eq_ok {result : Except Fault Bool} {v : Bool} :
    asFormat result = .ok v ↔ result = .ok v := by
  unfold asFormat
  split
  · simp
  · rfl

theorem checkLink_eq_ok {i : Nat} {p n : LineageNode} :
    checkLink notary i p n = .ok () ↔ Linked notary p n := by
  unfold checkLink Linked SignedBy
  simp only [refuse_if_eq_ok, bind_eq_ok, asFormat_eq_ok, Decidable.not_not]
  constructor
  · rintro ⟨ha, key, hk, st, hs, valid, hv, h⟩
    cases valid with
    | false => cases h
    | true => exact ⟨ha, key, st, hk, hs, hv⟩
  · rintro ⟨ha, key, st, hk, hs, hv⟩
    exact ⟨ha, key, hk, st, hs, true, hv, rfl⟩

/-- Nothing follows a node without an algorithm. -/
theorem Linked.algorithm_ne_zero {p n : LineageNode} (h : Linked notary p n) : p.algorithm ≠ 0 := by
  obtain ⟨ha, key, st, _, _, hc⟩ := h
  intro h0
  obtain ⟨a, hid, _⟩ := Notary.checkWith_eq_true.mp hc
  rw [ha, h0] at hid
  exact Notary.algorithm_zero_ne_ok a hid

theorem checkFirst_eq_ok {n : LineageNode} :
    checkFirst n = .ok () ↔ n.parentAlgorithm = 0 ∧ n.signature = [] := by
  unfold checkFirst
  split <;> simp [*]

theorem checkLast_eq_ok {o : Option LineageNode} :
    checkLast o = .ok () ↔ ∀ n ∈ o, n.algorithm = 0 := by
  cases o with
  | none => simp [checkLast]
  | some n => by_cases h : n.algorithm = 0 <;> simp [checkLast, h]

/-- The nodes behind a node `p`, with encodings `seen` before them. -/
theorem verifyFrom_some_eq_ok {i : Nat} {seen : List Bytes} {p : LineageNode}
    {nodes : List LineageNode} :
    verifyFrom notary i seen (some p) nodes = .ok () ↔
      (∀ n ∈ nodes, n.certificate.der ∉ seen) ∧ (nodes.map (·.certificate.der)).Nodup ∧
      (p :: nodes).IsChain (Linked notary) ∧ ∀ n ∈ (p :: nodes).getLast?, n.algorithm = 0 := by
  -- each node passed joins `seen` and becomes `p` for the next one
  induction nodes generalizing i seen p with
  | nil => simp [verifyFrom, checkLast_eq_ok]
  | cons n rest ih =>
    simp only [verifyFrom, refuse_if_eq_ok, check_bind_eq_ok, checkLink_eq_ok, ih,
      List.contains_iff_mem, List.isChain_cons_cons, List.map_cons, List.nodup_cons,
      List.mem_cons, List.getLast?_cons_cons]
    constructor
    · rintro ⟨hn, hl, hseen, hnd, hch, hlast⟩
      refine ⟨?_, ⟨?_, hnd⟩, ⟨hl, hch⟩, hlast⟩
      · rintro m (rfl | hm)
        · exact hn
        · exact fun h => hseen m hm (.inr h)
      · intro h
        obtain ⟨m, hm, he⟩ := List.mem_map.mp h
        exact hseen m hm (.inl he)
    · rintro ⟨hseen, ⟨hn, hnd⟩, ⟨hl, hch⟩, hlast⟩
      refine ⟨hseen n (.inl rfl), hl, ?_, hnd, hch, hlast⟩
      rintro m hm (he | h)
      · exact hn (List.mem_map.mpr ⟨m, hm, he⟩)
      · exact hseen m (.inr hm) h

theorem verify_eq_ok {nodes : List LineageNode} :
    verify notary nodes = .ok () ↔ (nodes.map (·.certificate.der)).Nodup ∧
      (∀ n ∈ nodes.head?, n.parentAlgorithm = 0 ∧ n.signature = []) ∧
      nodes.IsChain (Linked notary) ∧ ∀ n ∈ nodes.getLast?, n.algorithm = 0 := by
  unfold verify
  cases nodes with
  | nil => simp [verifyFrom, checkLast_eq_ok]
  | cons n rest =>
    simp only [verifyFrom, refuse_if_eq_ok, check_bind_eq_ok, checkFirst_eq_ok, verifyFrom_some_eq_ok,
      List.map_cons, List.nodup_cons, List.head?_cons, Option.mem_some]
    constructor
    · rintro ⟨-, hfirst, hseen, hnd, hch, hlast⟩
      refine ⟨⟨?_, hnd⟩, ?_, hch, hlast⟩
      · intro h
        obtain ⟨m, hm, he⟩ := List.mem_map.mp h
        exact hseen m hm (List.mem_singleton.mpr he)
      · rintro m rfl; exact hfirst
    · rintro ⟨⟨hn, hnd⟩, hfirst, hch, hlast⟩
      refine ⟨by simp, hfirst n rfl, ?_, hnd, hch, hlast⟩
      intro m hm h
      exact hn (List.mem_map.mpr ⟨m, hm, List.mem_singleton.mp h⟩)

end Lineage
end PackageSigning
