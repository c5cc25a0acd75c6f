import PackageSigning.Proofs.Rotation.Update

/-!
# What a rotation makes of a lineage

A rotation of a lineage that verifies is refused for a signer who is not in it, and, with
another fault, for one who is not its last. For the last signer all nodes but the last stay
as they are. The last one is told what it may still do and which algorithm it signed with,
and the new signer comes behind it (`extension_changes_only_the_tail`). Without a lineage
a rotation makes one of two nodes.
-/

namespace PackageSigning.Rotation
open Lineage

variable {notary : Notary} {old new : LineageSigner}
  {oldCapabilities newCapabilities : Capabilities} {minSdk : Int} {l : Lineage}
  {rest : List LineageNode} {last : LineageNode}

/-! ## Who the old signer is -/

theorem includes_iff {certificate : Certificate} :
    l.includes certificate = true ↔ ∃ n ∈ l.nodes, n.certificate.der = certificate.der := by
  unfold includes
  rw [List.any_eq_true]
  simp only [beq_iff_eq]

theorem rotate_of_not_includes (h : l.includes old.certificate = false) :
    rotate notary old new oldCapabilities newCapabilities (some l) minSdk =
      (.error (.signerNotInLineage old.displayName), some l) := by
  simp only [rotate, h, Bool.not_false, if_true]

theorem rotate_of_not_endsWith (h : l.includes old.certificate = true)
    (hends : ¬EndsWith l old.certificate) :
    rotate notary old new oldCapabilities newCapabilities (some l) minSdk =
      (.error (.lineageMismatch old.displayName), some l) := by
  unfold EndsWith at hends
  simp only [rotate, h, Bool.not_true, Bool.false_eq_true, if_false, ne_eq, hends,
    not_false_eq_true, if_true]

/-- In a lineage that verifies, a signer who is followed by another one is not the last. -/
theorem not_endsWith_of_followed {front back : List LineageNode} {n : LineageNode}
    {certificate : Certificate} (verified : verify notary l.nodes = .ok ())
    (hl : l.nodes = front ++ n :: back) (hn : n.certificate.der = certificate.der)
    (hback : back ≠ []) : ¬EndsWith l certificate := by
  intro hends
  obtain ⟨rest, last, hrest, hlast⟩ := endsWith_iff.mp hends
  have hothers := others_of_verified (hl ▸ verified)
  -- the last node is the last of those behind the signer's
  obtain ⟨back, final, rfl⟩ := (List.eq_nil_or_concat' back).resolve_left hback
  have heq : (front ++ n :: back) ++ [final] = rest ++ [last] := by
    rw [← hrest, hl, List.append_assoc, List.cons_append]
  obtain rfl : final = last := List.singleton_inj.mp (List.append_inj' heq rfl).2
  exact hothers final (by simp) (hlast.trans hn.symm)

/-! ## What the last signer hands over -/

/-- The node that a grant writes over is the last one, if that is the signer's. -/
theorem grant_of_last (verified : verify notary l.nodes = .ok ()) (hl : l.nodes = rest ++ [last])
    (hlast : last.certificate.der = old.certificate.der) :
    l.grant old.certificate old.displayName oldCapabilities =
      .ok ⟨rest ++ [last.granting oldCapabilities], l.minSdk⟩ := by
  refine grant_eq_ok.mpr ⟨rest, last, [], hl, ?_, hlast, rfl⟩
  intro m hm
  rw [← hlast]
  exact others_of_verified (hl ▸ verified) m (List.mem_append_left _ hm)

/-- A rotation that starts at the last signer comes to what the handover comes to. -/
theorem rotate_of_last (verified : verify notary l.nodes = .ok ()) (hl : l.nodes = rest ++ [last])
    (hlast : last.certificate.der = old.certificate.der) :
    (rotate notary old new oldCapabilities newCapabilities (some l) minSdk).1 =
      (handover notary old new).map fun (a, s) =>
        ⟨rest ++ succession (last.granting oldCapabilities) (childNode new newCapabilities a s),
          l.minSdk⟩ := by
  have hends : EndsWith l old.certificate := endsWith_iff.mpr ⟨rest, last, hl, hlast⟩
  rw [rotate_of_endsWith hends (grant_of_last verified hl hlast)]
  exact spawn_of_last hlast

/-- Without a lineage, the old signer starts one with all of its capabilities. -/
theorem rotate_none :
    (rotate notary old new oldCapabilities newCapabilities none minSdk).1 =
      (handover notary old new).map fun (a, s) =>
        ⟨succession ⟨old.certificate, 0, 0, [], oldCapabilities.flags⟩
          (childNode new newCapabilities a s), minSdk⟩ := by
  have hlast : (⟨old.certificate, 0, 0, [], oldCapabilities.flags⟩ : LineageNode).certificate.der =
      old.certificate.der := rfl
  exact @spawn_of_last notary [] _ minSdk old new newCapabilities hlast

/-! ## The two nodes at the end -/

/-- What becomes of a last node that hands over: it names the algorithm and has the
capabilities in `grants`, and is as it was otherwise. -/
structure HandsOver (last last' : LineageNode) (a : SignatureAlgorithm)
    (grants : Capability → Bool) : Prop where
  certificate : last'.certificate = last.certificate
  parentAlgorithm : last'.parentAlgorithm = last.parentAlgorithm
  signature : last'.signature = last.signature
  algorithm : last'.algorithm = a.id
  capabilities : ∀ k, last'.capabilities.granted.get k = grants k

/-- The node of a new signer, who has signed nobody yet. -/
structure TakesOver (child : LineageNode) (new : LineageSigner) (a : SignatureAlgorithm) (s : Bytes)
    (grants : Capability → Bool) : Prop where
  certificate : child.certificate = new.certificate
  parentAlgorithm : child.parentAlgorithm = a.id
  algorithm : child.algorithm = 0
  signature : child.signature = s
  capabilities : ∀ k, child.capabilities.granted.get k = grants k

/-- The capabilities that are named are written over those that a last node has. -/
theorem handsOver_granting (n : LineageNode) (c : Capabilities) (a : SignatureAlgorithm) :
    HandsOver n { n.granting c with algorithm := a.id } a fun k =>
      if c.configured.get k then c.granted.get k else n.capabilities.granted.get k where
  certificate := rfl
  parentAlgorithm := rfl
  signature := rfl
  algorithm := rfl
  capabilities k := by
    change (n.granting c).capabilities.granted.get k = _
    rw [LineageNode.granted_capabilities_granting, Capabilities.get_granted_appliedTo]

/-- A node that starts with capabilities has all of them, named or not. -/
theorem handsOver_flags (n : LineageNode) (c : Capabilities) (a : SignatureAlgorithm) :
    HandsOver n { n with algorithm := a.id, flags := c.flags } a c.granted.get where
  certificate := rfl
  parentAlgorithm := rfl
  signature := rfl
  algorithm := rfl
  capabilities k := congrArg (·.get k) (Capabilities.granted_ofFlags_flags c)

theorem takesOver (new : LineageSigner) (c : Capabilities) (a : SignatureAlgorithm) (s : Bytes) :
    TakesOver (childNode new c a s) new a s c.granted.get where
  certificate := rfl
  parentAlgorithm := rfl
  algorithm := rfl
  signature := rfl
  capabilities k := congrArg (·.get k) (Capabilities.granted_ofFlags_flags c)

end PackageSigning.Rotation
