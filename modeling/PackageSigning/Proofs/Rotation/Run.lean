import PackageSigning.Proofs.Rotation.Update

/-!
# Updates one after the other

Each of several updates tells whether it changed the grants of its signer. Of a lineage
whose flag words hold nothing but grants, all of them telling of no change means that it
stays the same (`nodes_of_unchanged`). The converse needs the signers to be different ones
(`nodes_ne_of_changed`): a second update of a signer can take back the first.
-/

namespace PackageSigning.Rotation
open Lineage

/-- A signer of a lineage, what it is to be granted, and how it is called. -/
structure Request where
  signer : LineageSigner
  capabilities : Capabilities
  name : String
  deriving DecidableEq

/-- Updates made one after the other: the lineage in the end, and each update. -/
def updateAll (l : Lineage) : List Request → Except Fault (Lineage × List Update)
  | [] => return (l, [])
  | q :: rest => do
    let u ← update l q.signer q.capabilities
    let (l, us) ← updateAll u.lineage rest
    return (l, u :: us)

/-- Whether any of several updates was a change. -/
def anyChanged (us : List Update) : Bool := us.any (·.changed)

variable {notary : Notary} {l l' : Lineage} {q : Request} {requests : List Request} {u : Update}
  {us : List Update}

theorem updateAll_cons_eq_ok : updateAll l (q :: requests) = .ok (l', us) ↔
    ∃ u rest, update l q.signer q.capabilities = .ok u ∧
      updateAll u.lineage requests = .ok (l', rest) ∧ u :: rest = us := by
  rw [updateAll, bind_eq_ok]
  constructor
  · rintro ⟨u, hu, h⟩
    obtain ⟨⟨m, rest⟩, hrest, h⟩ := bind_eq_ok.mp h
    obtain ⟨rfl, rfl⟩ := Prod.mk.inj (pure_eq_ok.mp h)
    exact ⟨u, rest, hu, hrest, rfl⟩
  · rintro ⟨u, rest, hu, hrest, rfl⟩
    exact ⟨u, hu, bind_eq_ok.mpr ⟨(l', rest), hrest, rfl⟩⟩

theorem certificates_of_update {signer : LineageSigner} {c : Capabilities}
    (h : update l signer c = .ok u) : u.lineage.certificates = l.certificates :=
  certificates_of_grant (update_eq_ok h)

/-- What each of the updates keeps, all of them keep. -/
theorem eq_of_updateAll {α : Type} (f : Lineage → α)
    (keeps : ∀ q ∈ requests, ∀ {l : Lineage} {u : Update},
      update l q.signer q.capabilities = .ok u → f u.lineage = f l)
    (h : updateAll l requests = .ok (l', us)) : f l' = f l := by
  induction requests generalizing l us with
  | nil =>
    obtain ⟨rfl, _⟩ := Prod.mk.inj (pure_eq_ok.mp h)
    rfl
  | cons q requests ih =>
    obtain ⟨u, rest, hu, hrest, rfl⟩ := updateAll_cons_eq_ok.mp h
    have hfirst := keeps q List.mem_cons_self hu
    rw [ih (fun p hp => keeps p (List.mem_cons_of_mem q hp)) hrest, hfirst]

theorem certificates_of_updateAll (h : updateAll l requests = .ok (l', us)) :
    l'.certificates = l.certificates :=
  eq_of_updateAll Lineage.certificates (fun _ _ => certificates_of_update) h

/-- Updates change nothing of nodes but their flags. -/
theorem map_bare_of_updateAll (h : updateAll l requests = .ok (l', us)) :
    l'.nodes.map LineageNode.bare = l.nodes.map LineageNode.bare :=
  eq_of_updateAll (fun l => l.nodes.map LineageNode.bare)
    (fun _ _ => fun hu => map_bare_of_grant (update_eq_ok hu)) h

theorem minSdk_of_updateAll (h : updateAll l requests = .ok (l', us)) : l'.minSdk = l.minSdk :=
  eq_of_updateAll Lineage.minSdk (fun _ _ => fun hu => minSdk_of_grant (update_eq_ok hu)) h

/-- Signers of a lineage are signers of what updates leave of it. -/
theorem known_of_certificates (h : l'.certificates = l.certificates)
    (known : ∀ q ∈ requests, l.includes q.signer.certificate = true) :
    ∀ q ∈ requests, l'.includes q.signer.certificate = true := by
  intro q hq
  rw [includes_of_certificates h]
  exact known q hq

/-- Updates of signers of a lineage go through. -/
theorem exists_updateAll
    (known : ∀ q ∈ requests, l.includes q.signer.certificate = true) :
    ∃ l' us, updateAll l requests = .ok (l', us) := by
  induction requests generalizing l with
  | nil => exact ⟨l, [], rfl⟩
  | cons q requests ih =>
    obtain ⟨hq, hrequests⟩ := List.forall_mem_cons.mp known
    obtain ⟨_, _, _, u, _, _, hu, _⟩ := exists_update hq q.capabilities
    have known' := known_of_certificates (certificates_of_update hu) hrequests
    obtain ⟨l', us, hrest⟩ := ih known'
    exact ⟨l', u :: us, updateAll_cons_eq_ok.mpr ⟨u, us, hu, hrest, rfl⟩⟩

/-- A lineage that is written is written after updates too. -/
theorem exists_toBytes_of_updateAll {data : Bytes} (h : updateAll l requests = .ok (l', us))
    (hdata : l.toBytes = .ok data) : ∃ data', l'.toBytes = .ok data' := by
  induction requests generalizing l us data with
  | nil =>
    obtain ⟨rfl, _⟩ := Prod.mk.inj (pure_eq_ok.mp h)
    exact ⟨data, hdata⟩
  | cons q requests ih =>
    obtain ⟨u, rest, hu, hrest, _⟩ := updateAll_cons_eq_ok.mp h
    obtain ⟨data', hdata', _⟩ := exists_toBytes_of_grant (update_eq_ok hu) hdata
    exact ih hrest hdata'

/-! ## No change -/

/-- Flag words that hold grants and nothing else. -/
def GrantsOnly (l : Lineage) : Prop := ∀ n ∈ l.nodes, 0 ≤ n.flags ∧ n.flags < 2 ^ 5

theorem nodes_of_unchanged_update (hl : GrantsOnly l)
    (known : l.includes q.signer.certificate = true)
    (h : update l q.signer q.capabilities = .ok u) (hu : u.changed = false) :
    u.lineage.nodes = l.nodes := by
  obtain ⟨front, n, back, u', hnodes, _, hu', hlineage, hbefore, hafter⟩ :=
    exists_update known q.capabilities
  obtain rfl : u = u' := Except.ok.inj (h.symm.trans hu')
  obtain ⟨h0, hlt⟩ := hl n (by rw [hnodes]; exact List.mem_append_right _ List.mem_cons_self)
  obtain ⟨word, hword⟩ := Int.eq_ofNat_of_zero_le h0
  rw [changed_eq_false_iff, hbefore, hafter, LineageNode.granting_eq hword] at hu
  have hsame : n.granting q.capabilities = n := by
    rw [LineageNode.granting_eq_self_iff hword, Capabilities.rewrite_eq_iff]
    refine ⟨?_, by omega⟩
    simpa only [LineageNode.capabilities, hword] using hu
  rw [hlineage, hnodes, hsame]

/-- When no update is a change, and there are only grants, nothing changes. -/
theorem nodes_of_unchanged (hl : GrantsOnly l)
    (known : ∀ q ∈ requests, l.includes q.signer.certificate = true)
    (h : updateAll l requests = .ok (l', us)) (hus : anyChanged us = false) :
    l'.nodes = l.nodes := by
  induction requests generalizing l us with
  | nil =>
    obtain ⟨rfl, _⟩ := Prod.mk.inj (pure_eq_ok.mp h)
    rfl
  | cons q requests ih =>
    obtain ⟨hq, hrequests⟩ := List.forall_mem_cons.mp known
    obtain ⟨u, rest, hu, hrest, rfl⟩ := updateAll_cons_eq_ok.mp h
    obtain ⟨hchanged, hothers⟩ := Bool.or_eq_false_iff.mp hus
    have hnodes := nodes_of_unchanged_update hl hq hu hchanged
    have hl' : GrantsOnly u.lineage := by
      unfold GrantsOnly
      rw [hnodes]
      exact hl
    have known' := known_of_certificates (certificates_of_update hu) hrequests
    rw [ih hl' known' hrest hothers, hnodes]

/-! ## Changes -/

/-- The node of the bearer of a certificate. -/
def nodeOf (l : Lineage) (c : Certificate) : Option LineageNode :=
  l.nodes.find? (·.certificate.der == c.der)

/-- An update leaves other signers alone. -/
theorem nodeOf_of_update {signer : LineageSigner} {c : Capabilities} {other : Certificate}
    (h : update l signer c = .ok u) (hne : signer.certificate.der ≠ other.der) :
    nodeOf u.lineage other = nodeOf l other := by
  have hfind := find?_of_grant (update_eq_ok h) other
  simp only [hne, if_false, Option.map_id'] at hfind
  exact hfind

theorem nodeOf_of_updateAll {other : Certificate} (h : updateAll l requests = .ok (l', us))
    (hne : ∀ q ∈ requests, q.signer.certificate.der ≠ other.der) :
    nodeOf l' other = nodeOf l other :=
  eq_of_updateAll (nodeOf · other) (fun q hq => fun hu => nodeOf_of_update hu (hne q hq)) h

/-- An update that is a change leaves another node. -/
theorem nodeOf_ne_of_changed {signer : LineageSigner} {c : Capabilities}
    (h : update l signer c = .ok u) (hchanged : u.changed = true) :
    nodeOf u.lineage signer.certificate ≠ nodeOf l signer.certificate := by
  obtain ⟨before, hbefore, h⟩ := bind_eq_ok.mp h
  obtain ⟨lineage, _, h⟩ := bind_eq_ok.mp h
  obtain ⟨after, hafter, h⟩ := bind_eq_ok.mp h
  obtain rfl := pure_eq_ok.mp h
  obtain ⟨n, hn, rfl⟩ := capabilitiesOf_eq_ok.mp hbefore
  obtain ⟨m, hm, rfl⟩ := capabilitiesOf_eq_ok.mp hafter
  intro hsame
  obtain rfl : m = n := Option.some.inj (hm.symm.trans (hsame.trans hn))
  have hunchanged := changed_eq_false_iff (u := ⟨lineage, m.capabilities, m.capabilities⟩).mpr rfl
  rw [hunchanged] at hchanged
  cases hchanged

/-- When some update is a change, and no signer is updated twice, some node changes. -/
theorem nodes_ne_of_changed (distinct : (requests.map (·.signer.certificate.der)).Nodup)
    (h : updateAll l requests = .ok (l', us)) (hus : anyChanged us = true) :
    l'.nodes ≠ l.nodes := by
  have hnode : ∃ q ∈ requests,
      nodeOf l' q.signer.certificate ≠ nodeOf l q.signer.certificate := by
    induction requests generalizing l us with
    | nil =>
      obtain ⟨_, rfl⟩ := Prod.mk.inj (pure_eq_ok.mp h)
      cases hus
    | cons q requests ih =>
      obtain ⟨hq, hdistinct⟩ := List.nodup_cons.mp distinct
      have hothers (p : Request) (hp : p ∈ requests) :
          p.signer.certificate.der ≠ q.signer.certificate.der := by
        intro heq
        exact hq (List.mem_map.mpr ⟨p, hp, heq⟩)
      obtain ⟨u, rest, hu, hrest, rfl⟩ := updateAll_cons_eq_ok.mp h
      rcases Bool.or_eq_true_iff.mp hus with hchanged | hchanged
      · -- the later updates leave this signer alone
        refine ⟨q, List.mem_cons_self, ?_⟩
        rw [nodeOf_of_updateAll hrest hothers]
        exact nodeOf_ne_of_changed hu hchanged
      · -- and so did this update the signer that is changed later
        obtain ⟨p, hp, hne⟩ := ih hdistinct hrest hchanged
        refine ⟨p, List.mem_cons_of_mem _ hp, ?_⟩
        rw [← nodeOf_of_update hu (Ne.symm (hothers p hp))]
        exact hne
  obtain ⟨q, _, hne⟩ := hnode
  intro hsame
  apply hne
  rw [nodeOf, nodeOf, hsame]

end PackageSigning.Rotation
