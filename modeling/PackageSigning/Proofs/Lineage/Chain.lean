import PackageSigning.Proofs.Lineage.Growth

/-!
# Lineages that come about are chains

However a lineage comes about (`Reachable`): created, read, handed over, its signers
granted this or that, its nodes are chained. Each node names the algorithm of the one
before it and is signed with that one's key, so all that verifying can object to is a
certificate that comes twice.
-/

namespace PackageSigning

namespace Lineage

/-- The lineages that can come about. Signing may differ from one handover to the next,
but the signatures have to check, and parents have to have the keys of their certificates. -/
inductive Reachable (notary : Notary) (belongs : PrivateKey → PublicKey → Prop) : Lineage → Prop
  | created {sign : Notary.Signing}
      {parent child : LineageSigner} {minSdk : Int} {parentCapabilities childCapabilities : Capabilities}
      {l : Lineage} (law : { notary with sign }.SignsFor belongs) (fits : parent.Fits notary belongs)
      (parentKnown : notary.Knows parent.certificate) (childKnown : notary.Knows child.certificate)
      (h : create { notary with sign } parent child minSdk parentCapabilities childCapabilities = .ok l) :
      Reachable notary belongs l
  | read {data : Bytes} {l : Lineage} (h : ofBytes notary data = .ok l) : Reachable notary belongs l
  | spawned {sign : Notary.Signing}
      {parent child : LineageSigner} {c : Capabilities} {l l' : Lineage}
      (before : Reachable notary belongs l) (law : { notary with sign }.SignsFor belongs)
      (fits : parent.Fits notary belongs) (parentKnown : notary.Knows parent.certificate)
      (childKnown : notary.Knows child.certificate)
      (h : spawn { notary with sign } l parent child c = .ok l') : Reachable notary belongs l'
  | granted {certificate : Certificate} {name : String} {c : Capabilities} {l l' : Lineage}
      (before : Reachable notary belongs l) (h : l.grant certificate name c = .ok l') :
      Reachable notary belongs l'

/-- Nodes that nothing but a certificate coming twice can be wrong with. -/
structure Chained (notary : Notary) (nodes : List LineageNode) : Prop
    extends Orderly notary nodes where
  first : ∀ n ∈ nodes.head?, n.parentAlgorithm = 0 ∧ n.signature = []
  links : nodes.IsChain (Linked notary)

variable {notary : Notary} {belongs : PrivateKey → PublicKey → Prop}

theorem Chained.of_read (faithful : notary.Faithful) {data : Bytes} {l : Lineage}
    (h : ofBytes notary data = .ok l) : Chained notary l.nodes := by
  obtain ⟨_, hr, _⟩ := (ofBytes_eq_ok faithful).mp h
  obtain ⟨_, hfirst, hlinks, _⟩ := verify_eq_ok.mp hr.verified
  exact ⟨.of_read faithful h, hfirst, hlinks⟩

theorem Chained.founder {certificate : Certificate} (hk : notary.Knows certificate)
    (c : Capabilities) : Chained notary [⟨certificate, 0, 0, [], c.flags⟩] where
  toOrderly := .founder hk c
  first := by
    rintro n ⟨⟩
    exact ⟨rfl, rfl⟩
  links := List.isChain_singleton _

theorem Chained.spawn {sign : Notary.Signing}
    {l l' : Lineage} {parent child : LineageSigner} {c : Capabilities} (h : Chained notary l.nodes)
    (law : { notary with sign }.SignsFor belongs) (fits : parent.Fits notary belongs)
    (hparent : notary.Knows parent.certificate) (hchild : notary.Knows child.certificate)
    (hs : Lineage.spawn { notary with sign } l parent child c = .ok l') : Chained notary l'.nodes := by
  have horderly := h.toOrderly.spawn hchild hs
  obtain ⟨rest, last, hl, hder, a, s, hhandover, rfl⟩ := spawn_eq_ok.mp hs
  have hsigned := signedBy_of_handover c law fits hhandover
  rw [← h.toOrderly.last_certificate hl hparent hder] at hsigned
  refine ⟨horderly, ?_, ?_⟩
  · rw [first_succession, ← hl]
    exact h.first
  · rw [isChain_succession, ← hl]
    exact ⟨h.links, hsigned⟩

theorem Chained.grant {l l' : Lineage} {certificate : Certificate} {name : String}
    {c : Capabilities} (h : Chained notary l.nodes) (hg : l.grant certificate name c = .ok l') :
    Chained notary l'.nodes := by
  have hbare := map_bare_of_grant hg
  refine ⟨h.toOrderly.grant hg, ?_, ?_⟩
  · rw [← first_bare, hbare, first_bare]
    exact h.first
  · rw [← isChain_bare, hbare, isChain_bare]
    exact h.links

theorem Reachable.chained (faithful : notary.Faithful) {l : Lineage}
    (h : Reachable notary belongs l) : Chained notary l.nodes := by
  induction h with
  | created law fits parentKnown childKnown h =>
    exact (Chained.founder parentKnown _).spawn law fits parentKnown childKnown h
  | read h => exact .of_read faithful h
  | spawned before law fits parentKnown childKnown h ih =>
    exact ih.spawn law fits parentKnown childKnown h
  | granted before h ih => exact ih.grant h

/-- Links between neighbours, by their places. -/
theorem Chained.linked {nodes : List LineageNode} (h : Chained notary nodes) {i : Nat}
    {p n : LineageNode} (hp : nodes[i]? = some p) (hn : nodes[i + 1]? = some n) :
    Linked notary p n := by
  obtain ⟨hi, rfl⟩ := List.getElem?_eq_some_iff.mp hn
  obtain ⟨_, rfl⟩ := List.getElem?_eq_some_iff.mp hp
  exact List.isChain_iff_getElem.mp h.links i hi

theorem Chained.verify_eq_ok {nodes : List LineageNode} (h : Chained notary nodes) :
    verify notary nodes = .ok () ↔ (nodes.map (·.certificate.der)).Nodup := by
  rw [Lineage.verify_eq_ok]
  exact ⟨fun hv => hv.1, fun hd => ⟨hd, h.first, h.links, h.last⟩⟩

/-- Known certificates come twice exactly when their encodings do. -/
theorem Orderly.nodup_iff {nodes : List LineageNode} (h : Orderly notary nodes) :
    (nodes.map (·.certificate.der)).Nodup ↔ ¬∃ (i j : Nat) (m n : LineageNode), i < j ∧ nodes[i]? = some m ∧
      nodes[j]? = some n ∧ m.certificate = n.certificate := by
  rw [List.nodup_iff_getElem?_ne_getElem?]
  simp only [List.length_map, List.getElem?_map]
  constructor
  · rintro hne ⟨i, j, m, n, hij, hm, hn, hc⟩
    obtain ⟨hj, _⟩ := List.getElem?_eq_some_iff.mp hn
    apply hne i j hij hj
    rw [hm, hn, Option.map_some, Option.map_some, hc]
  · intro hne i j hij hj heq
    have hm := List.getElem?_eq_getElem (Nat.lt_trans hij hj)
    have hn := List.getElem?_eq_getElem hj
    rw [hm, hn, Option.map_some, Option.map_some, Option.some.injEq] at heq
    refine hne ⟨i, j, _, _, hij, hm, hn, ?_⟩
    exact (h.known _ (List.getElem_mem _)).eq (h.known _ (List.getElem_mem _)) heq

/-- The nodes of every lineage that comes about are chained: nobody signed the first one,
each other one names the algorithm of the one before it and is signed with the key of that
one's certificate, the last one signed nothing, and flag words fit into their fields. So
verifying objects exactly when two nodes carry the same certificate. -/
theorem reachable_is_chained (faithful : notary.Faithful) {l : Lineage}
    (h : Reachable notary belongs l) :
    l.nodes ≠ [] ∧
    (∀ n, l.nodes[0]? = some n → n.parentAlgorithm = 0 ∧ n.signature = []) ∧
    (∀ i p n, l.nodes[i]? = some p → l.nodes[i + 1]? = some n →
      n.parentAlgorithm = p.algorithm ∧
      ∃ key statement, notary.publicKey p.certificate = .ok key ∧
        LineageNode.statement n.certificate n.parentAlgorithm = .ok statement ∧
        notary.checkWith key n.parentAlgorithm n.signature statement = .ok true) ∧
    (∀ n, l.nodes.getLast? = some n → n.algorithm = 0) ∧
    (∀ n ∈ l.nodes, 0 ≤ n.flags ∧ n.flags < 0x100000000) ∧
    ((∃ fault, verify notary l.nodes = .error fault) ↔
      ∃ (i j : Nat) (m n : LineageNode), i < j ∧ l.nodes[i]? = some m ∧ l.nodes[j]? = some n ∧
        m.certificate = n.certificate) := by
  have hc := h.chained faithful
  refine ⟨hc.ne_nil, ?_, fun i p n hp hn => hc.linked hp hn, hc.last, hc.words, ?_⟩
  · intro n hn
    apply hc.first
    rw [List.head?_eq_getElem?]
    exact hn
  · rw [exists_error_iff]
    have hok : (∀ u, verify notary l.nodes ≠ .ok u) ↔ ¬verify notary l.nodes = .ok () :=
      ⟨fun h => h (), fun h _ => h⟩
    rw [hok, hc.verify_eq_ok, hc.nodup_iff, not_not]

theorem sample_is_chained :
    Sample.notary.Faithful ∧ Reachable Sample.notary Sample.belongs ⟨Sample.nodes, 28⟩ ∧
    ∀ i p n, Sample.nodes[i]? = some p → Sample.nodes[i + 1]? = some n →
      n.parentAlgorithm = p.algorithm ∧
      ∃ key statement, Sample.notary.publicKey p.certificate = .ok key ∧
        LineageNode.statement n.certificate n.parentAlgorithm = .ok statement ∧
        Sample.notary.checkWith key n.parentAlgorithm n.signature statement = .ok true := by
  have law : { Sample.notary with sign := Sample.notary.sign }.SignsFor Sample.belongs :=
    Notary.recorded_signsFor
  have fits : Sample.older.Fits Sample.notary Sample.belongs := by
    have hpub : Sample.notary.publicKey Sample.older.certificate = .ok Sample.handover.publicKey := by
      decide +kernel
    intro key pub _ h r hr _
    obtain rfl : Sample.handover.publicKey = pub := Except.ok.inj (hpub.symm.trans h)
    simp only [List.mem_cons, List.not_mem_nil, or_false] at hr
    rcases hr with rfl | rfl <;> rfl
  have made : create Sample.notary Sample.older Sample.younger 28 .nothing .nothing =
      .ok ⟨Sample.nodes, 28⟩ := by decide +kernel
  have reachable : Reachable Sample.notary Sample.belongs ⟨Sample.nodes, 28⟩ :=
    .created law fits (by decide +kernel) (by decide +kernel) made
  exact ⟨Notary.recorded_faithful, reachable,
    (reachable_is_chained Notary.recorded_faithful reachable).2.2.1⟩

end Lineage
end PackageSigning
