import Mathlib.Data.List.Nodup
import PackageSigning.Proofs.Capabilities
import PackageSigning.Proofs.Lineage.Format

/-!
# How lineages change

A lineage grows by a handover: its last signer signs the next one. Granting capabilities
writes the flags of one node anew and nothing else; the lineage stays the same once the
flags are left out (`LineageNode.bare`), and verifying leaves them out.
-/

namespace PackageSigning

namespace Notary

theorem suggested_kind {key : PublicKey} {a : SignatureAlgorithm} (h : suggested key = .ok a) :
    key.signingKind? = some a.kind := by
  unfold suggested at h
  cases key with
  | rsa modulus exponent =>
    simp only [SignatureAlgorithm.suggested?] at h
    split at h <;> · cases h; rfl
  | ec curve x y => cases curve <;> · cases h; rfl
  | dsa group value => cases h; rfl
  | edwards kind value => cases h

theorem signWith_eq_ok {n : Notary} {key : Option PrivateKey} {id : Int} {message signature : Bytes} :
    n.signWith key id message = .ok signature ↔ ∃ a, algorithm id = .ok a ∧
      ∃ k, key = some k ∧ k.signingKind? = some a.kind ∧ n.sign a k message = .ok signature := by
  unfold signWith
  simp only [bind_eq_ok]
  constructor
  · rintro ⟨a, ha, h⟩
    split at h
    · next k hk =>
      obtain ⟨hk, hkind⟩ := Option.filter_eq_some_iff.mp hk
      exact ⟨a, ha, k, hk, of_decide_eq_true hkind, h⟩
    · exact absurd h throw_ne_ok
  · rintro ⟨a, ha, k, rfl, hkind, h⟩
    refine ⟨a, ha, ?_⟩
    simp [Option.filter, hkind, h]

end Notary

/-- A signer whose key, if it is at hand, belongs to its certificate. -/
def LineageSigner.Fits (s : LineageSigner) (notary : Notary)
    (belongs : PrivateKey → PublicKey → Prop) : Prop :=
  ∀ key pub, s.key = some key → notary.publicKey s.certificate = .ok pub → belongs key pub

namespace LineageNode

/-- The node but for its flags. -/
def bare (n : LineageNode) : LineageNode := { n with flags := 0 }

@[simp] theorem bare_granting (n : LineageNode) (c : Capabilities) :
    (n.granting c).bare = n.bare := rfl

@[simp] theorem certificate_granting (n : LineageNode) (c : Capabilities) :
    (n.granting c).certificate = n.certificate := rfl

@[simp] theorem certificate_bare (n : LineageNode) : n.bare.certificate = n.certificate := rfl

end LineageNode

namespace Lineage
variable {notary : Notary}

/-! ## Handing over -/

/-- What a parent hands over to a child with: the algorithm and the signature. -/
def handover (notary : Notary) (parent child : LineageSigner) :
    Except Fault (SignatureAlgorithm × Bytes) := do
  let algorithm ← Notary.suggested (← notary.publicKey parent.certificate)
  let statement ← LineageNode.statement child.certificate algorithm.id
  return (algorithm, ← notary.signWith parent.key algorithm.id statement)

/-- The node of a child that was handed over to. -/
def childNode (child : LineageSigner) (c : Capabilities) (a : SignatureAlgorithm)
    (signature : Bytes) : LineageNode :=
  ⟨child.certificate, a.id, 0, signature, c.flags⟩

/-- The last node of a lineage and the child behind it, after the handover. -/
def succession (last child : LineageNode) : List LineageNode :=
  [{ last with algorithm := child.parentAlgorithm }, child]

theorem handover_eq_ok {parent child : LineageSigner} {a : SignatureAlgorithm} {s : Bytes} :
    handover notary parent child = .ok (a, s) ↔
      ∃ key, notary.publicKey parent.certificate = .ok key ∧ Notary.suggested key = .ok a ∧
      ∃ st, LineageNode.statement child.certificate a.id = .ok st ∧
      notary.signWith parent.key a.id st = .ok s := by
  unfold handover
  simp only [bind_eq_ok, pure_eq_ok, Prod.mk.injEq]
  constructor
  · rintro ⟨key, hkey, _, ha, st, hst, _, hs, rfl, rfl⟩
    exact ⟨key, hkey, ha, st, hst, hs⟩
  · rintro ⟨key, hkey, ha, st, hst, hs⟩
    exact ⟨key, hkey, a, ha, st, hst, s, hs, rfl, rfl⟩

/-- Spawning either hands over from the last signer or fails, as the handover does. -/
theorem spawn_of_last {rest : List LineageNode} {last : LineageNode} {minSdk : Int}
    {parent child : LineageSigner} {c : Capabilities}
    (h : last.certificate.der = parent.certificate.der) :
    spawn notary ⟨rest ++ [last], minSdk⟩ parent child c = do
      let (a, s) ← handover notary parent child
      return ⟨rest ++ succession last (childNode child c a s), minSdk⟩ := by
  unfold spawn handover succession childNode
  simp only [List.getLast?_append_cons, List.getLast?_singleton, h, ne_eq, not_true_eq_false,
    if_false, List.dropLast_concat, bind_assoc, pure_bind]

theorem spawn_eq_ok {l l' : Lineage} {parent child : LineageSigner} {c : Capabilities} :
    spawn notary l parent child c = .ok l' ↔ ∃ rest last, l.nodes = rest ++ [last] ∧
      last.certificate.der = parent.certificate.der ∧ ∃ a s, handover notary parent child = .ok (a, s) ∧
      ⟨rest ++ succession last (childNode child c a s), l.minSdk⟩ = l' := by
  obtain ⟨nodes, minSdk⟩ := l
  constructor
  · intro h
    rcases List.eq_nil_or_concat' nodes with rfl | ⟨rest, last, rfl⟩
    · cases h
    by_cases hder : last.certificate.der = parent.certificate.der
    · rw [spawn_of_last hder] at h
      obtain ⟨⟨a, s⟩, hs, h⟩ := bind_eq_ok.mp h
      exact ⟨rest, last, rfl, hder, a, s, hs, pure_eq_ok.mp h⟩
    · unfold spawn at h
      simp only [List.getLast?_append_cons, List.getLast?_singleton, ne_eq, hder, not_false_eq_true,
        if_true] at h
      cases h
  · rintro ⟨rest, last, rfl, hder, a, s, hs, rfl⟩
    rw [spawn_of_last hder, hs]
    rfl

/-- A handover with a key that belongs to the parent's certificate signs the child. -/
theorem signedBy_of_handover {sign : Notary.Signing}
    {belongs : PrivateKey → PublicKey → Prop} {parent child : LineageSigner}
    {a : SignatureAlgorithm} {s : Bytes} (c : Capabilities) (law : { notary with sign }.SignsFor belongs)
    (fits : parent.Fits notary belongs)
    (h : handover { notary with sign } parent child = .ok (a, s)) :
    SignedBy notary parent.certificate (childNode child c a s) := by
  obtain ⟨pub, hpub, ha, st, hst, hs⟩ := handover_eq_ok.mp h
  obtain ⟨a', ha', key, hk, -, hsign⟩ := Notary.signWith_eq_ok.mp hs
  obtain rfl : a = a' := Except.ok.inj ((Notary.algorithm_id a).symm.trans ha')
  refine ⟨pub, st, hpub, hst, Notary.checkWith_eq_true.mpr ?_⟩
  exact ⟨a, ha', Notary.suggested_kind ha, law a key pub st s (fits key pub hk hpub) hsign⟩

/-! ## What a handover keeps -/

section Succession
variable {rest : List LineageNode} {last child : LineageNode}

/-- A handover keeps the links, and adds one if the signature checks. -/
theorem isChain_succession :
    (rest ++ succession last child).IsChain (Linked notary) ↔
      (rest ++ [last]).IsChain (Linked notary) ∧ SignedBy notary last.certificate child := by
  -- the last node takes the algorithm that the child names, which no link from before looks at
  have hlast : Linked notary { last with algorithm := child.parentAlgorithm } child ↔
      SignedBy notary last.certificate child := ⟨fun h => h.2, fun h => ⟨rfl, h⟩⟩
  simp only [succession, List.isChain_append, List.isChain_cons_cons, List.isChain_singleton,
    and_true, hlast, List.head?_cons, Option.mem_some_iff, forall_eq', true_and]
  constructor
  · rintro ⟨hrest, hsigned, hlink⟩
    exact ⟨⟨hrest, hlink⟩, hsigned⟩
  · rintro ⟨⟨hrest, hlink⟩, hsigned⟩
    exact ⟨hrest, hsigned, hlink⟩

theorem certificates_succession :
    (rest ++ succession last child).map (·.certificate.der) =
      (rest ++ [last]).map (·.certificate.der) ++ [child.certificate.der] := by
  simp [succession]

/-- The first node is as unsigned as it was. -/
theorem first_succession :
    (∀ n ∈ (rest ++ succession last child).head?, n.parentAlgorithm = 0 ∧ n.signature = []) ↔
      ∀ n ∈ (rest ++ [last]).head?, n.parentAlgorithm = 0 ∧ n.signature = [] := by
  cases rest <;> simp [succession]

theorem getLast?_succession : (rest ++ succession last child).getLast? = some child := by
  simp [succession]

/-- What is left to check of a handover is that the child is new and its signature good. -/
theorem verify_succession (hlast : last.algorithm = 0) (hchild : child.algorithm = 0) :
    verify notary (rest ++ succession last child) = .ok () ↔
      verify notary (rest ++ [last]) = .ok () ∧
      child.certificate.der ∉ (rest ++ [last]).map (·.certificate.der) ∧
      SignedBy notary last.certificate child := by
  rw [verify_eq_ok, verify_eq_ok, isChain_succession, first_succession, certificates_succession,
    getLast?_succession, List.getLast?_concat, List.nodup_append_comm, List.singleton_append,
    List.nodup_cons]
  simp only [Option.mem_some_iff, forall_eq', hlast, hchild, and_true]
  constructor
  · rintro ⟨⟨hnew, hnodup⟩, hfirst, hchain, hsigned⟩
    exact ⟨⟨hnodup, hfirst, hchain⟩, hnew, hsigned⟩
  · rintro ⟨⟨hnodup, hfirst, hchain⟩, hnew, hsigned⟩
    exact ⟨⟨hnew, hnodup⟩, hfirst, hchain, hsigned⟩

end Succession

/-! ## Granting -/

section Granting
variable {l l' : Lineage} {certificate : Certificate} {name : String} {c : Capabilities}

theorem indexOf_eq_ok {i : Nat} :
    l.indexOf certificate name = .ok i ↔ ∃ front n back, l.nodes = front ++ n :: back ∧
      (∀ m ∈ front, m.certificate.der ≠ certificate.der) ∧ n.certificate.der = certificate.der ∧
      front.length = i := by
  have hfind : l.indexOf certificate name = .ok i ↔
      l.nodes.findIdx? (·.certificate.der == certificate.der) = some i := by
    unfold indexOf
    cases l.nodes.findIdx? (·.certificate.der == certificate.der) <;> simp
  rw [hfind]
  constructor
  · intro h
    obtain ⟨hi, hn, hfront⟩ := List.findIdx?_eq_some_iff_getElem.mp h
    refine ⟨l.nodes.take i, l.nodes[i], l.nodes.drop (i + 1), ?_, ?_, beq_iff_eq.mp hn, ?_⟩
    · rw [← List.drop_eq_getElem_cons hi, List.take_append_drop]
    · intro m hm
      obtain ⟨j, hj, rfl⟩ := List.mem_take_iff_getElem.mp hm
      have := hfront j (Nat.lt_of_lt_of_le hj (Nat.min_le_left _ _))
      simpa using this
    · exact List.length_take_of_le (Nat.le_of_lt hi)
  · rintro ⟨front, n, back, hl, hfront, hn, rfl⟩
    have hnone : front.findIdx? (·.certificate.der == certificate.der) = none := by
      rw [List.findIdx?_eq_none_iff]
      intro m hm
      simpa using hfront m hm
    rw [hl, List.findIdx?_append, hnone, List.findIdx?_cons]
    simp [hn]

/-- Granting writes over the first node with the certificate. -/
theorem grant_eq_ok :
    l.grant certificate name c = .ok l' ↔ ∃ front n back, l.nodes = front ++ n :: back ∧
      (∀ m ∈ front, m.certificate.der ≠ certificate.der) ∧ n.certificate.der = certificate.der ∧
      ⟨front ++ n.granting c :: back, l.minSdk⟩ = l' := by
  have hmodify (front : List LineageNode) (n : LineageNode) (back : List LineageNode) :
      (front ++ n :: back).modify front.length (·.granting c) = front ++ n.granting c :: back := by
    rw [List.modify_eq_take_cons_drop (by simp)]
    simp
  unfold grant
  simp only [bind_eq_ok, pure_eq_ok, indexOf_eq_ok]
  constructor
  · rintro ⟨_, ⟨front, n, back, hl, hfront, hn, rfl⟩, rfl⟩
    exact ⟨front, n, back, hl, hfront, hn, by rw [hl, hmodify]⟩
  · rintro ⟨front, n, back, hl, hfront, hn, rfl⟩
    exact ⟨front.length, ⟨front, n, back, hl, hfront, hn, rfl⟩, by rw [hl, hmodify]⟩

/-- Granting a signer of a lineage something goes through. -/
theorem exists_grant (h : l.includes certificate = true) (name : String) (c : Capabilities) :
    ∃ l', l.grant certificate name c = .ok l' := by
  have hfind := List.find?_isSome.mpr (List.any_eq_true.mp h)
  obtain ⟨n, hn⟩ := Option.isSome_iff_exists.mp hfind
  obtain ⟨hn, front, back, hnodes, hfront⟩ := List.find?_eq_some_iff_append.mp hn
  refine ⟨_, grant_eq_ok.mpr ⟨front, n, back, hnodes, ?_, beq_iff_eq.mp hn, rfl⟩⟩
  intro m hm
  simpa using hfront m hm

theorem map_bare_of_grant (h : l.grant certificate name c = .ok l') :
    l'.nodes.map LineageNode.bare = l.nodes.map LineageNode.bare := by
  obtain ⟨front, n, back, hl, _, _, rfl⟩ := grant_eq_ok.mp h
  simp [hl]

theorem certificates_of_grant (h : l.grant certificate name c = .ok l') :
    l'.certificates = l.certificates := by
  obtain ⟨front, n, back, hl, _, _, rfl⟩ := grant_eq_ok.mp h
  simp [certificates, hl]

theorem isChain_bare {nodes : List LineageNode} :
    (nodes.map LineageNode.bare).IsChain (Linked notary) ↔ nodes.IsChain (Linked notary) := by
  rw [List.isChain_map]
  -- a link says nothing of flags
  rfl

theorem first_bare {nodes : List LineageNode} :
    (∀ n ∈ (nodes.map LineageNode.bare).head?, n.parentAlgorithm = 0 ∧ n.signature = []) ↔
      ∀ n ∈ nodes.head?, n.parentAlgorithm = 0 ∧ n.signature = [] := by
  cases nodes <;> simp [LineageNode.bare]

theorem last_bare {nodes : List LineageNode} :
    (∀ n ∈ (nodes.map LineageNode.bare).getLast?, n.algorithm = 0) ↔
      ∀ n ∈ nodes.getLast?, n.algorithm = 0 := by
  rw [List.getLast?_map]
  cases nodes.getLast? <;> simp [LineageNode.bare]

theorem checkFirst_bare (n : LineageNode) : checkFirst n.bare = checkFirst n := rfl

theorem checkLink_bare (i : Nat) (p n : LineageNode) :
    checkLink notary i p.bare n.bare = checkLink notary i p n := rfl

theorem verifyFrom_bare {i : Nat} {seen : List Bytes} {previous : Option LineageNode}
    {nodes : List LineageNode} :
    verifyFrom notary i seen (previous.map LineageNode.bare) (nodes.map LineageNode.bare) =
      verifyFrom notary i seen previous nodes := by
  induction nodes generalizing i seen previous with
  | nil => cases previous <;> rfl
  | cons n rest ih =>
    -- the node before the rest is bare as well
    have hrest := @ih (i + 1) (n.certificate.der :: seen) (some n)
    rw [Option.map_some] at hrest
    cases previous with
    | none =>
      simp only [Option.map_none, List.map_cons, verifyFrom, LineageNode.certificate_bare,
        checkFirst_bare, hrest]
    | some p =>
      simp only [Option.map_some, List.map_cons, verifyFrom, LineageNode.certificate_bare,
        checkLink_bare, hrest]

/-- Verifying comes out the same whatever the flags are, faults included. -/
theorem verify_bare (nodes : List LineageNode) :
    verify notary (nodes.map LineageNode.bare) = verify notary nodes :=
  @verifyFrom_bare notary 0 [] none nodes

theorem verify_of_grant (h : l.grant certificate name c = .ok l') :
    verify notary l'.nodes = verify notary l.nodes := by
  rw [← verify_bare l'.nodes, map_bare_of_grant h, verify_bare]

end Granting

/-! ## What all changes keep -/

/-- What a lineage has however its signers sign: known certificates, nothing signed by the
last signer, and flag words that fit into their fields. -/
structure Orderly (notary : Notary) (nodes : List LineageNode) : Prop where
  ne_nil : nodes ≠ []
  known : ∀ n ∈ nodes, notary.Knows n.certificate
  last : ∀ n ∈ nodes.getLast?, n.algorithm = 0
  words : ∀ n ∈ nodes, 0 ≤ n.flags ∧ n.flags < LineageField.bound

theorem last_mem {l : Lineage} {rest : List LineageNode} {last : LineageNode}
    (h : l.nodes = rest ++ [last]) : last ∈ l.nodes := by
  rw [h]
  exact List.mem_append_right _ (List.mem_singleton_self last)

/-- The last signer is told by the encoding of its certificate. -/
theorem Orderly.last_certificate {l : Lineage} {rest : List LineageNode} {last : LineageNode}
    {certificate : Certificate} (h : Orderly notary l.nodes) (hl : l.nodes = rest ++ [last])
    (hk : notary.Knows certificate) (hder : last.certificate.der = certificate.der) :
    last.certificate = certificate :=
  (h.known last (last_mem hl)).eq hk hder

theorem flags_word (c : Capabilities) : 0 ≤ (c.flags : Int) ∧ (c.flags : Int) < LineageField.bound := by
  have := c.flags_lt
  simp only [LineageField.bound]
  omega

theorem Orderly.of_read (faithful : notary.Faithful) {data : Bytes} {l : Lineage}
    (h : ofBytes notary data = .ok l) : Orderly notary l.nodes := by
  obtain ⟨_, hr, hb⟩ := (ofBytes_eq_ok faithful).mp h
  obtain ⟨x, hx, _⟩ := toBytes_eq_ok.mp hb
  obtain ⟨body, hbody, _⟩ := encode_eq_ok.mp hx
  exact ⟨hr.ne_nil, hr.known, (verify_eq_ok.mp hr.verified).2.2.2, flags_of_encodeNodes hbody⟩

theorem Orderly.founder {certificate : Certificate} (hk : notary.Knows certificate)
    (c : Capabilities) : Orderly notary [⟨certificate, 0, 0, [], c.flags⟩] where
  ne_nil := List.cons_ne_nil _ _
  known := by
    intro n hn
    rw [List.mem_singleton.mp hn]
    exact hk
  last := by
    rintro n ⟨⟩
    rfl
  words := by
    intro n hn
    rw [List.mem_singleton.mp hn]
    exact flags_word c

theorem Orderly.spawn {sign : Notary.Signing}
    {l l' : Lineage} {parent child : LineageSigner} {c : Capabilities} (h : Orderly notary l.nodes)
    (hk : notary.Knows child.certificate)
    (hs : Lineage.spawn { notary with sign } l parent child c = .ok l') : Orderly notary l'.nodes := by
  obtain ⟨rest, last, hl, _, a, s, _, rfl⟩ := spawn_eq_ok.mp hs
  have hmem (n : LineageNode) (hn : n ∈ rest ++ succession last (childNode child c a s)) :
      (∃ m ∈ l.nodes, n.certificate = m.certificate ∧ n.flags = m.flags) ∨
        n = childNode child c a s := by
    simp only [succession, List.mem_append, List.mem_cons, List.not_mem_nil, or_false] at hn
    rw [hl]
    rcases hn with hn | rfl | rfl
    · exact .inl ⟨n, List.mem_append_left _ hn, rfl, rfl⟩
    · exact .inl ⟨last, hl ▸ last_mem hl, rfl, rfl⟩
    · exact .inr rfl
  constructor
  · simp [succession]
  · intro n hn
    rcases hmem n hn with ⟨m, hm, hc, _⟩ | rfl
    · rw [hc]; exact h.known m hm
    · exact hk
  · rw [getLast?_succession]
    rintro n ⟨⟩
    rfl
  · intro n hn
    rcases hmem n hn with ⟨m, hm, _, hf⟩ | rfl
    · rw [hf]; exact h.words m hm
    · exact flags_word c

theorem Orderly.grant {l l' : Lineage} {certificate : Certificate} {name : String}
    {c : Capabilities} (h : Orderly notary l.nodes) (hg : l.grant certificate name c = .ok l') :
    Orderly notary l'.nodes := by
  have hbare := map_bare_of_grant hg
  obtain ⟨front, n, back, hl, _, _, rfl⟩ := grant_eq_ok.mp hg
  have hn : n ∈ l.nodes := by
    rw [hl]
    exact List.mem_append_right _ List.mem_cons_self
  have hmem (m : LineageNode) (hm : m ∈ front ++ n.granting c :: back) :
      m ∈ l.nodes ∨ m = n.granting c := by
    rw [hl]
    simp only [List.mem_append, List.mem_cons] at hm ⊢
    tauto
  constructor
  · simp
  · intro m hm
    rcases hmem m hm with hm | rfl
    · exact h.known m hm
    · exact h.known n hn
  · rw [← last_bare, hbare, last_bare]
    exact h.last
  · intro m hm
    rcases hmem m hm with hm | rfl
    · exact h.words m hm
    · exact flags_word _

end Lineage

end PackageSigning
