import PackageSigning.Proofs.Lineage.Field
import PackageSigning.Proofs.Lineage.Verification
import PackageSigning.Proofs.Notary.Recorded

/-!
# Lineage files are read as they are written

Reading is taken apart level by level: statements, nodes, the list of nodes, the
lineage with its version, the file with its mark. At each level what is read from
some bytes are exactly the values whose written form the bytes are, and no bytes that
are read are the beginning of others.
-/

namespace PackageSigning
open LineageField

namespace LineageNode
variable {notary : Notary}

/-! ## Statements and nodes -/

theorem statementFields_undoes :
    Reader.Undoes statementFields fun p => do return (← counted p.1) ++ (← number p.2) := by
  intro b p rest
  unfold statementFields
  simp only [Reader.run_bind_eq_ok, Reader.run_pure_eq_ok, Reader.counted_undoes _ _ _,
    Reader.number_undoes _ _ _, bind_eq_ok, pure_eq_ok]
  constructor
  · rintro ⟨c, _, ⟨e, he, rfl⟩, a, _, ⟨n, hn, rfl⟩, rfl, rfl⟩
    exact ⟨e ++ n, ⟨e, he, n, hn, rfl⟩, (List.append_assoc ..).symm⟩
  · rintro ⟨_, ⟨e, he, n, hn, rfl⟩, rfl⟩
    exact ⟨p.1, n ++ rest, ⟨e, he, List.append_assoc ..⟩, p.2, rest, ⟨n, hn, rfl⟩, rfl, rfl⟩

theorem statement_eq_ok {c : Certificate} {a : Int} {b : Bytes} :
    statement c a = .ok b ↔ ∃ d, counted c.der = .ok d ∧ ∃ n, number a = .ok n ∧ d ++ n = b := by
  unfold statement
  simp only [bind_eq_ok, pure_eq_ok]

theorem encode_eq_ok {n : LineageNode} {b : Bytes} :
    n.encode = .ok b ↔ ∃ st, n.signedData = .ok st ∧ ∃ s, counted st = .ok s ∧
      ∃ f, number n.flags = .ok f ∧ ∃ a, number n.algorithm = .ok a ∧
      ∃ g, counted n.signature = .ok g ∧ s ++ f ++ a ++ g = b := by
  unfold encode
  simp only [bind_eq_ok, pure_eq_ok]

/-- What is read off the written form of a node: its certificate, still encoded, and the
node for any certificate in its place. -/
def parts (n : LineageNode) : Bytes × (Certificate → LineageNode) :=
  (n.certificate.der, fun c => { n with certificate := c })

/-- A node is written as its certificate's encoding has it, whatever else is said of the
certificate. -/
theorem encode_eq_of_der {n : LineageNode} {c : Certificate} (h : c.der = n.certificate.der) :
    encode { n with certificate := c } = n.encode := by
  simp only [encode, signedData, statement, h]

theorem fields_run_eq_ok {b rest : Bytes} {p : Bytes × (Certificate → LineageNode)} :
    fields.run b = .ok (p, rest) ↔ ∃ n e, parts n = p ∧ n.encode = .ok e ∧ b = e ++ rest := by
  unfold fields
  simp only [Reader.run_bind_eq_ok, Reader.run_pure_eq_ok, Reader.run_lift_eq_ok,
    Reader.counted_undoes _ _ _, Reader.number_undoes _ _ _, statementFields_undoes.whole_eq_ok]
  constructor
  · rintro ⟨st, _, ⟨s, hs, rfl⟩, ⟨der, parent⟩, _, ⟨hst, rfl⟩, f, _, ⟨fb, hf, rfl⟩, a, _,
      ⟨ab, ha, rfl⟩, g, _, ⟨gb, hg, rfl⟩, rfl, rfl⟩
    refine ⟨⟨⟨der, ⟨[]⟩, ⟨[]⟩, []⟩, parent, a, g, f⟩, s ++ fb ++ ab ++ gb, rfl, ?_, ?_⟩
    · exact encode_eq_ok.mpr ⟨st, hst, s, hs, fb, hf, ab, ha, gb, hg, rfl⟩
    · simp only [List.append_assoc]
  · rintro ⟨⟨c, parent, algorithm, signature, flags⟩, _, rfl, he, rfl⟩
    obtain ⟨st, hst, s, hs, fb, hf, ab, ha, gb, hg, rfl⟩ := encode_eq_ok.mp he
    obtain ⟨d, hd, pb, hp, hdp⟩ := statement_eq_ok.mp hst
    -- the numbers of the node are those that its bytes spell, so none is negative
    obtain ⟨parent, rfl, hp⟩ := exists_nat_of_number hp
    obtain ⟨flags, rfl, hf⟩ := exists_nat_of_number hf
    obtain ⟨algorithm, rfl, ha⟩ := exists_nat_of_number ha
    refine ⟨st, fb ++ ab ++ gb ++ rest, ⟨s, hs, by simp only [List.append_assoc]⟩,
      (c.der, parent), _, ⟨?_, rfl⟩, flags, ab ++ gb ++ rest, ⟨fb, hf, ?_⟩,
      algorithm, gb ++ rest, ⟨ab, ha, ?_⟩, signature, rest, ⟨gb, hg, rfl⟩, rfl, rfl⟩
    · simp only [bind_eq_ok, pure_eq_ok]
      exact ⟨d, hd, pb, hp, hdp⟩
    · simp only [List.append_assoc]
    · simp only [List.append_assoc]

theorem readCertificate_eq_ok {b : Bytes} {c : Certificate} :
    readCertificate notary b = .ok c ↔ notary.readCertificate b = .ok c := by
  unfold readCertificate
  split
  · next h => rw [h]; simp
  · rfl

/-- The nodes that a faithful notary reads from some bytes are the nodes with known
certificates whose written form the bytes are. -/
theorem decode_eq_ok (faithful : notary.Faithful) {b : Bytes} {n : LineageNode} :
    decode notary b = .ok n ↔ notary.Knows n.certificate ∧ n.encode = .ok b := by
  unfold decode
  rw [bind_eq_ok]
  simp only [Reader.whole_eq_ok, bind_eq_ok, pure_eq_ok, readCertificate_eq_ok]
  constructor
  · rintro ⟨p, hp, c, hc, rfl⟩
    obtain ⟨m, e, rfl, he, rfl⟩ := fields_run_eq_ok.mp hp
    refine ⟨faithful.knows hc, ?_⟩
    rw [List.append_nil, ← he]
    exact encode_eq_of_der (faithful _ _ hc)
  · rintro ⟨hk, he⟩
    refine ⟨parts n, ?_, n.certificate, hk, rfl⟩
    exact fields_run_eq_ok.mpr ⟨n, b, rfl, he, (List.append_nil b).symm⟩

theorem decode_prefixFree : PrefixFree (fun b => ∃ n, decode notary b = .ok n) := by
  have hfields : PrefixFree (fun b => ∃ p, fields.whole b = .ok p) := by
    apply Reader.prefixFree_whole
    intro b p surplus hp
    obtain ⟨n, e, hn, he, rfl⟩ := fields_run_eq_ok.mp hp
    exact fields_run_eq_ok.mpr ⟨n, e, hn, he, by rw [List.append_nil]⟩
  rintro b surplus ⟨n, hn⟩ ⟨m, hm⟩
  obtain ⟨p, hp, _⟩ := bind_eq_ok.mp hn
  obtain ⟨q, hq, _⟩ := bind_eq_ok.mp hm
  exact hfields b surplus ⟨p, hp⟩ ⟨q, hq⟩

/-- A node that is written is told by its certificate and its written form. -/
theorem encode_injective {m n : LineageNode} {b : Bytes} (hc : m.certificate = n.certificate)
    (hm : m.encode = .ok b) (hn : n.encode = .ok b) : m = n := by
  -- both nodes are read off the same bytes, but for their certificates
  have h1 := fields_run_eq_ok.mpr ⟨m, b, rfl, hm, (List.append_nil b).symm⟩
  have h2 := fields_run_eq_ok.mpr ⟨n, b, rfl, hn, (List.append_nil b).symm⟩
  have h := h1.symm.trans h2
  simp only [Except.ok.injEq, Prod.mk.injEq, and_true, parts] at h
  have := congrFun h.2 m.certificate
  rw [hc] at this
  cases m; cases n
  simp_all

end LineageNode

namespace Lineage
variable {notary : Notary}

/-! ## Lists of nodes -/

theorem encodeNodes_cons_eq_ok {n : LineageNode} {nodes : List LineageNode} {b : Bytes} :
    encodeNodes (n :: nodes) = .ok b ↔ ∃ x, n.encode = .ok x ∧ ∃ e, counted x = .ok e ∧
      ∃ r, encodeNodes nodes = .ok r ∧ e ++ r = b := by
  simp only [encodeNodes, bind_eq_ok, pure_eq_ok]

theorem encodeNodes_eq_nil {nodes : List LineageNode} : encodeNodes nodes = .ok [] ↔ nodes = [] := by
  cases nodes with
  | nil => simp [encodeNodes]
  | cons n nodes =>
    refine ⟨fun h => ?_, fun h => by cases h⟩
    obtain ⟨x, _, e, he, r, _, hb⟩ := encodeNodes_cons_eq_ok.mp h
    have := length_counted he
    rw [(List.append_eq_nil_iff.mp hb).1, List.length_nil] at this
    omega

theorem decodeNodes_nil_eq_ok {fuel : Nat} {nodes : List LineageNode} :
    decodeNodes notary fuel [] = .ok nodes ↔ nodes = [] := by
  have h : decodeNodes notary fuel [] = .ok [] := by cases fuel <;> rfl
  rw [h, Except.ok.injEq, eq_comm]

theorem decodeNodes_cons_eq_ok {fuel : Nat} {x : UInt8} {b : Bytes} {nodes : List LineageNode} :
    decodeNodes notary (fuel + 1) (x :: b) = .ok nodes ↔
      ∃ enc rest, Reader.counted.run (x :: b) = .ok (enc, rest) ∧
        ∃ n, LineageNode.decode notary enc = .ok n ∧
          ∃ more, decodeNodes notary fuel rest = .ok more ∧ n :: more = nodes := by
  simp only [decodeNodes, bind_eq_ok, pure_eq_ok, Prod.exists]

/-- The nodes that a faithful notary reads from some bytes are the nodes with known
certificates whose written form the bytes are. -/
theorem decodeNodes_eq_ok (faithful : notary.Faithful) {fuel : Nat} {b : Bytes}
    {nodes : List LineageNode} (hfuel : b.length ≤ fuel) :
    decodeNodes notary fuel b = .ok nodes ↔
      (∀ n ∈ nodes, notary.Knows n.certificate) ∧ encodeNodes nodes = .ok b := by
  have hnil (fuel : Nat) (nodes : List LineageNode) : decodeNodes notary fuel [] = .ok nodes ↔
      (∀ n ∈ nodes, notary.Knows n.certificate) ∧ encodeNodes nodes = .ok [] := by
    rw [decodeNodes_nil_eq_ok, encodeNodes_eq_nil]
    exact ⟨fun h => ⟨by simp [h], h⟩, fun h => h.2⟩
  induction fuel generalizing b nodes with
  | zero =>
    obtain rfl := List.length_eq_zero_iff.mp (Nat.le_zero.mp hfuel)
    exact hnil 0 nodes
  | succ fuel ih =>
    cases b with
    | nil => exact hnil (fuel + 1) nodes
    | cons x b =>
      rw [decodeNodes_cons_eq_ok]
      constructor
      · rintro ⟨enc, rest, hr, n, hn, more, hm, rfl⟩
        obtain ⟨e, he, hb⟩ := (Reader.counted_undoes _ _ _).mp hr
        obtain ⟨hk, hn⟩ := (LineageNode.decode_eq_ok faithful).mp hn
        obtain ⟨hks, hm⟩ := (ih (length_behind_counted he hb hfuel)).mp hm
        exact ⟨List.forall_mem_cons.mpr ⟨hk, hks⟩,
          encodeNodes_cons_eq_ok.mpr ⟨enc, hn, e, he, rest, hm, hb.symm⟩⟩
      · rintro ⟨hks, he⟩
        cases nodes with
        | nil => cases he
        | cons n nodes =>
          obtain ⟨hk, hks⟩ := List.forall_mem_cons.mp hks
          obtain ⟨enc, hn, e, he, rest, hm, hb⟩ := encodeNodes_cons_eq_ok.mp he
          have hrest := length_behind_counted he hb.symm hfuel
          refine ⟨enc, rest, (Reader.counted_undoes _ _ _).mpr ⟨e, he, hb.symm⟩, n, ?_, nodes, ?_, rfl⟩
          · exact (LineageNode.decode_eq_ok faithful).mpr ⟨hk, hn⟩
          · exact (ih hrest).mpr ⟨hks, hm⟩

/-- Of two lists of nodes, one written form beginning the other, one list begins the other. -/
theorem exists_append_of_encodeNodes (faithful : notary.Faithful) {nodes nodes' : List LineageNode}
    {b surplus : Bytes} (hk : ∀ n ∈ nodes, notary.Knows n.certificate)
    (hk' : ∀ n ∈ nodes', notary.Knows n.certificate) (h : encodeNodes nodes = .ok b)
    (h' : encodeNodes nodes' = .ok (b ++ surplus)) :
    ∃ more, nodes' = nodes ++ more ∧ encodeNodes more = .ok surplus := by
  induction nodes generalizing nodes' b with
  | nil => cases h; exact ⟨nodes', rfl, h'⟩
  | cons n nodes ih =>
    -- both forms start with the same count, so with the same node
    obtain ⟨x, hx, e, he, r, hr, rfl⟩ := encodeNodes_cons_eq_ok.mp h
    cases nodes' with
    | nil =>
      have hlen := length_counted he
      have hnil : [] = e ++ r ++ surplus := Except.ok.inj h'
      have := congrArg List.length hnil
      simp only [List.length_nil, List.length_append] at this
      omega
    | cons m nodes' =>
      obtain ⟨y, hy, f, hf, r', hr', hb⟩ := encodeNodes_cons_eq_ok.mp h'
      rw [List.append_assoc] at hb
      obtain ⟨rfl, rfl⟩ := Reader.counted_append_inj hf he hb
      have hn := (LineageNode.decode_eq_ok faithful).mpr ⟨hk n List.mem_cons_self, hx⟩
      have hm := (LineageNode.decode_eq_ok faithful).mpr ⟨hk' m List.mem_cons_self, hy⟩
      obtain rfl : n = m := Except.ok.inj (hn.symm.trans hm)
      obtain ⟨more, rfl, hmore⟩ := ih (fun n' h => hk n' (List.mem_cons_of_mem _ h))
        (fun n' h => hk' n' (List.mem_cons_of_mem _ h)) hr hr'
      exact ⟨more, rfl, hmore⟩

/-- Nodes that are written are told by their certificates and their written form. -/
theorem encodeNodes_injective {nodes nodes' : List LineageNode} {b : Bytes}
    (hc : nodes.map (·.certificate) = nodes'.map (·.certificate)) (h : encodeNodes nodes = .ok b)
    (h' : encodeNodes nodes' = .ok b) : nodes = nodes' := by
  induction nodes generalizing nodes' b with
  | nil => exact (List.map_eq_nil_iff.mp hc.symm).symm
  | cons n nodes ih =>
    cases nodes' with
    | nil => cases hc
    | cons m nodes' =>
      obtain ⟨hn, hc⟩ := List.cons.inj hc
      obtain ⟨x, hx, e, he, r, hr, rfl⟩ := encodeNodes_cons_eq_ok.mp h
      obtain ⟨y, hy, f, hf, s, hs, hb⟩ := encodeNodes_cons_eq_ok.mp h'
      obtain ⟨rfl, rfl⟩ := Reader.counted_append_inj hf he hb
      rw [LineageNode.encode_injective hn hx hy, ih hc hr hs]

/-! ## Lineages and files -/

/-- Nodes that make a lineage which is read: there are some, their certificates are known,
and they verify. -/
structure Readable (notary : Notary) (nodes : List LineageNode) : Prop where
  ne_nil : nodes ≠ []
  known : ∀ n ∈ nodes, notary.Knows n.certificate
  verified : verify notary nodes = .ok ()

theorem encode_eq_ok {l : Lineage} {b : Bytes} :
    l.encode = .ok b ↔ ∃ body, encodeNodes l.nodes = .ok body ∧
      ∃ v, number version = .ok v ∧ v ++ body = b := by
  unfold encode
  simp only [bind_eq_ok, pure_eq_ok]

theorem toBytes_eq_ok {l : Lineage} {b : Bytes} :
    l.toBytes = .ok b ↔ ∃ x, l.encode = .ok x ∧ ∃ body, counted x = .ok body ∧
      ∃ m, number magic = .ok m ∧ ∃ v, number fileVersion = .ok v ∧ m ++ v ++ body = b := by
  unfold toBytes
  simp only [bind_eq_ok, pure_eq_ok]

/-- Flag words that are written fit into their field. -/
theorem flags_of_encodeNodes {nodes : List LineageNode} {b : Bytes} (h : encodeNodes nodes = .ok b) :
    ∀ n ∈ nodes, 0 ≤ n.flags ∧ n.flags < bound := by
  induction nodes generalizing b with
  | nil => simp
  | cons n nodes ih =>
    obtain ⟨x, hx, _, _, r, hr, _⟩ := encodeNodes_cons_eq_ok.mp h
    obtain ⟨_, _, _, _, f, hf, _⟩ := LineageNode.encode_eq_ok.mp hx
    intro m hm
    rcases List.mem_cons.mp hm with rfl | hm
    · exact (number_eq_ok.mp hf).1
    · exact ih hr m hm

theorem decode_eq_ok (faithful : notary.Faithful) {b : Bytes} {l : Lineage} :
    decode notary b = .ok l ↔
      l.minSdk = defaultMinSdk ∧ Readable notary l.nodes ∧ l.encode = .ok b := by
  unfold decode
  simp only [bind_eq_ok, Prod.exists, refuse_if_eq_ok, pure_eq_ok,
    Decidable.not_not, Reader.number_undoes _ _ _, List.isEmpty_iff, encode_eq_ok]
  constructor
  · rintro ⟨v, rest, ⟨e, he, rfl⟩, rfl, nodes, hn, hne, ⟨⟩, hv, rfl⟩
    obtain ⟨hk, hb⟩ := (decodeNodes_eq_ok faithful (Nat.le_refl _)).mp hn
    exact ⟨rfl, ⟨hne, hk, hv⟩, rest, hb, e, he, rfl⟩
  · rintro ⟨hsdk, ⟨hne, hk, hv⟩, rest, hb, e, he, rfl⟩
    refine ⟨version, rest, ⟨e, he, rfl⟩, rfl, l.nodes, ?_, hne, (), hv, ?_⟩
    · exact (decodeNodes_eq_ok faithful (Nat.le_refl _)).mpr ⟨hk, hb⟩
    · rw [← hsdk]

/-- What is written of a lineage is written of its nodes. -/
theorem toBytes_congr {l l' : Lineage} (h : l.nodes = l'.nodes) : l.toBytes = l'.toBytes := by
  simp only [toBytes, encode, h]

theorem toBytes_injective {l l' : Lineage} {b : Bytes}
    (hc : l.nodes.map (·.certificate) = l'.nodes.map (·.certificate)) (h : l.toBytes = .ok b)
    (h' : l'.toBytes = .ok b) : l.nodes = l'.nodes := by
  obtain ⟨x, hx, body, hbody, m, hm, v, hv, rfl⟩ := toBytes_eq_ok.mp h
  obtain ⟨x', hx', body', hbody', m', hm', v', hv', hb⟩ := toBytes_eq_ok.mp h'
  obtain rfl : m = m' := Except.ok.inj (hm.symm.trans hm')
  obtain rfl : v = v' := Except.ok.inj (hv.symm.trans hv')
  rw [List.append_cancel_left_eq] at hb
  subst hb
  obtain ⟨rfl, _⟩ := Reader.counted_append_inj (r := []) hbody hbody' rfl
  obtain ⟨nodes, hnodes, w, hw, rfl⟩ := encode_eq_ok.mp hx
  obtain ⟨nodes', hnodes', w', hw', hb⟩ := encode_eq_ok.mp hx'
  obtain rfl : w = w' := Except.ok.inj (hw.symm.trans hw')
  rw [List.append_cancel_left_eq] at hb
  subst hb
  exact encodeNodes_injective hc hnodes hnodes'

/-- The lineages that a faithful notary reads from a file are the readable ones whose
written form the file is. -/
theorem ofBytes_eq_ok (faithful : notary.Faithful) {b : Bytes} {l : Lineage} :
    ofBytes notary b = .ok l ↔
      l.minSdk = defaultMinSdk ∧ Readable notary l.nodes ∧ l.toBytes = .ok b := by
  unfold ofBytes
  simp only [bind_eq_ok, Prod.exists, refuse_if_eq_ok, pure_eq_ok, Decidable.not_not,
    Reader.number_undoes _ _ _, Reader.counted_undoes _ _ _, decode_eq_ok faithful, toBytes_eq_ok]
  constructor
  · rintro ⟨m, _, ⟨mb, hm, rfl⟩, rfl, v, _, ⟨vb, hv, rfl⟩, rfl, body, rest, ⟨e, he, rfl⟩, l',
      ⟨hsdk, hr, hl⟩, _, _, hend, rfl⟩
    cases rest with
    | nil => exact ⟨hsdk, hr, body, hl, e, he, mb, hm, vb, hv, by simp only [List.append_assoc, List.append_nil]⟩
    | cons x rest => cases hend
  · rintro ⟨hsdk, hr, body, hl, e, he, mb, hm, vb, hv, rfl⟩
    refine ⟨magic, vb ++ e, ⟨mb, hm, List.append_assoc ..⟩, rfl, fileVersion, e, ⟨vb, hv, rfl⟩, rfl,
      body, [], ⟨e, he, (List.append_nil e).symm⟩, l, ⟨hsdk, hr, hl⟩, (), [], rfl, rfl⟩

/-- A lineage whose last node is followed by more nodes does not verify. -/
theorem not_verify_append {nodes more : List LineageNode} (hne : nodes ≠ []) (hmore : more ≠ [])
    (h : verify notary nodes = .ok ()) : verify notary (nodes ++ more) ≠ .ok () := by
  intro h'
  obtain ⟨_, _, _, hlast⟩ := verify_eq_ok.mp h
  obtain ⟨_, _, hchain, _⟩ := verify_eq_ok.mp h'
  cases more with
  | nil => exact hmore rfl
  | cons n more =>
    -- the last of the nodes names no algorithm, yet the first one after them is linked to it
    have hlink := (List.isChain_append.mp hchain).2.2 (nodes.getLast hne)
      (List.getLast?_eq_some_getLast hne) n rfl
    exact hlink.algorithm_ne_zero (hlast _ (List.getLast?_eq_some_getLast hne))

theorem decode_prefixFree (faithful : notary.Faithful) :
    PrefixFree (fun b => ∃ l, decode notary b = .ok l) := by
  rintro b surplus ⟨l, hl⟩ ⟨l', hl'⟩
  obtain ⟨_, hr, he⟩ := (decode_eq_ok faithful).mp hl
  obtain ⟨_, hr', he'⟩ := (decode_eq_ok faithful).mp hl'
  obtain ⟨body, hbody, v, hv, rfl⟩ := encode_eq_ok.mp he
  obtain ⟨body', hbody', v', hv', hb⟩ := encode_eq_ok.mp he'
  obtain rfl : v' = v := Except.ok.inj (hv'.symm.trans hv)
  rw [List.append_assoc, List.append_cancel_left_eq] at hb
  subst hb
  obtain ⟨more, hnodes, hmore⟩ :=
    exists_append_of_encodeNodes faithful hr.known hr'.known hbody hbody'
  cases more with
  | nil => exact (Except.ok.inj hmore).symm
  | cons n more =>
    have hv := hr'.verified
    rw [hnodes] at hv
    exact absurd hv (not_verify_append hr.ne_nil (List.cons_ne_nil n more) hr.verified)

/-- The number in front of a file's lineage says where the file ends. -/
theorem ofBytes_prefixFree (faithful : notary.Faithful) :
    PrefixFree (fun b => ∃ l, ofBytes notary b = .ok l) := by
  rintro b surplus ⟨l, hl⟩ ⟨l', hl'⟩
  obtain ⟨_, _, hb⟩ := (ofBytes_eq_ok faithful).mp hl
  obtain ⟨_, _, hb'⟩ := (ofBytes_eq_ok faithful).mp hl'
  obtain ⟨x, _, body, hbody, m, hm, v, hv, rfl⟩ := toBytes_eq_ok.mp hb
  obtain ⟨x', _, body', hbody', m', hm', v', hv', he⟩ := toBytes_eq_ok.mp hb'
  obtain rfl : m' = m := Except.ok.inj (hm'.symm.trans hm)
  obtain rfl : v' = v := Except.ok.inj (hv'.symm.trans hv)
  rw [List.append_assoc (m' ++ v'), List.append_cancel_left_eq] at he
  subst he
  exact (Reader.counted_append_inj hbody hbody' (List.append_nil _).symm).2

/-- Files are read exactly as they are written. A file holds nodes exactly when there are
some, they verify, and the file is their written form; so it is written again as it was,
two files never hold the same nodes, and at no level is there room behind the content. -/
theorem reads_exactly_what_is_written (faithful : notary.Faithful) :
    (∀ data nodes, (∀ n ∈ nodes, notary.Knows n.certificate) →
      ((∃ l, ofBytes notary data = .ok l ∧ l.nodes = nodes) ↔
        nodes ≠ [] ∧ verify notary nodes = .ok () ∧ ∀ minSdk, toBytes ⟨nodes, minSdk⟩ = .ok data)) ∧
    (∀ data l, ofBytes notary data = .ok l →
      (∀ n ∈ l.nodes, notary.Knows n.certificate) ∧ l.toBytes = .ok data) ∧
    (∀ data data' l l', ofBytes notary data = .ok l → ofBytes notary data' = .ok l' →
      l.nodes = l'.nodes → data = data') ∧
    PrefixFree (fun data => ∃ l, ofBytes notary data = .ok l) ∧
    PrefixFree (fun body => ∃ l, decode notary body = .ok l) ∧
    PrefixFree (fun node => ∃ n, LineageNode.decode notary node = .ok n) ∧
    PrefixFree (fun signed => ∃ p, LineageNode.statementFields.whole signed = .ok p) := by
  refine ⟨?_, ?_, ?_, ofBytes_prefixFree faithful, decode_prefixFree faithful,
    LineageNode.decode_prefixFree, LineageNode.statementFields_undoes.prefixFree⟩
  · intro data nodes hk
    constructor
    · rintro ⟨l, hl, rfl⟩
      obtain ⟨_, hr, hb⟩ := (ofBytes_eq_ok faithful).mp hl
      exact ⟨hr.ne_nil, hr.verified, fun minSdk => hb⟩
    · rintro ⟨hne, hv, hb⟩
      refine ⟨⟨nodes, defaultMinSdk⟩, ?_, rfl⟩
      exact (ofBytes_eq_ok faithful).mpr ⟨rfl, ⟨hne, hk, hv⟩, hb defaultMinSdk⟩
  · intro data l hl
    obtain ⟨_, hr, hb⟩ := (ofBytes_eq_ok faithful).mp hl
    exact ⟨hr.known, hb⟩
  · intro data data' l l' hl hl' hnodes
    obtain ⟨_, _, hb⟩ := (ofBytes_eq_ok faithful).mp hl
    obtain ⟨_, _, hb'⟩ := (ofBytes_eq_ok faithful).mp hl'
    exact Except.ok.inj (hb.symm.trans ((toBytes_congr hnodes).trans hb'))

theorem sample_read_and_written :
    Sample.notary.Faithful ∧ (∀ n ∈ Sample.nodes, Sample.notary.Knows n.certificate) ∧
    ofBytes Sample.notary Sample.file = .ok ⟨Sample.nodes, 28⟩ ∧
    Sample.nodes ≠ [] ∧ verify Sample.notary Sample.nodes = .ok () ∧
    ∀ minSdk, toBytes ⟨Sample.nodes, minSdk⟩ = .ok Sample.file := by
  have known : ∀ n ∈ Sample.nodes, Sample.notary.Knows n.certificate := by decide +kernel
  have read : ofBytes Sample.notary Sample.file = .ok ⟨Sample.nodes, 28⟩ := by decide +kernel
  refine ⟨Notary.recorded_faithful, known, read, ?_⟩
  exact ((reads_exactly_what_is_written Notary.recorded_faithful).1 _ _ known).mp ⟨_, read, rfl⟩

end Lineage
end PackageSigning
