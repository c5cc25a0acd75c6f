import PackageSigning.Proofs.Lineage.Grants
import PackageSigning.Proofs.Rotation

/-!
# What an update does to a flag word

An update reads five grants off the flag word of one signer, writes the named ones over
them and makes a new word of the five. Of what else the word held nothing is left, so
that bits nobody named are touched, and the update does not count as a change, unless
there was nothing else (`update_touches_named_iff`).
-/

namespace PackageSigning

namespace Capabilities
variable {c : Capabilities} {word : Nat}

/-! ## Words -/

/-- The word that an update makes of a flag word. -/
def rewrite (c : Capabilities) (word : Nat) : Nat := (c.appliedTo (.ofFlags word)).flags

theorem rewrite_lt (c : Capabilities) (word : Nat) : c.rewrite word < 32 := flags_lt _

/-- What is named is as it is said, and the other grants are as they were. -/
theorem testBit_rewrite (c : Capabilities) (word : Nat) (k : Capability) :
    (c.rewrite word).testBit k.place =
      if c.configured.get k then c.granted.get k else word.testBit k.place := by
  rw [rewrite, testBit_flags, get_granted_appliedTo, get_granted_ofFlags, bitAt_natCast]

/-- Only bits that are named change exactly when there are no bits but those of grants. -/
theorem rewrite_touches_named_iff :
    (∀ i, (c.rewrite word).testBit i ≠ word.testBit i →
      ∃ k : Capability, k.place = i ∧ c.configured.get k = true) ↔ word < 32 := by
  constructor
  · intro h
    rw [lt_iff_testBit]
    intro i hbit
    by_contra hi
    -- the bit is dropped, but no capability is at its place
    have hnew : (c.rewrite word).testBit i ≠ true := fun hnew =>
      hi (lt_iff_testBit.mp (c.rewrite_lt word) i hnew)
    obtain ⟨k, hk, _⟩ := h i (by rw [hbit]; exact hnew)
    exact hi (Capability.exists_place_iff.mp ⟨k, hk⟩)
  · intro h i hne
    have hi : i < 5 := by
      cases hbit : word.testBit i with
      | true => exact lt_iff_testBit.mp h i hbit
      | false =>
        rw [hbit] at hne
        exact lt_iff_testBit.mp (c.rewrite_lt word) i (Bool.eq_true_of_not_eq_false hne)
    obtain ⟨k, rfl⟩ := Capability.exists_place_iff.mpr hi
    refine ⟨k, rfl, ?_⟩
    by_contra hnamed
    rw [testBit_rewrite, if_neg hnamed] at hne
    exact hne rfl

/-- The word stays the same when its grants do, and there is nothing else in it. -/
theorem rewrite_eq_iff : c.rewrite word = word ↔
    (ofFlags (c.rewrite word)).granted = (ofFlags word).granted ∧ word < 32 := by
  rw [granted_ofFlags_eq_iff]
  constructor
  · intro h
    refine ⟨fun k => by rw [h], ?_⟩
    rw [← h]
    exact c.rewrite_lt word
  · rintro ⟨hgrants, hlt⟩
    apply Nat.eq_of_testBit_eq
    intro i
    by_contra hne
    obtain ⟨k, rfl, _⟩ := rewrite_touches_named_iff.mpr hlt i hne
    exact hne (hgrants k)

end Capabilities

/-! ## What is written of a lineage after a grant -/

namespace LineageField

theorem exists_number_of_lt {n : Nat} (h : n < bound) :
    ∃ b, number n = .ok b ∧ b.length = 4 :=
  ⟨_, number_ofNat.mpr ⟨h, rfl⟩, Bytes.length_ofNatLittle 4 n⟩

/-- What is counted takes as much room as anything of its length. -/
theorem exists_counted_of_length {x y e : Bytes} (h : counted x = .ok e)
    (hlen : y.length = x.length) : ∃ f, counted y = .ok f ∧ f.length = e.length := by
  obtain ⟨n, hn, rfl⟩ := counted_eq_ok.mp h
  refine ⟨n ++ y, counted_eq_ok.mpr ⟨n, by rw [hlen]; exact hn, rfl⟩, ?_⟩
  rw [List.length_append, List.length_append, hlen]

end LineageField

namespace LineageNode
open LineageField

theorem granting_eq {n : LineageNode} {word : Nat} (h : n.flags = word) (c : Capabilities) :
    n.granting c = { n with flags := (c.rewrite word : Nat) } := by
  rw [granting, capabilities, h]
  rfl

theorem granting_eq_self_iff {n : LineageNode} {word : Nat} (h : n.flags = word)
    (c : Capabilities) : n.granting c = n ↔ c.rewrite word = word := by
  rw [granting_eq h]
  constructor
  · intro heq
    have hflags := congrArg flags heq
    rw [h] at hflags
    exact Int.ofNat.inj hflags
  · intro heq
    rw [heq, ← h]

theorem exists_encode_granting {n : LineageNode} {b : Bytes} (h : n.encode = .ok b)
    (c : Capabilities) : ∃ b', (n.granting c).encode = .ok b' ∧ b'.length = b.length := by
  obtain ⟨st, hst, s, hs, f, hf, a, ha, g, hg, rfl⟩ := encode_eq_ok.mp h
  have hlt : (c.appliedTo n.capabilities).flags < bound :=
    Nat.lt_trans (Capabilities.flags_lt _) (by decide)
  obtain ⟨f', hf', hlen⟩ := exists_number_of_lt hlt
  refine ⟨s ++ f' ++ a ++ g, encode_eq_ok.mpr ⟨st, hst, s, hs, f', hf', a, ha, g, hg, rfl⟩, ?_⟩
  simp only [List.length_append, hlen, length_number hf]

end LineageNode

namespace Lineage
open LineageField

theorem exists_encodeNodes_granting {front back : List LineageNode} {n : LineageNode} {b : Bytes}
    (h : encodeNodes (front ++ n :: back) = .ok b) (c : Capabilities) :
    ∃ b', encodeNodes (front ++ n.granting c :: back) = .ok b' ∧ b'.length = b.length := by
  induction front generalizing b with
  | nil =>
    obtain ⟨x, hx, e, he, r, hr, rfl⟩ := encodeNodes_cons_eq_ok.mp h
    obtain ⟨x', hx', hlen⟩ := LineageNode.exists_encode_granting hx c
    obtain ⟨e', he', hlen⟩ := exists_counted_of_length he hlen
    refine ⟨e' ++ r, encodeNodes_cons_eq_ok.mpr ⟨x', hx', e', he', r, hr, rfl⟩, ?_⟩
    rw [List.length_append, List.length_append, hlen]
  | cons m front ih =>
    obtain ⟨x, hx, e, he, r, hr, rfl⟩ := encodeNodes_cons_eq_ok.mp h
    obtain ⟨r', hr', hlen⟩ := ih hr
    refine ⟨e ++ r', encodeNodes_cons_eq_ok.mpr ⟨x, hx, e, he, r', hr', rfl⟩, ?_⟩
    rw [List.length_append, List.length_append, hlen]

/-- A lineage that is written is written after a grant too, in as many bytes. -/
theorem exists_toBytes_of_grant {l l' : Lineage} {certificate : Certificate} {name : String}
    {c : Capabilities} {data : Bytes} (h : l.grant certificate name c = .ok l')
    (hdata : l.toBytes = .ok data) :
    ∃ data', l'.toBytes = .ok data' ∧ data'.length = data.length := by
  obtain ⟨front, n, back, hl, _, _, rfl⟩ := grant_eq_ok.mp h
  obtain ⟨x, hx, e, he, m, hm, v, hv, rfl⟩ := toBytes_eq_ok.mp hdata
  obtain ⟨body, hbody, w, hw, rfl⟩ := encode_eq_ok.mp hx
  rw [hl] at hbody
  obtain ⟨body', hbody', hlen⟩ := exists_encodeNodes_granting hbody c
  have hlen' : (w ++ body').length = (w ++ body).length := by
    rw [List.length_append, List.length_append, hlen]
  obtain ⟨e', he', hcount⟩ := exists_counted_of_length he hlen'
  refine ⟨m ++ v ++ e', toBytes_eq_ok.mpr ⟨w ++ body', ?_, e', he', m, hm, v, hv, rfl⟩, ?_⟩
  · exact encode_eq_ok.mpr ⟨body', hbody', w, hw, rfl⟩
  · simp only [List.length_append, hcount]

end Lineage

/-! ## Updates -/

namespace Rotation
open Lineage

variable {notary : Notary} {l : Lineage} {signer : LineageSigner} {c : Capabilities}

/-- An update goes through for the signers of a lineage, and reports the capabilities of
the node that it writes over, before and after. -/
theorem exists_update (h : l.includes signer.certificate = true) (c : Capabilities) :
    ∃ front n back u, l.nodes = front ++ n :: back ∧
      n.certificate.der = signer.certificate.der ∧ update l signer c = .ok u ∧
      u.lineage = ⟨front ++ n.granting c :: back, l.minSdk⟩ ∧
      u.before = n.capabilities ∧ u.after = (n.granting c).capabilities := by
  obtain ⟨l', hgrant⟩ := exists_grant h signer.displayName c
  obtain ⟨front, n, back, hl, hfront, hn, rfl⟩ := grant_eq_ok.mp hgrant
  have hfind : l.nodes.find? (·.certificate.der == signer.certificate.der) = some n := by
    rw [List.find?_eq_some_iff_append]
    exact ⟨beq_iff_eq.mpr hn, front, back, hl, fun m hm => by simpa using hfront m hm⟩
  have hafter := find?_of_grant hgrant signer.certificate
  rw [hfind, Option.map_some, if_pos rfl] at hafter
  refine ⟨front, n, back, _, hl, hn, bind_eq_ok.mpr ⟨n.capabilities, ?_, bind_eq_ok.mpr
    ⟨_, hgrant, bind_eq_ok.mpr ⟨(n.granting c).capabilities, ?_, rfl⟩⟩⟩, rfl, rfl, rfl⟩
  · exact capabilitiesOf_eq_ok.mpr ⟨n, hfind, rfl⟩
  · exact capabilitiesOf_eq_ok.mpr ⟨_, hafter, rfl⟩

/-- An update counts as a change when it changes grants. -/
theorem changed_eq_false_iff {u : Update} :
    u.changed = false ↔ u.after.granted = u.before.granted := by
  unfold Update.changed Capabilities.sameGrants
  rw [Bool.not_eq_false', beq_iff_eq, eq_comm]

/-- What is written of two lineages with the same certificates tells their nodes apart. -/
theorem toBytes_eq_iff {l' : Lineage} {data data' : Bytes} (h : l'.certificates = l.certificates)
    (hdata : l.toBytes = .ok data) (hdata' : l'.toBytes = .ok data') :
    data' = data ↔ l'.nodes = l.nodes := by
  constructor
  · rintro rfl
    exact toBytes_injective h hdata' hdata
  · intro hnodes
    exact Except.ok.inj (hdata'.symm.trans ((toBytes_congr hnodes).trans hdata))

/-- No other node of a lineage that verifies has the certificate. -/
theorem others_of_verified {front back : List LineageNode} {n : LineageNode}
    (h : verify notary (front ++ n :: back) = .ok ()) :
    ∀ m ∈ front ++ back, m.certificate.der ≠ n.certificate.der := by
  have hnodup := (verify_eq_ok.mp h).1
  rw [List.map_append, List.map_cons, List.nodup_middle, List.nodup_cons, ← List.map_append] at hnodup
  intro m hm heq
  exact hnodup.1 (List.mem_map.mpr ⟨m, hm, heq⟩)

/-- What an update of a lineage that was read does: the flag word of the signer's node, and
nothing else, is written anew, of five bits. Bits that are named are as they are said, and
the others of the five as they were. No other bit changes exactly when the old word has five
bits too, and exactly then, or when the update counts as a change, it counts as one if and
only if what is written of the lineage changes. -/
theorem update_touches_named_iff (faithful : notary.Faithful) {data : Bytes}
    (h : ofBytes notary data = .ok l) (hsigner : l.includes signer.certificate = true)
    (c : Capabilities) :
    ∃ (front back : List LineageNode) (n : LineageNode) (u : Update) (data' : Bytes) (old new : Nat),
      l.nodes = front ++ n :: back ∧
      (∀ m ∈ front ++ back, m.certificate.der ≠ signer.certificate.der) ∧
      n.certificate.der = signer.certificate.der ∧ n.flags = old ∧ old < 2 ^ 32 ∧
      update l signer c = .ok u ∧
      u.lineage = ⟨front ++ { n with flags := new } :: back, l.minSdk⟩ ∧
      u.lineage.toBytes = .ok data' ∧ new < 2 ^ 5 ∧
      (∀ k : Capability, new.testBit k.place =
        if c.configured.get k then c.granted.get k else old.testBit k.place) ∧
      ((∀ i, new.testBit i ≠ old.testBit i →
        ∃ k : Capability, k.place = i ∧ c.configured.get k = true) ↔ old < 2 ^ 5) ∧
      ((u.changed = false ↔ data' = data) ↔ old < 2 ^ 5 ∨ u.changed = true) := by
  obtain ⟨_, hread, hdata⟩ := (ofBytes_eq_ok faithful).mp h
  obtain ⟨front, n, back, u, hl, hn, hu, hlineage, hbefore, hafter⟩ := exists_update hsigner c
  have hmem : n ∈ l.nodes := by
    rw [hl]
    exact List.mem_append_right _ List.mem_cons_self
  obtain ⟨h0, hbound⟩ := (Orderly.of_read faithful h).words n hmem
  obtain ⟨old, hold⟩ := Int.eq_ofNat_of_zero_le h0
  have hnew := LineageNode.granting_eq hold c
  have hgrant := update_eq_ok hu
  obtain ⟨data', hdata', _⟩ := exists_toBytes_of_grant hgrant hdata
  -- what is written tells the words apart, and the report tells their grants apart
  have hsame : data' = data ↔ c.rewrite old = old := by
    rw [toBytes_eq_iff (certificates_of_grant hgrant) hdata hdata', hlineage, hl]
    simp [LineageNode.granting_eq_self_iff hold]
  have hchanged : u.changed = false ↔
      (Capabilities.ofFlags (c.rewrite old)).granted = (Capabilities.ofFlags old).granted := by
    rw [changed_eq_false_iff, hbefore, hafter, hnew]
    simp only [LineageNode.capabilities, hold]
  refine ⟨front, back, n, u, data', old, c.rewrite old, hl, ?_, hn, hold, ?_, hu, ?_, hdata',
    c.rewrite_lt old, Capabilities.testBit_rewrite c old, Capabilities.rewrite_touches_named_iff, ?_⟩
  · rw [← hn]
    exact others_of_verified (hl ▸ hread.verified)
  · rw [hold] at hbound
    exact Int.ofNat_lt.mp hbound
  · rw [hlineage, hnew]
  · rw [hsame, Capabilities.rewrite_eq_iff, ← hchanged]
    cases u.changed <;> simp

/-- A lineage of one signer, with a flag word. -/
def sampleLineage (word : Int) : Lineage := ⟨[⟨Sample.older.certificate, 0, 0, [], word⟩], 28⟩

/-- The file of that lineage, for a word of one byte. -/
def sampleFile (word : UInt8) : Bytes :=
  [0xd1, 0x39, 0xff, 0x3e] ++ [1, 0, 0, 0] ++ [28, 1, 0, 0] ++ [1, 0, 0, 0] ++ [20, 1, 0, 0] ++
  [4, 1, 0, 0] ++ [252, 0, 0, 0] ++ Sample.older.certificate.der ++ [0, 0, 0, 0] ++
  [word, 0, 0, 0] ++ [0, 0, 0, 0] ++ [0, 0, 0, 0]

theorem sample_update_touches_named_iff :
    Sample.notary.Faithful ∧
    ofBytes Sample.notary (sampleFile 32) = .ok (sampleLineage 32) ∧
    (sampleLineage 32).includes Sample.older.certificate = true ∧
    ∃ u data', update (sampleLineage 32) Sample.older .nothing = .ok u ∧
      u.lineage.toBytes = .ok data' := by
  have read : ofBytes Sample.notary (sampleFile 32) = .ok (sampleLineage 32) := by decide +kernel
  have known : (sampleLineage 32).includes Sample.older.certificate = true := by decide +kernel
  obtain ⟨_, _, _, u, data', _, _, _, _, _, _, _, hu, _, hdata', _⟩ :=
    update_touches_named_iff Notary.recorded_faithful read known .nothing
  exact ⟨Notary.recorded_faithful, read, known, u, data', hu, hdata'⟩

/-- An update that names nothing drops the sixth bit, and does not count as a change. -/
theorem sample_unnamed_bit_dropped :
    ofBytes Sample.notary (sampleFile 32) = .ok (sampleLineage 32) ∧
    (sampleLineage 32).includes Sample.older.certificate = true ∧
    ∃ u, update (sampleLineage 32) Sample.older .nothing = .ok u ∧
      (∀ k, Capabilities.nothing.configured.get k = false) ∧
      u.lineage = sampleLineage 0 ∧ u.changed = false ∧
      u.lineage.toBytes = .ok (sampleFile 0) ∧ sampleFile 0 ≠ sampleFile 32 :=
  ⟨by decide +kernel, by decide +kernel,
    ⟨sampleLineage 0, .ofFlags 32, .ofFlags 0⟩, by decide +kernel, fun k => by cases k <;> rfl, rfl,
    by decide +kernel, by decide +kernel, by decide +kernel⟩

end Rotation
end PackageSigning
