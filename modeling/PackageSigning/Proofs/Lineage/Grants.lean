import PackageSigning.Proofs.Lineage.Growth

/-!
# Granting again and again

A grant writes the capabilities it names over those of one signer. Of several grants the
last one that names a capability of a signer counts (`last_grant_counts`), within a grant
the last choice, and grants to different signers can be made in either order. Nothing but
flags changes.
-/

namespace PackageSigning

/-- The last word of some speakers, of whom each may say something. -/
def lastWord {α β : Type} (word : α → Option β) (speakers : List α) : Option β :=
  (speakers.filterMap word).getLast?

theorem lastWord_cons {α β : Type} (word : α → Option β) (a : α) (rest : List α) :
    lastWord word (a :: rest) = (lastWord word rest).or (word a) := by
  unfold lastWord
  cases hword : word a with
  | none => rw [List.filterMap_cons_none hword, Option.or_none]
  | some b =>
    rw [List.filterMap_cons_some hword, List.getLast?_cons]
    cases (rest.filterMap word).getLast? <;> rfl

namespace CapabilityChoices

/-- What a choice says on a capability. -/
def word (k : Capability) (choice : Capability × Bool) : Option Bool :=
  if choice.1 = k then some choice.2 else none

/-- Choices made one after the other. -/
def chooseAll (choices : CapabilityChoices) (said : List (Capability × Bool)) : CapabilityChoices :=
  said.foldl (fun choices p => choices.choose p.1 p.2) choices

theorem get_chooseAll (choices : CapabilityChoices) (said : List (Capability × Bool))
    (k : Capability) : (choices.chooseAll said).get k = (lastWord (word k) said).or (choices.get k) := by
  induction said generalizing choices with
  | nil => rfl
  | cons p said ih =>
    have hstep : (choices.chooseAll (p :: said)).get k =
        ((choices.choose p.1 p.2).chooseAll said).get k := rfl
    rw [hstep, ih, choose, CapabilityMap.get_set, lastWord_cons, Option.or_assoc, word]
    by_cases hk : p.1 = k
    · rw [if_pos hk, if_pos hk.symm, Option.some_or]
    · rw [if_neg hk, if_neg (Ne.symm hk), Option.none_or]

@[simp] theorem get_configured_freeze (choices : CapabilityChoices) (k : Capability) :
    choices.freeze.configured.get k = (choices.get k).isSome := CapabilityMap.get_ofFunction _ _

@[simp] theorem get_granted_freeze (choices : CapabilityChoices) (k : Capability) :
    choices.freeze.granted.get k = (choices.get k).getD false := CapabilityMap.get_ofFunction _ _

end CapabilityChoices

/-- What a signer is granted, choice by choice. -/
structure Grant where
  certificate : Certificate
  name : String
  said : List (Capability × Bool)

namespace Grant

/-- The capabilities that the choices come to. -/
def capabilities (g : Grant) : Capabilities := (CapabilityChoices.empty.chooseAll g.said).freeze

/-- What the grant says on a capability of the bearer of a certificate. -/
def word (signer : Certificate) (k : Capability) (g : Grant) : Option Bool :=
  if g.certificate.der = signer.der then lastWord (CapabilityChoices.word k) g.said else none

/-- What was said counts, and for what was not said the present value. -/
theorem get_capabilities_appliedTo (g : Grant) (current : Capabilities) (k : Capability) :
    (g.capabilities.appliedTo current).granted.get k =
      (lastWord (CapabilityChoices.word k) g.said).getD (current.granted.get k) := by
  have hget : (CapabilityChoices.empty.chooseAll g.said).get k =
      lastWord (CapabilityChoices.word k) g.said := by
    rw [CapabilityChoices.get_chooseAll, CapabilityChoices.empty, CapabilityMap.get_const,
      Option.or_none]
  rw [Capabilities.get_granted_appliedTo, capabilities, CapabilityChoices.get_configured_freeze,
    CapabilityChoices.get_granted_freeze, hget]
  cases lastWord (CapabilityChoices.word k) g.said <;> rfl

end Grant

namespace LineageNode

/-- The capabilities of a node are those that were granted, over those that it had. -/
theorem granted_capabilities_granting (n : LineageNode) (c : Capabilities) :
    (n.granting c).capabilities.granted = (c.appliedTo n.capabilities).granted :=
  Capabilities.granted_ofFlags_flags _

end LineageNode

namespace Lineage
variable {notary : Notary} {l l' : Lineage} {certificate signer : Certificate} {name : String}

/-! ## One grant -/

theorem capabilitiesOf_eq_ok {c : Capabilities} : l.capabilitiesOf certificate name = .ok c ↔
    ∃ n, l.nodes.find? (·.certificate.der == certificate.der) = some n ∧ n.capabilities = c := by
  rw [List.find?_eq_bind_findIdx?_getElem?]
  unfold capabilitiesOf indexOf
  cases l.nodes.findIdx? (·.certificate.der == certificate.der) with
  | none => simp [bind, Except.bind]
  | some i =>
    cases hn : l.nodes[i]? <;> simp [bind, Except.bind, pure, Except.pure, throw, throwThe,
      MonadExceptOf.throw, hn]

theorem exists_capabilitiesOf (h : l.includes signer = true) (name : String) :
    ∃ c, l.capabilitiesOf signer name = .ok c := by
  obtain ⟨n, hn⟩ := Option.isSome_iff_exists.mp (List.find?_isSome.mpr (List.any_eq_true.mp h))
  exact ⟨_, capabilitiesOf_eq_ok.mpr ⟨n, hn, rfl⟩⟩

theorem find?_of_grant {c : Capabilities} (h : l.grant certificate name c = .ok l')
    (signer : Certificate) :
    l'.nodes.find? (·.certificate.der == signer.der) =
      (l.nodes.find? (·.certificate.der == signer.der)).map fun n =>
        if certificate.der = signer.der then n.granting c else n := by
  obtain ⟨front, n, back, hl, hfront, hn, rfl⟩ := grant_eq_ok.mp h
  rw [hl, List.find?_append, List.find?_append, List.find?_cons, List.find?_cons,
    LineageNode.certificate_granting, hn]
  by_cases hsigner : certificate.der = signer.der
  · -- the node that is written over is the one that is found
    have hnone : front.find? (·.certificate.der == signer.der) = none := by
      rw [List.find?_eq_none]
      intro m hm
      rw [beq_iff_eq, ← hsigner]
      exact hfront m hm
    simp [hnone, hsigner]
  · simp only [hsigner, if_false, Option.map_id', beq_eq_false_iff_ne.mpr hsigner]

/-- A grant says its word on the capabilities of each signer, and they stay for the rest. -/
theorem get_capabilitiesOf_grant {g : Grant} {before : Capabilities}
    (h : l.grant g.certificate g.name g.capabilities = .ok l')
    (hbefore : l.capabilitiesOf signer name = .ok before) :
    ∃ after, l'.capabilitiesOf signer name = .ok after ∧
      ∀ k, after.granted.get k = (g.word signer k).getD (before.granted.get k) := by
  obtain ⟨n, hn, rfl⟩ := capabilitiesOf_eq_ok.mp hbefore
  have hfind := find?_of_grant h signer
  rw [hn, Option.map_some] at hfind
  refine ⟨_, capabilitiesOf_eq_ok.mpr ⟨_, hfind, rfl⟩, ?_⟩
  intro k
  unfold Grant.word
  by_cases hsigner : g.certificate.der = signer.der
  · rw [if_pos hsigner, if_pos hsigner, LineageNode.granted_capabilities_granting,
      Grant.get_capabilities_appliedTo]
  · rw [if_neg hsigner, if_neg hsigner, Option.getD_none]

theorem indexOf_of_certificates (h : l'.certificates = l.certificates) (certificate : Certificate)
    (name : String) : l'.indexOf certificate name = l.indexOf certificate name := by
  have hfind (l : Lineage) : l.nodes.findIdx? (·.certificate.der == certificate.der) =
      l.certificates.findIdx? (·.der == certificate.der) := by
    rw [certificates, List.findIdx?_map]
    rfl
  unfold indexOf
  rw [hfind, hfind, h]

theorem includes_of_certificates (h : l'.certificates = l.certificates) (signer : Certificate) :
    l'.includes signer = l.includes signer := by
  have hany (l : Lineage) : l.includes signer = l.certificates.any (·.der == signer.der) := by
    rw [certificates, List.any_map]
    rfl
  rw [hany, hany, h]

/-! ## Grants one after the other -/

/-- Grants made one after the other. -/
def grantAll (l : Lineage) (gs : List Grant) : Except Fault Lineage :=
  gs.foldlM (fun l g => l.grant g.certificate g.name g.capabilities) l

theorem grantAll_cons_eq_ok {g : Grant} {gs : List Grant} : l.grantAll (g :: gs) = .ok l' ↔
    ∃ m, l.grant g.certificate g.name g.capabilities = .ok m ∧ m.grantAll gs = .ok l' := by
  unfold grantAll
  rw [List.foldlM_cons, bind_eq_ok]

theorem grantAll_append_eq_ok {gs hs : List Grant} : l.grantAll (gs ++ hs) = .ok l' ↔
    ∃ m, l.grantAll gs = .ok m ∧ m.grantAll hs = .ok l' := by
  unfold grantAll
  rw [List.foldlM_append, bind_eq_ok]

theorem exists_grantAll {gs : List Grant} (known : ∀ g ∈ gs, l.includes g.certificate = true) :
    ∃ l', l.grantAll gs = .ok l' := by
  induction gs generalizing l with
  | nil => exact ⟨l, rfl⟩
  | cons g gs ih =>
    obtain ⟨hg, hgs⟩ := List.forall_mem_cons.mp known
    obtain ⟨m, hm⟩ := exists_grant hg g.name g.capabilities
    have hm' (h : Grant) (hh : h ∈ gs) : m.includes h.certificate = true := by
      rw [includes_of_certificates (certificates_of_grant hm)]
      exact hgs h hh
    obtain ⟨l', hl'⟩ := ih hm'
    exact ⟨l', grantAll_cons_eq_ok.mpr ⟨m, hm, hl'⟩⟩

theorem map_bare_of_grantAll {gs : List Grant} (h : l.grantAll gs = .ok l') :
    l'.nodes.map LineageNode.bare = l.nodes.map LineageNode.bare := by
  induction gs generalizing l with
  | nil => rw [pure_eq_ok.mp h]
  | cons g gs ih =>
    obtain ⟨m, hm, h⟩ := grantAll_cons_eq_ok.mp h
    rw [ih h, map_bare_of_grant hm]

theorem minSdk_of_grant {c : Capabilities} (h : l.grant certificate name c = .ok l') :
    l'.minSdk = l.minSdk := by
  obtain ⟨_, _, _, _, _, _, rfl⟩ := grant_eq_ok.mp h
  rfl

theorem minSdk_of_grantAll {gs : List Grant} (h : l.grantAll gs = .ok l') :
    l'.minSdk = l.minSdk := by
  induction gs generalizing l with
  | nil => rw [pure_eq_ok.mp h]
  | cons g gs ih =>
    obtain ⟨m, hm, h⟩ := grantAll_cons_eq_ok.mp h
    rw [ih h, minSdk_of_grant hm]

/-- The last word of several grants counts. -/
theorem get_capabilitiesOf_grantAll {gs : List Grant} {before : Capabilities}
    (h : l.grantAll gs = .ok l') (hbefore : l.capabilitiesOf signer name = .ok before) :
    ∃ after, l'.capabilitiesOf signer name = .ok after ∧ ∀ k,
      after.granted.get k = (lastWord (Grant.word signer k) gs).getD (before.granted.get k) := by
  induction gs generalizing l before with
  | nil =>
    rw [← pure_eq_ok.mp h]
    exact ⟨before, hbefore, fun _ => rfl⟩
  | cons g gs ih =>
    obtain ⟨m, hm, h⟩ := grantAll_cons_eq_ok.mp h
    obtain ⟨middle, hmiddle, hword⟩ := get_capabilitiesOf_grant hm hbefore
    obtain ⟨after, hafter, hlast⟩ := ih h hmiddle
    refine ⟨after, hafter, ?_⟩
    intro k
    rw [hlast, hword, lastWord_cons]
    cases lastWord (Grant.word signer k) gs <;> rfl

/-- Grants to different signers can be made in either order. -/
theorem grant_comm {c d : Certificate} {cname dname : String} {a b : Capabilities} {m : Lineage}
    (hne : c.der ≠ d.der) (hm : l.grant c cname a = .ok m) (h : m.grant d dname b = .ok l') :
    ∃ m', l.grant d dname b = .ok m' ∧ m'.grant c cname a = .ok l' := by
  obtain ⟨i, hi, hm'⟩ := bind_eq_ok.mp hm
  obtain ⟨j, hj, h⟩ := bind_eq_ok.mp h
  rw [indexOf_of_certificates (certificates_of_grant hm)] at hj
  -- the two nodes have different certificates, so they are at different places
  have hij : i ≠ j := by
    rintro rfl
    obtain ⟨front, n, back, hl, _, hn, hlen⟩ := indexOf_eq_ok.mp hi
    obtain ⟨front', n', back', hl', _, hn', hlen'⟩ := indexOf_eq_ok.mp hj
    obtain ⟨_, hrest⟩ := List.append_inj (hl.symm.trans hl') (hlen.trans hlen'.symm)
    rw [(List.cons.inj hrest).1] at hn
    exact hne (hn.symm.trans hn')
  have hgrant : l.grant d dname b = .ok ⟨l.nodes.modify j (·.granting b), l.minSdk⟩ :=
    bind_eq_ok.mpr ⟨j, hj, rfl⟩
  refine ⟨_, hgrant, bind_eq_ok.mpr ⟨i, ?_, ?_⟩⟩
  · rw [indexOf_of_certificates (certificates_of_grant hgrant)]
    exact hi
  · rw [← h, ← pure_eq_ok.mp hm', List.modify_modify_ne _ _ _ hij]

theorem grantAll_swap {earlier later : List Grant} {g h : Grant}
    (hne : g.certificate.der ≠ h.certificate.der)
    (hl : l.grantAll (earlier ++ g :: h :: later) = .ok l') :
    l.grantAll (earlier ++ h :: g :: later) = .ok l' := by
  obtain ⟨m, hm, hl⟩ := grantAll_append_eq_ok.mp hl
  obtain ⟨x, hx, hl⟩ := grantAll_cons_eq_ok.mp hl
  obtain ⟨y, hy, hl⟩ := grantAll_cons_eq_ok.mp hl
  obtain ⟨x', hx', hy'⟩ := grant_comm hne hx hy
  refine grantAll_append_eq_ok.mpr ⟨m, hm, grantAll_cons_eq_ok.mpr ⟨x', hx', ?_⟩⟩
  exact grantAll_cons_eq_ok.mpr ⟨y, hy', hl⟩

/-- After any grants to signers of a lineage that verifies, each signer has, capability by
capability, what the last grant that says something on it says last, or else what it had.
All but the flags is as before, the lineage verifies still, and neighbours among the grants
that go to different signers can change places. -/
theorem last_grant_counts (verified : verify notary l.nodes = .ok ()) {gs : List Grant}
    (known : ∀ g ∈ gs, l.includes g.certificate = true) :
    ∃ l', l.grantAll gs = .ok l' ∧
      (∀ signer name, l.includes signer = true → ∃ before after,
        l.capabilitiesOf signer name = .ok before ∧ l'.capabilitiesOf signer name = .ok after ∧
        ∀ k, after.granted.get k =
          (lastWord (Grant.word signer k) gs).getD (before.granted.get k)) ∧
      l'.nodes.map LineageNode.bare = l.nodes.map LineageNode.bare ∧ l'.minSdk = l.minSdk ∧
      verify notary l'.nodes = .ok () ∧
      ∀ earlier g h later, gs = earlier ++ g :: h :: later →
        g.certificate.der ≠ h.certificate.der →
        ∃ m, l.grantAll (earlier ++ h :: g :: later) = .ok m ∧ m.toBytes = l'.toBytes := by
  obtain ⟨l', hl'⟩ := exists_grantAll known
  have hbare := map_bare_of_grantAll hl'
  refine ⟨l', hl', ?_, hbare, minSdk_of_grantAll hl', ?_, ?_⟩
  · intro signer name hsigner
    obtain ⟨before, hbefore⟩ := exists_capabilitiesOf hsigner name
    obtain ⟨after, hafter, hlast⟩ := get_capabilitiesOf_grantAll hl' hbefore
    exact ⟨before, after, hbefore, hafter, hlast⟩
  · rw [← verify_bare, hbare, verify_bare]
    exact verified
  · rintro earlier g h later rfl hne
    exact ⟨l', grantAll_swap hne hl', rfl⟩

/-- Two grants to the older of two signers, and one to the younger in between. -/
def sampleGrants : List Grant :=
  [⟨Sample.older.certificate, "older", [(.auth, true), (.rollback, true), (.auth, false)]⟩,
   ⟨Sample.younger.certificate, "younger", [(.permission, true)]⟩,
   ⟨Sample.older.certificate, "older", [(.rollback, false), (.sharedUid, true)]⟩]

theorem sample_last_grant_counts :
    verify Sample.notary Sample.nodes = .ok () ∧
    (∀ g ∈ sampleGrants, includes ⟨Sample.nodes, 28⟩ g.certificate = true) ∧
    ∃ l', grantAll ⟨Sample.nodes, 28⟩ sampleGrants = .ok l' ∧
      verify Sample.notary l'.nodes = .ok () := by
  have verified : verify Sample.notary Sample.nodes = .ok () := by decide +kernel
  have older : includes ⟨Sample.nodes, 28⟩ Sample.older.certificate = true := by decide +kernel
  have younger : includes ⟨Sample.nodes, 28⟩ Sample.younger.certificate = true := by decide +kernel
  have known : ∀ g ∈ sampleGrants, includes ⟨Sample.nodes, 28⟩ g.certificate = true := by
    simp only [sampleGrants, List.forall_mem_cons]
    exact ⟨older, younger, older, fun _ h => absurd h List.not_mem_nil⟩
  obtain ⟨l', hl', _, _, _, hverify, _⟩ :=
    last_grant_counts (l := ⟨Sample.nodes, 28⟩) verified known
  exact ⟨verified, known, l', hl', hverify⟩

end Lineage
end PackageSigning
