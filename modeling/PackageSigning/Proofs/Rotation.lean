import Mathlib.Tactic.Tauto
import PackageSigning.Proofs.Lineage.Growth
import PackageSigning.Rotation

/-!
# What rotations do to lineages

A rotation sets the capabilities of the old signer before it hands over, so one that is
rejected by the handover leaves the lineage changed (`rejected_rotation_touches_iff`).
Nor does it look at what reading a lineage back insists on: that the new certificate is
new and that the key belongs to the old one. What it returns reads back exactly when
that was so in all rotations that made it (`made_reads_back_iff`).
-/

namespace PackageSigning.Rotation
open Lineage

variable {notary : Notary} {old new : LineageSigner} {oldCapabilities newCapabilities : Capabilities}
  {minSdk : Int}

/-- The last signer of a lineage has a certificate. -/
def EndsWith (l : Lineage) (certificate : Certificate) : Prop :=
  l.certificates.getLast?.map (·.der) = some certificate.der

theorem endsWith_iff {l : Lineage} {certificate : Certificate} : EndsWith l certificate ↔
    ∃ rest last, l.nodes = rest ++ [last] ∧ last.certificate.der = certificate.der := by
  obtain ⟨nodes, minSdk⟩ := l
  unfold EndsWith certificates
  rcases List.eq_nil_or_concat' nodes with rfl | ⟨rest, last, rfl⟩
  · simp
  · simp only [List.map_append, List.map_cons, List.map_nil, List.getLast?_concat, Option.map_some,
      Option.some.injEq]
    constructor
    · intro h
      exact ⟨rest, last, rfl, h⟩
    · rintro ⟨rest', last', hl, h⟩
      obtain ⟨-, hlast⟩ := List.append_inj' hl rfl
      rw [(List.cons.inj hlast).1]
      exact h

theorem EndsWith.includes {l : Lineage} {certificate : Certificate}
    (h : EndsWith l certificate) : l.includes certificate = true := by
  obtain ⟨rest, last, hl, hlast⟩ := endsWith_iff.mp h
  exact List.any_eq_true.mpr ⟨last, last_mem hl, beq_iff_eq.mpr hlast⟩

theorem rotate_of_endsWith {l updated : Lineage} (h : EndsWith l old.certificate)
    (hu : l.grant old.certificate old.displayName oldCapabilities = .ok updated) :
    rotate notary old new oldCapabilities newCapabilities (some l) minSdk =
      (updated.spawn notary old new newCapabilities, some updated) := by
  have hlast := h
  unfold EndsWith at hlast
  simp only [rotate, h.includes, hlast, hu, Bool.not_true, Bool.false_eq_true, if_false,
    ne_eq, not_true_eq_false]

/-- A rotation of an existing lineage either is refused for its old signer, and does
nothing, or sets that signer's capabilities and goes on to the handover. -/
theorem rotate_cases {l : Lineage} {outcome : Except Fault Lineage} {after : Option Lineage}
    (h : rotate notary old new oldCapabilities newCapabilities (some l) minSdk = (outcome, after)) :
    (¬EndsWith l old.certificate ∧ (∃ fault, outcome = .error fault) ∧ after = some l) ∨
    (EndsWith l old.certificate ∧ ∃ updated,
      l.grant old.certificate old.displayName oldCapabilities = .ok updated ∧
      outcome = updated.spawn notary old new newCapabilities ∧ after = some updated) := by
  by_cases hends : EndsWith l old.certificate
  · obtain ⟨updated, hu⟩ := exists_grant hends.includes old.displayName oldCapabilities
    rw [rotate_of_endsWith hends hu] at h
    obtain ⟨rfl, rfl⟩ := Prod.mk.inj h
    exact .inr ⟨hends, updated, hu, rfl, rfl⟩
  · -- whether or not the signer is somewhere in the lineage, one of the two refusals comes
    refine .inl ⟨hends, ?_⟩
    unfold EndsWith at hends
    simp only [rotate, ne_eq, hends, not_false_eq_true, if_true] at h
    split at h
    · obtain ⟨rfl, rfl⟩ := Prod.mk.inj h
      exact ⟨⟨_, rfl⟩, rfl⟩
    · obtain ⟨rfl, rfl⟩ := Prod.mk.inj h
      exact ⟨⟨_, rfl⟩, rfl⟩

/-! ## Rejected rotations -/

/-- Setting capabilities makes a difference to the first node with a certificate. -/
def Touches (l : Lineage) (certificate : Certificate) (c : Capabilities) : Prop :=
  ∃ n, l.nodes.find? (·.certificate.der == certificate.der) = some n ∧ n.granting c ≠ n

theorem nodes_ne_iff_of_grant {l l' : Lineage} {certificate : Certificate} {name : String}
    {c : Capabilities} (h : l.grant certificate name c = .ok l') :
    l'.nodes ≠ l.nodes ↔ Touches l certificate c := by
  obtain ⟨front, n, back, hl, hfront, hn, rfl⟩ := grant_eq_ok.mp h
  have hfind : l.nodes.find? (·.certificate.der == certificate.der) = some n := by
    rw [List.find?_eq_some_iff_append]
    exact ⟨beq_iff_eq.mpr hn, front, back, hl, fun m hm => by simpa using hfront m hm⟩
  unfold Touches
  rw [hfind, hl]
  simp

theorem spawn_error_iff {l : Lineage} {parent child : LineageSigner} {c : Capabilities}
    (h : EndsWith l parent.certificate) :
    (∃ fault, l.spawn notary parent child c = .error fault) ↔
      ∀ a s, handover notary parent child ≠ .ok (a, s) := by
  obtain ⟨nodes, minSdk⟩ := l
  obtain ⟨rest, last, rfl, hlast⟩ := endsWith_iff.mp h
  rw [spawn_of_last hlast]
  cases handover notary parent child with
  | error fault => simp [bind, Except.bind]
  | ok p =>
    obtain ⟨a, s⟩ := p
    simp [bind, Except.bind, pure, Except.pure]

theorem endsWith_of_grant {l l' : Lineage} {certificate : Certificate} {name : String}
    {c : Capabilities} (h : l.grant certificate name c = .ok l') {d : Certificate} :
    EndsWith l' d ↔ EndsWith l d := by
  unfold EndsWith
  rw [certificates_of_grant h]

/-- What a rotation has added: a child of a parent, behind certificates encoded as `before`. -/
structure Addition where
  before : List Bytes
  parent : Certificate
  child : LineageNode

/-- The certificate is new, and the signature checks with the key of the parent's certificate. -/
def Addition.Sound (x : Addition) (notary : Notary) : Prop :=
  x.child.certificate.der ∉ x.before ∧ SignedBy notary x.parent x.child

/-- The lineages that reading, rotations and changes of capabilities make, each with what
rotations added to it, latest first. A rotation makes a lineage and leaves behind the one
that it started from. -/
inductive Made (notary : Notary) : Lineage → List Addition → Prop
  | read {data : Bytes} {l : Lineage} (h : ofBytes notary data = .ok l) : Made notary l []
  | started {sign : Notary.Signing} {old new : LineageSigner}
      {oldCapabilities newCapabilities : Capabilities} {minSdk : Int} {l : Lineage}
      {after : Option Lineage} {child : LineageNode} (oldKnown : notary.Knows old.certificate)
      (newKnown : notary.Knows new.certificate)
      (h : rotate { notary with sign } old new oldCapabilities newCapabilities none minSdk =
        (.ok l, after)) (last : l.nodes.getLast? = some child) :
      Made notary l [⟨[old.certificate.der], old.certificate, child⟩]
  | rotated {sign : Notary.Signing} {old new : LineageSigner}
      {oldCapabilities newCapabilities : Capabilities} {minSdk : Int} {existing l : Lineage}
      {after : Option Lineage} {child : LineageNode} {xs : List Addition}
      (before : Made notary existing xs) (oldKnown : notary.Knows old.certificate)
      (newKnown : notary.Knows new.certificate)
      (h : rotate { notary with sign } old new oldCapabilities newCapabilities (some existing)
        minSdk = (.ok l, after)) (last : l.nodes.getLast? = some child) :
      Made notary l (⟨existing.certificates.map (·.der), old.certificate, child⟩ :: xs)
  | left {sign : Notary.Signing} {old new : LineageSigner}
      {oldCapabilities newCapabilities : Capabilities} {minSdk : Int} {existing l : Lineage}
      {outcome : Except Fault Lineage} {xs : List Addition} (before : Made notary existing xs)
      (h : rotate { notary with sign } old new oldCapabilities newCapabilities (some existing)
        minSdk = (outcome, some l)) : Made notary l xs
  | updated {signer : LineageSigner} {c : Capabilities} {l : Lineage} {u : Update}
      {xs : List Addition} (before : Made notary l xs) (h : update l signer c = .ok u) :
      Made notary u.lineage xs

theorem update_eq_ok {l : Lineage} {signer : LineageSigner} {c : Capabilities} {u : Update}
    (h : update l signer c = .ok u) :
    l.grant signer.certificate signer.displayName c = .ok u.lineage := by
  obtain ⟨_, _, h⟩ := bind_eq_ok.mp h
  obtain ⟨lineage, hgrant, h⟩ := bind_eq_ok.mp h
  obtain ⟨_, _, h⟩ := bind_eq_ok.mp h
  obtain rfl := pure_eq_ok.mp h
  exact hgrant

/-- What holds of a lineage with its additions, whatever has been done. -/
structure Accounted (notary : Notary) (l : Lineage) (xs : List Addition) : Prop where
  orderly : Orderly notary l.nodes
  verified : verify notary l.nodes = .ok () ↔ ∀ x ∈ xs, x.Sound notary

theorem Accounted.grant {l l' : Lineage} {certificate : Certificate} {name : String}
    {c : Capabilities} {xs : List Addition} (h : Accounted notary l xs)
    (hg : l.grant certificate name c = .ok l') : Accounted notary l' xs where
  orderly := h.orderly.grant hg
  verified := by rw [verify_of_grant hg]; exact h.verified

/-- A handover goes into the account with the certificates before it. -/
theorem Accounted.spawn {sign : Notary.Signing} {l l' : Lineage} {parent child : LineageSigner}
    {c : Capabilities} {node : LineageNode} {xs : List Addition} (h : Accounted notary l xs)
    (hparent : notary.Knows parent.certificate) (hchild : notary.Knows child.certificate)
    (hs : l.spawn { notary with sign } parent child c = .ok l')
    (hnode : l'.nodes.getLast? = some node) :
    Accounted notary l' (⟨l.certificates.map (·.der), parent.certificate, node⟩ :: xs) := by
  refine ⟨h.orderly.spawn hchild hs, ?_⟩
  obtain ⟨rest, last, hl, hder, a, s, _, rfl⟩ := spawn_eq_ok.mp hs
  rw [getLast?_succession, Option.some.injEq] at hnode
  subst hnode
  have halgorithm : last.algorithm = 0 := by
    apply h.orderly.last
    rw [hl, List.getLast?_concat]
    rfl
  have hsame := h.orderly.last_certificate hl hparent hder
  have hbefore : l.certificates.map (·.der) = (rest ++ [last]).map (·.certificate.der) := by
    simp [certificates, hl]
  rw [verify_succession halgorithm rfl, ← hl, h.verified, List.forall_mem_cons, ← hsame]
  unfold Addition.Sound
  rw [hbefore, ← hl]
  tauto

theorem Made.accounted (faithful : notary.Faithful) {l : Lineage} {xs : List Addition}
    (h : Made notary l xs) : Accounted notary l xs := by
  induction h with
  | read h =>
    obtain ⟨_, hr, _⟩ := (ofBytes_eq_ok faithful).mp h
    exact ⟨.of_read faithful h, fun _ _ hx => absurd hx List.not_mem_nil, fun _ => hr.verified⟩
  | @started _ old _ oldCapabilities _ minSdk _ _ _ oldKnown newKnown h last =>
    -- a lineage starts as one that its first signer founded, which nothing was added to
    have hfounder : Accounted notary ⟨[⟨old.certificate, 0, 0, [], oldCapabilities.flags⟩], minSdk⟩ [] :=
      ⟨.founder oldKnown _, fun _ _ hx => absurd hx List.not_mem_nil, fun _ => rfl⟩
    exact hfounder.spawn oldKnown newKnown (Prod.mk.inj h).1 last
  | rotated before oldKnown newKnown h last ih =>
    rcases rotate_cases h with ⟨_, ⟨fault, hfault⟩, _⟩ | ⟨_, updated, hu, hspawn, _⟩
    · cases hfault
    · have := (ih.grant hu).spawn oldKnown newKnown hspawn.symm last
      rw [certificates_of_grant hu] at this
      exact this
  | left before h ih =>
    rcases rotate_cases h with ⟨_, _, hl⟩ | ⟨_, updated, hu, _, hl⟩
    · obtain rfl := Option.some.inj hl
      exact ih
    · obtain rfl := Option.some.inj hl
      exact ih.grant hu
  | updated before h ih => exact ih.grant (update_eq_ok h)

/-- What rotations make reads back as the same nodes exactly when all that they added was
sound, each certificate new and each signature good, and the lineage can be written. -/
theorem made_reads_back_iff (faithful : notary.Faithful) {l : Lineage} {xs : List Addition}
    (h : Made notary l xs) :
    (∃ data l', l.toBytes = .ok data ∧ ofBytes notary data = .ok l' ∧ l'.nodes = l.nodes) ↔
      (∀ x ∈ xs, x.Sound notary) ∧ ∃ data, l.toBytes = .ok data := by
  have haccount := h.accounted faithful
  rw [← haccount.verified]
  constructor
  · rintro ⟨data, l', hdata, hread, hnodes⟩
    obtain ⟨_, hr, _⟩ := (ofBytes_eq_ok faithful).mp hread
    rw [← hnodes]
    exact ⟨hr.verified, data, hdata⟩
  · rintro ⟨hverified, data, hdata⟩
    refine ⟨data, ⟨l.nodes, defaultMinSdk⟩, hdata, ?_, rfl⟩
    exact (ofBytes_eq_ok faithful).mpr
      ⟨rfl, ⟨haccount.orderly.ne_nil, haccount.orderly.known, hverified⟩, hdata⟩

/-- What the older of two signers adds when it hands over to the younger one. -/
def sampleAddition : Addition where
  before := [Sample.older.certificate.der]
  parent := Sample.older.certificate
  child := ⟨Sample.younger.certificate, 0x201, 0, Sample.handover.signature, 0⟩

theorem sample_reads_back_iff :
    Sample.notary.Faithful ∧ Made Sample.notary ⟨Sample.nodes, 28⟩ [sampleAddition] ∧
    ((∃ data l', toBytes ⟨Sample.nodes, 28⟩ = .ok data ∧ ofBytes Sample.notary data = .ok l' ∧
        l'.nodes = Sample.nodes) ↔
      (∀ x ∈ [sampleAddition], x.Sound Sample.notary) ∧
      ∃ data, toBytes ⟨Sample.nodes, 28⟩ = .ok data) := by
  have rotated : rotate { Sample.notary with sign := Sample.notary.sign } Sample.older Sample.younger
      .nothing .nothing none 28 = (.ok ⟨Sample.nodes, 28⟩, none) := by decide +kernel
  have made : Made Sample.notary ⟨Sample.nodes, 28⟩ [sampleAddition] :=
    .started (by decide +kernel) (by decide +kernel) rotated rfl
  exact ⟨Notary.recorded_faithful, made, made_reads_back_iff Notary.recorded_faithful made⟩

/-- A signer can hand over to itself, but what that makes is not read back. -/
theorem sample_not_read_back :
    ∃ l, rotate Sample.notary Sample.older Sample.older .nothing .nothing none 0 = (.ok l, none) ∧
      l.toBytes.isOk ∧
      (do ofBytes Sample.notary (← l.toBytes)) = .error (.lineageFormat (.duplicateCertificate 1)) :=
  ⟨⟨[⟨Sample.older.certificate, 0, 0x201, [], 0⟩,
    ⟨Sample.older.certificate, 0x201, 0, Sample.again.signature, 0⟩], 0⟩,
    by decide +kernel, by decide +kernel, by decide +kernel⟩

end PackageSigning.Rotation
