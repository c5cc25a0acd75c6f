import Mathlib.Data.Finset.Basic
import Mathlib.Data.List.Chain
import Mathlib.Data.List.Find
import Mathlib.Data.List.Pairwise
import Mathlib.Logic.Relation
import PackageSigning.Keystore.PfxStore

/-!
# Certificates in order of issue

A certificate is followed by one that bears the name of its issuer, that one by its own issuer, and
so on, out of certificates of which each is used once. The search is told step by step
(`Climb.next?`). A step uses up a certificate, so every search ends, also among certificates that
issued each other; the chain that it ends with is the one that is returned (`Climb.exists_stop`).
What a step keeps, a whole search keeps (`Climb.Sound`).

Hence the chain starts with the certificate it is for, and each next one is the issuer of the one
before; those behind the first are among the given ones, and none is used twice; and when the chain
ends there is no issuer left for the last one, or it issued itself. If no two of the given
certificates bear the same name, their order makes no difference
(`Certificate.chain_is_sound_and_maximal`).
-/

namespace PackageSigning

namespace DistinguishedName

/-- The parts of a name as sets of attributes. -/
def partSets (name : DistinguishedName) : List (Finset NameAttribute) :=
  name.parts.map List.toFinset

theorem samePart_iff {p q : List NameAttribute} :
    samePart p q = true ↔ p.toFinset = q.toFinset := by
  simp only [samePart, Bool.and_eq_true, List.all_eq_true, List.contains_iff_mem]
  rw [Finset.ext_iff]
  simp only [List.mem_toFinset]
  constructor
  · intro h x
    exact ⟨h.1 x, h.2 x⟩
  · intro h
    exact ⟨fun x => (h x).mp, fun x => (h x).mpr⟩

/-- Names are the same when their parts are, whatever the order of attributes inside a part. -/
theorem same_iff {a b : DistinguishedName} : a.same b = true ↔ a.partSets = b.partSets := by
  unfold same partSets
  generalize a.parts = ps, b.parts = qs
  induction ps generalizing qs with
  | nil => cases qs <;> simp
  | cons p ps ih =>
    cases qs with
    | nil => simp
    | cons q qs =>
      rw [List.map_cons, List.map_cons, List.cons.injEq, ← ih, ← samePart_iff]
      simp [and_left_comm]

end DistinguishedName

namespace Certificate

/-- A certificate bears the name of the issuer of another one. -/
def IssuedBy (c issuer : Certificate) : Prop := issuer.subject.same c.issuer = true

/-- A certificate bears the name of its issuer. -/
def SelfIssued (c : Certificate) : Prop := c.issuer.same c.subject = true

/-- No two of some certificates bear the same name. -/
def NamedApart (cs : List Certificate) : Prop :=
  cs.Pairwise fun c d => c.subject.same d.subject = false

end Certificate

/-- Where the search for issuers stands. -/
structure Climb where
  /-- The certificates so far, each before its issuer. -/
  chain : List Certificate
  /-- The last of them. -/
  current : Certificate
  /-- The certificates that were not used. -/
  unused : List Certificate

namespace Climb
open Certificate

variable {s t : Climb} {leaf issuer : Certificate} {candidates : List Certificate}

/-- A search that was not begun. -/
def start (leaf : Certificate) (candidates : List Certificate) : Climb :=
  ⟨[leaf], leaf, candidates⟩

/-- One step: the first certificate with the name of the issuer is used next. There is none when
no certificate bears that name, or when the last one bears it itself. -/
def next? (s : Climb) : Option Climb :=
  if s.current.issuer.same s.current.subject then none
  else (s.unused.find? (·.subject.same s.current.issuer)).map fun issuer =>
    ⟨s.chain ++ [issuer], issuer, s.unused.erase issuer⟩

/-- Any number of steps. -/
abbrev Reaches : Climb → Climb → Prop := Relation.ReflTransGen fun s t => s.next? = some t

/-! ## One step -/

/-- What a step can do. -/
theorem next?_eq_some_iff : s.next? = some t ↔
    ¬s.current.SelfIssued ∧ ∃ issuer,
      s.unused.find? (·.subject.same s.current.issuer) = some issuer ∧
        t = ⟨s.chain ++ [issuer], issuer, s.unused.erase issuer⟩ := by
  unfold next? SelfIssued
  split
  · next h => simp [h]
  · next h => simp [h, eq_comm]

theorem next?_eq_none_iff : s.next? = none ↔
    s.current.SelfIssued ∨ ∀ c ∈ s.unused, ¬s.current.IssuedBy c := by
  unfold next? SelfIssued IssuedBy
  split
  · next h => simp [h]
  · next h => simp [h, Option.map_eq_none_iff, List.find?_eq_none]

/-- A step uses up a certificate. -/
theorem unused_of_next? (h : s.next? = some t) : t.unused.length + 1 = s.unused.length := by
  obtain ⟨-, issuer, hfound, rfl⟩ := next?_eq_some_iff.mp h
  have hmem : issuer ∈ s.unused := List.mem_of_find?_eq_some hfound
  have hpos : 0 < s.unused.length := List.length_pos_of_mem hmem
  show (s.unused.erase issuer).length + 1 = _
  rw [List.length_erase_of_mem hmem]
  omega

/-- No search goes on for ever. -/
theorem wellFounded_next? : WellFounded fun t s : Climb => s.next? = some t := by
  have hmeasure : WellFounded fun t s : Climb => t.unused.length < s.unused.length :=
    (measure fun s : Climb => s.unused.length).wf
  refine Subrelation.wf (fun {t s} h => ?_) hmeasure
  have := unused_of_next? h
  show t.unused.length < s.unused.length
  omega

/-! ## What every search keeps -/

/-- The certificates so far are in order, and together with those that were not used they are the
ones that were given. -/
structure Sound (leaf : Certificate) (candidates : List Certificate) (s : Climb) : Prop where
  /-- The certificate that the search is for is the first one. -/
  first : s.chain.head? = some leaf
  last : s.chain.getLast? = some s.current
  inOrder : s.chain.IsChain IssuedBy
  /-- The search goes on from no certificate that issued itself. -/
  upward : ∀ c ∈ s.chain.dropLast, ¬c.SelfIssued
  conserved : (s.chain.tail ++ s.unused).Perm candidates

theorem Sound.start (leaf : Certificate) (candidates : List Certificate) :
    (start leaf candidates).Sound leaf candidates where
  first := rfl
  last := rfl
  inOrder := .singleton leaf
  upward := nofun
  conserved := .refl candidates

theorem Sound.exists_chain (h : s.Sound leaf candidates) :
    ∃ issuers, s.chain = leaf :: issuers :=
  List.head?_eq_some_iff.mp h.first

/-- One step keeps all of it. -/
theorem Sound.next (h : s.Sound leaf candidates) (step : s.next? = some t) :
    t.Sound leaf candidates := by
  obtain ⟨notSelf, issuer, hfound, rfl⟩ := next?_eq_some_iff.mp step
  obtain ⟨issuers, hchain⟩ := h.exists_chain
  have hissued : issuer.subject.same s.current.issuer = true := by
    simpa using List.find?_some hfound
  have hmem : issuer ∈ s.unused := List.mem_of_find?_eq_some hfound
  refine ⟨?_, List.getLast?_concat, ?_, ?_, ?_⟩
  · show (s.chain ++ [issuer]).head? = some leaf
    rw [hchain]
    rfl
  · refine h.inOrder.append (.singleton issuer) fun c hc d hd => ?_
    rw [h.last, Option.mem_some_iff] at hc
    cases hd
    exact hc ▸ hissued
  · show ∀ c ∈ (s.chain ++ [issuer]).dropLast, ¬c.SelfIssued
    obtain ⟨front, hfront⟩ := List.getLast?_eq_some_iff.mp h.last
    have hupward := h.upward
    rw [hfront, List.dropLast_concat] at hupward
    rw [List.dropLast_concat, hfront]
    exact List.forall_mem_append.mpr ⟨hupward, List.forall_mem_singleton.mpr notSelf⟩
  · -- The certificate goes from those that were not used to the end of the chain.
    have hconserved := h.conserved
    rw [hchain, List.tail_cons] at hconserved
    show ((s.chain ++ [issuer]).tail ++ s.unused.erase issuer).Perm candidates
    calc (s.chain ++ [issuer]).tail ++ s.unused.erase issuer
      _ = issuers ++ issuer :: s.unused.erase issuer := by simp [hchain]
      List.Perm _ (issuers ++ s.unused) := (List.perm_cons_erase hmem).symm.append_left issuers
      List.Perm _ candidates := hconserved

/-- Every search keeps all of it. -/
theorem Sound.reaches (h : s.Sound leaf candidates) (run : s.Reaches t) :
    t.Sound leaf candidates := by
  induction run with
  | refl => exact h
  | tail _ step ih => exact ih.next step

/-! ## Where a search stops -/

/-- A search stops with the chain that the recursion gives, if that has fuel for every certificate
that was not used. -/
theorem exists_stop {fuel : Nat} (s : Climb) (enough : s.unused.length ≤ fuel) :
    ∃ t, s.Reaches t ∧ t.next? = none ∧
      t.chain = s.chain ++ issuersFrom fuel s.current s.unused := by
  induction fuel generalizing s with
  | zero =>
    have hunused : s.unused = [] := List.length_eq_zero_iff.mp (Nat.le_zero.mp enough)
    refine ⟨s, .refl, next?_eq_none_iff.mpr (.inr ?_), by simp [issuersFrom]⟩
    rw [hunused]
    nofun
  | succ fuel ih =>
    by_cases self : s.current.issuer.same s.current.subject = true
    · refine ⟨s, .refl, next?_eq_none_iff.mpr (.inl self), ?_⟩
      rw [issuersFrom, if_pos self, List.append_nil]
    · rw [issuersFrom, if_neg self]
      cases hfound : s.unused.find? (·.subject.same s.current.issuer) with
      | none =>
        have hnone := List.find?_eq_none.mp hfound
        exact ⟨s, .refl, next?_eq_none_iff.mpr (.inr hnone), by simp⟩
      | some issuer =>
        have step := next?_eq_some_iff.mpr ⟨self, issuer, hfound, rfl⟩
        have hlength := unused_of_next? step
        obtain ⟨t, run, stop, hchain⟩ :=
          ih ⟨s.chain ++ [issuer], issuer, s.unused.erase issuer⟩ (by omega)
        refine ⟨t, .head step run, stop, ?_⟩
        rw [hchain, List.append_assoc]
        rfl

end Climb

namespace Certificate

/-! ## The order of the given certificates -/

/-- Among certificates with names of their own at most one bears any name. -/
theorem NamedApart.subsingleton {cs : List Certificate} (h : NamedApart cs)
    (name : DistinguishedName) : {c ∈ cs | c.subject.same name}.Subsingleton := by
  have : Std.Symm fun c d : Certificate => c.subject.same d.subject = false := by
    refine ⟨fun c d hcd => ?_⟩
    rw [← Bool.not_eq_true, DistinguishedName.same_iff] at hcd ⊢
    exact Ne.symm hcd
  rintro c ⟨hc, hcname⟩ d ⟨hd, hdname⟩
  by_contra hne
  have hapart := List.Pairwise.forall h hc hd hne
  rw [DistinguishedName.same_iff] at hcname hdname
  rw [← Bool.not_eq_true, DistinguishedName.same_iff] at hapart
  exact hapart (hcname.trans hdname.symm)

theorem NamedApart.issuersFrom_perm {cs ds : List Certificate} (h : NamedApart cs)
    (hperm : cs.Perm ds) (fuel : Nat) (current : Certificate) :
    issuersFrom fuel current cs = issuersFrom fuel current ds := by
  induction fuel generalizing current cs ds with
  | zero => rfl
  | succ fuel ih =>
    have hfind : cs.find? (·.subject.same current.issuer) =
        ds.find? (·.subject.same current.issuer) :=
      List.find?_eq_find?_of_perm hperm (h.subsingleton current.issuer)
    rw [issuersFrom, issuersFrom, hfind]
    cases ds.find? (·.subject.same current.issuer) with
    | none => rfl
    | some issuer =>
      dsimp only
      rw [ih (List.Pairwise.sublist List.erase_sublist h) (hperm.erase issuer)]

/-- The chain of a certificate among others: the search for it comes to an end, and the chain is
what it ends with. The chain starts with the certificate; each next one is the issuer of the one
before, going by the names; those behind the first and the ones that were not used are together the
given ones. It goes no further than a certificate that issued itself, and otherwise ends only when
none of those that were not used is the issuer of the last one. If the names of the given
certificates are all different, the chain is the same for every order of them. -/
theorem chain_is_sound_and_maximal (leaf : Certificate) (candidates : List Certificate) :
    (WellFounded fun t s : Climb => s.next? = some t) ∧
    (∃ s, (Climb.start leaf candidates).Reaches s ∧ s.next? = none ∧
      s.chain = leaf.chainAmong candidates) ∧
    (∃ issuers unused last, leaf.chainAmong candidates = leaf :: issuers ∧
      (leaf :: issuers).IsChain IssuedBy ∧
      (issuers ++ unused).Perm candidates ∧
      (∀ c ∈ (leaf :: issuers).dropLast, ¬c.SelfIssued) ∧
      (leaf :: issuers).getLast? = some last ∧
      (last.SelfIssued ∨ ∀ c ∈ unused, ¬last.IssuedBy c)) ∧
    (NamedApart candidates → ∀ others : List Certificate, others.Perm candidates →
      leaf.chainAmong others = leaf.chainAmong candidates) := by
  obtain ⟨s, run, stop, hchain⟩ :=
    Climb.exists_stop (.start leaf candidates) (Nat.le_refl candidates.length)
  refine ⟨Climb.wellFounded_next?, ⟨s, run, stop, hchain⟩, ?_, ?_⟩
  · have sound := (Climb.Sound.start leaf candidates).reaches run
    obtain ⟨issuers, hissuers⟩ := sound.exists_chain
    obtain ⟨-, last, inOrder, upward, conserved⟩ := sound
    rw [hissuers] at last inOrder upward conserved
    exact ⟨issuers, s.unused, s.current, hchain.symm.trans hissuers, inOrder, conserved, upward,
      last, Climb.next?_eq_none_iff.mp stop⟩
  · intro apart others hperm
    unfold chainAmong
    rw [hperm.length_eq, apart.issuersFrom_perm hperm.symm]

/-- A certificate with a name and an issuer of one attribute each. -/
def sampleNamed (subject issuer : String) : Certificate :=
  let name (value : String) : DistinguishedName := ⟨[[⟨[2, 5, 4, 3], value⟩]]⟩
  ⟨Bytes.ofAscii (subject ++ issuer), name subject, name issuer, []⟩

/-- Two certificates that issued each other, and one that neither issued. -/
def sampleIssuers : List Certificate :=
  [sampleNamed "A" "B", sampleNamed "B" "A", sampleNamed "C" "A"]

/-- The search among them ends after each of the two was used once, whatever their order. -/
theorem sample_chain_of_issuers :
    NamedApart sampleIssuers ∧ sampleIssuers.reverse.Perm sampleIssuers ∧
    (sampleNamed "leaf" "A").chainAmong sampleIssuers.reverse =
      [sampleNamed "leaf" "A", sampleNamed "A" "B", sampleNamed "B" "A"] := by
  have apart : NamedApart sampleIssuers := by
    unfold NamedApart
    decide +kernel
  have hperm : sampleIssuers.reverse.Perm sampleIssuers := List.reverse_perm sampleIssuers
  obtain ⟨-, -, -, horder⟩ := chain_is_sound_and_maximal (sampleNamed "leaf" "A") sampleIssuers
  exact ⟨apart, hperm, (horder apart _ hperm).trans (by decide +kernel)⟩

end Certificate
end PackageSigning
