import PackageSigning.Certificate.Bundle
import PackageSigning.Key.Writing
import PackageSigning.Proofs.Asn1.Front
import PackageSigning.Proofs.Notary.Recorded
import PackageSigning.Proofs.Pem.Length

/-!
# Which binary files are taken for armour

Files are searched for the start of armour before anything else is made of them. Certificates one
behind the other are cut where they were put together (`CertificateBundle.binaryFrom_own`), and as
each of them starts with a byte that is not in the start of armour, that is in the file exactly when
it is in one of them (`CertificateBundle.infix_ders_iff`). Then the file is read as armour, which is
longer than what it holds. So binary keys and certificates are read as they are exactly when the
start of armour is not among their bytes (`CertificateBundle.untouched_iff_unmarked`).
-/

namespace PackageSigning.CertificateBundle
open Asn1

variable {b rest : Bytes} {c : Certificate} {cs : List Certificate} {e : Element}

/-- The start of armour. -/
def mark : Bytes := Bytes.ofAscii "-----BEGIN"

/-! ## Certificates one behind the other -/

/-- The certificate is what is read from its own encoding. -/
def IsOwn (c : Certificate) : Prop := CertificateReading.certificate c.der = .ok c

theorem IsOwn.one_der (h : IsOwn c) : one c.der = .ok c := by
  unfold one
  rw [h]

theorem IsOwn.exists_element? (h : IsOwn c) :
    ∃ e, Strict.element? c.der = some (e, []) ∧ e.tag = .sequence := by
  unfold IsOwn CertificateReading.certificate at h
  split at h
  · cases h
  · next hread => exact Strict.exists_element?_of_whole? hread

/-- A certificate starts like every sequence. -/
theorem IsOwn.exists_cons (h : IsOwn c) : ∃ front, c.der = 48 :: front := by
  obtain ⟨e, helement, htag⟩ := h.exists_element?
  exact Strict.exists_cons_of_sequence helement htag

theorem IsOwn.firstWhole? (h : IsOwn c) (rest : Bytes) :
    firstWhole? (c.der ++ rest) = some (c.der, rest) := by
  obtain ⟨e, helement, -⟩ := h.exists_element?
  have hread := Loose.read?_append_of_element? helement rest
  rw [CertificateBundle.firstWhole?, hread, List.nil_append]
  simp

/-- Certificates one behind the other are cut where they were put together. -/
theorem binaryFrom_own (own : ∀ c ∈ cs, IsOwn c) (all : Bytes) (isFirst : Bool) {fuel : Nat}
    (hfuel : (cs.flatMap (·.der)).length ≤ fuel) :
    binaryFrom all isFirst fuel (cs.flatMap (·.der)) = .ok cs := by
  induction cs generalizing isFirst fuel with
  | nil => cases fuel <;> rfl
  | cons c cs ih =>
    obtain ⟨hc, hcs⟩ := List.forall_mem_cons.mp own
    obtain ⟨front, hfront⟩ := hc.exists_cons
    rw [List.flatMap_cons, List.length_append, hfront, List.length_cons] at hfuel
    obtain ⟨fuel, rfl⟩ : ∃ n, fuel = n + 1 := ⟨fuel - 1, by omega⟩
    rw [List.flatMap_cons, binaryFrom, hc.firstWhole?]
    · dsimp only
      rw [hc.one_der]
      dsimp only
      rw [ih hcs false (by omega)]
      rfl
    · rw [hfront]
      nofun

/-! ## Where the start of armour can be -/

theorem infix_cons_iff_of_not_mem {part : Bytes} (hpart : part ≠ []) {x : UInt8} (h : x ∉ part)
    (b : Bytes) : part <:+: x :: b ↔ part <:+: b := by
  have hiff := Bytes.infix_append_cons_iff (a := []) (b := b) h
  rw [List.nil_append] at hiff
  rw [hiff, List.infix_nil]
  exact or_iff_right hpart

/-- The start of armour cannot stand across two certificates. -/
theorem infix_ders_iff (own : ∀ c ∈ cs, IsOwn c) :
    mark <:+: cs.flatMap (·.der) ↔ ∃ c ∈ cs, mark <:+: c.der := by
  have hfirst : (48 : UInt8) ∉ mark := by decide
  have hnonempty : mark ≠ [] := by decide
  induction cs with
  | nil => simp [hnonempty]
  | cons c cs ih =>
    obtain ⟨hc, hcs⟩ := List.forall_mem_cons.mp own
    simp only [List.mem_cons, exists_eq_or_imp]
    refine Iff.trans ?_ (or_congr Iff.rfl (ih hcs))
    rw [List.flatMap_cons]
    cases cs with
    | nil => simp [hnonempty]
    | cons d ds =>
      obtain ⟨front, hfront⟩ := (hcs d List.mem_cons_self).exists_cons
      rw [List.flatMap_cons, hfront, List.cons_append, Bytes.infix_append_cons_iff hfirst,
        infix_cons_iff_of_not_mem hnonempty hfirst]

/-! ## What is read from armour is shorter -/

theorem length_wholes? {fuel : Nat} {encodings : List Bytes} (h : wholes? fuel b = some encodings) :
    encodings.flatten.length ≤ b.length := by
  induction fuel generalizing b encodings with
  | zero =>
    cases b with
    | nil =>
      cases h
      exact Nat.zero_le _
    | cons x b => cases h
  | succ fuel ih =>
    cases b with
    | nil =>
      cases h
      exact Nat.zero_le _
    | cons x b =>
      obtain ⟨⟨encoding, rest⟩, hfirst, h⟩ := Option.bind_eq_some_iff.mp h
      obtain ⟨others, hothers, h⟩ := Option.bind_eq_some_iff.mp h
      cases h
      obtain ⟨⟨e, rest'⟩, hread, hcut⟩ := Option.map_eq_some_iff.mp hfirst
      cases hcut
      have := Loose.length_read? hread
      have := ih hothers
      rw [List.flatten_cons, List.length_append, List.length_take]
      omega

theorem length_certificatesIn? {encodings : List Bytes}
    (h : certificatesIn? e = some encodings) : encodings.flatten.length ≤ e.contents.length := by
  unfold certificatesIn? at h
  obtain ⟨members, hmembers, h⟩ := Option.bind_eq_some_iff.mp h
  split at h
  · next version digests inner rest =>
    obtain ⟨number, -, h⟩ := Option.bind_eq_some_iff.mp h
    split at h
    · cases h
    · split at h
      · next bag others _ =>
        dsimp only at h
        have hbag : bag ∈ version :: digests :: inner :: bag :: others := by simp
        have hlength := Loose.length_of_mem_members? hmembers hbag
        split at h <;> split at h
        all_goals first
          | exact Nat.le_trans (length_wholes? h) hlength
          | cases h
      · cases h
  · cases h

/-- What is read of some encodings has these encodings. -/
theorem ders_of_mapM_one {α : Type} {f : α → Bytes} {as : List α}
    (h : (as.mapM fun a => one (f a)) = .ok cs) : cs.flatMap (·.der) = as.flatMap f := by
  induction as generalizing cs with
  | nil =>
    obtain rfl := pure_eq_ok.mp h
    rfl
  | cons a as ih =>
    rw [List.mapM_cons] at h
    obtain ⟨c, hc, h⟩ := bind_eq_ok.mp h
    obtain ⟨others, hothers, h⟩ := bind_eq_ok.mp h
    obtain rfl := pure_eq_ok.mp h
    rw [List.flatMap_cons, List.flatMap_cons, ih hothers, der_of_one hc]

/-- The certificates of a bag are no longer than the bag. -/
theorem length_bag (h : bag b = .ok cs) : (cs.flatMap (·.der)).length ≤ b.length := by
  unfold bag at h
  split at h
  · next name rest hmembers =>
    obtain ⟨⟨e, behind⟩, hread, hmembers⟩ := Option.bind_eq_some_iff.mp hmembers
    have hread := Loose.length_read? hread
    split at h
    · cases h
    · split at h
      · cases h
      · split at h
        · next encodings hencodings =>
          obtain ⟨field, hfield, hencodings⟩ := Option.bind_eq_some_iff.mp hencodings
          split at hencodings
          · obtain ⟨content, hcontent, hencodings⟩ := Option.bind_eq_some_iff.mp hencodings
            have hfield := Loose.length_of_mem_members? hmembers
              (List.mem_cons_of_mem name (List.mem_of_mem_head? hfield))
            have hcontent := Loose.length_whole? hcontent
            have hencodings := length_certificatesIn? hencodings
            rw [ders_of_mapM_one (f := id) h, List.flatMap_id]
            omega
          · cases hencodings
        · cases h
  · cases h

theorem length_bagOfText (h : bagOfText b = .ok cs) : (cs.flatMap (·.der)).length < b.length := by
  unfold bagOfText at h
  split at h
  · next block hblock =>
    obtain ⟨⟨raw, rest⟩, hnext, hblock⟩ := Option.bind_eq_some_iff.mp hblock
    split at h
    · have := length_bag h
      have := Pem.length_block? hblock
      have := Pem.length_nextBlock? hnext
      omega
    · cases h
  · cases h

theorem length_ofText (h : ofText b = .ok cs) : (cs.flatMap (·.der)).length < b.length := by
  unfold ofText at h
  split at h
  · cases h
  · next blocks hblocks =>
    obtain ⟨certificates, hcertificates, h⟩ := bind_eq_ok.mp h
    split at h
    · cases h
    next hne =>
    obtain rfl := pure_eq_ok.mp h
    have hblocks := Pem.length_blocks? hblocks
    have hkept := ((List.filter_sublist (l := blocks) (p := fun p => labels.contains p.label)).flatMap
      PemBlock.contents).length_le
    -- Every block has some armour, and there is one.
    have hpositive : 0 < blocks.length := by
      rw [List.length_pos_iff]
      rintro rfl
      obtain rfl := pure_eq_ok.mp hcertificates
      exact hne rfl
    rw [ders_of_mapM_one hcertificates]
    omega

/-! ## The whole file -/

/-- What a file is taken for, and what is read of it then. -/
def taken (b : Bytes) : Except Fault (List Certificate) :=
  if Bytes.includes bagOpening b then bagOfText b
  else if Bytes.includes mark b then ofText b
  else binaryFrom b true b.length b

theorem read_eq_ok_iff (h : b.all isBlankByte = false) : read b = .ok cs ↔ taken b = .ok cs := by
  have hmark : Bytes.ofAscii "-----BEGIN" = mark := rfl
  rw [read, if_neg (by simp [h]), hmark]
  unfold taken
  dsimp only
  split
  · next hfault =>
    rw [hfault]
    exact ⟨nofun, nofun⟩
  · exact Iff.rfl

/-- What is read of a file with the start of armour in it is shorter than the file. -/
theorem length_taken_of_mark (hmark : mark <:+: b) (h : taken b = .ok cs) :
    (cs.flatMap (·.der)).length < b.length := by
  unfold taken at h
  split at h
  · exact length_bagOfText h
  · rw [if_pos (Bytes.includes_iff.mpr hmark)] at h
    exact length_ofText h

theorem taken_of_not_mark (hmark : ¬mark <:+: b) : taken b = binaryFrom b true b.length b := by
  have hbag : ¬Bytes.includes bagOpening b = true := by
    intro h
    have hstart : mark <+: bagOpening := by decide
    exact hmark (hstart.isInfix.trans (Bytes.includes_iff.mp h))
  rw [taken, if_neg hbag, if_neg (mt Bytes.includes_iff.mp hmark)]

/-- Certificates one behind the other are read as they are, unless the start of armour is in one
of them. -/
theorem read_own_iff (own : ∀ c ∈ cs, IsOwn c) (hne : cs ≠ []) :
    read (cs.flatMap (·.der)) = .ok cs ↔ ∀ c ∈ cs, ¬mark <:+: c.der := by
  have hblank : (cs.flatMap (·.der)).all isBlankByte = false := by
    obtain ⟨c, ds, rfl⟩ := List.exists_cons_of_ne_nil hne
    obtain ⟨front, hfront⟩ := (own c List.mem_cons_self).exists_cons
    rw [List.flatMap_cons, hfront]
    rfl
  rw [read_eq_ok_iff hblank]
  constructor
  · intro h c hc hmark
    have hlt := length_taken_of_mark ((infix_ders_iff own).mpr ⟨c, hc, hmark⟩) h
    exact Nat.lt_irrefl _ hlt
  · intro h
    have hmark : ¬mark <:+: cs.flatMap (·.der) := by
      intro hmark
      obtain ⟨c, hc, hmark⟩ := (infix_ders_iff own).mp hmark
      exact h c hc hmark
    rw [taken_of_not_mark hmark]
    exact binaryFrom_own own _ true (Nat.le_refl _)

/-- Bytes are taken for armour exactly when the start of armour, in one of its two spellings, is
among them: others, and these only, are their own content. Certificates that are each read from
their own encodings are read back from these encodings one behind the other, all of them in their
order, exactly when the start of armour is in none of them. -/
theorem untouched_iff_unmarked (b : Bytes) {cs : List Certificate} (hne : cs ≠ [])
    (own : ∀ c ∈ cs, CertificateReading.certificate c.der = .ok c) :
    (Pem.unarmor b = .ok b ↔
      ¬Bytes.ofAscii "-----BEGIN" <:+: b ∧ ¬Bytes.ofAscii "---- BEGIN" <:+: b) ∧
    (read (cs.flatMap (·.der)) = .ok cs ↔ ∀ c ∈ cs, ¬Bytes.ofAscii "-----BEGIN" <:+: c.der) := by
  refine ⟨?_, read_own_iff own hne⟩
  rw [Pem.unarmor_eq_self_iff, Pem.isArmoured, Bool.or_eq_false_iff, ← Bool.not_eq_true,
    ← Bool.not_eq_true, Bytes.includes_iff, Bytes.includes_iff]

/-- A key and two certificates without the start of armour. -/
theorem sample_untouched :
    Pem.unarmor (KeyWriting.privateKey (.ec .p224 1)) =
      .ok (KeyWriting.privateKey (.ec .p224 1)) ∧
    (∀ c ∈ [Sample.older.certificate, Sample.younger.certificate],
      CertificateReading.certificate c.der = .ok c) ∧
    read (Sample.older.certificate.der ++ Sample.younger.certificate.der) =
      .ok [Sample.older.certificate, Sample.younger.certificate] := by
  have own : ∀ c ∈ [Sample.older.certificate, Sample.younger.certificate],
      CertificateReading.certificate c.der = .ok c := by decide +kernel
  have unmarked {part b : Bytes} (h : Bytes.includes part b = false) : ¬part <:+: b := by
    rw [← Bytes.includes_iff, h]
    nofun
  obtain ⟨hkey, hcertificates⟩ := untouched_iff_unmarked (KeyWriting.privateKey (.ec .p224 1))
    (List.cons_ne_nil _ _) own
  refine ⟨hkey.mpr ⟨unmarked (by decide +kernel), unmarked (by decide +kernel)⟩, own,
    hcertificates.mpr ?_⟩
  exact List.forall_mem_cons.mpr ⟨unmarked (by decide +kernel),
    List.forall_mem_singleton.mpr (unmarked (by decide +kernel))⟩

/-- A key whose private value starts with the bytes that armour starts with. -/
def markedKey : PrivateKey :=
  .ec .p224 4757637647146250970023134027491237101453222445225595223301886574593

/-- A certificate whose bearer goes by the name that armour starts with. -/
def markedCertificate : Certificate where
  der :=
    [48, 129, 208, 48, 129, 131, 160, 3, 2, 1, 2, 2, 1, 1, 48, 5, 6, 3, 43, 101, 112, 48, 13, 49,
     11, 48, 9, 6, 3, 85, 4, 3, 12, 2, 69, 68, 48, 32, 23, 13, 50, 48, 48, 49, 48, 49, 48, 48, 48,
     48, 48, 48, 90, 24, 15, 50, 48, 53, 48, 48, 49, 48, 49, 48, 48, 48, 48, 48, 48, 90, 48, 21, 49,
     19, 48, 17, 6, 3, 85, 4, 3, 12, 10, 45, 45, 45, 45, 45, 66, 69, 71, 73, 78, 48, 42, 48, 5, 6,
     3, 43, 101, 112, 3, 33, 0, 235, 18, 198, 13, 42, 95, 7, 108, 165, 156, 238, 3, 230, 198, 237,
     39, 165, 151, 155, 15, 212, 174, 243, 101, 167, 211, 94, 162, 234, 59, 187, 254, 48, 5, 6, 3,
     43, 101, 112, 3, 65, 0, 38, 157, 149, 239, 186, 229, 142, 202, 73, 171, 68, 36, 160, 141, 247,
     194, 14, 9, 101, 175, 128, 171, 231, 212, 108, 159, 169, 167, 184, 57, 8, 183, 107, 240, 16,
     154, 63, 144, 51, 115, 64, 186, 0, 225, 26, 149, 100, 90, 234, 64, 169, 243, 208, 195, 79, 52,
     155, 76, 54, 226, 167, 112, 106, 8]
  subject := ⟨[[⟨[2, 5, 4, 3], "-----BEGIN"⟩]]⟩
  issuer := Sample.younger.certificate.issuer
  publicKeyInfo := Sample.younger.certificate.publicKeyInfo

/-- That key and that certificate are taken for armour, and refused. -/
theorem sample_taken_for_armour :
    (¬∀ k : PrivateKey, Pem.unarmor (KeyWriting.privateKey k) = .ok (KeyWriting.privateKey k)) ∧
    ¬∀ cs : List Certificate, cs ≠ [] →
      (∀ c ∈ cs, CertificateReading.certificate c.der = .ok c) →
      read (cs.flatMap (·.der)) = .ok cs := by
  have hkey : Pem.unarmor (KeyWriting.privateKey markedKey) = .error (.parse .armour) := by
    decide +kernel
  have own : ∀ c ∈ [markedCertificate], CertificateReading.certificate c.der = .ok c := by
    decide +kernel
  have hcertificate : read ([markedCertificate].flatMap (·.der)) =
      .error (.parse .certificates) := by
    decide +kernel
  constructor
  · intro h
    have := hkey.symm.trans (h markedKey)
    cases this
  · intro h
    have := hcertificate.symm.trans (h [markedCertificate] nofun own)
    cases this

end PackageSigning.CertificateBundle
