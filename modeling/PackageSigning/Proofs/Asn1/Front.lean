import PackageSigning.Asn1.Loose
import PackageSigning.Asn1.Strict
import PackageSigning.Proofs.Bytes

/-!
# Elements at the front of some bytes

Read loosely, the contents of an element and what follows it are together no longer than the bytes
that they were read from (`Asn1.Loose.length_read?`). What the strict reader takes for an element,
the loose reader takes for the same one, and whatever is put behind it only follows it
(`Asn1.Loose.read?_append_of_element?`).
-/

namespace PackageSigning

theorem Bytes.length_split? {n : Nat} {b front rest : Bytes}
    (h : Bytes.split? n b = some (front, rest)) : front.length + rest.length = b.length := by
  obtain ⟨-, rfl⟩ := Bytes.split?_eq_some_iff.mp h
  exact List.length_append.symm

theorem Bytes.split?_append {n : Nat} {b front rest : Bytes}
    (h : Bytes.split? n b = some (front, rest)) (more : Bytes) :
    Bytes.split? n (b ++ more) = some (front, rest ++ more) := by
  obtain ⟨hfront, rfl⟩ := Bytes.split?_eq_some_iff.mp h
  exact Bytes.split?_eq_some_iff.mpr ⟨hfront, List.append_assoc front rest more⟩

namespace Asn1

variable {b rest : Bytes} {n m : Nat} {e : Element} {tag : Tag} {size? : Option Nat}

namespace Loose

/-- The number of a tag, which its first byte holds unless it is too large. -/
def number? (first : UInt8) (front : Bytes) : Option (Nat × Bytes) :=
  if first.toNat % 32 = 31 then longTag? 0 front else some (first.toNat % 32, front)

/-- A length behind a tag, unless a mark ends the contents. -/
def sized? (tag : Tag) : Bytes → Option (Tag × Option Nat × Bytes)
  | [] => none
  | size :: rest =>
    if size < 128 then some (tag, some size.toNat, rest)
    else if size = 128 then (if tag.constructed then some (tag, none, rest) else none)
    else (Bytes.split? (size.toNat - 128) rest).bind fun (digits, rest) =>
      some (tag, some (Bytes.toNat digits), rest)

theorem header?_cons (first : UInt8) (front : Bytes) :
    header? (first :: front) = (number? first front).bind fun (number, behind) =>
      sized? ⟨.ofBits (first.toNat / 64), first.toNat / 32 % 2 = 1, number⟩ behind := by
  unfold header? number? sized?
  dsimp only
  split <;> rfl

/-! ## How much is left -/

theorem length_longTag? (h : longTag? n b = some (m, rest)) : rest.length < b.length := by
  induction b generalizing n with
  | nil => cases h
  | cons x b ih =>
    rw [longTag?] at h
    dsimp only at h
    split at h
    · cases h
    · split at h
      · split at h
        · cases h
        · cases h
          exact Nat.lt_succ_self _
      · exact Nat.lt_succ_of_lt (ih h)

theorem length_number? {first : UInt8} (h : number? first b = some (n, rest)) :
    rest.length ≤ b.length := by
  unfold number? at h
  split at h
  · exact Nat.le_of_lt (length_longTag? h)
  · cases h
    exact Nat.le_refl _

theorem length_sized? {tag' : Tag} (h : sized? tag b = some (tag', size?, rest)) :
    rest.length < b.length := by
  cases b with
  | nil => cases h
  | cons size b =>
    rw [sized?] at h
    split at h
    · cases h
      exact Nat.lt_succ_self _
    · split at h
      · split at h
        · cases h
          exact Nat.lt_succ_self _
        · cases h
      · obtain ⟨⟨digits, behind⟩, hsplit, h⟩ := Option.bind_eq_some_iff.mp h
        cases h
        have := Bytes.length_split? hsplit
        rw [List.length_cons]
        omega

theorem length_header? (h : header? b = some (tag, size?, rest)) : rest.length < b.length := by
  cases b with
  | nil => cases h
  | cons first front =>
    rw [header?_cons] at h
    obtain ⟨⟨number, behind⟩, hnumber, h⟩ := Option.bind_eq_some_iff.mp h
    have := length_number? hnumber
    have := length_sized? h
    rw [List.length_cons]
    omega

theorem length_untilMark? {pass? : Bytes → Option Bytes}
    (hpass : ∀ b rest, pass? b = some rest → rest.length ≤ b.length) {fuel : Nat}
    (h : untilMark? pass? fuel b = some rest) : rest.length ≤ b.length := by
  induction fuel generalizing b with
  | zero => cases h
  | succ fuel ih =>
    unfold untilMark? at h
    split at h
    · cases h
      simp only [List.length_cons]
      omega
    · obtain ⟨behind, hbehind, h⟩ := Option.bind_eq_some_iff.mp h
      exact Nat.le_trans (ih h) (hpass b behind hbehind)

/-- What passes over the elements inside one that a mark ends. -/
def skipInside? : Nat → Bytes → Option Bytes
  | 0, _ => none
  | depth + 1, b => skip? depth b

theorem skip?_eq (depth : Nat) (b : Bytes) :
    skip? depth b = (header? b).bind fun (_, size?, rest) =>
      match size? with
      | some n => if n ≤ rest.length then some (rest.drop n) else none
      | none => untilMark? (skipInside? depth) (rest.length + 1) rest := by
  cases depth <;> (unfold skip?; rfl)

theorem length_skip?_of_inside {depth : Nat}
    (inside : ∀ b rest, skipInside? depth b = some rest → rest.length ≤ b.length)
    (h : skip? depth b = some rest) : rest.length ≤ b.length := by
  rw [skip?_eq] at h
  obtain ⟨⟨tag, size?, behind⟩, hheader, h⟩ := Option.bind_eq_some_iff.mp h
  have hbehind := length_header? hheader
  cases size? with
  | some n =>
    dsimp only at h
    split at h
    · cases h
      rw [List.length_drop]
      omega
    · cases h
  | none =>
    have := length_untilMark? inside h
    omega

theorem length_skip? {depth : Nat} (h : skip? depth b = some rest) : rest.length ≤ b.length := by
  induction depth generalizing b rest with
  | zero =>
    have inside (b rest : Bytes) (h : skipInside? 0 b = some rest) : rest.length ≤ b.length := by
      cases h
    exact length_skip?_of_inside inside h
  | succ depth ih =>
    have inside (b rest : Bytes) (h : skipInside? (depth + 1) b = some rest) :
        rest.length ≤ b.length :=
      ih h
    exact length_skip?_of_inside inside h

/-- Contents and what follows them stand in the bytes they were read from, behind a header. -/
theorem length_read? (h : read? b = some (e, rest)) :
    e.contents.length + rest.length ≤ b.length := by
  unfold read? at h
  simp only [Option.bind_eq_bind, Option.bind_eq_some_iff] at h
  obtain ⟨⟨tag, size?, behind⟩, hheader, h⟩ := h
  have hbehind := length_header? hheader
  dsimp only at h
  cases size? with
  | some n =>
    obtain ⟨⟨contents, rest'⟩, hsplit, h⟩ := Option.bind_eq_some_iff.mp h
    cases h
    have := Bytes.length_split? hsplit
    dsimp only
    omega
  | none =>
    obtain ⟨after, hafter, h⟩ := Option.bind_eq_some_iff.mp h
    cases h
    have := length_skip? hafter
    dsimp only
    rw [List.length_take]
    omega

theorem length_whole? (h : whole? b = some e) : e.contents.length ≤ b.length := by
  unfold whole? at h
  split at h
  · next hread =>
    cases h
    exact length_read? hread
  · cases h

theorem length_of_mem_elements? {fuel : Nat} {es : List Element}
    (h : elementsFrom? fuel b = some es) (he : e ∈ es) : e.contents.length ≤ b.length := by
  induction fuel generalizing b es with
  | zero =>
    cases b with
    | nil =>
      cases h
      cases he
    | cons x b => cases h
  | succ fuel ih =>
    cases b with
    | nil =>
      cases h
      cases he
    | cons x b =>
      obtain ⟨⟨first, behind⟩, hread, h⟩ := Option.bind_eq_some_iff.mp h
      obtain ⟨others, hothers, h⟩ := Option.bind_eq_some_iff.mp h
      cases h
      have hlength := length_read? hread
      obtain rfl | he := List.mem_cons.mp he
      · omega
      · have := ih hothers he
        omega

/-- A member has no more contents than the sequence it is in. -/
theorem length_of_mem_members? {members : List Element} {member : Element}
    (h : members? e = some members) (hmember : member ∈ members) :
    member.contents.length ≤ e.contents.length := by
  unfold members? at h
  split at h
  · exact length_of_mem_elements? h hmember
  · cases h

/-! ## What is read strictly -/

theorem longTag?_append (h : Strict.longTag? n b = some (m, rest)) (more : Bytes) :
    longTag? n (b ++ more) = some (m, rest ++ more) := by
  induction b generalizing n with
  | nil => cases h
  | cons x b ih =>
    rw [Strict.longTag?] at h
    rw [List.cons_append, longTag?]
    dsimp only at h ⊢
    split at h
    · cases h
    · next hpadded =>
      rw [if_neg hpadded]
      split at h
      · next hlast =>
        rw [if_pos hlast]
        split at h
        · cases h
        · next hlarge =>
          cases h
          exact if_neg hlarge
      · next hlast =>
        rw [if_neg hlast]
        exact ih h

/-- The number of a tag as the strict reader takes it. -/
def strictNumber? (first : UInt8) (front : Bytes) : Option (Nat × Bytes) :=
  if first.toNat % 32 = 31 then Strict.longTag? 0 front else some (first.toNat % 32, front)

theorem element?_cons (first : UInt8) (front : Bytes) :
    Strict.element? (first :: front) = (strictNumber? first front).bind fun (number, behind) =>
      (Strict.length? behind).bind fun (size, behind) =>
        (Bytes.split? size behind).bind fun (contents, rest) =>
          some (⟨⟨.ofBits (first.toNat / 64), first.toNat / 32 % 2 = 1, number⟩, contents, false⟩,
            rest) := by
  unfold Strict.element? strictNumber?
  dsimp only
  split <;> rfl

theorem number?_append {first : UInt8} (h : strictNumber? first b = some (n, rest))
    (more : Bytes) : number? first (b ++ more) = some (n, rest ++ more) := by
  unfold strictNumber? at h
  unfold number?
  split at h
  · next hlong =>
    rw [if_pos hlong]
    exact longTag?_append h more
  · next hlong =>
    cases h
    exact if_neg hlong

/-- A length with as few bytes as it needs is one that does not wait for a mark. -/
theorem sized?_append (h : Strict.length? b = some (n, rest)) (tag : Tag) (more : Bytes) :
    sized? tag (b ++ more) = some (tag, some n, rest ++ more) := by
  cases b with
  | nil => cases h
  | cons size b =>
    rw [Strict.length?] at h
    rw [List.cons_append, sized?]
    split at h
    · next hshort =>
      cases h
      exact if_pos hshort
    · next hshort =>
      dsimp only at h
      split at h
      · cases h
      · next hcount =>
        obtain ⟨⟨digits, behind⟩, hsplit, h⟩ := Option.bind_eq_some_iff.mp h
        dsimp only at h
        split at h
        · cases h
        · cases h
          have hmark : size ≠ 128 := by
            rintro rfl
            exact hcount (.inl rfl)
          rw [if_neg hshort, if_neg hmark, Bytes.split?_append hsplit]
          rfl

/-- What is read strictly is read loosely, with more behind it if there is more. -/
theorem read?_append_of_element? (h : Strict.element? b = some (e, rest)) (more : Bytes) :
    read? (b ++ more) = some (e, rest ++ more) := by
  cases b with
  | nil => cases h
  | cons first front =>
    rw [element?_cons] at h
    obtain ⟨⟨number, behind⟩, hnumber, h⟩ := Option.bind_eq_some_iff.mp h
    obtain ⟨⟨size, behind'⟩, hsize, h⟩ := Option.bind_eq_some_iff.mp h
    obtain ⟨⟨contents, rest'⟩, hsplit, h⟩ := Option.bind_eq_some_iff.mp h
    cases h
    have hheader : header? (first :: front ++ more) =
        some (⟨.ofBits (first.toNat / 64), first.toNat / 32 % 2 = 1, number⟩, some size,
          behind' ++ more) := by
      rw [List.cons_append, header?_cons, number?_append hnumber]
      exact sized?_append hsize _ more
    rw [read?, hheader]
    dsimp only [Option.bind_eq_bind, Option.bind_some]
    rw [Bytes.split?_append hsplit]
    rfl

end Loose

/-! ## Sequences -/

namespace Strict

/-- What a reader of a sequence uses up is one element. -/
theorem exists_element?_of_whole? {α : Type} {reader : Reader α} {a : α}
    (h : (Reader.sequence reader).whole? b = some a) :
    ∃ e, element? b = some (e, []) ∧ e.tag = .sequence := by
  unfold Reader.whole? at h
  split at h
  · next hrun =>
    obtain ⟨⟨inner, rest⟩, hcontents, hinner⟩ := Option.bind_eq_some_iff.mp hrun
    -- Behind the contents nothing more is taken.
    have hrest : rest = [] := by
      cases hwhole : reader.whole? inner with
      | none =>
        simp only [hwhole] at hinner
        cases hinner
      | some a =>
        simp only [hwhole] at hinner
        cases hinner
        rfl
    subst hrest
    obtain ⟨⟨e, rest⟩, helement, hinner⟩ := Option.bind_eq_some_iff.mp hcontents
    dsimp only at hinner
    split at hinner
    · next htag =>
      cases hinner
      exact ⟨e, helement, htag⟩
    · cases hinner
  · cases h

theorem le_of_longTag? (h : longTag? n b = some (m, rest)) : 31 ≤ m := by
  induction b generalizing n with
  | nil => cases h
  | cons x b ih =>
    rw [longTag?] at h
    dsimp only at h
    split at h
    · cases h
    · split at h
      · split at h
        · cases h
        · cases h
          omega
      · exact ih h

/-- The first byte of a sequence. -/
theorem exists_cons_of_sequence (h : element? b = some (e, rest)) (htag : e.tag = .sequence) :
    ∃ front, b = 48 :: front := by
  cases b with
  | nil => cases h
  | cons first front =>
    refine ⟨front, congrArg (· :: front) ?_⟩
    rw [Loose.element?_cons] at h
    obtain ⟨⟨number, behind⟩, hnumber, h⟩ := Option.bind_eq_some_iff.mp h
    obtain ⟨⟨size, behind'⟩, -, h⟩ := Option.bind_eq_some_iff.mp h
    obtain ⟨⟨contents, rest'⟩, -, h⟩ := Option.bind_eq_some_iff.mp h
    cases h
    obtain ⟨hclass, hconstructed, rfl⟩ := Tag.mk.inj htag
    have hclass : first.toNat / 64 = 0 := by
      generalize first.toNat / 64 = n at hclass ⊢
      unfold TagClass.ofBits at hclass
      split at hclass <;> first | rfl | cases hclass
    have hconstructed : first.toNat / 32 % 2 = 1 := of_decide_eq_true hconstructed
    have hnumber : first.toNat % 32 = 16 := by
      unfold Loose.strictNumber? at hnumber
      split at hnumber
      · have := le_of_longTag? hnumber
        omega
      · exact (Prod.mk.inj (Option.some.inj hnumber)).1
    apply UInt8.toNat_inj.mp
    show first.toNat = 48
    omega

end Strict
end Asn1
end PackageSigning
