import PackageSigning.Text.Base64

/-!
# Base 64 is read as it was written

The characters of some bytes are read back as these bytes (`Text.Base64.decode?_encode`). They are
characters of the alphabet and padding, so no line end, blank or dash is among them. Whatever is
read, there are no more bytes than there were characters.
-/

namespace PackageSigning.Text.Base64

variable {n : Nat}

/-! ## The alphabet -/

theorem value?_character (h : n < 64) : value? (character n) = some n := by
  have hall : ∀ n < 64, value? (character n) = some n := by decide
  exact hall n h

/-- The bytes of the alphabet and the padding are letters, digits and three signs. -/
def isCharacter (x : UInt8) : Bool := (value? x).isSome || x == padding

theorem isCharacter_character (h : n < 64) : isCharacter (character n) = true := by
  simp [isCharacter, value?_character h]

/-- The padding stands for no bits. -/
theorem character_ne_padding (h : n < 64) : character n ≠ padding := by
  intro heq
  have hvalue := value?_character h
  rw [heq] at hvalue
  cases hvalue

theorem isCharacter_of_mem_encode {b : Bytes} : ∀ x ∈ encode b, isCharacter x = true := by
  induction b using encode.induct with
  | case1 => nofun
  | case2 a =>
    have ha := a.toNat_lt
    simp only [encode, List.forall_mem_cons]
    exact ⟨isCharacter_character (by omega), isCharacter_character (by omega), rfl, rfl, nofun⟩
  | case3 a b =>
    have ha := a.toNat_lt
    have hb := b.toNat_lt
    simp only [encode, List.forall_mem_cons]
    exact ⟨isCharacter_character (by omega), isCharacter_character (by omega),
      isCharacter_character (by omega), rfl, nofun⟩
  | case4 a b c rest ih =>
    have ha := a.toNat_lt
    have hb := b.toNat_lt
    have hc := c.toNat_lt
    simp only [encode, List.forall_mem_cons]
    exact ⟨isCharacter_character (by omega), isCharacter_character (by omega),
      isCharacter_character (by omega), isCharacter_character (by omega), ih⟩

/-- No character is a blank, a line end or a dash, and all of them are in ASCII. -/
theorem lt_of_isCharacter {x : UInt8} (h : isCharacter x = true) :
    32 < x.toNat ∧ x.toNat < 128 ∧ x.toNat ≠ 45 := by
  have hall : ∀ n < 256, isCharacter (UInt8.ofNat n) = true → 32 < n ∧ n < 128 ∧ n ≠ 45 := by
    decide +kernel
  refine hall x.toNat x.toNat_lt ?_
  rwa [UInt8.ofNat_toNat]

/-! ## Groups -/

theorem decode?_padded_twice (a b : UInt8) : decode? [a, b, padding, padding] = (do
    let a ← value? a
    let b ← value? b
    if b % 16 = 0 then some (bytesOf [a, b]) else none) :=
  rfl

theorem decode?_padded {c : UInt8} (h : c ≠ padding) (a b : UInt8) :
    decode? [a, b, c, padding] = (do
      let a ← value? a
      let b ← value? b
      let c ← value? c
      if c % 4 = 0 then some (bytesOf [a, b, c]) else none) := by
  rw [show padding = 61 from rfl, decode?]
  exact h

/-- A group without padding stands in front of the others. -/
theorem decode?_cons {a b c d : UInt8} (h : d ≠ padding) (rest : Bytes) :
    decode? (a :: b :: c :: d :: rest) = do
      let group ← [a, b, c, d].mapM value?
      return bytesOf group ++ (← decode? rest) := by
  rw [decode?]
  · intro hc hd hrest
    exact h hd
  · intro hd hrest
    exact h hd

theorem ofNat_eq {x : UInt8} {n : Nat} (h : n % 256 = x.toNat) : UInt8.ofNat n = x := by
  apply UInt8.toNat_inj.mp
  simpa using h

/-- The bits of three bytes, six at a time, are put together again. -/
theorem bytesOf_three (a b c : UInt8) :
    bytesOf [a.toNat / 4, a.toNat % 4 * 16 + b.toNat / 16, b.toNat % 16 * 4 + c.toNat / 64,
      c.toNat % 64] = [a, b, c] := by
  have ha := a.toNat_lt
  have hb := b.toNat_lt
  have hc := c.toNat_lt
  simp only [bytesOf, List.cons.injEq, and_true]
  exact ⟨ofNat_eq (by omega), ofNat_eq (by omega), ofNat_eq (by omega)⟩

theorem bytesOf_two (a b : UInt8) :
    bytesOf [a.toNat / 4, a.toNat % 4 * 16 + b.toNat / 16, b.toNat % 16 * 4] = [a, b] := by
  have ha := a.toNat_lt
  have hb := b.toNat_lt
  simp only [bytesOf, List.cons.injEq, and_true]
  exact ⟨ofNat_eq (by omega), ofNat_eq (by omega)⟩

theorem bytesOf_one (a : UInt8) : bytesOf [a.toNat / 4, a.toNat % 4 * 16] = [a] := by
  have ha := a.toNat_lt
  simp only [bytesOf, List.cons.injEq, and_true]
  exact ofNat_eq (by omega)

/-- What is written is read back. -/
theorem decode?_encode (b : Bytes) : decode? (encode b) = some b := by
  induction b using encode.induct with
  | case1 => rfl
  | case2 a =>
    have ha := a.toNat_lt
    rw [encode, decode?_padded_twice, value?_character (by omega), value?_character (by omega)]
    exact (if_pos (by omega)).trans (congrArg some (bytesOf_one a))
  | case3 a b =>
    have ha := a.toNat_lt
    have hb := b.toNat_lt
    rw [encode, decode?_padded (character_ne_padding (by omega)), value?_character (by omega),
      value?_character (by omega), value?_character (by omega)]
    exact (if_pos (by omega)).trans (congrArg some (bytesOf_two a b))
  | case4 a b c rest ih =>
    have ha := a.toNat_lt
    have hb := b.toNat_lt
    have hc := c.toNat_lt
    rw [encode, decode?_cons (character_ne_padding (by omega)), ih]
    simp only [List.mapM_cons, List.mapM_nil, value?_character (show a.toNat / 4 < 64 by omega),
      value?_character (show a.toNat % 4 * 16 + b.toNat / 16 < 64 by omega),
      value?_character (show b.toNat % 16 * 4 + c.toNat / 64 < 64 by omega),
      value?_character (show c.toNat % 64 < 64 by omega)]
    exact congrArg (fun front => some (front ++ rest)) (bytesOf_three a b c)

/-! ## No more bytes than characters -/

theorem length_bytesOf (group : List Nat) : (bytesOf group).length ≤ min 3 group.length := by
  unfold bytesOf
  split <;> simp

theorem length_decode? {cs b : Bytes} (h : decode? cs = some b) : b.length ≤ cs.length := by
  fun_induction decode? cs generalizing b with
  | case1 =>
    cases h
    exact Nat.le_refl _
  | case2 =>
    simp only [Option.bind_eq_bind, Option.bind_eq_some_iff] at h
    obtain ⟨v, -, w, -, h⟩ := h
    split at h
    · cases h
      exact Nat.le_trans (length_bytesOf _) (by simp)
    · cases h
  | case3 =>
    simp only [Option.bind_eq_bind, Option.bind_eq_some_iff] at h
    obtain ⟨v, -, w, -, x, -, h⟩ := h
    split at h
    · cases h
      exact Nat.le_trans (length_bytesOf _) (by simp)
    · cases h
  | case4 _ _ _ _ _ _ _ ih =>
    obtain ⟨group, -, h⟩ := Option.bind_eq_some_iff.mp h
    obtain ⟨others, hothers, h⟩ := Option.bind_eq_some_iff.mp h
    cases h
    have := length_bytesOf group
    have := ih hothers
    simp only [List.length_append, List.length_cons]
    omega
  | case5 => cases h

/-- The values of an open group count as characters. -/
theorem length_decodeLooseFrom {group : List Nat} {pads : Nat} {cs b : Bytes}
    (h : decodeLooseFrom group pads cs = some b) : b.length ≤ group.length + cs.length := by
  fun_induction decodeLooseFrom group pads cs generalizing b with
  | case1 =>
    cases h
    exact Nat.zero_le _
  | case2 => cases h
  | case3 group =>
    cases h
    have := length_bytesOf group
    omega
  | case4 _ _ _ _ _ ih | case5 _ _ _ _ ih | case6 _ _ _ _ _ _ ih =>
    have := ih h
    rw [List.length_cons]
    omega
  | case7 group _ _ _ _ v _ hgroup ih =>
    obtain ⟨others, hothers, rfl⟩ := Option.map_eq_some_iff.mp h
    have := length_bytesOf (group ++ [v])
    have := ih hothers
    simp only [List.length_append, List.length_cons, List.length_nil] at *
    omega
  | case8 _ _ _ _ _ _ _ _ ih =>
    have := ih h
    simp only [List.length_append, List.length_cons, List.length_nil] at *
    omega

theorem length_decodeLoose? {cs b : Bytes} (h : decodeLoose? cs = some b) :
    b.length ≤ cs.length := by
  have := length_decodeLooseFrom h
  rwa [List.length_nil, Nat.zero_add] at this

end PackageSigning.Text.Base64
