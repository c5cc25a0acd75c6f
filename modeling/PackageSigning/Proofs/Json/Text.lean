import PackageSigning.Json.Reading
import PackageSigning.Json.Writing

/-!
# Texts as they are read and written

A text between quotes is read back as the text, whatever code points are in it
(`JsonReading.string_quote`), unless two halves of a character stand side by side: those are read
as the character. In a text without halves of characters they never do
(`JsonText.settled_ofString`).
-/

namespace PackageSigning

namespace JsonText

/-- Whether a code point is the first half of a character. -/
def IsHigh (n : Nat) : Prop := 0xd800 ≤ n ∧ n < 0xdc00

/-- Whether a code point is the second half of a character. -/
def IsLow (n : Nat) : Prop := 0xdc00 ≤ n ∧ n < 0xe000

/-- A series of code points in which no two halves of a character stand side by side. -/
inductive Apart : List Nat → Prop
  | nil : Apart []
  | single (n : Nat) : Apart [n]
  | cons {n m : Nat} {ns : List Nat} (h : ¬(IsHigh n ∧ IsLow m)) (rest : Apart (m :: ns)) :
    Apart (n :: m :: ns)

/-- A text of code points that no reader would join. -/
structure Settled (t : JsonText) : Prop where
  bounded : ∀ n ∈ t.points, n < 0x110000
  apart : Apart t.points

theorem Apart.cons_of_not_high {n : Nat} {ns : List Nat} (h : ¬IsHigh n) (rest : Apart ns) :
    Apart (n :: ns) := by
  cases rest with
  | nil => exact .single n
  | single m => exact .cons (fun both => h both.1) (.single m)
  | cons hm rest => exact .cons (fun both => h both.1) (.cons hm rest)

theorem toNat_bounds (c : Char) : c.toNat < 0xd800 ∨ 0xdfff < c.toNat ∧ c.toNat < 0x110000 :=
  c.valid

theorem not_isHigh_toNat (c : Char) : ¬IsHigh c.toNat := by
  have hc := toNat_bounds c
  rintro ⟨_, _⟩
  omega

theorem settled_ofString (s : String) : (ofString s).Settled where
  bounded n h := by
    obtain ⟨c, _, rfl⟩ := List.mem_map.mp h
    have hc := toNat_bounds c
    omega
  apart := by
    unfold ofString
    induction s.toList with
    | nil => exact .nil
    | cons c cs ih => exact ih.cons_of_not_high (not_isHigh_toNat c)

@[simp] theorem text?_ofString (s : String) : (ofString s).text? = some s := by
  have hall : (ofString s).points.all (·.isValidChar) = true := by
    simp only [ofString, List.all_map, List.all_eq_true, Function.comp_apply, decide_eq_true_eq]
    exact fun c _ => c.valid
  rw [text?, if_pos hall, ofString, List.map_map]
  simp [Function.comp_def, Char.ofNat_toNat]

theorem toNat_ofNat {n : Nat} (h : n.isValidChar) : (Char.ofNat n).toNat = n := by
  rw [Char.ofNat, dif_pos h]
  rfl

theorem text?_eq_some_iff {t : JsonText} {s : String} : t.text? = some s ↔ t = ofString s := by
  constructor
  · intro h
    obtain ⟨points⟩ := t
    unfold text? at h
    split at h
    · next hvalid =>
      cases h
      have hpoints : points.map (fun n => (Char.ofNat n).toNat) = points.map id :=
        List.map_congr_left fun n hn =>
          toNat_ofNat (by simpa using List.all_eq_true.mp hvalid n hn)
      simpa [ofString, Function.comp_def] using hpoints.symm
    · cases h
  · rintro rfl
    exact text?_ofString s

@[simp] theorem shown_ofString (s : String) : (ofString s).shown = s := by
  have hpoint (c : Char) : (if c.toNat.isValidChar then [Char.ofNat c.toNat]
      else '\\' :: 'u' :: Text.hexDigits 4 c.toNat) = [c] := by
    rw [if_pos (show c.toNat.isValidChar from c.valid), Char.ofNat_toNat]
  rw [shown, ofString, List.flatMap_map]
  simp only [hpoint, List.flatMap_singleton', String.ofList_toList]

theorem ofString_injective {s t : String} (h : ofString s = ofString t) : s = t := by
  simpa using congrArg text? h

@[simp] theorem ofString_inj {s t : String} : ofString s = ofString t ↔ s = t :=
  ⟨ofString_injective, congrArg ofString⟩

end JsonText

/-! ## Hexadecimal digits -/

theorem Bytes.hexValue?_digitChar :
    ∀ {d : Nat}, d < 16 → Bytes.hexValue? d.digitChar = some d := by
  decide

namespace Text

theorem hexDigits_one {n : Nat} (h : n < 16) : hexDigits 1 n = [n.digitChar] := by
  unfold hexDigits
  rw [Nat.toDigits_of_lt_base h]
  rfl

/-- The last digit is that of the rest of a division by sixteen. -/
theorem hexDigits_succ {width : Nat} (hwidth : 0 < width) (n : Nat) :
    hexDigits (width + 1) n = hexDigits width (n / 16) ++ [(n % 16).digitChar] := by
  unfold hexDigits
  by_cases h : n < 16
  · rw [Nat.toDigits_of_lt_base h, Nat.div_eq_of_lt h, Nat.mod_eq_of_lt h, Nat.toDigits_zero]
    obtain ⟨k, rfl⟩ := Nat.exists_eq_add_of_lt hwidth
    simp [List.replicate_succ']
  · rw [Nat.toDigits_of_base_le (by decide) (Nat.le_of_not_lt h), ← List.append_assoc]
    simp

theorem hexDigits_four {n : Nat} (h : n < 0x10000) : hexDigits 4 n =
    [(n / 4096).digitChar, (n / 256 % 16).digitChar, (n / 16 % 16).digitChar,
      (n % 16).digitChar] := by
  rw [hexDigits_succ (by decide), hexDigits_succ (by decide), hexDigits_succ (by decide),
    hexDigits_one (by omega)]
  simp [Nat.div_div_eq_div_mul]

end Text

namespace JsonReading
open JsonValue JsonText

/-! ## Texts -/

/-- Reading the escape of a 16-bit unit. -/
theorem units_escapeUnit {n : Nat} (h : n < 0x10000) (cs : List Char) :
    units (escapeUnit n ++ cs) = Front.map (n :: ·) <$> units cs := by
  have hunit : unit? (n / 4096).digitChar (n / 256 % 16).digitChar (n / 16 % 16).digitChar
      (n % 16).digitChar = some n := by
    unfold unit?
    rw [Bytes.hexValue?_digitChar (by omega), Bytes.hexValue?_digitChar (by omega),
      Bytes.hexValue?_digitChar (by omega), Bytes.hexValue?_digitChar (by omega)]
    show some _ = some n
    congr 1
    omega
  unfold escapeUnit
  rw [Text.hexDigits_four h]
  show units ('\\' :: 'u' :: _ :: _ :: _ :: _ :: cs) = _
  rw [units, hunit]

theorem units_escaped {c : Char} {n : Nat} (h : escaped? c = some n) (cs : List Char) :
    units ('\\' :: c :: cs) = Front.map (n :: ·) <$> units cs := by
  rw [units, h]
  rintro _ _ _ _ _ rfl
  cases h

theorem units_plain {c : Char} (hquote : c ≠ '"') (hbackslash : c ≠ '\\') (h : 32 ≤ c.toNat)
    (cs : List Char) : units (c :: cs) = Front.map (c.toNat :: ·) <$> units cs := by
  rw [units, if_neg (by omega)]
  all_goals simp_all

/-- The units that a code point is written as: itself, or the two halves of its character. -/
def unitsOf (n : Nat) : List Nat :=
  if n < 0x10000 then [n] else [0xd800 + (n - 0x10000) / 0x400, 0xdc00 + (n - 0x10000) % 0x400]

theorem unitsOf_of_lt {n : Nat} (h : n < 0x10000) : unitsOf n = [n] := if_pos h

/-- Reading a code point as it is written between quotes. -/
theorem units_escapePoint {n : Nat} (bounded : n < 0x110000) (cs : List Char) :
    units (escapePoint n ++ cs) = Front.map (unitsOf n ++ ·) <$> units cs := by
  have named {letter : Char} {m : Nat} (hn : n = m) (hsmall : m < 0x10000)
      (h : escaped? letter = some m) :
      units (['\\', letter] ++ cs) = Front.map (unitsOf n ++ ·) <$> units cs := by
    rw [hn, unitsOf_of_lt hsmall]
    exact units_escaped h cs
  unfold escapePoint
  -- The quote, the backslash, and the five control characters that have letters.
  split
  · next h => exact named h (by decide) rfl
  next hquote =>
  split
  · next h => exact named h (by decide) rfl
  next hbackslash =>
  split
  · next h => exact named h (by decide) rfl
  split
  · next h => exact named h (by decide) rfl
  split
  · next h => exact named h (by decide) rfl
  split
  · next h => exact named h (by decide) rfl
  split
  · next h => exact named h (by decide) rfl
  -- The others stand for themselves if they are printable, or are escaped unit by unit.
  split
  · next h =>
    have hvalid : n.isValidChar := .inl (by omega)
    have hchar : (Char.ofNat n).toNat = n := JsonText.toNat_ofNat hvalid
    rw [unitsOf_of_lt (by omega)]
    refine (units_plain ?_ ?_ (by omega) cs).trans (by rw [hchar]; rfl)
    · exact fun h => hquote (hchar ▸ congrArg Char.toNat h)
    · exact fun h => hbackslash (hchar ▸ congrArg Char.toNat h)
  split
  · next h =>
    rw [unitsOf_of_lt h]
    exact units_escapeUnit h cs
  · next h =>
    unfold unitsOf
    rw [if_neg h, List.append_assoc, units_escapeUnit (by omega), units_escapeUnit (by omega)]
    cases units cs <;> rfl

/-- Reading a text as it is written, up to its closing quote. -/
theorem units_flatMap {points : List Nat} (bounded : ∀ n ∈ points, n < 0x110000)
    (rest : List Char) :
    units (points.flatMap escapePoint ++ '"' :: rest) = .ok (points.flatMap unitsOf, rest) := by
  induction points with
  | nil => rfl
  | cons n points ih =>
    obtain ⟨hn, hpoints⟩ := List.forall_mem_cons.mp bounded
    rw [List.flatMap_cons, List.append_assoc, units_escapePoint hn, ih hpoints]
    rfl

/-! ## Halves of characters -/

/-- A unit in front that is not joined to what stands behind it. -/
theorem joined_cons {n : Nat} {ns : List Nat} (h : ∀ m ∈ ns.head?, ¬(IsHigh n ∧ IsLow m)) :
    joined (n :: ns) = n :: joined ns := by
  cases ns with
  | nil => rfl
  | cons m ns =>
    have hnot := h m rfl
    unfold IsHigh IsLow at hnot
    rw [joined, if_neg (by omega)]

/-- The first unit of a code point is a second half only if the point is one. -/
theorem isLow_head?_unitsOf {n m : Nat} (bounded : n < 0x110000) {ns : List Nat}
    (h : m ∈ (unitsOf n ++ ns).head?) (low : IsLow m) : IsLow n := by
  unfold unitsOf at h
  split at h
  · cases h
    exact low
  · cases h
    obtain ⟨_, _⟩ := low
    omega

theorem joined_unitsOf {n : Nat} (bounded : n < 0x110000) {ns : List Nat}
    (h : ∀ m ∈ ns.head?, ¬(IsHigh n ∧ IsLow m)) : joined (unitsOf n ++ ns) = n :: joined ns := by
  by_cases hn : n < 0x10000
  · rw [unitsOf_of_lt hn]
    exact joined_cons h
  · obtain ⟨above, rfl⟩ := Nat.exists_eq_add_of_le (Nat.le_of_not_lt hn)
    have hpoint : 0x10000 + (0xd800 + above / 0x400 - 0xd800) * 0x400 +
        (0xdc00 + above % 0x400 - 0xdc00) = 0x10000 + above := by
      omega
    unfold unitsOf
    rw [if_neg hn, Nat.add_sub_cancel_left, List.cons_append, List.cons_append, List.nil_append,
      joined, if_pos (by omega), hpoint]

/-- The halves of characters are joined again. -/
theorem joined_flatMap {points : List Nat} (bounded : ∀ n ∈ points, n < 0x110000)
    (apart : Apart points) : joined (points.flatMap unitsOf) = points := by
  induction apart with
  | nil => rfl
  | single n =>
    have hn := bounded n List.mem_cons_self
    rw [List.flatMap_cons, joined_unitsOf hn (by simp)]
    rfl
  | @cons n m ns h rest ih =>
    obtain ⟨hn, hrest⟩ := List.forall_mem_cons.mp bounded
    have hm := hrest m List.mem_cons_self
    rw [List.flatMap_cons, joined_unitsOf hn, ih hrest]
    intro k hk both
    exact h ⟨both.1, isLow_head?_unitsOf hm (List.flatMap_cons ▸ hk) both.2⟩

/-- A text between quotes is read back. -/
theorem string_quote {t : JsonText} (settled : t.Settled) (rest : List Char) :
    string (t.points.flatMap escapePoint ++ '"' :: rest) = .ok (t, rest) := by
  unfold string
  rw [units_flatMap settled.bounded]
  show Except.ok (JsonText.mk (joined _), rest) = _
  rw [joined_flatMap settled.bounded settled.apart]

end JsonReading
end PackageSigning
