import Mathlib.Data.Nat.Digits.Defs
import Mathlib.Tactic.IntervalCases
import PackageSigning.Json.Reading
import PackageSigning.Json.Writing

/-!
# Reading whole numbers as they are written

A whole number that has no more digits than are read is read back as the number
(`JsonReading.scalar_integer`), where the text behind it cannot make it longer.
-/

namespace PackageSigning.JsonReading

/-- A text that cannot make a number longer which it stands behind. -/
def Ended (rest : List Char) : Prop :=
  ∀ c ∈ rest.head?, isDigit c = false ∧ c ≠ '.' ∧ c ≠ 'e' ∧ c ≠ 'E'

theorem ended_nil : Ended [] := nofun

theorem isDigit_of_mem_toDigits {n : Nat} {c : Char} (h : c ∈ Nat.toDigits 10 n) :
    isDigit c = true :=
  Nat.isDigit_of_mem_toDigits (by decide) (by decide) h

/-- A number but zero has no needless zero in front. -/
theorem toDigits_eq_cons {n : Nat} (h : 0 < n) :
    ∃ c cs, Nat.toDigits 10 n = c :: cs ∧ c ≠ '0' := by
  -- The first digit is that of the tenth part, unless there is one digit only.
  induction n using Nat.strongRecOn with
  | ind n ih =>
    by_cases hn : n < 10
    · refine ⟨_, _, Nat.toDigits_of_lt_base hn, ?_⟩
      interval_cases n <;> decide
    · obtain ⟨c, cs, hdigits, hc⟩ := ih (n / 10) (by omega) (by omega)
      rw [Nat.toDigits_of_base_le (by decide) (Nat.le_of_not_lt hn), hdigits]
      exact ⟨c, _, rfl, hc⟩

theorem ofDigits_toDigits (n : Nat) : Text.ofDigits (digitsOf (Nat.toDigits 10 n)) = n := by
  have h := Nat.ofDigitChars_ten_toDigits (n := n)
  rw [Nat.ofDigitChars_eq_foldl] at h
  unfold Text.ofDigits digitsOf
  rw [List.foldl_map]
  refine Eq.trans ?_ h
  congr 1
  funext value c
  rw [Nat.mul_comm]
  rfl

theorem takeWhile_isDigit {digits rest : List Char} (hdigits : ∀ c ∈ digits, isDigit c = true)
    (ended : Ended rest) : (digits ++ rest).takeWhile isDigit = digits ∧
      (digits ++ rest).dropWhile isDigit = rest := by
  rw [List.takeWhile_append_of_pos hdigits, List.dropWhile_append_of_pos hdigits]
  cases rest with
  | nil => simp
  | cons c rest => simp [(ended c rfl).1]

theorem wholePart_toDigits (n : Nat) {rest : List Char} (ended : Ended rest) :
    wholePart (Nat.toDigits 10 n ++ rest) = some (Nat.toDigits 10 n, rest) := by
  obtain rfl | hn := Nat.eq_zero_or_pos n
  · rfl
  · obtain ⟨c, cs, hdigits, hc⟩ := toDigits_eq_cons hn
    obtain ⟨htake, hdrop⟩ := takeWhile_isDigit (fun c => isDigit_of_mem_toDigits (n := n)) ended
    unfold wholePart
    split
    · next h =>
      rw [hdigits] at h
      cases h
      exact absurd rfl hc
    · rw [htake, hdrop, hdigits]
      rfl

theorem fractionPart_of_ended {rest : List Char} (ended : Ended rest) :
    fractionPart rest = ([], rest) := by
  unfold fractionPart
  split
  · exact absurd rfl (ended '.' rfl).2.1
  · rfl

theorem powerPart_of_ended {rest : List Char} (ended : Ended rest) :
    powerPart rest = (none, rest) := by
  cases rest with
  | nil => rfl
  | cons c rest =>
    obtain ⟨-, -, hsmall, hlarge⟩ := ended c rfl
    unfold powerPart
    simp [hsmall, hlarge]

/-- The digits of a number are read back as the number. -/
theorem unsigned_toDigits ( isNegative : Bool) {n : Nat} {rest : List Char} (ended : Ended rest)
    (short : (Nat.toDigits 10 n).length ≤ Text.maxDigits) :
    unsigned isNegative (Nat.toDigits 10 n ++ rest) =
      .ok (.integer (if isNegative then -(n : Int) else n), rest) := by
  unfold unsigned
  rw [wholePart_toDigits n ended]
  dsimp only
  rw [fractionPart_of_ended ended, powerPart_of_ended ended]
  simp [ofDigits_toDigits, Nat.not_lt.mpr short]

/-- No word that is a value starts like a number. -/
theorem find?_words {c : Char} {cs : List Char} (h : isDigit c = true) :
    (words.find? fun (word, _) => word.isPrefixOf (c :: cs)) = none ∧
      (words.find? fun (word, _) => word.isPrefixOf ('-' :: c :: cs)) = none := by
  have hne (d : Char) (hd : isDigit d = false) : d ≠ c := by
    rintro rfl
    exact absurd h (by simp [hd])
  simp [words, hne 'n' rfl, hne 't' rfl, hne 'f' rfl, hne 'N' rfl, hne 'I' rfl, hne '-' rfl]

theorem exists_toDigits_append (n : Nat) (rest : List Char) :
    ∃ c cs, Nat.toDigits 10 n ++ rest = c :: cs ∧ isDigit c = true := by
  cases h : Nat.toDigits 10 n with
  | nil => exact absurd h Nat.toDigits_ne_nil
  | cons c cs => exact ⟨c, _, rfl, isDigit_of_mem_toDigits (n := n) (h ▸ List.mem_cons_self)⟩

theorem toList_toString_ofNat (n : Nat) : (toString (Int.ofNat n)).toList = Nat.toDigits 10 n := by
  show (toString n).toList = _
  rw [Nat.toString_eq_ofList_toDigits, String.toList_ofList]

theorem toList_toString_negSucc (n : Nat) :
    (toString (Int.negSucc n)).toList = '-' :: Nat.toDigits 10 (n + 1) := by
  show ("-" ++ toString (n + 1)).toList = _
  simp [String.toList_append]

/-- A whole number is read back. -/
theorem scalar_integer (n : Int) {rest : List Char} (ended : Ended rest)
    (short : (Nat.toDigits 10 n.natAbs).length ≤ Text.maxDigits) :
    scalar ((toString n).toList ++ rest) = .ok (.integer n, rest) := by
  cases n with
  | ofNat n =>
    obtain ⟨c, cs, hcs, hc⟩ := exists_toDigits_append n rest
    have hread := unsigned_toDigits false ended short
    unfold scalar
    rw [toList_toString_ofNat, hcs, (find?_words hc).1]
    dsimp only
    split
    · next heq =>
      cases heq
      cases hc
    · rw [← hcs]
      exact hread
  | negSucc n =>
    obtain ⟨c, cs, hcs, hc⟩ := exists_toDigits_append (n + 1) rest
    have hread := unsigned_toDigits true ended short
    unfold scalar
    rw [toList_toString_negSucc, List.cons_append, hcs, (find?_words hc).2]
    dsimp only
    rw [← hcs]
    exact hread

end PackageSigning.JsonReading
