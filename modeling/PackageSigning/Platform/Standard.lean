import PackageSigning.Text.Markup
import PackageSigning.Platform

/-!
# A platform to run on

The platform of the program and of the samples. Of the encodings that have only a name it knows the
ASCII part. Derivations are refused numbers that do not fit the machine word or the word of the
library that does the work, and numbers that make no sense. Nested data may be as deep as the
stack of an interpreter allows that has not done anything else.
-/

namespace PackageSigning.Platform

/-- The characters of ASCII, one byte each. -/
def encodeAscii (text : String) : Except Mishap Bytes :=
  if text.toList.all fun c => c.toNat < 128 then .ok (Bytes.ofAscii text) else .error .unencodable

/-- The text of bytes in ASCII. -/
def decodeAscii (b : Bytes) : Except Mishap String :=
  if b.all (· < 128) then .ok (Bytes.toLatin b) else .error .undecodable

/-- The largest number that fits a machine word. -/
def maxWord : Nat := 0xffffffffffffffff

/-- The largest number of iterations that the library takes. -/
def maxIterations : Nat := 0x7fffffff

/-- The refusal of a number of iterations; `overlong` is what a number comes to that fits no word. -/
def refuseIterations (overlong : Mishap) (iterations : Nat) : Option Mishap :=
  if maxWord < iterations then some overlong
  else if maxIterations < iterations then some .panicked
  else none

/-- Which derivations are refused. -/
def refuse : DerivationRequest → Option Mishap
  | .direct length iterations =>
    if maxWord < length then some .tooLarge else refuseIterations .tooLarge iterations
  | .pbkdf2 iterations | .pkcs12 iterations | .digested iterations =>
    refuseIterations .badValue iterations
  | .scrypt .. => none

theorem lt_of_refuse {length iterations : Nat} (h : refuse (.direct length iterations) = none) :
    iterations < UInt64.size := by
  unfold refuse refuseIterations maxWord at h
  grind

open Markup in
theorem pieces_of_no_tag {cs : List Char} (h : '[' ∉ cs) (skipped n : Nat) :
    ∃ texts : List (List Char), pieces skipped n cs = texts.map .plain := by
  induction cs generalizing skipped n with
  | nil => exact ⟨[slashes n], by rw [pieces]; rfl⟩
  | cons c cs ih =>
    obtain ⟨hc, hcs⟩ := not_or.mp (mt List.mem_cons.mpr h)
    cases skipped with
    | succ skipped =>
      rw [pieces]
      exact ih hcs skipped n
    | zero =>
      by_cases hslash : c = '\\'
      · rw [hslash, pieces]
        exact ih hcs 0 (n + 1)
      · obtain ⟨texts, htexts⟩ := ih hcs 0 0
        have hpieces : pieces 0 n (c :: cs) = .plain (slashes n ++ [c]) :: pieces 0 0 cs :=
          pieces.eq_5 n c cs hslash fun hopen => hc hopen.symm
        exact ⟨(slashes n ++ [c]) :: texts, by rw [hpieces, htexts]; rfl⟩

open Markup in
theorem textFrom_plain (texts : List (List Char)) :
    textFrom [] (texts.map .plain) = .ok texts.flatten := by
  induction texts with
  | nil => rfl
  | cons text texts ih =>
    rw [List.map_cons, textFrom, ih]
    rfl

/-- Text that opens no tag is shown. -/
theorem exists_shown {line : String} (h : '[' ∉ line.toList) : ∃ text, Markup.shown line = .ok text := by
  obtain ⟨texts, htexts⟩ := pieces_of_no_tag h 0 0
  rw [Markup.shown, htexts, textFrom_plain]
  exact ⟨_, rfl⟩

/-- How deep values may be nested. -/
def depth : Nat := 980

/-- The platform. -/
@[reducible] def standard : Platform where
  encode _ := encodeAscii
  decode _ := decodeAscii
  refusal := refuse
  nesting _ := depth
  overflows _ := false
  rendered := Markup.shown
  four_le_nesting _ := by decide
  fits_word := lt_of_refuse
  shows_plain h := exists_shown fun hmem => (h _ hmem).2.2 rfl

end PackageSigning.Platform
