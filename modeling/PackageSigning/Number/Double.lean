import PackageSigning.Bytes

/-!
# Binary fractions of 64 bits

A double is a mantissa below 2^53 times a power of two, with a sign; or an
infinity; or no number. A decimal text stands for the double nearest to it, of
two equally near ones the even one. A double is written with the fewest digits
that stand for it.
-/

namespace PackageSigning

/-- A binary fraction of 64 bits. -/
inductive Double where
  | finite ( isNegative : Bool) (mantissa : Nat) (exponent : Int)
  | infinite ( isNegative : Bool)
  | notANumber
  deriving DecidableEq, Repr

namespace Double

/-- The bound of mantissas. -/
def mantissaBound : Nat := 0x20000000000000

/-- The smallest exponent. -/
def minExponent : Int := -1074

/-- The largest exponent. -/
def maxExponent : Int := 971

/-- A quotient divided by a power of two. -/
def scaled (num den : Nat) (exponent : Int) : Nat × Nat :=
  if exponent < 0 then (num * Nat.pow 2 (-exponent).toNat, den) else (num, den * Nat.pow 2 exponent.toNat)

/-- The whole number nearest to a quotient, of two equally near ones the even one. -/
def nearest (num den : Nat) : Nat :=
  let q := num / den
  let r := num % den
  if 2 * r < den ∨ (2 * r = den ∧ q % 2 = 0) then q else q + 1

/-- The exponent that brings a quotient between half the bound of mantissas and the bound. -/
def exponentFor (num den : Nat) : Int :=
  let e : Int := (Bytes.bitLength num : Int) - Bytes.bitLength den - 53
  let (n, d) := scaled num den e
  max minExponent (if mantissaBound * d ≤ n then e + 1 else e)

/-- The double nearest to a quotient. -/
def ofQuotient ( isNegative : Bool) (num den : Nat) : Double :=
  let e := exponentFor num den
  let (n, d) := scaled num den e
  let m := nearest n d
  let (m, e) := if m = mantissaBound then (m / 2, e + 1) else (m, e)
  if maxExponent < e then .infinite isNegative else .finite isNegative m e

/-- The double nearest to `digits` times a power of ten. -/
def ofDecimal ( isNegative : Bool) (digits : Nat) (power : Int) : Double :=
  let size : Int := (Nat.toDigits 10 digits).length
  if digits = 0 ∨ size + power < -330 then .finite isNegative 0 minExponent
  else if 310 < size + power then .infinite isNegative
  else if power < 0 then ofQuotient isNegative digits (Nat.pow 10 (-power).toNat)
  else ofQuotient isNegative (digits * Nat.pow 10 power.toNat) 1

/-- Whether the double is the number one. -/
def isOne : Double → Bool
  | finite false m e => e ≤ 0 && m == Nat.pow 2 (-e).toNat
  | _ => false

/-- Whether the double is the number zero. -/
def isZero : Double → Bool
  | finite _ m _ => m == 0
  | _ => false

/-- The whole part; nothing without one. -/
def whole? : Double → Option Int
  | finite neg m e =>
    let n : Int := if e < 0 then m / Nat.pow 2 (-e).toNat else m * Nat.pow 2 e.toNat
    some (if neg then -n else n)
  | _ => none

/-- The whole number that the double is, if it is one. -/
def integer? : Double → Option Int
  | finite neg m e =>
    if e < 0 ∧ m % Nat.pow 2 (-e).toNat ≠ 0 then none else whole? (finite neg m e)
  | _ => none

/-- A finite value, and the ends of the interval of numbers nearest to it, all as
numerators of one denominator. -/
structure Neighbourhood where
  low : Nat
  value : Nat
  high : Nat
  denominator : Nat
  /-- Whether the ends belong to the interval. -/
  closed : Bool

/-- The neighbourhood of a finite double. -/
def neighbourhood (mantissa : Nat) (exponent : Int) : Neighbourhood :=
  let below := if 2 * mantissa = mantissaBound ∧ minExponent < exponent then 1 else 2
  let (unit, denominator) := scaled 1 1 (2 - exponent)
  ⟨(4 * mantissa - below) * unit, 4 * mantissa * unit, (4 * mantissa + 2) * unit, denominator,
    mantissa % 2 = 0⟩

namespace Neighbourhood

/-- Whether `digits` times a quotient lies in the interval. -/
def holds (n : Neighbourhood) (digits num den : Nat) : Bool :=
  let x := digits * num * n.denominator
  if n.closed then n.low * den ≤ x && x ≤ n.high * den else n.low * den < x && x < n.high * den

/-- The power of ten, as a quotient. -/
def tenTo (power : Int) : Nat × Nat :=
  if power < 0 then (1, Nat.pow 10 (-power).toNat) else (Nat.pow 10 power.toNat, 1)

/-- The number of digits before the decimal point of the value; zero or less for
a value below one. -/
def point (n : Neighbourhood) : Int :=
  let k : Int := (Nat.toDigits 10 n.value).length - (Nat.toDigits 10 n.denominator).length
  let (num, den) := tenTo k
  if num * n.denominator ≤ n.value * den then k + 1 else k

/-- The nearest of the numbers in the interval with `count` digits, if there is one;
of two equally near ones the even one. -/
def withDigits? (n : Neighbourhood) (count : Nat) : Option Nat :=
  let (num, den) := tenTo (n.point - count)
  let unit := num * n.denominator
  let lower := n.value * den / unit
  let rest := n.value * den % unit
  match n.holds lower num den, n.holds (lower + 1) num den with
  | true, true =>
    some (if 2 * rest < unit ∨ (2 * rest = unit ∧ lower % 2 = 0) then lower else lower + 1)
  | true, false => some lower
  | false, true => some (lower + 1)
  | false, false => none

end Neighbourhood

/-- The fewest digits that stand for a finite double, and the place of the decimal
point behind so many of them. -/
def shortest (mantissa : Nat) (exponent : Int) : List Char × Int :=
  if mantissa = 0 then (['0'], 1)
  else
    let n := neighbourhood mantissa exponent
    let rec search : Nat → Nat → Nat × Nat
      | 0, count => (count, (n.withDigits? count).getD 0)
      | fuel + 1, count =>
        match n.withDigits? count with
        | some digits => (count, digits)
        | none => search fuel (count + 1)
    let (count, digits) := search 16 1
    let cs := Nat.toDigits 10 digits
    let trimmed := (cs.reverse.dropWhile (· = '0')).reverse
    (trimmed, n.point + cs.length - count)

/-- An exponent with its sign and at least two digits. -/
def exponentText (e : Int) : List Char :=
  let digits := Nat.toDigits 10 e.natAbs
  (if e < 0 then '-' else '+') :: (if digits.length < 2 then '0' :: digits else digits)

/-- Digits with the decimal point behind the first `point` of them; between
10^-4 and 10^16 without an exponent. -/
def decimalText (digits : List Char) (point : Int) : List Char :=
  if point ≤ -4 ∨ 16 < point then
    let fraction := digits.drop 1
    digits.take 1 ++ (if fraction.isEmpty then [] else '.' :: fraction) ++
      'e' :: exponentText (point - 1)
  else if point ≤ 0 then
    ['0', '.'] ++ List.replicate (-point).toNat '0' ++ digits
  else
    let places := point.toNat
    let fraction := digits.drop places
    digits.take places ++ List.replicate (places - digits.length) '0' ++
      '.' :: (if fraction.isEmpty then ['0'] else fraction)

/-- The text of a double; `infinity` and `none` are the words for those that are
no finite numbers. -/
def text (infinity none : String) : Double → List Char
  | finite neg m e =>
    let (digits, point) := shortest m e
    (if neg then ['-'] else []) ++ decimalText digits point
  | infinite neg => (if neg then ['-'] else []) ++ infinity.toList
  | notANumber => none.toList

end Double
end PackageSigning
