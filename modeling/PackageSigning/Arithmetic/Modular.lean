/-!
# Arithmetic modulo a number

Powers, inverses, square roots modulo a prime, and a test for primes.
-/

namespace PackageSigning.Arithmetic

/-- The remainder of a power, by squaring. -/
def powMod (m base exponent : Nat) : Nat :=
  if h : exponent = 0 then 1 % m
  else
    let root := powMod m (base * base % m) (exponent / 2)
    if exponent % 2 = 1 then root * base % m else root
termination_by exponent
decreasing_by exact Nat.div_lt_self (Nat.pos_of_ne_zero h) (by decide)

/-- The greatest common divisor of `a` and `b`, and how often `a` goes into it,
`b` aside. -/
def bezout (a b : Nat) : Nat × Int :=
  go a b 1 0
where
  /-- Divides on, where `s` and `t` tell how often the first number goes into `a` and `b`. -/
  go (a b : Nat) (s t : Int) : Nat × Int :=
    if _h : b = 0 then (a, s)
    else go b (a % b) t (s - (a / b : Nat) * t)
  termination_by b
  decreasing_by exact Nat.mod_lt a (Nat.pos_of_ne_zero _h)

/-- The number that `a` has to be multiplied with to leave 1, if there is one. -/
def inverse? (m a : Nat) : Option Nat :=
  let (g, s) := bezout (a % m) m
  if g = 1 then some (s % (m : Int)).toNat else none

/-- The inverse, or zero. -/
def inverse (m a : Nat) : Nat := (inverse? m a).getD 0

/-- `a - b` modulo `m`, for `b` below `m`. -/
def subMod (m a b : Nat) : Nat := (a + m - b) % m

/-- How often 2 divides a positive number, and what is left. -/
def splitTwos (n : Nat) : Nat × Nat :=
  if _h : n = 0 then (0, 0)
  else if n % 2 = 1 then (0, n)
  else
    let (k, odd) := splitTwos (n / 2)
    (k + 1, odd)
termination_by n
decreasing_by exact Nat.div_lt_self (Nat.pos_of_ne_zero _h) (by decide)

/-- Whether squaring `x` so many times passes through `m - 1`. -/
def reachesMinusOne (m : Nat) : Nat → Nat → Bool
  | 0, _ => false
  | k + 1, x => x = m - 1 || reachesMinusOne m k (x * x % m)

/-- Whether `m` behaves like a prime towards one base: the odd part of `m - 1` as
exponent gives 1, or squaring on from there gives `m - 1`. -/
def passes (m base : Nat) : Bool :=
  let (k, odd) := splitTwos (m - 1)
  let x := powMod m base odd
  x = 1 || reachesMinusOne m k x

/-- The bases of the test for primes. -/
def bases : List Nat := [2, 3, 5, 7, 11, 13, 17, 19, 23, 29, 31, 37]

/-- Whether a number is prime, as far as the bases tell. -/
def isPrime (m : Nat) : Bool :=
  if m < 2 then false
  else if bases.contains m then true
  else bases.all (fun p => m % p != 0) && bases.all (passes m)

/-- The first number from `n` on that is no square modulo the prime `p`. -/
def nonSquareFrom (p : Nat) : Nat → Nat → Nat
  | 0, n => n
  | fuel + 1, n => if powMod p n ((p - 1) / 2) = p - 1 then n else nonSquareFrom p fuel (n + 1)

/-- How often `x` has to be squared to give 1, at most `k` times. -/
def twosOrder (p : Nat) : Nat → Nat → Nat
  | 0, _ => 0
  | k + 1, x => if x = 1 then 0 else twosOrder p k (x * x % p) + 1

/-- Corrects a root `r`, whose square is `a` times `t`, until `t` is 1. `c` is a
root of 1 that needs `k` squarings. -/
def correctRoot (p : Nat) : Nat → Nat → Nat → Nat → Nat → Nat
  | 0, _, _, _, r => r
  | fuel + 1, k, c, t, r =>
    if t = 1 then r
    else
      let i := twosOrder p k t
      let b := powMod p c (Nat.pow 2 (k - i - 1))
      correctRoot p fuel i (b * b % p) (t * (b * b % p) % p) (r * b % p)

/-- A square root modulo a prime, if there is one. -/
def sqrtMod? (p a : Nat) : Option Nat :=
  let a := a % p
  let (k, odd) := splitTwos (p - 1)
  let c := powMod p (nonSquareFrom p 1000 2) odd
  let r := correctRoot p (k + 1) k c (powMod p a odd) (powMod p a ((odd + 1) / 2))
  if r * r % p = a then some r else none

end PackageSigning.Arithmetic
