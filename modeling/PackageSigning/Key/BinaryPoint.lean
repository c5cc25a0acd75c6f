import PackageSigning.Key.Equation

/-!
# Points over fields of characteristic two

Sums in the field are `^^^`, products are taken bit by bit and reduced at once, and inverses come
from dividing polynomials step by step. A point has two coordinates; there is none at infinity.
-/

namespace PackageSigning

namespace BinaryEquation

/-- A field element times the polynomial `x`. -/
def shift (e : BinaryEquation) (a : Nat) : Nat :=
  let twice := a <<< 1
  if twice.testBit e.degree then twice ^^^ (1 <<< e.degree) ^^^ e.reduction else twice

/-- The product of `a` and the polynomial of the lowest bits of `b`, so many of them, behind what
the higher ones have come to. -/
def timesFrom (e : BinaryEquation) (a b : Nat) : Nat → Nat → Nat
  | 0, sum => sum
  | bits + 1, sum =>
    let sum := e.shift sum
    timesFrom e a b bits (if b.testBit bits then sum ^^^ a else sum)

/-- The product of two field elements. -/
def times (e : BinaryEquation) (a b : Nat) : Nat := e.timesFrom a b e.degree 0

/-- The square of a field element. -/
def square (e : BinaryEquation) (a : Nat) : Nat := e.times a a

/-- A field element squared so many times. -/
def squares (e : BinaryEquation) : Nat → Nat → Nat
  | 0, a => a
  | n + 1, a => squares e n (e.square a)

/-- Divides the polynomials `u` and `v` on. `g` and `h` tell how often the element to invert goes
into them. -/
def inverseFrom : Nat → Nat → Nat → Nat → Nat → Nat
  | 0, _, _, g, _ => g
  | fuel + 1, u, v, g, h =>
    if u ≤ 1 then g
    else if u.log2 < v.log2 then
      let lag := v.log2 - u.log2
      inverseFrom fuel (v ^^^ (u <<< lag)) u (h ^^^ (g <<< lag)) g
    else
      let lag := u.log2 - v.log2
      inverseFrom fuel (u ^^^ (v <<< lag)) v (g ^^^ (h <<< lag)) h

/-- The inverse of a field element that is not zero. Every step lowers a degree. -/
def inverse (e : BinaryEquation) (a : Nat) : Nat :=
  inverseFrom (2 * e.degree + 1) a ((1 <<< e.degree) ^^^ e.reduction) 1 0

/-- The sum of every other one of the first squares of squares of a field element. -/
def halfTrace (e : BinaryEquation) (a : Nat) : Nat → Nat
  | 0 => a
  | n + 1 => a ^^^ e.squares 2 (halfTrace e a n)

end BinaryEquation

/-- A point with its coordinates, none at infinity. -/
abbrev BinaryPoint := Option (Nat × Nat)

namespace BinaryPoint

/-- A point added to itself. -/
def double (e : BinaryEquation) : BinaryPoint → BinaryPoint
  | none => none
  | some (x, y) =>
    if x = 0 then none
    else
      let slope := x ^^^ e.times y (e.inverse x)
      let sum := e.square slope ^^^ slope ^^^ e.a
      some (sum, e.square x ^^^ e.times (slope ^^^ 1) sum)

/-- The sum of two points. -/
def add (e : BinaryEquation) : BinaryPoint → BinaryPoint → BinaryPoint
  | none, q => q
  | p, none => p
  | some (x, y), some (x', y') =>
    if x = x' then (if y = y' then double e (some (x, y)) else none)
    else
      let slope := e.times (y ^^^ y') (e.inverse (x ^^^ x'))
      let sum := e.square slope ^^^ slope ^^^ x ^^^ x' ^^^ e.a
      some (sum, e.times slope (x ^^^ sum) ^^^ sum ^^^ y)

/-- A point added up so many times. -/
def multiply (e : BinaryEquation) (n : Nat) (p : BinaryPoint) : BinaryPoint :=
  if h : n = 0 then none
  else
    let half := multiply e (n / 2) (double e p)
    if n % 2 = 1 then add e half p else half
termination_by n
decreasing_by exact Nat.div_lt_self (Nat.pos_of_ne_zero h) (by decide)

/-- The base point. -/
def base (e : BinaryEquation) : BinaryPoint := some (e.baseX, e.baseY)

/-- Whether two coordinates make a point. -/
def isOnCurve (e : BinaryEquation) (x y : Nat) : Bool :=
  x < 1 <<< e.degree && y < 1 <<< e.degree &&
    e.square y ^^^ e.times x y == e.times (e.square x) (x ^^^ e.a) ^^^ e.b

/-- Whether `y / x` is odd, which tells the two points with one `x` apart. -/
def isOdd (e : BinaryEquation) (x y : Nat) : Bool :=
  x != 0 && (e.times y (e.inverse x)) % 2 == 1

/-- The `y` that belongs to an `x`, odd or even with respect to it. The degree is odd. -/
def otherCoordinate? (e : BinaryEquation) (x : Nat) (odd : Bool) : Option Nat :=
  if x = 0 then some (e.squares (e.degree - 1) e.b)
  else
    let c := x ^^^ e.a ^^^ e.times e.b (e.inverse (e.square x))
    let z := e.halfTrace c ((e.degree - 1) / 2)
    if e.square z ^^^ z = c then
      some (e.times x (if (z % 2 == 1) == odd then z else z ^^^ 1))
    else none

end BinaryPoint
end PackageSigning
