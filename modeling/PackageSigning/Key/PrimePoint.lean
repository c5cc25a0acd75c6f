import PackageSigning.Arithmetic.Modular
import PackageSigning.Key.Equation

/-!
# Points over prime fields

The points of a curve and a point at infinity form a group. Inside, a point is three numbers,
`x / z²` and `y / z³` being its coordinates, so that sums need no division.
-/

namespace PackageSigning

/-- A point as three numbers; the point at infinity has `z = 0`. -/
structure PrimePoint where
  x : Nat
  y : Nat
  z : Nat
  deriving DecidableEq, Repr

namespace PrimePoint
open Arithmetic

/-- The point at infinity. -/
def infinity : PrimePoint := ⟨1, 1, 0⟩

/-- A point with two coordinates. -/
def affine (x y : Nat) : PrimePoint := ⟨x, y, 1⟩

/-- A point added to itself. -/
def double (e : CurveEquation) (p : PrimePoint) : PrimePoint :=
  if p.z = 0 ∨ p.y = 0 then infinity
  else
    let m := e.modulus
    let yy := p.y * p.y % m
    let s := 4 * p.x * yy % m
    let zz := p.z * p.z % m
    let slope := (3 * p.x * p.x + e.a * (zz * zz % m)) % m
    let x := subMod m (slope * slope) (2 * s % m)
    let y := subMod m (slope * subMod m s x) (8 * (yy * yy % m) % m)
    ⟨x, y, 2 * p.y * p.z % m⟩

/-- The sum of two points. -/
def add (e : CurveEquation) (p q : PrimePoint) : PrimePoint :=
  if p.z = 0 then q
  else if q.z = 0 then p
  else
    let m := e.modulus
    let pzz := p.z * p.z % m
    let qzz := q.z * q.z % m
    let u := p.x * qzz % m
    let v := p.y * (qzz * q.z % m) % m
    let h := subMod m (q.x * pzz) u
    let r := subMod m (q.y * (pzz * p.z % m)) v
    if h = 0 then (if r = 0 then double e p else infinity)
    else
      let hh := h * h % m
      let hhh := hh * h % m
      let uhh := u * hh % m
      let x := subMod m (r * r) ((hhh + 2 * uhh) % m)
      let y := subMod m (r * subMod m uhh x) (v * hhh % m)
      ⟨x, y, h * p.z * q.z % m⟩

/-- A point added up so many times. -/
def multiply (e : CurveEquation) (n : Nat) (p : PrimePoint) : PrimePoint :=
  if h : n = 0 then infinity
  else
    let half := multiply e (n / 2) (double e p)
    if n % 2 = 1 then add e half p else half
termination_by n
decreasing_by exact Nat.div_lt_self (Nat.pos_of_ne_zero h) (by decide)

/-- The two coordinates, except at infinity. -/
def coordinates? (e : CurveEquation) (p : PrimePoint) : Option (Nat × Nat) :=
  if p.z = 0 then none
  else
    let m := e.modulus
    let w := inverse m p.z
    let ww := w * w % m
    some (p.x * ww % m, p.y * (ww * w % m) % m)

/-- The base point. -/
def base (e : CurveEquation) : PrimePoint := .affine e.baseX e.baseY

/-- Whether two coordinates make a point. -/
def isOnCurve (e : CurveEquation) (x y : Nat) : Bool :=
  x < e.modulus && y < e.modulus &&
    y * y % e.modulus == (x * x % e.modulus * x + e.a * x + e.b) % e.modulus

/-- The `y` that belongs to an `x`, odd or even. -/
def otherCoordinate? (e : CurveEquation) (x : Nat) (odd : Bool) : Option Nat := do
  let y ← Arithmetic.sqrtMod? e.modulus ((x * x % e.modulus * x + e.a * x + e.b) % e.modulus)
  if (y % 2 == 1) == odd then some y
  else if y = 0 then none
  else some (e.modulus - y)

end PrimePoint
end PackageSigning
