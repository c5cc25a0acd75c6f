import PackageSigning.Key.BinaryPoint
import PackageSigning.Key.PrimePoint

/-!
# Points of the elliptic curves

A point is spelled as a byte 4 and both coordinates, or as a byte 2 or 3 and `x` alone, where the
byte tells the two points with one `x` apart; with a byte 6 or 7 it does both.
-/

namespace PackageSigning.Curve

/-- The length of a coordinate in bytes. -/
def byteLength (c : Curve) : Nat := (c.bits + 7) / 8

/-- The base point added up so many times. -/
def multiple? (c : Curve) (n : Nat) : Option (Nat × Nat) :=
  match c.shape with
  | .prime e => (PrimePoint.multiply e n (PrimePoint.base e)).coordinates? e
  | .binary e => BinaryPoint.multiply e n (BinaryPoint.base e)

/-- The sum of multiples of the base point and of a point. -/
def sumOfMultiples? (c : Curve) (m n x y : Nat) : Option (Nat × Nat) :=
  match c.shape with
  | .prime e =>
    let sum := PrimePoint.add e (.multiply e m (PrimePoint.base e)) (.multiply e n (.affine x y))
    sum.coordinates? e
  | .binary e =>
    BinaryPoint.add e (BinaryPoint.multiply e m (BinaryPoint.base e))
      (BinaryPoint.multiply e n (some (x, y)))

/-- Whether two coordinates make a point of the curve. -/
def isOnCurve (c : Curve) (x y : Nat) : Bool :=
  match c.shape with
  | .prime e => PrimePoint.isOnCurve e x y
  | .binary e => BinaryPoint.isOnCurve e x y

/-- What tells a point apart from the other one with the same `x`. -/
def isOdd (c : Curve) (x y : Nat) : Bool :=
  match c.shape with
  | .prime _ => y % 2 == 1
  | .binary e => BinaryPoint.isOdd e x y

/-- The `y` that belongs to an `x`, odd or even. -/
def otherCoordinate? (c : Curve) (x : Nat) (odd : Bool) : Option Nat :=
  match c.shape with
  | .prime e => PrimePoint.otherCoordinate? e x odd
  | .binary e => BinaryPoint.otherCoordinate? e x odd

/-- The spelling of a point. -/
def pointBytes (c : Curve) (x y : Nat) : Bytes :=
  4 :: Bytes.ofNat c.byteLength x ++ Bytes.ofNat c.byteLength y

/-- The point that bytes spell. -/
def point? (c : Curve) (b : Bytes) : Option (Nat × Nat) := do
  let size := c.byteLength
  match b with
  | [] => none
  | form :: rest =>
    let x := Bytes.toNat (rest.take size)
    let y ←
      if form = 4 ∧ rest.length = 2 * size then some (Bytes.toNat (rest.drop size))
      else if (form = 2 ∨ form = 3) ∧ rest.length = size then c.otherCoordinate? x (form == 3)
      else if (form = 6 ∨ form = 7) ∧ rest.length = 2 * size then
        let y := Bytes.toNat (rest.drop size)
        if c.isOdd x y == (form == 7) then some y else none
      else none
    if c.isOnCurve x y then some (x, y) else none

end PackageSigning.Curve
