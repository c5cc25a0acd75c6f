import PackageSigning.Arithmetic.Modular
import PackageSigning.Asn1.Strict
import PackageSigning.Asn1.Written
import PackageSigning.Digest
import PackageSigning.Key.Point

/-!
# Signatures from groups

EC and DSA keys sign alike, in different groups: a signature is the number of a
multiple of the base element, and a number that ties it to the digest and to
the secret. All that is needed of the group are the numbers of its elements.
-/

namespace PackageSigning

/-- A group with a public element, the secret's multiple of the base element. -/
structure SigningGroup where
  /-- How often the base element can be added up before it gives the neutral one. -/
  order : Nat
  /-- The number of the base element added up so many times. -/
  ofBase : Nat → Nat
  /-- The number of multiples of the base element and of the public one together. -/
  ofBoth : Nat → Nat → Nat

namespace SigningGroup
open Arithmetic

/-- The group of a curve with a point. -/
def ofCurve (c : Curve) (x y : Nat) : SigningGroup where
  order := c.order
  ofBase := fun n => ((c.multiple? n).map fun p => p.1 % c.order).getD 0
  ofBoth := fun m n =>
    ((c.sumOfMultiples? m n x y).map fun p => p.1 % c.order).getD 0

/-- The group of a DSA key with its public number. -/
def ofDsa (g : DsaGroup) (value : Nat) : SigningGroup where
  order := g.order
  ofBase := fun n => powMod g.modulus g.generator n % g.order
  ofBoth := fun m n =>
    powMod g.modulus g.generator m * powMod g.modulus value n % g.modulus % g.order

/-- The leftmost bits of a digest, as many as the order has, as a number. -/
def digestNumber (order : Nat) (digest : Bytes) : Nat :=
  Bytes.toNat digest / Nat.pow 2 (8 * digest.length - Bytes.bitLength order)

/-- A number between zero and the order that is as good as random to those who do not
know the secret: keyed digests of the digest to sign and of noise. -/
def nonce (order secret : Nat) (noise digest : Bytes) (attempt : Nat) : Nat :=
  let key := Bytes.ofNat (Bytes.byteLength order) secret
  let part (i : Nat) : Bytes :=
    DigestAlgorithm.sha512.hmac key (Bytes.ofNat 4 attempt ++ Bytes.ofNat 4 i ++ digest ++ noise)
  Bytes.toNat (part 0 ++ part 1) % (order - 1) + 1

/-- The two numbers of a signature, with fuel for attempts that give a zero. -/
def numbers? (g : SigningGroup) (secret : Nat) (noise digest : Bytes) :
    Nat → Option (Nat × Nat)
  | 0 => none
  | fuel + 1 => do
    let k := nonce g.order secret noise digest fuel
    let r := g.ofBase k
    let s := (← inverse? g.order k) * (digestNumber g.order digest + r * secret) % g.order
    if r = 0 ∨ s = 0 then numbers? g secret noise digest fuel else some (r, s)

/-- How often a signature is attempted. -/
def attempts : Nat := 100

/-- A signature of a digest. -/
def sign? (g : SigningGroup) (secret : Nat) (noise digest : Bytes) : Option Bytes :=
  (g.numbers? secret noise digest attempts).map fun (r, s) =>
    Asn1.sequence [Asn1.natural r, Asn1.natural s]

open Asn1.Strict in
/-- The two numbers of a signature as it is spelled, in its one spelling. -/
def pair : Reader (Nat × Nat) :=
  Reader.sequence do
    let r ← Reader.natural
    let s ← Reader.natural
    return (r, s)

/-- Whether a signature is that of a digest. -/
def verify (g : SigningGroup) (signature digest : Bytes) : Bool :=
  match pair.whole? signature with
  | none => false
  | some (r, s) =>
    if r = 0 ∨ g.order ≤ r ∨ s = 0 ∨ g.order ≤ s then false
    else match inverse? g.order s with
      | none => false
      | some w =>
        g.ofBoth (digestNumber g.order digest * w % g.order) (r * w % g.order) == r

end SigningGroup
end PackageSigning
