import PackageSigning.Asn1.Strict
import PackageSigning.Key.Algorithm
import PackageSigning.Key.Point

/-!
# Reading keys

Private keys are read from their general form (PKCS #8), which names an
algorithm, and from the older forms that hold RSA, EC or DSA keys alone. Public
keys are read from the form that certificates hold.

The numbers of a key have to belong together: the primes of an RSA key to its
modulus and exponents, the scalar of an EC key to its curve and its point.
-/

namespace PackageSigning

/-- Why a key cannot be read. -/
inductive KeyRefusal where
  | malformed
  /-- The key is on a curve that is not known. -/
  | unknownCurve
  deriving DecidableEq, Repr

namespace RsaKey

/-- Whether the numbers of a key belong together. -/
def isConsistent (k : RsaKey) : Bool :=
  let p := k.prime1
  let q := k.prime2
  let period := Nat.lcm (p - 1) (q - 1)
  1 < k.publicExponent && k.publicExponent % 2 == 1 &&
    k.modulus == p * q &&
    k.privateExponent * k.publicExponent % period == 1 % period &&
    k.exponent1 == k.privateExponent % (p - 1) &&
    k.exponent2 == k.privateExponent % (q - 1) &&
    k.coefficient < p && k.coefficient * q % p == 1 &&
    Arithmetic.isPrime p && Arithmetic.isPrime q

end RsaKey

namespace KeyReading
open Asn1.Strict

/-- How the curve of a key is told. -/
inductive CurveChoice where
  | named (id : ObjectId)
  | other (contents : Asn1.Element)
  deriving DecidableEq, Repr

/-- The parameters of an EC key. -/
def curveChoice : Reader CurveChoice := do
  if ← Reader.startsWith .objectId then return .named (← Reader.objectId)
  else
    let e ← Reader.element
    if e.tag = .null ∨ e.tag = .sequence then return .other e else failure

/-- The curve of a choice. -/
def CurveChoice.curve : CurveChoice → Except KeyRefusal Curve
  | named id =>
    match Curve.ofObjectId? id with
    | some c => .ok c
    | none => .error .unknownCurve
  | other _ => .error .malformed

/-- The group of a DSA key. -/
def dsaGroup : Reader DsaGroup :=
  Reader.sequence do
    let p ← Reader.natural
    let q ← Reader.natural
    let g ← Reader.natural
    return ⟨p, q, g⟩

/-- An algorithm with parameters that belong to it. -/
inductive Algorithm where
  | rsa
  | dsa (group : DsaGroup)
  | ec (curve : CurveChoice)
  | edwards (kind : EdwardsKind)
  deriving DecidableEq, Repr

/-- Parameters that are nothing, spelled out or left out. -/
def noParameters : Reader Unit := do
  if (← get).isEmpty then return () else Reader.null

/-- The parameters of an algorithm with some identifier. -/
def parameters (id : ObjectId) : Reader Algorithm :=
  match KeyAlgorithm.ofObjectId? id with
  | some .rsa => do noParameters; return .rsa
  | some .rsaPss => do
    if (← get).isEmpty then return .rsa
    else let _ ← Reader.contents .sequence; return .rsa
  | some .dsa => return .dsa (← dsaGroup)
  | some .ec => return .ec (← curveChoice)
  | some (.edwards kind) => return .edwards kind
  | none => failure

/-- An algorithm and its parameters. -/
def algorithm : Reader Algorithm := Reader.sequence do parameters (← Reader.objectId)

/-- The private key of a reader and of bytes, none for bytes that do not read. -/
def readWhole (reader : Reader α) (b : Bytes) : Except KeyRefusal α :=
  match reader.whole? b with
  | some a => .ok a
  | none => .error .malformed

/-- The numbers of an RSA private key. -/
def rsaNumbers : Reader RsaKey :=
  Reader.sequence do
    let version ← Reader.natural
    if version ≠ 0 then failure
    let n ← Reader.natural
    let e ← Reader.natural
    let d ← Reader.natural
    let p ← Reader.natural
    let q ← Reader.natural
    let dp ← Reader.natural
    let dq ← Reader.natural
    let c ← Reader.natural
    return ⟨n, e, d, p, q, dp, dq, c⟩

/-- An RSA private key in its own form. -/
def rsaKey (b : Bytes) : Except KeyRefusal PrivateKey := do
  let k ← readWhole rsaNumbers b
  if k.isConsistent then .ok (.rsa k) else .error .malformed

/-- The parts of an EC private key: the scalar, the curve and the point. -/
def ecParts : Reader (Bytes × Option CurveChoice × Option Bytes) :=
  Reader.sequence do
    let version ← Reader.natural
    if version ≠ 1 then failure
    let scalar ← Reader.octets
    let curve ← Reader.field 0 curveChoice
    let point ← Reader.field 1 Reader.bitString
    return (scalar, curve, point)

/-- The curve told outside a key and the one told inside, which have to agree. -/
def agreeing : Option CurveChoice → Option CurveChoice → Except KeyRefusal CurveChoice
  | some a, some b => if a = b then .ok a else .error .malformed
  | some a, none | none, some a => .ok a
  | none, none => .error .malformed

/-- An EC private key in its own form, on a curve that may be told outside. -/
def ecKey (outside : Option CurveChoice) (b : Bytes) : Except KeyRefusal PrivateKey := do
  let (scalar, inside, point) ← readWhole ecParts b
  let curve ← (← agreeing outside inside).curve
  let n := Bytes.toNat scalar
  if scalar.length ≠ (Bytes.bitLength curve.order + 7) / 8 ∨ n = 0 ∨ curve.order ≤ n then
    .error .malformed
  else match point with
    | none => .ok (.ec curve n)
    | some p =>
      match curve.point? p with
      | none => .error .malformed
      | some xy => if curve.multiple? n = some xy then .ok (.ec curve n) else .error .malformed

/-- A DSA private key with its group. -/
def dsaKey (group : DsaGroup) (b : Bytes) : Except KeyRefusal PrivateKey := do
  let x ← readWhole Reader.natural b
  if group.modulus = 0 ∨ group.order = 0 then .error .malformed else .ok (.dsa group x)

/-- A DSA private key in its own form: version, group, public and secret number. -/
def oldDsaKey (b : Bytes) : Except KeyRefusal PrivateKey := do
  let (group, x) ← readWhole (Reader.sequence do
    let version ← Reader.natural
    if version ≠ 0 then failure
    let p ← Reader.natural
    let q ← Reader.natural
    let g ← Reader.natural
    let _ ← Reader.natural
    let x ← Reader.natural
    return ((⟨p, q, g⟩ : DsaGroup), x)) b
  if group.modulus = 0 ∨ group.order = 0 then .error .malformed else .ok (.dsa group x)

/-- A private key of a kind that only has bytes. -/
def edwardsKey (kind : EdwardsKind) (b : Bytes) : Except KeyRefusal PrivateKey := do
  let secret ← readWhole Reader.octets b
  if secret.length = kind.keyLength then .ok (.edwards kind secret) else .error .malformed

/-- The fields of a private key in the general form: its algorithm and the key in
its own form. The first version has no public key beside the private one, the
second has. -/
def privateKeyInfo : Reader (Algorithm × Bytes) :=
  Reader.sequence do
    let version ← Reader.natural
    let a ← algorithm
    let key ← Reader.octets
    let _ ← Reader.optional (.field 0) (Reader.contents (.field 0))
    let publicKey ← Reader.optional (.plainField 1) (Reader.contents (.plainField 1))
    if version = 0 ∧ publicKey.isNone ∨ version = 1 ∧ publicKey.isSome then return (a, key)
    else failure

/-- A private key in the general form. -/
def privateKey (b : Bytes) : Except KeyRefusal PrivateKey := do
  let (a, key) ← readWhole privateKeyInfo b
  match a with
  | .rsa => rsaKey key
  | .dsa group => dsaKey group key
  | .ec curve => ecKey (some curve) key
  | .edwards kind => edwardsKey kind key

/-- The algorithm and the bits of a public key. -/
def publicKeyInfo : Reader (Algorithm × Bytes) :=
  Reader.sequence do
    let a ← algorithm
    let bits ← Reader.bitString
    return (a, bits)

/-- An RSA public key in its own form. -/
def rsaPublicNumbers : Reader (Nat × Nat) :=
  Reader.sequence do
    let n ← Reader.natural
    let e ← Reader.natural
    return (n, e)

/-- A public key in the form that certificates hold. -/
def publicKey (b : Bytes) : Except KeyRefusal PublicKey := do
  let (a, bits) ← readWhole publicKeyInfo b
  match a with
  | .rsa =>
    let (n, e) ← readWhole rsaPublicNumbers bits
    return .rsa n e
  | .dsa group => return .dsa group (← readWhole Reader.natural bits)
  | .ec choice =>
    let curve ← choice.curve
    match curve.point? bits with
    | some (x, y) => return .ec curve x y
    | none => .error .malformed
  | .edwards kind =>
    if bits.length = kind.keyLength then return .edwards kind bits else .error .malformed

end KeyReading

end PackageSigning
