import PackageSigning.Certificate
import PackageSigning.Key

/-!
# Object identifiers of keys and curves

The identifiers under which keys are stored, shared by readers and writers.
-/

namespace PackageSigning

namespace Curve

/-- The identifier of a curve. -/
def objectId : Curve → ObjectId
  | p192 => [1, 2, 840, 10045, 3, 1, 1]
  | p224 => [1, 3, 132, 0, 33]
  | p256 => [1, 2, 840, 10045, 3, 1, 7]
  | p384 => [1, 3, 132, 0, 34]
  | p521 => [1, 3, 132, 0, 35]
  | k256 => [1, 3, 132, 0, 10]
  | b256 => [1, 3, 36, 3, 3, 2, 8, 1, 1, 7]
  | b384 => [1, 3, 36, 3, 3, 2, 8, 1, 1, 11]
  | b512 => [1, 3, 36, 3, 3, 2, 8, 1, 1, 13]
  | t163k1 => [1, 3, 132, 0, 1]
  | t163r2 => [1, 3, 132, 0, 15]
  | t233k1 => [1, 3, 132, 0, 26]
  | t233r1 => [1, 3, 132, 0, 27]
  | t283k1 => [1, 3, 132, 0, 16]
  | t283r1 => [1, 3, 132, 0, 17]
  | t409k1 => [1, 3, 132, 0, 36]
  | t409r1 => [1, 3, 132, 0, 37]
  | t571k1 => [1, 3, 132, 0, 38]
  | t571r1 => [1, 3, 132, 0, 39]

/-- The curve with an identifier. -/
def ofObjectId? (id : ObjectId) : Option Curve := all.find? (·.objectId == id)

end Curve

namespace EdwardsKind

/-- Every kind. -/
def all : List EdwardsKind := [ed25519, ed448, x25519, x448]

/-- The identifier of a kind. -/
def objectId : EdwardsKind → ObjectId
  | x25519 => [1, 3, 101, 110]
  | x448 => [1, 3, 101, 111]
  | ed25519 => [1, 3, 101, 112]
  | ed448 => [1, 3, 101, 113]

end EdwardsKind

/-- The algorithms that keys are stored for. -/
inductive KeyAlgorithm where
  | rsa
  | rsaPss
  | dsa
  | ec
  | edwards (kind : EdwardsKind)
  deriving DecidableEq, Repr

namespace KeyAlgorithm

/-- Every algorithm. -/
def all : List KeyAlgorithm := [rsa, rsaPss, dsa, ec] ++ EdwardsKind.all.map edwards

/-- The identifier of an algorithm. -/
def objectId : KeyAlgorithm → ObjectId
  | rsa => [1, 2, 840, 113549, 1, 1, 1]
  | rsaPss => [1, 2, 840, 113549, 1, 1, 10]
  | dsa => [1, 2, 840, 10040, 4, 1]
  | ec => [1, 2, 840, 10045, 2, 1]
  | edwards kind => kind.objectId

/-- The algorithm with an identifier. -/
def ofObjectId? (id : ObjectId) : Option KeyAlgorithm := all.find? (·.objectId == id)

/-- The name of an algorithm in messages. -/
def name : KeyAlgorithm → String
  | rsa => "rsa"
  | rsaPss => "rsassa_pss"
  | dsa => "dsa"
  | ec => "ec"
  | edwards .ed25519 => "ed25519"
  | edwards .ed448 => "ed448"
  | edwards .x25519 => "x25519"
  | edwards .x448 => "x448"

end KeyAlgorithm
end PackageSigning
