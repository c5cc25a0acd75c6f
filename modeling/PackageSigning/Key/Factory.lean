import PackageSigning.Asn1.Loose
import PackageSigning.Key.Reading
import PackageSigning.Provider

/-!
# Key factories

A key factory decodes the private keys of one algorithm. It first looks at the
outside of a key, loosely, to tell the algorithm, and then reads the whole of it
strictly. Since the outside names one algorithm, at most one factory takes a key.
-/

namespace PackageSigning

/-- The algorithm that the outside of a private key names, and the element that
should hold the key. The version in front may be anything, and there may be more
behind. -/
def outline? (b : Bytes) : Option (KeyAlgorithm × Asn1.Element) := do
  let members ← Asn1.Loose.members? (← Asn1.Loose.whole? b)
  match members with
  | _ :: algorithm :: key :: _ =>
    let numbers ← Asn1.Loose.members? algorithm
    let id ← Asn1.Loose.objectId? (← numbers.head?)
    return (← KeyAlgorithm.ofObjectId? id, key)
  | _ => none

/-- Whether bytes look like a private key that is not encrypted. -/
def isPrivateKeyInfo (b : Bytes) : Bool :=
  match outline? b with
  | some (_, key) => Asn1.Loose.isOctets key
  | none => false

namespace KeyFactory

/-- The algorithms whose keys a factory decodes. -/
def accepts : KeyFactory → KeyAlgorithm → Bool
  | rsa, .rsa | rsa, .rsaPss | ec, .ec | dsa, .dsa => true
  | _, _ => false

/-- Whether a key is of the kind that a factory makes. -/
def makes : KeyFactory → PrivateKey → Bool
  | rsa, .rsa _ | ec, .ec .. | dsa, .dsa .. => true
  | _, _ => false

/-- Decodes a private key. -/
def decode (f : KeyFactory) (b : Bytes) : Except Fault PrivateKey :=
  match outline? b with
  | none => .error (.invalidKey .notPkcs8)
  | some (algorithm, _) =>
    if !f.accepts algorithm then .error (.invalidKey (.otherAlgorithm f.algorithm algorithm.name))
    else match KeyReading.privateKey b with
      | .error _ => .error (.invalidKey (.malformed f.algorithm))
      | .ok key =>
        if f.makes key then .ok key else .error (.invalidKey (.otherKind f.algorithm))

/-- The names of the algorithms, in the order in which their factories are tried. -/
def algorithmOrder : List String := ["RSA", "EC", "DSA"]

/-- The key that the first factory to take the bytes makes, the factories being
given by their lookups, and the factories that were called. -/
def decodeFirst (lookups : List (Except Fault KeyFactory)) (b : Bytes) :
    Except Fault PrivateKey × List KeyFactory :=
  match lookups with
  | [] => (.error (.unsupportedKey .noneAccepts), [])
  | .error fault :: _ => (.error fault, [])
  | .ok f :: rest =>
    match f.decode b with
    | .ok key => (.ok key, [f])
    | .error (.invalidKey _) =>
      let (result, called) := decodeFirst rest b
      (result, f :: called)
    | .error fault => (.error fault, [f])

end KeyFactory

namespace ProviderRegistry

/-- Decodes a private key with the factories of the providers, and tells which
were called. -/
def decodeKey (r : ProviderRegistry) (b : Bytes) : Except Fault PrivateKey × List KeyFactory :=
  KeyFactory.decodeFirst (KeyFactory.algorithmOrder.map r.factory) b

end ProviderRegistry
end PackageSigning
