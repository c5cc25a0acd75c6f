import PackageSigning.Asn1.Element
import PackageSigning.Text.Encoding

/-!
# Reading tagged data loosely

The outer structure of key files is read loosely: lengths may be spelled with
more bytes than they need and contents may end with a mark; the fields of a
structure are looked at only when they are asked for, so that a field nobody
asks for may hold anything.
-/

namespace PackageSigning.Asn1.Loose

/-- The number of a long tag, its groups spelled without leading zeros. -/
def longTag? (number : Nat) : Bytes → Option (Nat × Bytes)
  | [] => none
  | x :: rest =>
    if number = 0 ∧ x = 128 then none
    else
      let n := number * 128 + x.toNat % 128
      if x < 128 then (if n < 31 then none else some (n, rest)) else longTag? n rest

/-- A tag, and a length unless a mark ends the contents. -/
def header? : Bytes → Option (Tag × Option Nat × Bytes)
  | [] => none
  | first :: rest => do
    let n := first.toNat
    let (number, rest) ← if n % 32 = 31 then longTag? 0 rest else some (n % 32, rest)
    let tag : Tag := ⟨.ofBits (n / 64), n / 32 % 2 = 1, number⟩
    match rest with
    | [] => none
    | size :: rest =>
      if size < 128 then some (tag, some size.toNat, rest)
      else if size = 128 then (if tag.constructed then some (tag, none, rest) else none)
      else
        let (digits, rest) ← Bytes.split? (size.toNat - 128) rest
        some (tag, some (Bytes.toNat digits), rest)

/-- The contents up to the end mark and what follows it, where `skip?` passes
over one element, with fuel for the number of elements. -/
def untilMark? (skip? : Bytes → Option Bytes) : Nat → Bytes → Option Bytes
  | 0, _ => none
  | fuel + 1, b =>
    match b with
    | 0 :: 0 :: rest => some rest
    | _ => skip? b >>= untilMark? skip? fuel

/-- What follows the first element, which may hold so many levels of elements
that end with a mark. -/
def skip? : Nat → Bytes → Option Bytes
  | depth, b => do
    let (_, size?, rest) ← header? b
    match size? with
    | some n => if n ≤ rest.length then some (rest.drop n) else none
    | none =>
      match depth with
      | 0 => untilMark? (fun _ => none) (rest.length + 1) rest
      | depth + 1 => untilMark? (skip? depth) (rest.length + 1) rest

/-- How many levels of elements that end with a mark there may be. -/
def maxDepth : Nat := 10

/-- The first element and what follows it. -/
def read? (b : Bytes) : Option (Element × Bytes) := do
  let (tag, size?, rest) ← header? b
  match size? with
  | some n =>
    let (contents, rest) ← Bytes.split? n rest
    return (⟨tag, contents, false⟩, rest)
  | none =>
    let after ← skip? maxDepth b
    return (⟨tag, rest.take (rest.length - after.length - 2), true⟩, after)

/-- All elements, with fuel for their number. -/
def elementsFrom? : Nat → Bytes → Option (List Element)
  | _, [] => some []
  | 0, _ => none
  | fuel + 1, b => do
    let (e, rest) ← read? b
    return e :: (← elementsFrom? fuel rest)

/-- All elements. -/
def elements? (b : Bytes) : Option (List Element) := elementsFrom? b.length b

/-- The element that is all of the bytes. -/
def whole? (b : Bytes) : Option Element :=
  match read? b with
  | some (e, []) => some e
  | _ => none

/-- The members of a sequence. -/
def members? (e : Element) : Option (List Element) :=
  if e.tag = .sequence then elements? e.contents else none

/-- The numbers of an object identifier. -/
def objectId? (e : Element) : Option ObjectId :=
  if e.tag = .objectId then some (objectIdOf e.contents) else none

/-- A whole number. -/
def integer? (e : Element) : Option Int :=
  if e.tag = .integer then some (integerOf e.contents) else none

/-- Whether an element can be a string of bytes: one piece, or pieces in an
element that ends with a mark. -/
def isOctets (e : Element) : Bool :=
  e.tag = .octets || (e.tag = { Tag.octets with constructed := true } && e.openEnded)

/-- The bytes of a string, joined from its pieces, which may have pieces
themselves so many levels deep. -/
def octetsFrom? : Nat → Element → Option Bytes
  | depth, e =>
    if e.tag = .octets then some e.contents
    else if !isOctets e then none
    else match depth with
      | 0 => none
      | depth + 1 => do
        let pieces ← elements? e.contents
        return (← pieces.mapM (octetsFrom? depth)).flatten

/-- The bytes of a string of bytes. -/
def octets? (e : Element) : Option Bytes := octetsFrom? (maxDepth + 1) e

/-- The universal numbers that stand for a kind of value. -/
def isKnownNumber (n : Nat) : Bool := (1 ≤ n && n ≤ 13) || (16 ≤ n && n ≤ 30)

/-- Whether an element of any kind can be read to its leaves, with fuel for the
depth. Enumerations have no values of their own and cannot. -/
def isReadableWithin : Nat → Element → Bool
  | 0, _ => false
  | fuel + 1, e =>
    match e.tag.number with
    | 10 => false
    | 12 => (Text.Encoding.decodeUtf8 e.contents).isSome
    | 16 | 17 =>
      match elements? e.contents with
      | some members => members.all (isReadableWithin fuel)
      | none => false
    | n => isKnownNumber n

/-- Whether an element of any kind can be read to its leaves. -/
def isReadable (e : Element) : Bool := isReadableWithin (e.contents.length + 1) e

/-- The members of a structure that have not been looked at yet. -/
abbrev Fields := StateT (List Element) Option

namespace Fields

/-- The next member, which has to satisfy a test. -/
def required (read : Element → Option α) : Fields α := do
  match ← get with
  | [] => failure
  | e :: rest => set rest; read e

/-- The next member if it satisfies a test. -/
def optional (test : Element → Bool) : Fields (Option Element) := do
  match ← get with
  | [] => return none
  | e :: rest => if test e then set rest; return some e else return none

/-- The end of the members. Further ones have to be readable. -/
def finish : Fields Unit := do
  if (← get).all isReadable then return () else failure

/-- What fields read from the members of a sequence. -/
def inside (fields : Fields α) (e : Element) : Option α := do
  let members ← members? e
  (fields.run members).map (·.1)

end Fields

/-- The object identifier of an algorithm and its parameters. -/
def algorithm? (e : Element) : Option (ObjectId × Option Element) :=
  Fields.inside (do
    let id ← Fields.required objectId?
    match ← get with
    | [] => return (id, none)
    | p :: rest => set rest; Fields.finish; return (id, some p)) e

/-- The object identifier of an algorithm and its parameters, whatever they are. -/
def algorithmFront? (e : Element) : Option (ObjectId × Option Element) := do
  match ← members? e with
  | id :: rest => return (← objectId? id, rest.head?)
  | [] => none

end PackageSigning.Asn1.Loose
