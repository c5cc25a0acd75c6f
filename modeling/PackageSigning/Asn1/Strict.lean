import PackageSigning.Asn1.Element

/-!
# Reading tagged data strictly

Certificates and the insides of keys have one spelling each: lengths and
numbers without needless bytes, sets in order, nothing after the last field.
-/

namespace PackageSigning.Asn1.Strict

/-- Reading the front of some bytes. -/
abbrev Reader := StateT Bytes Option

/-- The length of contents, spelled with as few bytes as it needs. -/
def length? : Bytes → Option (Nat × Bytes)
  | [] => none
  | size :: rest =>
    if size < 128 then some (size.toNat, rest)
    else do
      let count := size.toNat - 128
      if count = 0 ∨ 4 < count then none
      else
        let (digits, rest) ← Bytes.split? count rest
        let n := Bytes.toNat digits
        if n < 128 ∨ digits.head? = some 0 then none else some (n, rest)

/-- The number of a long tag. -/
def longTag? (number : Nat) : Bytes → Option (Nat × Bytes)
  | [] => none
  | x :: rest =>
    if number = 0 ∧ x = 128 then none
    else
      let n := number * 128 + x.toNat % 128
      if x < 128 then (if n < 31 then none else some (n, rest)) else longTag? n rest

/-- The first element and what follows it. -/
def element? : Bytes → Option (Element × Bytes)
  | [] => none
  | first :: rest => do
    let n := first.toNat
    let (number, rest) ← if n % 32 = 31 then longTag? 0 rest else some (n % 32, rest)
    let (size, rest) ← length? rest
    let (contents, rest) ← Bytes.split? size rest
    return (⟨⟨.ofBits (n / 64), n / 32 % 2 = 1, number⟩, contents, false⟩, rest)

namespace Reader

/-- The next element, whatever it is. -/
def element : Reader Element := fun b => element? b

/-- The contents of the next element, which has to have a tag. -/
def contents (tag : Tag) : Reader Bytes := do
  let e ← element
  if e.tag = tag then return e.contents else failure

/-- Whether the next element has a tag. -/
def startsWith (tag : Tag) : Reader Bool := do
  match element? (← get) with
  | some (e, _) => return e.tag = tag
  | none => return false

/-- What a reader makes of bytes that it has to use up. -/
def whole? (reader : Reader α) (b : Bytes) : Option α :=
  match reader.run b with
  | some (a, []) => some a
  | _ => none

/-- What a reader makes of the contents of the next element. -/
def inside (tag : Tag) (reader : Reader α) : Reader α := do
  let b ← contents tag
  match reader.whole? b with
  | some a => return a
  | none => failure

/-- What a reader makes of the members of a sequence. -/
def sequence (reader : Reader α) : Reader α := inside .sequence reader

/-- A field that may be left out. -/
def optional (tag : Tag) (reader : Reader α) : Reader (Option α) := do
  if ← startsWith tag then return some (← reader) else return none

/-- A field that may be left out, inside an element with a number. -/
def field (number : Nat) (reader : Reader α) : Reader (Option α) :=
  optional (.field number) (inside (.field number) reader)

/-- As many as there are, with fuel for their number. -/
def manyFrom (reader : Reader α) : Nat → Reader (List α)
  | 0 => return []
  | fuel + 1 => do
    if (← get).isEmpty then return []
    else
      let a ← reader
      return a :: (← manyFrom reader fuel)

/-- As many as there are. -/
def many (reader : Reader α) : Reader (List α) := do manyFrom reader (← get).length

/-- The bytes that a reader uses up, and what it makes of them. -/
def withBytes (reader : Reader α) : Reader (Bytes × α) := do
  let before ← get
  let a ← reader
  let after ← get
  return (before.take (before.length - after.length), a)

/-- Whether contents spell a number without needless bytes. -/
def isMinimal : Bytes → Bool
  | [] => false
  | [_] => true
  | x :: y :: _ => !((x = 0 && y < 128) || (x = 255 && 128 ≤ y))

/-- A whole number. -/
def integer : Reader Int := do
  let b ← contents .integer
  if isMinimal b then return integerOf b else failure

/-- A whole number that is not negative. -/
def natural : Reader Nat := do
  let n ← integer
  if 0 ≤ n then return n.toNat else failure

/-- A truth value. -/
def boolean : Reader Bool := do
  match ← contents .boolean with
  | [0] => return false
  | [255] => return true
  | _ => failure

/-- Whether contents spell object identifier numbers: none starts with an empty
group and the last one is ended. -/
def isObjectId (b : Bytes) : Bool :=
  let rec go (fresh : Bool) : Bytes → Bool
    | [] => fresh
    | x :: rest => !(fresh && x = 128) && go (x < 128) rest
  !b.isEmpty && go true b

/-- An object identifier. -/
def objectId : Reader ObjectId := do
  let b ← contents .objectId
  if isObjectId b then return objectIdOf b else failure

/-- A string of bytes. -/
def octets : Reader Bytes := contents .octets

/-- The bytes of a string of bits, and how many bits of the last byte do not count. -/
def bitsOf? : Bytes → Option (Bytes × Nat)
  | [] => none
  | unused :: b =>
    let n := unused.toNat
    if 7 < n ∨ (b.isEmpty ∧ 0 < n) then none
    else match b.getLast? with
      | some last => if last.toNat % Nat.pow 2 n = 0 then some (b, n) else none
      | none => some ([], 0)

/-- A string of bits that fills its bytes, or not. -/
def bitString : Reader Bytes := do
  let b ← contents .bitString
  match bitsOf? b with
  | some (bits, _) => return bits
  | none => failure

/-- Nothing, spelled out. -/
def null : Reader Unit := do
  let b ← contents .null
  if b.isEmpty then return () else failure

/-- The end of the bytes. -/
def finished : Reader Unit := do
  if (← get).isEmpty then return () else failure

end Reader

/-- Whether encodings stand in order, a shorter one before those that it begins. -/
def isOrdered : List Bytes → Bool
  | a :: b :: rest => decide (a.map UInt8.toNat ≤ b.map UInt8.toNat) && isOrdered (b :: rest)
  | _ => true

/-- An algorithm: its identifier and its parameters, if any. -/
def algorithm : Reader (ObjectId × Option Element) :=
  Reader.sequence do
    let id ← Reader.objectId
    if (← get).isEmpty then return (id, none)
    else return (id, some (← Reader.element))

end PackageSigning.Asn1.Strict
