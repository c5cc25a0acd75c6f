import PackageSigning.Bytes

/-!
# Base 64

Four characters for three bytes. `encode` pads to whole groups. Two readers
differ in what they put up with: `decode?` takes what `encode` writes, and
`decodeLoose?` passes over foreign characters and stops at the padding that
completes a group.
-/

namespace PackageSigning.Text.Base64

/-- The character, as a byte, that stands for six bits. -/
def character (n : Nat) : UInt8 :=
  UInt8.ofNat <|
    if n < 26 then 65 + n
    else if n < 52 then 71 + n
    else if n < 62 then n - 4
    else if n = 62 then 43
    else 47

/-- The six bits that a character stands for. -/
def value? (c : UInt8) : Option Nat :=
  let n := c.toNat
  if 65 ≤ n ∧ n ≤ 90 then some (n - 65)
  else if 97 ≤ n ∧ n ≤ 122 then some (n - 71)
  else if 48 ≤ n ∧ n ≤ 57 then some (n + 4)
  else if n = 43 then some 62
  else if n = 47 then some 63
  else none

/-- The padding character. -/
def padding : UInt8 := 61

/-- The characters of some bytes. -/
def encode : Bytes → Bytes
  | [] => []
  | [a] =>
    [character (a.toNat / 4), character (a.toNat % 4 * 16), padding, padding]
  | [a, b] =>
    [character (a.toNat / 4), character (a.toNat % 4 * 16 + b.toNat / 16),
      character (b.toNat % 16 * 4), padding]
  | a :: b :: c :: rest =>
    character (a.toNat / 4) :: character (a.toNat % 4 * 16 + b.toNat / 16) ::
      character (b.toNat % 16 * 4 + c.toNat / 64) :: character (c.toNat % 64) :: encode rest

/-- The whole bytes in the six-bit values of one group. -/
def bytesOf : List Nat → Bytes
  | [a, b] => [UInt8.ofNat (a * 4 + b / 16)]
  | [a, b, c] => [UInt8.ofNat (a * 4 + b / 16), UInt8.ofNat (b % 16 * 16 + c / 4)]
  | [a, b, c, d] =>
    [UInt8.ofNat (a * 4 + b / 16), UInt8.ofNat (b % 16 * 16 + c / 4),
      UInt8.ofNat (c % 4 * 64 + d)]
  | _ => []

/-- The bytes of characters in whole groups, the last one padded, with no bits
set that belong to no byte. -/
def decode? : Bytes → Option Bytes
  | [] => some []
  | [a, b, 61, 61] => do
    let a ← value? a
    let b ← value? b
    if b % 16 = 0 then some (bytesOf [a, b]) else none
  | [a, b, c, 61] => do
    let a ← value? a
    let b ← value? b
    let c ← value? c
    if c % 4 = 0 then some (bytesOf [a, b, c]) else none
  | a :: b :: c :: d :: rest => do
    let group ← [a, b, c, d].mapM value?
    return bytesOf group ++ (← decode? rest)
  | _ => none

/-- Reads on with the values of an open group, and the number of padding
characters after them. -/
def decodeLooseFrom (group : List Nat) (pads : Nat) : Bytes → Option Bytes
  | [] => if group.isEmpty then some [] else none
  | c :: rest =>
    if c = padding then
      if 2 ≤ group.length then
        if 4 ≤ group.length + pads + 1 then some (bytesOf group)
        else decodeLooseFrom group (pads + 1) rest
      else decodeLooseFrom group pads rest
    else match value? c with
      | none => decodeLooseFrom group pads rest
      | some v =>
        if group.length = 3 then (bytesOf (group ++ [v]) ++ ·) <$> decodeLooseFrom [] 0 rest
        else decodeLooseFrom (group ++ [v]) 0 rest

/-- The bytes of characters among others; nothing if a group stays open. -/
def decodeLoose? (cs : Bytes) : Option Bytes := decodeLooseFrom [] 0 cs

end PackageSigning.Text.Base64
