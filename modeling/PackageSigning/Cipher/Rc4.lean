import PackageSigning.Bytes

/-!
# RC4

A permutation of the bytes, shuffled by the key, gives a stream of bytes that is
added to the message. Decryption is encryption.
-/

namespace PackageSigning.Cipher.Rc4

/-- The permutation and the two places in it. -/
structure State where
  bytes : Array UInt8
  i : Nat
  j : Nat

/-- Exchanges two entries. -/
def exchange (a : Array UInt8) (i j : Nat) : Array UInt8 :=
  let x := a.getD i 0
  let y := a.getD j 0
  (a.setIfInBounds i y).setIfInBounds j x

/-- The permutation shuffled by a key. -/
def schedule (key : Bytes) : State :=
  let k := key.toArray
  let ordered := ((List.range 256).map UInt8.ofNat).toArray
  let (bytes, _) := (List.range 256).foldl (fun (a, j) i =>
    let j := (j + (a.getD i 0).toNat + (k.getD (i % k.size) 0).toNat) % 256
    (exchange a i j, j)) (ordered, 0)
  ⟨bytes, 0, 0⟩

/-- Adds the stream to a message. -/
def crypt : State → Bytes → Bytes
  | _, [] => []
  | s, x :: rest =>
    let i := (s.i + 1) % 256
    let j := (s.j + (s.bytes.getD i 0).toNat) % 256
    let a := exchange s.bytes i j
    let k := a.getD (((a.getD i 0).toNat + (a.getD j 0).toNat) % 256) 0
    (x ^^^ k) :: crypt ⟨a, i, j⟩ rest

end PackageSigning.Cipher.Rc4
