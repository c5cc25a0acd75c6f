import PackageSigning.Bytes
import PackageSigning.Fault

/-!
# Fields of lineage files

Numbers of four bytes, least significant byte first, and bytes with their number
in front. Numbers that do not fit are not written, and reading tells missing
bytes from bytes left over.
-/

namespace PackageSigning.LineageField

/-- The bound of the numbers in four bytes. -/
def bound : Nat := 0x100000000

/-- A number in four bytes. -/
def number (n : Int) : Except Fault Bytes :=
  if 0 ≤ n ∧ n < bound then .ok (Bytes.ofNatLittle 4 n.toNat) else .error (.mishap .doesNotFit)

/-- Bytes with their number in front. -/
def counted (b : Bytes) : Except Fault Bytes := return (← number b.length) ++ b

/-- Reading the front of some bytes. -/
abbrev Reader := StateT Bytes (Except Fault)

namespace Reader

/-- The next bytes, so many of them. -/
def take (count : Nat) : Reader Bytes := fun b =>
  match Bytes.split? count b with
  | some (front, rest) => .ok (front, rest)
  | none => .error (.lineageFormat .truncated)

/-- A number in four bytes. -/
def number : Reader Nat := return Bytes.toNatLittle (← take 4)

/-- Bytes with their number in front. -/
def counted : Reader Bytes := do take (← number)

/-- The end of the bytes. -/
def finish : Reader Unit := fun b =>
  match b with
  | [] => .ok ((), [])
  | _ => .error (.lineageFormat (.trailing b.length))

/-- What a reader makes of bytes that it has to use up. -/
def whole (reader : Reader α) (b : Bytes) : Except Fault α := do
  let (a, rest) ← reader.run b
  let _ ← finish.run rest
  return a

end Reader
end PackageSigning.LineageField
