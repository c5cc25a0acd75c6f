import PackageSigning.Asn1.Loose
import PackageSigning.Certificate.Reading
import PackageSigning.Pem

/-!
# Files of certificates

A file holds certificates in PEM, one after the other in binary, or in a bag
(PKCS #7) of either form. They are read in the order of the file.
-/

namespace PackageSigning.CertificateBundle
open Asn1 Asn1.Loose

/-- The refusal of a certificate as a fault; `malformed` is what a malformed one comes to. -/
def refuse (malformed : Fault) : CertificateRefusal → Fault
  | .malformed => malformed
  | .unknownVersion => .mishap .unknownVersion

/-- A certificate. -/
def one (b : Bytes) : Except Fault Certificate :=
  match CertificateReading.certificate b with
  | .ok c => .ok c
  | .error refusal => .error (refuse (.mishap .badValue) refusal)

/-- The identifier of signed data. -/
def signedData : ObjectId := [1, 2, 840, 113549, 1, 7, 2]

/-- The encoding of the first element, whole, and what follows it. -/
def firstWhole? (b : Bytes) : Option (Bytes × Bytes) :=
  (read? b).map fun (_, rest) => (b.take (b.length - rest.length), rest)

/-- The encodings of all elements, with fuel for their number. -/
def wholes? : Nat → Bytes → Option (List Bytes)
  | _, [] => some []
  | 0, _ => none
  | fuel + 1, b => do
    let (e, rest) ← firstWhole? b
    return e :: (← wholes? fuel rest)

/-- The encodings of the certificates in signed data: after its version, its
digests and what was signed, and before its revocations and signers. -/
def certificatesIn? (content : Element) : Option (List Bytes) := do
  match ← members? content with
  | version :: digests :: inner :: rest =>
    let _ ← integer? version
    if digests.tag ≠ .set ∨ inner.tag ≠ .sequence then none
    else match rest with
      | bag :: rest =>
        let closing := if (rest.head?.map (·.tag)) = some (.field 1) then rest.drop 1 else rest
        if bag.tag = .field 0 ∧ closing.map (·.tag) = [.set] then
          wholes? bag.contents.length bag.contents
        else none
      | [] => none
  | _ => none

/-- The certificates of a bag. Bytes behind the bag are passed over. -/
def bag (b : Bytes) : Except Fault (List Certificate) :=
  match read? b >>= fun (e, _) => members? e with
  | some (id :: rest) =>
    match objectId? id with
    | none => .error (.mishap .badValue)
    | some id =>
      if id ≠ signedData then .error (.mishap .unsupported)
      else match rest.head? >>= fun e =>
          if e.tag = .field 0 then whole? e.contents >>= certificatesIn? else none with
        | some encodings => encodings.mapM one
        | none => .error (.mishap .badValue)
  | _ => .error (.mishap .badValue)

/-- The opening of a bag in PEM. -/
def bagOpening : Bytes := Bytes.ofAscii "-----BEGIN PKCS7-----"

/-- The label of a bag in PEM. -/
def bagLabel : String := "PKCS7"

/-- The labels of certificates in PEM. -/
def labels : List String := ["CERTIFICATE", "X509 CERTIFICATE"]

/-- The certificates of a bag that is the first block. -/
def bagOfText (b : Bytes) : Except Fault (List Certificate) :=
  match Pem.nextBlock? b >>= fun (raw, _) => Pem.block? raw with
  | some block => if block.label = bagLabel then bag block.contents else .error (.mishap .badValue)
  | none => .error (.mishap .badValue)

/-- The certificates among the blocks of a text; there has to be one. -/
def ofText (b : Bytes) : Except Fault (List Certificate) :=
  match Pem.blocks? b with
  | none => .error (.mishap .badValue)
  | some blocks => do
    let certificates ← (blocks.filter fun p => labels.contains p.label).mapM fun p => one p.contents
    if certificates.isEmpty then throw (.mishap .badValue) else return certificates

/-- The certificates in front of some bytes, one after the other, with fuel for
their number. When already the first is none, the whole has to be a bag. -/
def binaryFrom (all : Bytes) (isFirst : Bool) : Nat → Bytes → Except Fault (List Certificate)
  | _, [] => .ok []
  | 0, _ => .error (.mishap .badValue)
  | fuel + 1, b =>
    match firstWhole? b with
    | none => .error (.mishap .badValue)
    | some (encoding, rest) =>
      match one encoding with
      | .ok c => (c :: ·) <$> binaryFrom all false fuel rest
      | .error (.mishap .badValue) => if isFirst then bag all else .error (.mishap .badValue)
      | .error fault => .error fault

/-- Blanks and line ends. -/
def isBlankByte (x : UInt8) : Bool := x = 32 || (9 ≤ x && x ≤ 13)

/-- The certificates of a file, in whatever form. -/
def read (b : Bytes) : Except Fault (List Certificate) :=
  if b.all isBlankByte then .ok []
  else
    let result :=
      if Bytes.includes bagOpening b then bagOfText b
      else if Bytes.includes (Bytes.ofAscii "-----BEGIN") b then ofText b
      else binaryFrom b true b.length b
    match result with
    | .error (.mishap .badValue) => .error (.parse .certificates)
    | result => result

end PackageSigning.CertificateBundle
