import PackageSigning.Lineage.Field
import PackageSigning.Lineage.Node
import PackageSigning.Signature

/-!
# Lineages of signing certificates

A lineage is the record of a signing key that was replaced, again and again:
certificates, oldest first, each signed by the one before. A file holds a mark,
a version and the nodes, every part with its length in front:

    mark | 1 | counted (1 | counted node | counted node | ...)
    node:  counted (counted certificate | parent algorithm) | flags | algorithm | counted signature

Only lineages whose signatures check (`Lineage.verify`) are read.
-/

namespace PackageSigning

/-- A lineage. -/
structure Lineage where
  nodes : List LineageNode
  /-- The first platform version that the newest key is for. Files do not hold it. -/
  minSdk : Int
  deriving DecidableEq, Repr

namespace LineageNode
open LineageField

/-- What the signer before signs: the certificate and the algorithm. -/
def statement (certificate : Certificate) (algorithm : Int) : Except Fault Bytes := do
  return (← counted certificate.der) ++ (← number algorithm)

/-- The statement that a node is signed with. -/
def signedData (n : LineageNode) : Except Fault Bytes := statement n.certificate n.parentAlgorithm

/-- A node as it is written. -/
def encode (n : LineageNode) : Except Fault Bytes := do
  let signed ← counted (← n.signedData)
  let flags ← number n.flags
  let algorithm ← number n.algorithm
  return signed ++ flags ++ algorithm ++ (← counted n.signature)

/-- The certificate of a node that is read. -/
def readCertificate (notary : Notary) (b : Bytes) : Except Fault Certificate :=
  match notary.readCertificate b with
  | .error (.mishap .badValue) => .error (.lineageFormat .badCertificate)
  | result => result

/-- The certificate, still encoded, and the algorithm of a statement. -/
def statementFields : Reader (Bytes × Nat) := do
  let certificate ← Reader.counted
  return (certificate, ← Reader.number)

/-- The certificate of a node, still encoded, and the node that it makes once it is read. -/
def fields : Reader (Bytes × (Certificate → LineageNode)) := do
  let (encoded, parentAlgorithm) ← statementFields.whole (← Reader.counted)
  let flags ← Reader.number
  let algorithm ← Reader.number
  let signature ← Reader.counted
  return (encoded, fun c => ⟨c, parentAlgorithm, algorithm, signature, flags⟩)

/-- The node that bytes hold. -/
def decode (notary : Notary) (b : Bytes) : Except Fault LineageNode := do
  let (encoded, node) ← fields.whole b
  return node (← readCertificate notary encoded)

end LineageNode

namespace Lineage
open LineageField

/-- The mark in front of a lineage file. -/
def magic : Nat := 0x3eff39d1

/-- The version of lineage files. -/
def fileVersion : Nat := 1

/-- The version of what is in them. -/
def version : Nat := 1

/-- The first platform version on which keys can be replaced. -/
def defaultMinSdk : Int := 28

/-- The lineage as shown. -/
def shown (l : Lineage) : String :=
  s!"SigningCertificateLineage(nodes={l.nodes.length}, min_sdk_version={l.minSdk})"

/-- The certificates, oldest first. -/
def certificates (l : Lineage) : List Certificate := l.nodes.map (·.certificate)

/-! ## Checking -/

/-- Whether a signature check came to an answer; an algorithm that is not known is a
fault of the format. -/
def asFormat (result : Except Fault Bool) : Except Fault Bool :=
  match result with
  | .error (.lineage problem) => .error (.lineageFormat (.check problem))
  | result => result

/-- Checks a node against the one before it. -/
def checkLink (notary : Notary) (index : Nat) (previous node : LineageNode) : Except Fault Unit := do
  if node.parentAlgorithm ≠ previous.algorithm then
    throw (.lineageFormat (.algorithmMismatch index))
  let key ← notary.publicKey previous.certificate
  let statement ← node.signedData
  let valid ← asFormat (notary.checkWith key node.parentAlgorithm node.signature statement)
  if !valid then throw (.lineageFormat (.invalidSignature index))

/-- Checks the first node, which nobody signed. -/
def checkFirst (node : LineageNode) : Except Fault Unit :=
  if node.parentAlgorithm = 0 ∧ node.signature = [] then .ok ()
  else .error (.lineageFormat .firstNodeSigned)

/-- Checks the last node, which signed nobody. -/
def checkLast : Option LineageNode → Except Fault Unit
  | some node =>
    if node.algorithm = 0 then .ok () else .error (.lineageFormat .lastNodeHasAlgorithm)
  | none => .ok ()

/-- Checks nodes from an index on; `seen` are the encoded certificates before them,
and `previous` is the node before them. -/
def verifyFrom (notary : Notary) (index : Nat) (seen : List Bytes) (previous : Option LineageNode) :
    List LineageNode → Except Fault Unit
  | [] => checkLast previous
  | node :: rest => do
    if seen.contains node.certificate.der then
      throw (.lineageFormat (.duplicateCertificate index))
    match previous with
    | none => checkFirst node
    | some p => checkLink notary index p node
    verifyFrom notary (index + 1) (node.certificate.der :: seen) (some node) rest

/-- Checks that no certificate comes twice, that each node but the first is signed by
the one before, and that the first and the last have no needless marks. -/
def verify (notary : Notary) (nodes : List LineageNode) : Except Fault Unit :=
  verifyFrom notary 0 [] none nodes

/-! ## Files -/

/-- Encoded nodes, each with its length in front. -/
def encodeNodes : List LineageNode → Except Fault Bytes
  | [] => .ok []
  | node :: rest => do
    let b ← counted (← node.encode)
    return b ++ (← encodeNodes rest)

/-- The nodes as they are written, with the version in front. -/
def encode (l : Lineage) : Except Fault Bytes := do
  let body ← encodeNodes l.nodes
  return (← number version) ++ body

/-- The lineage as a file. -/
def toBytes (l : Lineage) : Except Fault Bytes := do
  let body ← counted (← l.encode)
  return (← number magic) ++ (← number fileVersion) ++ body

/-- The nodes that bytes hold, with fuel for their number. -/
def decodeNodes (notary : Notary) : Nat → Bytes → Except Fault (List LineageNode)
  | _, [] => .ok []
  | 0, _ => .error (.lineageFormat .truncated)
  | fuel + 1, b => do
    let (encoded, rest) ← Reader.counted.run b
    let node ← LineageNode.decode notary encoded
    return node :: (← decodeNodes notary fuel rest)

/-- The lineage in bytes that start with its version. -/
def decode (notary : Notary) (b : Bytes) : Except Fault Lineage := do
  let (v, rest) ← Reader.number.run b
  if v ≠ version then throw (.lineageFormat (.lineageVersion v))
  let nodes ← decodeNodes notary rest.length rest
  if nodes.isEmpty then throw (.lineageFormat .noCertificates)
  verify notary nodes
  return ⟨nodes, defaultMinSdk⟩

/-- The lineage in a file. -/
def ofBytes (notary : Notary) (b : Bytes) : Except Fault Lineage := do
  let (mark, b) ← Reader.number.run b
  if mark ≠ magic then throw (.lineageFormat .badMagic)
  let (v, b) ← Reader.number.run b
  if v ≠ fileVersion then throw (.lineageFormat (.fileVersion v))
  let (body, rest) ← Reader.counted.run b
  let l ← decode notary body
  let _ ← Reader.finish.run rest
  return l

/-! ## Signers -/

/-- The place of the node with a certificate; `name` is what its bearer is called. -/
def indexOf (l : Lineage) (certificate : Certificate) (name : String) : Except Fault Nat :=
  match l.nodes.findIdx? (·.certificate.der == certificate.der) with
  | some i => .ok i
  | none => .error (.signerNotInLineage name)

/-- Whether a certificate is in the lineage. -/
def includes (l : Lineage) (certificate : Certificate) : Bool :=
  l.nodes.any (·.certificate.der == certificate.der)

/-- What the bearer of a certificate may do. -/
def capabilitiesOf (l : Lineage) (certificate : Certificate) (name : String) :
    Except Fault Capabilities := do
  match l.nodes[← l.indexOf certificate name]? with
  | some node => return node.capabilities
  | none => throw (.signerNotInLineage name)

/-- The lineage with the named capabilities of the bearer of a certificate set anew. -/
def grant (l : Lineage) (certificate : Certificate) (name : String) (c : Capabilities) :
    Except Fault Lineage := do
  let i ← l.indexOf certificate name
  return { l with nodes := l.nodes.modify i (·.granting c) }

/-- The lineage with a child behind its last signer, who has to be the parent. -/
def spawn (notary : Notary) (l : Lineage) (parent child : LineageSigner) (c : Capabilities) :
    Except Fault Lineage := do
  match l.nodes.getLast? with
  | none => throw (.lineage .emptyLineage)
  | some last =>
    if last.certificate.der ≠ parent.certificate.der then
      throw (.lineageMismatch parent.displayName)
    let algorithm ← Notary.suggested (← notary.publicKey parent.certificate)
    let statement ← LineageNode.statement child.certificate algorithm.id
    let signature ← notary.signWith parent.key algorithm.id statement
    return { l with nodes := l.nodes.dropLast ++
      [{ last with algorithm := algorithm.id },
       ⟨child.certificate, algorithm.id, 0, signature, c.flags⟩] }

/-- A new lineage of a parent and a child. -/
def create (notary : Notary) (parent child : LineageSigner) (minSdk : Int)
    (parentCapabilities childCapabilities : Capabilities) : Except Fault Lineage :=
  spawn notary ⟨[⟨parent.certificate, 0, 0, [], parentCapabilities.flags⟩], minSdk⟩
    parent child childCapabilities

end Lineage
end PackageSigning
