import PackageSigning.Capabilities
import PackageSigning.Certificate
import PackageSigning.Fault
import PackageSigning.Key

/-!
# Nodes of a lineage

A node is a certificate with what its bearer may still do, and the signature of
the signer before it. Each node names the algorithm that it was signed with and
the one that it signed the next node with; zero stands for none.
-/

namespace PackageSigning

/-- A signer of packages who hands over to another one. -/
structure LineageSigner where
  /-- Needed only by a signer who hands over. -/
  key : Option PrivateKey
  certificate : Certificate
  name : Option String
  deriving DecidableEq, Repr

namespace LineageSigner

/-- The name of a signer, or of the bearer of the certificate. -/
def displayName (s : LineageSigner) : String :=
  (s.name.filter (!·.isEmpty)).getD s.certificate.subject.toText

end LineageSigner

/-- A node of a lineage. -/
structure LineageNode where
  certificate : Certificate
  /-- The number of the algorithm that the signer before signed this node with. -/
  parentAlgorithm : Int
  /-- The number of the algorithm that this signer signed the next node with. -/
  algorithm : Int
  /-- The signature of the signer before. -/
  signature : Bytes
  /-- What the signer may do, one bit for each capability. -/
  flags : Int
  deriving DecidableEq, Repr

namespace LineageNode

/-- What the signer may do. -/
def capabilities (n : LineageNode) : Capabilities := .ofFlags n.flags

/-- The node with the named capabilities of some set written over its own. -/
def granting (n : LineageNode) (c : Capabilities) : LineageNode :=
  { n with flags := (c.appliedTo n.capabilities).flags }

end LineageNode
end PackageSigning
