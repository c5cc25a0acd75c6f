import PackageSigning.Action
import PackageSigning.Lineage

/-!
# Files of lineages

Reading and writing lineages where they are kept. A file that cannot be reached
is a problem of the lineage, named by the path as it was given.
-/

namespace PackageSigning.Lineage
open PackageSigning.Action

/-- A file operation whose refusal becomes a problem of a lineage. A path that names no
file at all stays a fault of its own. -/
def reach (problem : String → LineageProblem) : Except FileFault α → Action α
  | .ok a => return a
  | .error .unusablePath => throw (.file .unusablePath)
  | .error fault => throw (.lineage (problem fault.reason))

/-- The lineage in a file. -/
def load (notary : Notary) (path : String) : Action Lineage := do
  let b ← reach (.unreadable path) (← query (.read (Path.ofText path)))
  ofResult (ofBytes notary b)

/-- Writes the lineage into a file. -/
def save (l : Lineage) (path : String) : Action Unit := do
  let b ← ofResult l.toBytes
  reach (.unwritable path) (← query (.write (Path.ofText path) b))

end PackageSigning.Lineage
