import PackageSigning.Lineage

/-!
# Replacing signing keys

A rotation starts a lineage, or extends one whose last signer hands over. A
change of capabilities touches one signer of a lineage and tells whether it
made a difference.
-/

namespace PackageSigning.Rotation

/-- Hands over from an old signer to a new one. Beside the outcome there is what has
become of the existing lineage: the named capabilities of the old signer are set in it
before the new signer is added. The platform version counts for new lineages only. -/
def rotate (notary : Notary) (old new : LineageSigner) (oldCapabilities newCapabilities : Capabilities)
    (existing : Option Lineage) (minSdk : Int) : Except Fault Lineage × Option Lineage :=
  match existing with
  | none => (Lineage.create notary old new minSdk oldCapabilities newCapabilities, none)
  | some l =>
    if !l.includes old.certificate then (.error (.signerNotInLineage old.displayName), some l)
    else if l.certificates.getLast?.map (·.der) ≠ some old.certificate.der then
      (.error (.lineageMismatch old.displayName), some l)
    else match l.grant old.certificate old.displayName oldCapabilities with
      | .error fault => (.error fault, some l)
      | .ok updated => (updated.spawn notary old new newCapabilities, some updated)

/-- What a change of capabilities has come to. -/
structure Update where
  lineage : Lineage
  before : Capabilities
  after : Capabilities
  deriving DecidableEq, Repr

namespace Update

/-- Whether the signer may do anything more or less than before. -/
def changed (u : Update) : Bool := !u.before.sameGrants u.after

end Update

/-- Sets the named capabilities of a signer of a lineage. -/
def update (l : Lineage) (signer : LineageSigner) (c : Capabilities) : Except Fault Update := do
  let before ← l.capabilitiesOf signer.certificate signer.displayName
  let lineage ← l.grant signer.certificate signer.displayName c
  let after ← lineage.capabilitiesOf signer.certificate signer.displayName
  return ⟨lineage, before, after⟩

end PackageSigning.Rotation
