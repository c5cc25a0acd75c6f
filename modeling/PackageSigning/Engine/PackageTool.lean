import PackageSigning.Engine

/-!
# The engine over a packaging tool

A packaging tool, which need not be there, signs for one signer and knows nothing
of lineages. What it reports becomes a fault when it signs, and an error of the
verdict when it checks.
-/

namespace PackageSigning

/-- What the tool is asked to sign. -/
structure ToolSigning where
  source : String
  target : String
  /-- The encoding of the certificate of the signer. -/
  certificate : Bytes
  key : PrivateKey
  schemes : Schemes
  deriving DecidableEq, Repr

/-- What the tool is asked to check. -/
structure ToolChecking where
  source : String
  /-- Whether the oldest scheme is checked too. -/
  checksV1 : Bool
  platform : Option Int
  deriving DecidableEq, Repr

/-- What the tool finds out about a package. -/
structure ToolFinding where
  verified : Bool
  schemes : Schemes
  /-- The versions of the schemes that fail, and how. -/
  failures : List (String × String)
  error : Option String
  deriving DecidableEq, Repr

/-- A packaging tool. Either call may end with a report of what is wrong. -/
structure PackageTool where
  sign : ToolSigning → Action (Except String Unit)
  verify : ToolChecking → Action (Except String ToolFinding)

namespace PackageTool
open PackageSigning.Action

/-- The tool, if it is there. -/
def present : Option PackageTool → Action PackageTool
  | some tool => return tool
  | none => throw (.engine .toolMissing)

/-- Signs with the only signer. -/
def signOne (tool? : Option PackageTool) (q : SignRequest) (signer : EngineSigner) :
    Action Unit := do
  if q.lineage.isSome then throw (.engine .noLineage)
  let tool ← present tool?
  match signer.certificates with
  | [] => throw (.mishap .badIndex)
  | certificate :: _ =>
    match ← tool.sign ⟨q.input.toText, q.output.toText, certificate.der, signer.key, q.schemes⟩ with
    | .ok () => return
    | .error report => throw (.engine (.signing q.input.toText report))

/-- Signs a package. -/
def signWith (tool? : Option PackageTool) (q : SignRequest) : Action Unit :=
  match q.signers with
  | [signer] => signOne tool? q signer
  | _ => throw (.engine .oneSignerOnly)

/-- The verdict on a package about which the tool has found out something. -/
def verdictOn (f : ToolFinding) : Verdict where
  verified := f.verified
  schemes := f.schemes
  certificates := []
  errors := f.failures.map (fun (version, reason) => s!"v{version} not verified ({reason})") ++
    f.error.toList
  warnings := []

/-- The verdict on a package that the tool cannot check. -/
def unchecked (report : String) : Verdict := ⟨false, .none, [], [report], []⟩

/-- Checks a package. -/
def verifyWith (tool? : Option PackageTool) (q : VerifyRequest) : Action Verdict := do
  let tool ← present tool?
  match ← tool.verify ⟨q.input.toText, true, q.minSdk⟩ with
  | .ok finding => return verdictOn finding
  | .error report => return unchecked report

/-- The engine over the tool. -/
def engine (tool? : Option PackageTool) : SigningEngine where
  className := "ApkSigToolEngine"
  sign := signWith tool?
  verify := verifyWith tool?

end PackageTool
end PackageSigning
