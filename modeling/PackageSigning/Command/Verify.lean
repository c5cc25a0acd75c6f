import PackageSigning.Command.CertificateReport
import PackageSigning.Command.Equipment
import PackageSigning.Command.Options

/-!
# Checking a package

An engine gives a verdict, which is shown in as much detail as asked for. The
command succeeds when the package verifies and, if warnings count as errors, there
is none.
-/

namespace PackageSigning

/-- The options of the command. -/
structure VerifyOptions where
  input : Option Path := none
  minSdk : Option Int := none
  maxSdk : Option Int := none
  certificates : Bool := false
  verbose : Bool := false
  strict : Bool := false
  deriving DecidableEq, Repr

namespace VerifyOptions
open OptionAction

/-- No options. -/
def initial : VerifyOptions := {}

/-- Reads one option. -/
def take (name : String) (o : VerifyOptions) : OptionAction (Option VerifyOptions) := do
  match name with
  | "min-sdk-version" => return some { o with minSdk := some (← integer "Minimum API Level") }
  | "max-sdk-version" => return some { o with maxSdk := some (← integer "Maximum API Level") }
  | "print-certs" => return some { o with certificates := ← switch }
  | "v" | "verbose" => return some { o with verbose := ← switch }
  | "Werr" => return some { o with strict := ← switch }
  | "in" => return some { o with input := some (← path "Input APK file") }
  | _ => return none

end VerifyOptions

namespace VerifyCommand
open PackageSigning.Action

variable [Platform]

/-- The options, and the package to check. -/
def read : OptionAction (VerifyOptions × Path) := do
  let (o, last) ← OptionAction.readAll VerifyOptions.take .initial
  let input ← OptionAction.inputPackage "APK" o.input last
  OptionAction.checkPlatforms o.minSdk o.maxSdk
  return (o, input)

/-- Shows which schemes a package verifies with, and how many signers it has. -/
def showSchemes (v : Verdict) : Action Unit := do
  Console.say "Verifies"
  Console.say s!"Verified using v1 scheme (JAR signing): {Console.yesNo v.schemes.v1}"
  Console.say
    s!"Verified using v2 scheme (APK Signature Scheme v2): {Console.yesNo v.schemes.v2}"
  Console.say
    s!"Verified using v3 scheme (APK Signature Scheme v3): {Console.yesNo v.schemes.v3}"
  Console.say s!"Number of signers: {v.certificates.length}"

/-- Shows a verdict. -/
def showVerdict (o : VerifyOptions) (v : Verdict) : Action Unit := do
  if v.verified then
    if o.verbose then showSchemes v
    if o.certificates then
      CertificateReport.numbered (fun number =>
        CertificateReport.show_ s!"Signer #{number}" o.verbose) 1 v.certificates
  else Console.warn "DOES NOT VERIFY"
  v.errors.forM fun text => Console.warn s!"ERROR: {Markup.escape text}"
  v.warnings.forM fun text =>
    let line := s!"WARNING: {Markup.escape text}"
    if o.strict then Console.warn line else Console.say line

/-- Whether a verdict is good enough. -/
def passes (o : VerifyOptions) (v : Verdict) : Bool :=
  v.verified && !(o.strict && !v.warnings.isEmpty)

/-- Checks a package as the tokens say, and tells whether it passes. -/
def run (e : Equipment) (engineName : String) (tokens : List String) : Action Bool := do
  let ((o, input), _) ← read (.start tokens)
  let engine ← ofResult (e.engines.find engineName)
  let verdict ← engine.verify ⟨input, o.minSdk, o.maxSdk⟩
  showVerdict o verdict
  return passes o verdict

end VerifyCommand
end PackageSigning
