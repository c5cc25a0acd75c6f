import PackageSigning.Action
import PackageSigning.Text.Markup

/-!
# Showing lines

Lines are marked up; text that is not part of the program has to be escaped. What a line looks
like in the end is up to the platform, which may also refuse it.
-/

namespace PackageSigning.Console
open PackageSigning.Action

/-- Shows a line. -/
def say [Platform] (line : String) : Action Unit := do
  print ((← ofMishap (Platform.rendered line)) ++ "\n")

/-- Shows a line where errors are shown. -/
def warn [Platform] (line : String) : Action Unit := do
  complain ((← ofMishap (Platform.rendered line)) ++ "\n")

/-- A truth value as shown. -/
def yesNo (b : Bool) : String := if b then "true" else "false"

/-- Shows a fault. -/
def reportFault [Platform] (fault : Fault) : Action Unit :=
  warn s!"[red]Error:[/red] {Markup.escape (fault.messageWith Text.quoted)}"

end PackageSigning.Console
