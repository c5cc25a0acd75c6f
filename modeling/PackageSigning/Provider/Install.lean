import PackageSigning.Options.Reader
import PackageSigning.Provider

/-!
# Installing providers by class name

A provider class is named `module:Class` or `module.Class`. What can be named
is a `Catalogue`: the members of each module, some of which are provider
classes. A class makes a provider, with or without one text as argument, unless
it does not take what it is given. Code that is named in this way may also get into
trouble of its own when it is loaded or used.
-/

namespace PackageSigning

/-- A member of a module. -/
inductive ModuleMember where
  /-- A provider class, by its own name, and what it makes of an optional argument. An argument
  that it does not take is of the wrong type. -/
  | provider (className : String) (make : Option String → Except Mishap Provider)
  /-- Anything else. -/
  | other
  /-- Something that cannot be loaded for a reason of its own. -/
  | broken (mishap : Mishap)

/-- The modules that can be named, and the members of each. -/
abbrev Catalogue := List (String × List (String × ModuleMember))

/-- A provider class that has been found. -/
structure ProviderClass where
  name : String
  make : Option String → Except Mishap Provider

namespace Catalogue

/-- The modules of the tool itself. -/
def builtIn : Catalogue :=
  [("apksign", [("providers", .other)]),
   ("apksign.providers", [("default", .other)]),
   ("apksign.providers.registry",
     [("Provider", .provider "Provider" fun argument =>
        (argument.map (Provider.bare "Provider")).elim (.error .wrongType) .ok),
      ("ProviderRegistry", .other)]),
   ("apksign.providers.default",
     [("DefaultProvider", .provider "DefaultProvider" fun argument =>
        .ok (.standard (argument.getD Provider.standardName)))])]

/-- The parts before and after the first colon, or else around the last full
stop; nothing in front if there is neither. -/
def splitName (name : String) : String × String :=
  let cs := name.toList
  if cs.contains ':' then
    (String.ofList (cs.takeWhile (· != ':')), String.ofList ((cs.dropWhile (· != ':')).drop 1))
  else if cs.contains '.' then
    let reversed := cs.reverse
    (String.ofList ((reversed.dropWhile (· != '.')).drop 1).reverse,
     String.ofList (reversed.takeWhile (· != '.')).reverse)
  else ("", name)

/-- The provider class with a name. -/
def load (c : Catalogue) (name : String) : Except Fault ProviderClass :=
  let (module, member) := splitName name
  if module = "" ∨ member = "" then .error (.provider (.invalidClassName name))
  else if module.toList.head? = some '.' then .error (.mishap .wrongType)
  else
    match (c.lookup module).bind (·.lookup member) with
    | none => .error (.provider (.notLoadable name))
    | some .other => .error (.provider (.notAProvider name))
    | some (.broken mishap) => .error (.mishap mishap)
    | some (.provider className make) => .ok ⟨className, make⟩

/-- A provider made from the class with a name. -/
def make (c : Catalogue) (name : String) (argument : Option String) : Except Fault Provider := do
  let found ← c.load name
  match found.make argument with
  | .ok p => return p
  | .error .wrongType => throw (.provider (.notInstantiable name))
  | .error mishap => throw (.mishap mishap)

end Catalogue

/-- A provider that the user wants installed before any key is loaded. -/
structure ProviderRequest where
  className : Option String := none
  argument : Option String := none
  position : Option Int := none
  deriving DecidableEq, Repr

namespace ProviderRequest

/-- Nothing said. -/
def empty : ProviderRequest := {}

/-- Whether nothing has been said. -/
def isEmpty (q : ProviderRequest) : Bool :=
  q.className.isNone && q.argument.isNone && q.position.isNone

/-- Reads a provider option into the request; nothing if the option is not one. -/
def option? (name : String) (q : ProviderRequest) : Reading (Option ProviderRequest) :=
  match name with
  | "provider-class" => do
    let text ← OptionReader.value "Provider class name"
    return some { q with className := some text }
  | "provider-arg" => do
    let text ← OptionReader.value "Provider constructor argument"
    return some { q with argument := some text }
  | "provider-pos" => do
    let n ← OptionReader.integer "Provider position"
    return some { q with position := some n }
  | _ => return none

/-- Installs the provider and tells its place. -/
def install (c : Catalogue) (q : ProviderRequest) (r : ProviderRegistry) :
    Except Fault (Option Nat × ProviderRegistry) :=
  match q.className with
  | none => .error (.configuration .providerClassMissing)
  | some className => do
    let p ← c.make className q.argument
    return match q.position with
      | none => r.add p
      | some position => r.insertAt p position

/-- Installs providers one after the other. The registry keeps those before one that fails. -/
def installAll (c : Catalogue) : List ProviderRequest → ProviderRegistry →
    Except Fault Unit × ProviderRegistry
  | [], r => (.ok (), r)
  | q :: rest, r =>
    match q.install c r with
    | .error fault => (.error fault, r)
    | .ok (_, r) => installAll c rest r

end ProviderRequest
end PackageSigning
