import PackageSigning.Fault
import PackageSigning.OrderedMap
import PackageSigning.Text.Characters
import PackageSigning.Text.Uppercase

/-!
# Providers of keystores and key factories

A provider offers keystore types and key factories by name, whatever the case
of the name. A registry holds providers with distinct names, the one to ask
first in front; a service is taken from the first provider that offers it.
-/

namespace PackageSigning

/-- A keystore format. -/
inductive StoreType where
  | pkcs12
  | pem
  deriving DecidableEq, Repr

namespace StoreType

/-- The name of the format. -/
def name : StoreType → String
  | pkcs12 => "PKCS12"
  | pem => "PEMKS"

/-- A keystore with so many entries as shown. -/
def shown (type : StoreType) (entries : Nat) : String :=
  match type with
  | pkcs12 => s!"PKCS12KeyStore(entries={entries})"
  | pem => s!"PemKeyStore(entries={entries})"

/-- The format of a keystore when none is given. -/
def default : StoreType := pkcs12

end StoreType

/-- A factory of private keys: the algorithm whose keys it decodes. -/
inductive KeyFactory where
  | rsa
  | ec
  | dsa
  deriving DecidableEq, Repr

namespace KeyFactory

/-- Every factory, in the order in which they are tried. -/
def all : List KeyFactory := [rsa, ec, dsa]

/-- The name of the algorithm. -/
def algorithm : KeyFactory → String
  | rsa => "RSA"
  | ec => "EC"
  | dsa => "DSA"

/-- The factory as shown. -/
def shown (f : KeyFactory) : String := s!"KeyFactory(algorithm={Text.quoted f.algorithm})"

end KeyFactory

/-- A named source of keystores and key factories. -/
structure Provider where
  /-- The name of the class of the provider. -/
  className : String
  name : String
  stores : OrderedMap String StoreType
  factories : OrderedMap String KeyFactory
  deriving DecidableEq, Repr

namespace Provider

/-- A provider that offers nothing. -/
def bare (className name : String) : Provider := ⟨className, name, .empty, .empty⟩

/-- Offers a keystore type under a name. -/
def offerStore (p : Provider) (name : String) (type : StoreType) : Provider :=
  { p with stores := p.stores.put (Text.upper name) type }

/-- Offers a key factory under the name of an algorithm. -/
def offerFactory (p : Provider) (name : String) (factory : KeyFactory) : Provider :=
  { p with factories := p.factories.put (Text.upper name) factory }

/-- The keystore type offered under a name. -/
def store? (p : Provider) (name : String) : Option StoreType := p.stores.get? (Text.upper name)

/-- The key factory offered under a name. -/
def factory? (p : Provider) (name : String) : Option KeyFactory :=
  p.factories.get? (Text.upper name)

/-- The provider as shown. -/
def shown (p : Provider) : String := s!"{p.className}(name={Text.quoted p.name})"

/-- The name of the built-in provider. -/
def standardName : String := "Default"

/-- The built-in provider under a name: both keystore types and all factories. -/
def standard (name : String) : Provider :=
  let withStores := (bare "DefaultProvider" name |>.offerStore "PKCS12" .pkcs12
    |>.offerStore "PEMKS" .pem)
  KeyFactory.all.foldl (fun p f => p.offerFactory f.algorithm f) withStores

end Provider

/-- Installed providers, the one to ask first in front. -/
structure ProviderRegistry where
  providers : List Provider
  deriving DecidableEq, Repr

/-- Which providers a lookup asks. -/
inductive ProviderChoice where
  /-- All installed ones, in order. -/
  | any
  /-- The installed one with a name. -/
  | named (name : String)
  /-- This one, installed or not. -/
  | given (provider : Provider)
  deriving DecidableEq, Repr

namespace ProviderRegistry

/-- Without providers. -/
def empty : ProviderRegistry := ⟨[]⟩

/-- The names of the installed providers. -/
def names (r : ProviderRegistry) : List String := r.providers.map (·.name)

/-- The installed provider with a name. -/
def find? (r : ProviderRegistry) (name : String) : Option Provider :=
  r.providers.find? (·.name == name)

/-- The place nearest to a wanted one, counted from 1, among `count` providers
and the one that comes in. -/
def clamp (count : Nat) (position : Int) : Nat := min (max position 1).toNat (count + 1)

/-- Installs a provider at a place counted from 1, and tells the place; nothing
happens, and there is no place, if the name is taken. -/
def insertAt (r : ProviderRegistry) (p : Provider) (position : Int) :
    Option Nat × ProviderRegistry :=
  if (r.find? p.name).isSome then (none, r)
  else
    let place := clamp r.providers.length position
    (some place, ⟨r.providers.insertIdx (place - 1) p⟩)

/-- Installs a provider behind all others. -/
def add (r : ProviderRegistry) (p : Provider) : Option Nat × ProviderRegistry :=
  r.insertAt p (r.providers.length + 1)

/-- The registry of some providers, installed one after the other. -/
def ofList (providers : List Provider) : ProviderRegistry :=
  providers.foldl (fun r p => (r.add p).2) empty

/-- Takes the provider with a name out. -/
def remove (r : ProviderRegistry) (name : String) : ProviderRegistry :=
  ⟨r.providers.filter (·.name != name)⟩

/-- The registry with the built-in provider. -/
def standard : ProviderRegistry := ofList [.standard Provider.standardName]

/-- The providers that a lookup asks. -/
def asked (r : ProviderRegistry) : ProviderChoice → Except Fault (List Provider)
  | .any => .ok r.providers
  | .given p => .ok [p]
  | .named name =>
    match r.find? name with
    | some p => .ok [p]
    | none => .error (.provider (.notInstalled name))

/-- The keystore type that the first provider asked offers under a name. -/
def store (r : ProviderRegistry) (name : String) (choice : ProviderChoice) :
    Except Fault StoreType := do
  let providers ← r.asked choice
  match providers.findSome? (·.store? name) with
  | some type => return type
  | none => throw (.store (.typeNotFound name))

/-- The key factory that the first provider offers under a name. -/
def factory (r : ProviderRegistry) (algorithm : String) : Except Fault KeyFactory :=
  match r.providers.findSome? (·.factory? algorithm) with
  | some f => .ok f
  | none => .error (.unsupportedKey (.noFactory algorithm))

/-- The registry as shown. -/
def shown (r : ProviderRegistry) : String :=
  s!"ProviderRegistry(providers={Text.quotedList r.names})"

end ProviderRegistry
end PackageSigning
