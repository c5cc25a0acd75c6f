/-!
# Capabilities of a past signer

After a rotation the platform still lets a past signer do five things, each of
which can be granted or refused on its own. A lineage stores the grants as the
low bits of a number, `Capability.bit` each.

`CapabilityChoices` collects what a user says, one capability at a time;
`CapabilityChoices.freeze` makes the grants of it and remembers which of them
were said. `Capabilities.appliedTo` overwrites exactly those.
-/

namespace PackageSigning

/-- Something a past signer may still do. -/
inductive Capability where
  /-- Hand its installed data to apps signed by the new key. -/
  | installedData
  /-- Share a user ID with the apps of the new key. -/
  | sharedUid
  /-- Keep signature permissions granted to it. -/
  | permission
  /-- Be rolled back to. -/
  | rollback
  /-- Authenticate the app. -/
  | auth
  deriving DecidableEq, Repr

namespace Capability

/-- All capabilities, in the order of their bits. -/
def all : List Capability := [installedData, sharedUid, permission, rollback, auth]

/-- The name of the capability. -/
def name : Capability → String
  | installedData => "installed_data"
  | sharedUid => "shared_uid"
  | permission => "permission"
  | rollback => "rollback"
  | auth => "auth"

/-- The option that sets the capability. -/
def optionName : Capability → String
  | installedData => "set-installed-data"
  | sharedUid => "set-shared-uid"
  | permission => "set-permission"
  | rollback => "set-rollback"
  | auth => "set-auth"

/-- The place of the capability's bit, the lowest bit being at place zero. -/
def place : Capability → Nat
  | installedData => 0
  | sharedUid => 1
  | permission => 2
  | rollback => 3
  | auth => 4

/-- The capability's bit. -/
def bit (c : Capability) : Nat := Nat.pow 2 c.place

/-- The capability with a name. -/
def named? (name : String) : Option Capability := all.find? (·.name == name)

/-- The capability that an option sets. -/
def ofOption? (option : String) : Option Capability := all.find? (·.optionName == option)

end Capability

/-- A value for each capability. -/
structure CapabilityMap (α : Type) where
  installedData : α
  sharedUid : α
  permission : α
  rollback : α
  auth : α
  deriving DecidableEq, Repr

namespace CapabilityMap
variable {α β γ : Type}

/-- The same value for every capability. -/
def const (a : α) : CapabilityMap α := ⟨a, a, a, a, a⟩

/-- The value for one capability. -/
def get (m : CapabilityMap α) : Capability → α
  | .installedData => m.installedData
  | .sharedUid => m.sharedUid
  | .permission => m.permission
  | .rollback => m.rollback
  | .auth => m.auth

/-- The map with another value for one capability. -/
def set (m : CapabilityMap α) (c : Capability) (a : α) : CapabilityMap α :=
  match c with
  | .installedData => { m with installedData := a }
  | .sharedUid => { m with sharedUid := a }
  | .permission => { m with permission := a }
  | .rollback => { m with rollback := a }
  | .auth => { m with auth := a }

/-- The map with the values that `f` gives. -/
def ofFunction (f : Capability → α) : CapabilityMap α :=
  ⟨f .installedData, f .sharedUid, f .permission, f .rollback, f .auth⟩

@[simp] theorem get_ofFunction (f : Capability → α) (c : Capability) :
    (ofFunction f).get c = f c := by cases c <;> rfl

@[simp] theorem get_const (a : α) (c : Capability) : (const a).get c = a := by cases c <;> rfl

theorem get_set (m : CapabilityMap α) (c d : Capability) (a : α) :
    (m.set c a).get d = if d = c then a else m.get d := by cases c <;> cases d <;> rfl

@[ext] theorem ext_get {m n : CapabilityMap α} (h : ∀ c, m.get c = n.get c) : m = n := by
  cases m; cases n
  have h1 := h .installedData
  have h2 := h .sharedUid
  have h3 := h .permission
  have h4 := h .rollback
  have h5 := h .auth
  simp_all [get]

end CapabilityMap

/-- The grants of a signer, and for each capability whether the user named it. -/
structure Capabilities where
  granted : CapabilityMap Bool
  configured : CapabilityMap Bool
  deriving DecidableEq, Repr

namespace Capabilities

/-- Nothing granted, nothing named. -/
def nothing : Capabilities := ⟨.const false, .const false⟩

/-- The bit at a place of a number, negative numbers continuing with ones. -/
def bitAt (flags : Int) (place : Nat) : Bool := flags / (Nat.pow 2 place : Nat) % 2 == 1

/-- The grants that a flag word stores. -/
def ofFlags (flags : Int) : Capabilities :=
  ⟨.ofFunction fun c => bitAt flags c.place, .const false⟩

/-- The flag word that stores the grants. -/
def flags (c : Capabilities) : Nat :=
  Capability.all.foldr (fun k rest => (if c.granted.get k then k.bit else 0) + rest) 0

/-- The grants of `current` with the named ones of `c` written over them. -/
def appliedTo (c current : Capabilities) : Capabilities :=
  ⟨.ofFunction fun k => if c.configured.get k then c.granted.get k else current.granted.get k,
   .const false⟩

/-- Whether both grant the same, whatever was named. -/
def sameGrants (c d : Capabilities) : Bool := c.granted == d.granted

end Capabilities

/-- What a user has said about each capability so far. -/
abbrev CapabilityChoices := CapabilityMap (Option Bool)

namespace CapabilityChoices

/-- Nothing said yet. -/
def empty : CapabilityChoices := .const none

/-- Whether nothing has been said. -/
def isEmpty (choices : CapabilityChoices) : Bool :=
  Capability.all.all fun c => (choices.get c).isNone

/-- Says whether a capability is granted; the last word counts. -/
def choose (choices : CapabilityChoices) (c : Capability) (granted : Bool) : CapabilityChoices :=
  choices.set c (some granted)

/-- The grants: what was not said is refused and does not count as named. -/
def freeze (choices : CapabilityChoices) : Capabilities :=
  ⟨.ofFunction fun c => (choices.get c).getD false, .ofFunction fun c => (choices.get c).isSome⟩

end CapabilityChoices
end PackageSigning
