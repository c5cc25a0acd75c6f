/-!
# Maps that remember the order of insertion

A map is the list of its entries, oldest key first. Writing to a key that is
there keeps its place; writing to a new key puts it last.
-/

namespace PackageSigning

/-- Entries in the order in which their keys came in. -/
structure OrderedMap (κ α : Type) where
  entries : List (κ × α)
  deriving DecidableEq, Repr

namespace OrderedMap
variable {κ α : Type} [DecidableEq κ]

/-- The map without entries. -/
def empty : OrderedMap κ α := ⟨[]⟩

/-- The value at a key. -/
def get? (m : OrderedMap κ α) (key : κ) : Option α :=
  (m.entries.find? (·.1 = key)).map (·.2)

/-- The keys, oldest first. -/
def keys (m : OrderedMap κ α) : List κ := m.entries.map (·.1)

/-- Whether there is a value at a key. -/
def contains (m : OrderedMap κ α) (key : κ) : Bool := m.keys.contains key

/-- The entries with the value at a key replaced, or with a new entry at the end. -/
def putEntry (key : κ) (value : α) : List (κ × α) → List (κ × α)
  | [] => [(key, value)]
  | e :: rest => if e.1 = key then (key, value) :: rest else e :: putEntry key value rest

/-- Writes a value to a key. -/
def put (m : OrderedMap κ α) (key : κ) (value : α) : OrderedMap κ α :=
  ⟨putEntry key value m.entries⟩

/-- Removes a key and its value. -/
def erase (m : OrderedMap κ α) (key : κ) : OrderedMap κ α :=
  ⟨m.entries.filter fun e => e.1 ≠ key⟩

/-- The map that writing the pairs one after the other makes. -/
def ofList (pairs : List (κ × α)) : OrderedMap κ α :=
  pairs.foldl (fun m e => m.put e.1 e.2) empty

/-- The number of entries. -/
def size (m : OrderedMap κ α) : Nat := m.entries.length

end OrderedMap
end PackageSigning
