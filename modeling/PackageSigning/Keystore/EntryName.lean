import PackageSigning.Json.Value

/-!
# Names of entries

Entries of keystores go by texts. A document may also give its entries as a series of pairs, whose
first members name them; these can be other values, and stay what they are. They are told apart by
what they count for: one, true and the fraction one are the same name.
-/

namespace PackageSigning

/-- What an entry goes by. -/
inductive EntryName where
  | text (value : JsonText)
  | null
  | bool (value : Bool)
  | integer (value : Int)
  | float (value : Double)
  deriving DecidableEq, Repr

namespace EntryName

instance : Coe String EntryName := ⟨fun s => text s⟩

/-- The name in a message. -/
def shown : EntryName → String
  | text t => t.shown
  | null => "None"
  | bool b => if b then "True" else "False"
  | integer n => toString n
  | float x => String.ofList (x.text "inf" "nan")

/-- Whether a name is nothing, zero or empty. -/
def isEmpty : EntryName → Bool
  | text t => t.points.isEmpty
  | null => true
  | bool b => !b
  | integer n => n == 0
  | float x => x.isZero

/-- A name as settings keep it, where one that is nothing is none. -/
def kept? (name : EntryName) : Option EntryName := if name = null then none else some name

/-- What a name counts for. -/
def worth : EntryName → EntryName
  | bool b => integer (if b then 1 else 0)
  | float x => (x.integer?.map integer).getD (float x)
  | name => name

/-- Whether two names count for the same. -/
def same (a b : EntryName) : Bool := a.worth = b.worth

/-- A series of named values as a map: of names that count for the same the first is kept, and of
their values the last. -/
def merge {α : Type} (pairs : List (EntryName × α)) : OrderedMap EntryName α :=
  .ofList (pairs.map fun p => (((pairs.map (·.1)).find? (·.same p.1)).getD p.1, p.2))

end EntryName
end PackageSigning
