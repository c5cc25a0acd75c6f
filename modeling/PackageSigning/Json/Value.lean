import PackageSigning.Number.Double
import PackageSigning.OrderedMap
import PackageSigning.Text.Characters

/-!
# JSON values

The members of an object are in the order of the text, each name once. Whole
numbers are exact; all others are doubles.

A text is a series of code points. A document can spell the two halves of a
character apart, and a half that stands alone is kept as it is, so that such texts
stay apart from each other; they are no texts elsewhere.
-/

namespace PackageSigning

/-- A text, by its code points. Halves of characters may stand alone. -/
structure JsonText where
  points : List Nat
  deriving DecidableEq, Repr, Inhabited

namespace JsonText

/-- The code points of a text without halves of characters. -/
def ofString (s : String) : JsonText := ⟨s.toList.map Char.toNat⟩

instance : Coe String JsonText := ⟨ofString⟩

/-- The text, if no half of a character stands alone in it. -/
def text? (t : JsonText) : Option String :=
  if t.points.all (·.isValidChar) then some (String.ofList (t.points.map Char.ofNat)) else none

/-- A code point between quotes. -/
def quotedPoint (quote : Char) (n : Nat) : List Char :=
  if n.isValidChar then Text.quotedChar quote (Char.ofNat n)
  else '\\' :: 'u' :: Text.hexDigits 4 n

/-- The text in quotes, as it is shown inside other values. -/
def quoted (t : JsonText) : List Char :=
  let quote := Text.quoteFor (t.points.map Char.ofNat)
  quote :: t.points.flatMap (quotedPoint quote) ++ [quote]

/-- The text in a message. Halves of characters are spelled out. -/
def shown (t : JsonText) : String :=
  String.ofList <| t.points.flatMap fun n =>
    if n.isValidChar then [Char.ofNat n] else '\\' :: 'u' :: Text.hexDigits 4 n

end JsonText

/-- A JSON value. -/
inductive JsonValue where
  | null
  | bool (value : Bool)
  | integer (value : Int)
  | float (value : Double)
  | text (value : JsonText)
  | list (items : List JsonValue)
  | object (members : List (JsonText × JsonValue))
  deriving Repr, Inhabited

namespace JsonValue

/-- The object with some members; of two with one name the later value counts,
at the earlier place. -/
def ofMembers (members : List (JsonText × JsonValue)) : JsonValue :=
  object (OrderedMap.ofList members).entries

/-- Whether a value is this text. -/
def isText (expected : String) : JsonValue → Bool
  | text t => t == JsonText.ofString expected
  | _ => false

/-- Whether a value counts as one. -/
def isOne : JsonValue → Bool
  | bool b => b
  | integer n => n == 1
  | float x => x.isOne
  | _ => false

/-- Whether a value is nothing, zero or empty. -/
def isEmpty : JsonValue → Bool
  | null => true
  | bool b => !b
  | integer n => n == 0
  | float x => x.isZero
  | text t => t.points.isEmpty
  | list items => items.isEmpty
  | object members => members.isEmpty

mutual

/-- How deep lists and objects are nested in a value. -/
def depth : JsonValue → Nat
  | list items => depthOfItems items + 1
  | object members => depthOfMembers members + 1
  | _ => 0

/-- How deep the deepest of some values is nested. -/
def depthOfItems : List JsonValue → Nat
  | [] => 0
  | v :: rest => max (depth v) (depthOfItems rest)

/-- How deep the deepest of the values of some members is nested. -/
def depthOfMembers : List (JsonText × JsonValue) → Nat
  | [] => 0
  | (_, v) :: rest => max (depth v) (depthOfMembers rest)

end

end JsonValue
end PackageSigning
