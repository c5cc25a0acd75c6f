import PackageSigning.Json.Value

/-!
# Writing JSON

All text is ASCII: other characters are written as their 16-bit units. The
canonical form has no blanks and its names in the order of their code points; the form for readers has a
line for every value, indented by two blanks a level. A third form, `shown`,
is the one that messages use; it is no JSON.
-/

namespace PackageSigning.JsonValue

/-- A 16-bit unit as an escape. -/
def escapeUnit (n : Nat) : List Char := '\\' :: 'u' :: Text.hexDigits 4 n

/-- A code point between quotes. -/
def escapePoint (n : Nat) : List Char :=
  if n = 34 then ['\\', '"']
  else if n = 92 then ['\\', '\\']
  else if n = 8 then ['\\', 'b']
  else if n = 9 then ['\\', 't']
  else if n = 10 then ['\\', 'n']
  else if n = 12 then ['\\', 'f']
  else if n = 13 then ['\\', 'r']
  else if 32 ≤ n ∧ n < 127 then [Char.ofNat n]
  else if n < 0x10000 then escapeUnit n
  else escapeUnit (0xd800 + (n - 0x10000) / 0x400) ++ escapeUnit (0xdc00 + (n - 0x10000) % 0x400)

/-- A string in quotes. -/
def quote (t : JsonText) : List Char := '"' :: t.points.flatMap escapePoint ++ ['"']

/-- A double; those that are no finite numbers have names. -/
def floatText (x : Double) : List Char := x.text "Infinity" "NaN"

/-- Texts with commas between them. -/
def commas (texts : List (List Char)) : List Char := [','].intercalate texts

/-- Puts a member among others, in front of those with greater names. -/
def placed {α : Type} (m : JsonText × α) : List (JsonText × α) → List (JsonText × α)
  | [] => [m]
  | n :: rest => if m.1.points ≤ n.1.points then m :: n :: rest else n :: placed m rest

/-- A member of an object in the canonical form. -/
def canonicalMember (m : JsonText × List Char) : List Char := quote m.1 ++ ':' :: m.2

mutual

/-- The canonical form. -/
def canonical : JsonValue → List Char
  | null => "null".toList
  | bool b => if b then "true".toList else "false".toList
  | integer n => (toString n).toList
  | float x => floatText x
  | text s => quote s
  | list items => '[' :: commas (canonicalItems items) ++ [']']
  | object members =>
    let sorted := (canonicalMembers members).foldr placed []
    '\x7b' :: commas (sorted.map canonicalMember) ++ ['\x7d']

/-- The canonical forms of values. -/
def canonicalItems : List JsonValue → List (List Char)
  | [] => []
  | v :: rest => canonical v :: canonicalItems rest

/-- Members with the canonical forms of their values. -/
def canonicalMembers : List (JsonText × JsonValue) → List (JsonText × List Char)
  | [] => []
  | (name, v) :: rest => (name, canonical v) :: canonicalMembers rest

end

/-- The start of a line at a level. -/
def newLine (level : Nat) : List Char := '\n' :: List.replicate (2 * level) ' '

/-- Lines between two brackets. -/
def block (opening closing : Char) (level : Nat) (lines : List (List Char)) : List Char :=
  if lines.isEmpty then [opening, closing]
  else opening :: commas (lines.map (newLine (level + 1) ++ ·)) ++ newLine level ++ [closing]

mutual

/-- The form for readers, of a value at a level. -/
def indented (level : Nat) : JsonValue → List Char
  | list items => block '[' ']' level (indentedItems (level + 1) items)
  | object members => block '\x7b' '\x7d' level (indentedMembers (level + 1) members)
  | null => "null".toList
  | bool b => if b then "true".toList else "false".toList
  | integer n => (toString n).toList
  | float x => floatText x
  | text s => quote s

/-- The forms of the values of a list. -/
def indentedItems (level : Nat) : List JsonValue → List (List Char)
  | [] => []
  | v :: rest => indented level v :: indentedItems level rest

/-- The forms of the members of an object. -/
def indentedMembers (level : Nat) : List (JsonText × JsonValue) → List (List Char)
  | [] => []
  | (name, v) :: rest =>
    (quote name ++ ':' :: ' ' :: indented level v) :: indentedMembers level rest

end

/-- Texts with a comma and a blank between them. -/
def spaced (texts : List (List Char)) : List Char := [',', ' '].intercalate texts

mutual

/-- A value inside a message. -/
def shownInside : JsonValue → List Char
  | null => "None".toList
  | bool b => if b then "True".toList else "False".toList
  | integer n => (toString n).toList
  | float x => x.text "inf" "nan"
  | text t => t.quoted
  | list items => '[' :: spaced (shownItems items) ++ [']']
  | object members => '\x7b' :: spaced (shownMembers members) ++ ['\x7d']

/-- The values of a list inside a message. -/
def shownItems : List JsonValue → List (List Char)
  | [] => []
  | v :: rest => shownInside v :: shownItems rest

/-- The members of an object inside a message. -/
def shownMembers : List (JsonText × JsonValue) → List (List Char)
  | [] => []
  | (name, v) :: rest =>
    (name.quoted ++ ':' :: ' ' :: shownInside v) :: shownMembers rest

end

/-- The code points of a value as a message shows it: a text is itself. -/
def shown : JsonValue → List Nat
  | text t => t.points
  | v => (shownInside v).map Char.toNat

end PackageSigning.JsonValue
