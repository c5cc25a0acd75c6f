/-!
# File paths

A path is a root, none for relative paths, and the names on the way. Reading a
path drops empty names and single dots, and keeps double dots: whether they can
be dropped depends on the files.
-/

namespace PackageSigning

/-- Where a path starts. -/
inductive PathRoot where
  /-- The working directory. -/
  | relative
  /-- The top of the file system. -/
  | absolute
  /-- Two slashes in front, which a system may treat apart. -/
  | doubled
  deriving DecidableEq, Repr

/-- A file path. -/
structure Path where
  root : PathRoot
  names : List String
  deriving DecidableEq, Repr

namespace Path

/-- The parts between slashes; `current` holds the open part, last character first. -/
def partsFrom (current : List Char) : List Char → List (List Char)
  | [] => [current.reverse]
  | '/' :: rest => current.reverse :: partsFrom [] rest
  | c :: rest => partsFrom (c :: current) rest

/-- Whether a part counts. -/
def isName (part : List Char) : Bool := part != [] && part != ['.']

/-- The path that a text names. -/
def ofText (text : String) : Path :=
  let cs := text.toList
  let root := match cs with
    | '/' :: '/' :: '/' :: _ => .absolute
    | '/' :: '/' :: _ => .doubled
    | '/' :: _ => .absolute
    | _ => .relative
  ⟨root, ((partsFrom [] cs).filter isName).map String.ofList⟩

/-- The path as shown. -/
def toText (p : Path) : String :=
  let names := "/".intercalate p.names
  match p.root with
  | .absolute => "/" ++ names
  | .doubled => "//" ++ names
  | .relative => if p.names.isEmpty then "." else names

/-- The last name, or nothing for a path without names. -/
def lastName (p : Path) : String := (p.names.getLast?).getD ""

/-- Whether a name holds a zero character, so that no file can have it. -/
def isUnusable (p : Path) : Bool := p.names.any fun name => name.toList.contains (Char.ofNat 0)

end Path
end PackageSigning
