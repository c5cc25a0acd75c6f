import PackageSigning.Bytes
import PackageSigning.Fault
import PackageSigning.OrderedMap
import PackageSigning.Path

/-!
# A model of the file system

Names lead to files, directories and links, and relative paths start from one of the directories.
A file is known by a number, under which its contents are kept: names with one number are hard
links, and what is written under one of them is read under all. A symbolic link holds a path,
which is followed in its place.

A path is followed name by name (`Files.locate`): everything before the last name has to be a
directory, and at most `maxLinks` links are followed. `Files.entryOf` does not follow the last
name, since what moves or removes a link does not look behind it. `Files.resolve` is how the
program itself makes a path absolute. It follows links as well, but is content with names that are
not there.

There may be several file systems, each below a directory of its own. A file that is moved from one
to another cannot keep its number: what it holds is written where the path leads (`Files.carry`).
-/

namespace PackageSigning

/-- What is at a name. -/
inductive FileEntry where
  /-- A file, by its number. -/
  | file (id : Nat)
  | directory
  /-- A symbolic link. -/
  | link (target : Path)
  deriving DecidableEq, Repr

/-- Names, the contents of files by number, and where relative paths start. -/
structure Files where
  entries : OrderedMap (List String) FileEntry
  contents : OrderedMap Nat Bytes
  current : List String
  /-- The directories in which other file systems begin. -/
  mounts : List (List String)
  deriving DecidableEq, Repr

namespace Files

/-- What is at an absolute name; the top is a directory. -/
def at? (fs : Files) (names : List String) : Option FileEntry :=
  if names.isEmpty then some .directory else fs.entries.get? names

/-- The longest name that there can be, in bytes. -/
def maxName : Nat := 255

/-- How many links are followed on one way. -/
def maxLinks : Nat := 40

/-- Where a path starts from a place. -/
def startFrom (place : List String) (p : Path) : List String :=
  match p.root with
  | .relative => place
  | _ => []

/-- Where a path starts. -/
def start (fs : Files) (p : Path) : List String := startFrom fs.current p

/-- The place that a name leads to from another one. -/
def step (place : List String) (name : String) : List String :=
  if name == ".." then place.dropLast else place ++ [name]

/-- Takes a name from a place, which has to be a directory. -/
def enter (fs : Files) (path : String) (place : List String) (name : String) :
    Except FileFault (List String) :=
  match fs.at? place with
  | none | some (.link _) => .error (.missing path)
  | some (.file _) => .error (.notDirectory path)
  | some .directory =>
    if maxName < (Bytes.ofText name).length then .error (.nameTooLong path)
    else .ok (step place name)

/-- Follows names from a place. At a link, `jump` goes on from where the link stands, with the
names that it holds and those behind it. -/
def advance (fs : Files) (path : String)
    (jump : List String → List String → Except FileFault (List String)) :
    List String → List String → Except FileFault (List String)
  | place, [] => .ok place
  | place, name :: rest => do
    let next ← fs.enter path place name
    match fs.at? next with
    | some (.link target) => jump (startFrom next.dropLast target) (target.names ++ rest)
    | _ => advance fs path jump next rest

/-- Follows names from a place through so many links. -/
def follow (fs : Files) (path : String) :
    Nat → List String → List String → Except FileFault (List String)
  | 0 => fs.advance path fun _ _ => .error (.tooManyLinks path)
  | links + 1 => fs.advance path (follow fs path links)

/-- The absolute name that a path leads to, behind all links. -/
def locate (fs : Files) (p : Path) : Except FileFault (List String) :=
  if p.isUnusable then .error .unusablePath
  else fs.follow p.toText maxLinks (fs.start p) p.names

/-- The absolute name at the end of a path. There may be a link. -/
def entryOf (fs : Files) (p : Path) : Except FileFault (List String) :=
  if p.isUnusable then .error .unusablePath
  else match p.names.getLast? with
    | none => .ok (fs.start p)
    | some name => do
      let place ← fs.follow p.toText maxLinks (fs.start p) p.names.dropLast
      fs.enter p.toText place name

/-- What a file holds. -/
def contentsOf (fs : Files) (id : Nat) : Bytes := (fs.contents.get? id).getD []

/-- The contents of a file. -/
def read (fs : Files) (p : Path) : Except FileFault Bytes := do
  match fs.at? (← fs.locate p) with
  | some (.file id) => return fs.contentsOf id
  | some .directory => throw (.isDirectory p.toText)
  | none | some (.link _) => throw (.missing p.toText)

/-- Puts an entry at an absolute name. -/
def put (fs : Files) (names : List String) (e : FileEntry) : Files :=
  { fs with entries := fs.entries.put names e }

/-- Puts contents into a file. -/
def store (fs : Files) (id : Nat) (b : Bytes) : Files :=
  { fs with contents := fs.contents.put id b }

/-- The numbers of files under names. -/
def ids (fs : Files) : List Nat :=
  fs.entries.entries.filterMap fun e => match e.2 with
    | .file id => some id
    | _ => none

/-- A number that no file has. -/
def freshId (fs : Files) : Nat := (fs.ids ++ fs.contents.keys).foldl max 0 + 1

/-- A new file at an absolute name. -/
def create (fs : Files) (names : List String) (b : Bytes) : Files :=
  (fs.put names (.file fs.freshId)).store fs.freshId b

/-- Puts contents into a file, which may be new. -/
def write (fs : Files) (p : Path) (b : Bytes) : Except FileFault Files := do
  let names ← fs.locate p
  match fs.at? names with
  | some (.file id) => return fs.store id b
  | some .directory => throw (.isDirectory p.toText)
  | some (.link _) => throw (.missing p.toText)
  | none => return fs.create names b

/-- The last name of a file for unfinished results. -/
def unfinishedName (number : Nat) : String := s!"apksigner{number}.apk"

/-- The first number, from one on, that is in no name anywhere. -/
def freeNumber (fs : Files) : Nat → Nat → Nat
  | 0, number => number
  | fuel + 1, number =>
    if fs.entries.keys.any (·.getLast? == some (unfinishedName number)) then
      freeNumber fs fuel (number + 1)
    else number

/-- A new empty file in a directory, under a name of its own. -/
def newFile (fs : Files) (directory : List String) : Except FileFault (Path × Files) := do
  let place ← fs.locate ⟨.absolute, directory⟩
  let path : Path := ⟨.absolute, place ++ [unfinishedName (fs.freeNumber fs.entries.size 0)]⟩
  return (path, ← fs.write path [])

/-- Whether there is something. -/
def isThere (fs : Files) (p : Path) : Bool :=
  match fs.locate p with
  | .ok names => (fs.at? names).isSome
  | .error _ => false

/-- Forgets what a file holds when the last of its names is gone. `old` is what stood at the name. -/
def forget (fs : Files) (old : Option FileEntry) : Files :=
  match old with
  | some (.file id) =>
    if fs.ids.contains id then fs else { fs with contents := fs.contents.erase id }
  | _ => fs

/-- Takes a name out. -/
def unname (fs : Files) (names : List String) : Files :=
  { fs with entries := fs.entries.erase names }

/-- Takes out a file, or a link and not what it leads to. -/
def remove (fs : Files) (p : Path) : Except FileFault Files := do
  let names ← fs.entryOf p
  match fs.at? names with
  | some .directory => throw (.isDirectory p.toText)
  | some e => return (fs.unname names).forget (some e)
  | none => throw (.missing p.toText)

/-- Puts a file or a link under another name, over whatever stands there. Two names of one file
stay as they are. -/
def rename (fs : Files) (source target : Path) : Except FileFault Files := do
  let old ← fs.entryOf source
  let new ← fs.entryOf target
  match fs.at? old, fs.at? new with
  | none, _ => throw (.missing source.toText)
  | some .directory, _ | _, some .directory => throw (.isDirectory target.toText)
  | some (.file id), some (.file other) =>
    if id = other then return fs
    else return ((fs.put new (.file id)).unname old).forget (some (.file other))
  | some e, _ => return (fs.put new e).unname old

/-- The file system that a name is on, by the directory in which it begins. -/
def volume (fs : Files) (names : List String) : List String :=
  (fs.mounts.filter (·.isPrefixOf names.dropLast)).foldl
    (fun top other => if top.length < other.length then other else top) []

/-- Puts what a file holds where a path leads, and takes the file out. -/
def carry (fs : Files) (source target : Path) : Except FileFault Files := do
  let b ← fs.read source
  if (fs.locate source).toOption = (fs.locate target).toOption then
    throw (.sameFile source.toText target.toText)
  let gs ← fs.write target b
  gs.remove source

/-- Puts a file under another name, or what it holds where the name is on another file system. -/
def transfer (fs : Files) (source target : Path) : Except FileFault Files := do
  let old ← fs.entryOf source
  let new ← fs.entryOf target
  if fs.volume old = fs.volume new then fs.rename source target else fs.carry source target

/-- Whether a path leads to a directory. -/
def isDirectory (fs : Files) (p : Path) : Bool :=
  match fs.locate p with
  | .ok names => fs.at? names = some .directory
  | .error _ => false

/-- Moves a file over another one, or into a directory where nothing has its name. -/
def move (fs : Files) (source target : Path) : Except FileFault Files :=
  if fs.isDirectory target then
    let inside := { target with names := target.names ++ [source.lastName] }
    if fs.isThere inside then .error (.taken inside.toText) else fs.transfer source inside
  else fs.transfer source target

/-! ## Absolute paths -/

/-- Drops each pair of a name and the way back. -/
def simplify (place names : List String) : List String := names.foldl step place

/-- Goes from a place along names that need not be there. `expand` tells where a link leads to, or
where the way leads round in a circle. -/
def unwind (fs : Files) (expand : List String → Path → Except (List String) (List String)) :
    List String → List String → Except (List String) (List String)
  | place, [] => .ok place
  | place, name :: rest =>
    let next := step place name
    match fs.at? next with
    | some (.link target) =>
      match expand next target with
      | .ok place => unwind fs expand place rest
      | .error stuck => .error (stuck ++ rest)
    | _ => unwind fs expand next rest

/-- The absolute name that names lead to from a place. `open_` holds the links that are being
followed, and there are so many others; to come to one of the former again is to go round in a
circle. -/
def resolveFrom (fs : Files) :
    Nat → List (List String) → List String → List String → Except (List String) (List String)
  | 0, _ => fs.unwind fun link _ => .error link
  | others + 1, open_ => fs.unwind fun link target =>
    if open_.contains link then .error link
    else resolveFrom fs others (link :: open_) (startFrom link.dropLast target) target.names

/-- The names of the symbolic links. -/
def links (fs : Files) : List (List String) :=
  (fs.entries.entries.filter fun e => e.2 matches .link _).map (·.1)

/-- The absolute path behind all links, whatever is there. A path that leads round in a circle is
kept as far as it goes, unless the system finds the same. -/
def resolve (fs : Files) (p : Path) : Except FileFault Path :=
  if p.isUnusable then .error .unusablePath
  else match fs.resolveFrom fs.links.length [] (fs.start p) p.names with
    | .ok names => .ok ⟨.absolute, names⟩
    | .error stuck =>
      let path : Path := ⟨.absolute, simplify [] stuck⟩
      match fs.locate path with
      | .error (.tooManyLinks _) => .error (.circular p.toText)
      | _ => .ok path

/-- Files with contents under names, each a file of its own, on one file system. -/
def ofContents (files : List (List String × Bytes)) : Files where
  entries := ⟨files.zipIdx.map fun (file, id) => (file.1, .file id)⟩
  contents := ⟨files.zipIdx.map fun (file, id) => (id, file.2)⟩
  current := []
  mounts := []

end Files
end PackageSigning
