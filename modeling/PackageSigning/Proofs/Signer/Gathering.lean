import PackageSigning.Proofs.Action
import PackageSigning.Signer.Loading

/-!
# Loading a signer only looks

Whatever the settings of a signer are, loading it reads files and asks for passwords, and
does nothing else to the surroundings.
-/

namespace PackageSigning

/-- Looking for what a signer is loaded from. -/
abbrev Action.Gathering {α : Type} (x : Action α) : Prop := x.Only Query.Gathers

open PackageSigning.Action

variable [Platform]

omit [Platform] in
theorem contentsOf_gathering (path : Path) : (contentsOf path).Gathering :=
  .bind (.query trivial) fun _ => .ofFile _

namespace Password

omit [Platform] in
theorem native_gathering : native.Gathering := .bind (.query trivial) fun _ => .ofResult _

omit [Platform] in
theorem inputLine_gathering (label : String) : (inputLine label).Gathering := by
  refine .bind (.query trivial) fun isTerminal => ?_
  split
  · refine .bind (.query trivial) fun answer => .bind (.ofMishap _) fun line => ?_
    split
    · exact .pure _
    · exact .bind (.query trivial) fun _ => .throw _
  · exact .bind (.query trivial) fun _ => .bind (.query trivial) fun _ =>
      .bind (.ofMishap _) fun _ => .pure _

theorem fileLines_gathering (path : Path) : (fileLines path).Gathering := by
  refine .bind (.query trivial) fun contents => ?_
  split
  · exact .throw _
  · exact .throw _
  · refine .bind native_gathering fun encoding => ?_
    split
    · exact .pure _
    · exact .throw _
    · exact .throw _

theorem linesOf_gathering (source : PasswordSource) (label : String) :
    (linesOf source label).Gathering := by
  cases source with
  | input => exact .bind (inputLine_gathering label) fun _ => .pure _
  | literal text => exact .pure _
  | environment name =>
    refine .bind (.query trivial) fun value => ?_
    split
    · exact .pure _
    · exact .throw _
  | file path => exact fileLines_gathering _

theorem lines_gathering (spec label : String) : (lines spec label).Gathering := by
  unfold lines
  split
  · exact linesOf_gathering _ label
  · exact .throw _

theorem candidates_gathering (spec label : String) (further : List String) :
    (candidates spec label further).Gathering := by
  refine .bind (.query trivial) fun isOpen => .refuse_if fun _ => .bind native_gathering fun _ =>
    .bind (.ofResult _) fun _ => .bind (lines_gathering spec label) fun _ =>
    .bind (.forM (fun _ => .query trivial) _) fun _ => .bind (.ofResult _) fun _ =>
    .bind (.query trivial) fun _ => .bind (.query trivial) fun _ => .pure _

end Password

omit [Platform] in
theorem openFile_gathering {σ : Type} (kind : KeystoreKind σ) (path : Option Path)
    (passwords : List Bytes) (state : σ) : (kind.openFile path passwords state).Gathering := by
  unfold KeystoreKind.openFile
  split
  · exact .pure _
  · cases path with
    | none => exact .pure _
    | some path => exact .bind (.bind (contentsOf_gathering path) fun _ => .pure _) fun _ => .pure _

namespace SignerSettings
variable (s : SignerSettings)

theorem passwords_gathering (spec label : String) : (s.passwords spec label).Gathering :=
  .bind (Password.candidates_gathering spec label _) fun _ => .pure _

theorem entryKey_gathering {σ : Type} (kind : KeystoreKind σ) (state : σ) (entry : EntryName)
    (passwords : List Bytes) : (s.entryKey kind state entry passwords).Gathering := by
  unfold entryKey
  split
  · exact .bind (passwords_gathering s _ _) fun _ => .ofResult _
  · split
    · exact .bind (passwords_gathering s _ _) fun _ => .ofResult _
    · exact .ofResult _

theorem fromEntry_gathering {σ : Type} (kind : KeystoreKind σ) (state : σ) (store : String)
    (entry : EntryName) (passwords : List Bytes) : (s.fromEntry kind state store entry passwords).Gathering := by
  refine .bind (.ofResult _) fun isKey => ?_
  refine .refuse_if fun _ => .bind (.tryCatch (entryKey_gathering s kind state entry passwords)
    fun _ => .throw _) fun found => ?_
  split
  · exact .throw _
  · refine .refuse_if fun _ => .bind (.ofResult _) fun chain => ?_
    split
    · exact .throw _
    · exact .throw _
    · exact .pure _

theorem fromKind_gathering {σ : Type} (kind : KeystoreKind σ) (store : String) :
    (s.fromKind kind store).Gathering := by
  refine .bind (passwords_gathering s _ _) fun _ => .bind (openFile_gathering kind _ _ _) fun _ =>
    .bind (.ofResult _) fun _ => ?_
  dsimp only
  split
  · exact fromEntry_gathering s kind _ _ _ _
  · exact .bind (.ofResult _) fun _ => fromEntry_gathering s kind _ _ _ _

theorem fromStore_gathering (services : Services) (store : String) :
    (s.fromStore services store).Gathering := by
  refine .bind (.ofResult _) fun type => ?_
  cases type <;> exact fromKind_gathering s _ store

theorem plainKey_gathering (file : String) (contents : Bytes) :
    (s.plainKey file contents).Gathering := by
  unfold plainKey
  split
  · exact .bind (passwords_gathering s _ _) fun _ => .ofResult _
  · split
    · exact .throw _
    · exact .pure _
  · exact .throw _

theorem fileKey_gathering (services : Services) (file : String) :
    (s.fileKey services file).Gathering :=
  .bind (contentsOf_gathering _) fun _ => .bind (.ofResult _) fun _ =>
    .bind (plainKey_gathering s file _) fun _ => .ofResult _

theorem fromFiles_gathering (services : Services) (file : String) :
    (s.fromFiles services file).Gathering := by
  unfold fromFiles
  split
  · exact .throw _
  · exact .bind (fileKey_gathering s services file) fun _ => .bind (contentsOf_gathering _)
      fun _ => .bind (.ofResult _) fun _ => .refuse_if fun _ => .pure _

theorem source_gathering (services : Services) : (s.source services).Gathering := by
  unfold source
  split
  · split
    · exact .throw _
    · exact fromStore_gathering s services _
  · exact .throw _
  · exact fromFiles_gathering s services _
  · exact .throw _

/-- Loading a signer only looks. -/
theorem load_gathering (services : Services) : (s.load services).Gathering :=
  .bind (.tryCatch (source_gathering s services) fun _ => .throw _) fun _ => .pure _

end SignerSettings
end PackageSigning
