import PackageSigning.Action
import PackageSigning.Options.Signer
import PackageSigning.Text.Characters

/-!
# Where passwords come from

A specification names a source: `stdin`, `file:` and a path, `pass:` and the
password itself, or `env:` and the name of a variable. Each line of the source
is a password. `Password.candidates` gives them in the native encoding and in
further ones, and hands them out through the vault.
-/

namespace PackageSigning

/-- Where passwords come from. -/
inductive PasswordSource where
  | input
  | literal (text : String)
  | environment (name : String)
  | file (path : String)
  deriving DecidableEq, Repr

namespace PasswordSource

/-- The specification of the input. -/
def inputSpec : String := "stdin"

/-- The rest of a text after its beginning. -/
def after? (beginning text : String) : Option String :=
  if beginning.toList.isPrefixOf text.toList then
    some (String.ofList (text.toList.drop beginning.length))
  else none

/-- The source that a specification names. -/
def ofSpec? (spec : String) : Option PasswordSource :=
  if spec = inputSpec then some .input
  else
    ((after? "pass:" spec).map .literal).orElse fun _ =>
      ((after? "env:" spec).map .environment).orElse fun _ => (after? "file:" spec).map .file

end PasswordSource

namespace Password
open PackageSigning.Action

/-- The encoding with a canonical name, or with another name of it. -/
def encodingNamed (name : String) : Except Fault Text.Encoding :=
  return Text.Encoding.ofCanonical (← charsetNamed name)

/-- The encoding that the platform prefers. -/
def native : Action Text.Encoding := do
  ofResult (Text.Encoding.named (← query .nativeEncoding))

/-- A line typed after a prompt that is the label, hidden if the input is a
terminal. Nothing at the end of an input that is none. -/
def inputLine (label : String) : Action (Option String) := do
  let prompt := s!"{label}: "
  if ← isTerminal then
    match ← ofMishap (← query (.hiddenLine prompt)) with
    | some text => return some text
    | none =>
      complain "\n"
      throw (.mishap .aborted)
  else
    complain prompt
    return (← ofMishap (← query .line)).map Text.dropLineFeeds

/-- The lines of a password file, which is in the native encoding. -/
def fileLines [Platform] (path : Path) : Action (List String) := do
  match ← query (.read path) with
  | .error .unusablePath => throw (.file .unusablePath)
  | .error fault =>
    let text := (Fault.file fault).messageWith Text.quoted
    throw (.configuration (.passwordFileUnreadable path.toText text))
  | .ok b =>
    let encoding ← native
    match encoding.decode b with
    | .ok text => return Text.lines text
    | .error (.mishap .undecodable) =>
      throw (.configuration (.passwordFileUndecodable path.toText encoding.name))
    | .error fault => throw fault

/-- The passwords of a source, in order. -/
def linesOf [Platform] (source : PasswordSource) (label : String) : Action (List String) :=
  match source with
  | .input => return (← inputLine label).toList
  | .literal text => return [text]
  | .environment name => do
    match ← query (.environment name) with
    | some text => return [text]
    | none => throw (.configuration (.variableUnset name))
  | .file path => fileLines (Path.ofText path)

/-- The passwords that a specification stands for. -/
def lines [Platform] (spec label : String) : Action (List String) :=
  match PasswordSource.ofSpec? spec with
  | some source => linesOf source label
  | none => throw (.configuration (.unknownPasswordSource label spec))

/-- A specification as the log shows it, without a password that it spells out. -/
def described (spec : String) : String :=
  if (PasswordSource.after? "pass:" spec).isSome then "pass:<hidden>" else spec

/-- What the log is told while passwords are asked for. -/
inductive Note where
  /-- An encoding that cannot write a password. -/
  | leftOut (encoding : String)
  /-- The number of candidates that are handed out. -/
  | handedOut (count : Nat)
  deriving DecidableEq, Repr

def Note.text (spec label : String) : Note → String
  | leftOut encoding => s!"Skipping {encoding} candidate for {label}: not representable"
  | handedOut count =>
    s!"Resolved {count} candidate password(s) for {label} from {described spec}"

/-- The candidates that a specification stands for: its passwords in order, each
in the native encoding first and then in the further ones. -/
def candidates [Platform] (spec label : String) (further : List String) :
    Action (List Candidate) := do
  if !(← vaultIsOpen) then throw (.misuse .closedRetriever)
  let native ← native
  let further ← ofResult (further.mapM encodingNamed)
  let texts ← lines spec label
  let encodings := native :: further
  (Candidate.leftOut (Candidate.attempts encodings texts)).forM fun encoding =>
    log (Note.text spec label (.leftOut encoding.name))
  let candidates ← ofResult (Candidate.all encodings texts)
  query (.issue candidates)
  log (Note.text spec label (.handedOut candidates.length))
  return candidates

end Password
end PackageSigning
