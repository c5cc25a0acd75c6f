import PackageSigning.Text.Characters
import PackageSigning.Text.Encoding

/-!
# Candidate passwords

A password is tried in several encodings; each pair of a text and an encoding
is a candidate. A vault keeps every candidate that was handed out until it is
closed, and then wipes them all.
-/

namespace PackageSigning

/-- A password in one encoding. -/
structure Candidate where
  text : String
  /-- The canonical name of the encoding. -/
  encoding : String
  value : Bytes
  deriving DecidableEq, Repr

namespace Candidate

/-- The candidate as shown, which does not tell the password. -/
def shown (c : Candidate) : String :=
  s!"CandidatePassword(encoding={Text.quoted c.encoding})"

/-- The candidate without its password. -/
def wiped (c : Candidate) : Candidate := { c with text := "", value := [] }

/-- The password in one encoding, or nothing if it cannot be written in it. -/
def encode? [Platform] (text : String) (encoding : Text.Encoding) :
    Except Fault (Option Candidate) :=
  match encoding.encode text with
  | .ok value => .ok (some ⟨text, encoding.name, value⟩)
  | .error (.mishap .unencodable) => .ok none
  | .error fault => .error fault

/-- The password in each encoding that can write it. -/
def inEncodings [Platform] (encodings : List Text.Encoding) (text : String) :
    Except Fault (List Candidate) :=
  return (← encodings.mapM (encode? text)).filterMap id

/-- Every password in each encoding that can write it, password by password. -/
def all [Platform] (encodings : List Text.Encoding) (texts : List String) :
    Except Fault (List Candidate) :=
  return (← texts.mapM (inEncodings encodings)).flatten

/-- Every password with every encoding, in the order in which they are tried. -/
def attempts (encodings : List Text.Encoding) (texts : List String) :
    List (String × Text.Encoding) :=
  texts.flatMap fun text => encodings.map (text, ·)

/-- The encodings that cannot write the password beside them, up to the first one that fails in
another way. -/
def leftOut [Platform] : List (String × Text.Encoding) → List Text.Encoding
  | [] => []
  | (text, encoding) :: rest =>
    match encode? text encoding with
    | .ok (some _) => leftOut rest
    | .ok none => encoding :: leftOut rest
    | .error _ => []

end Candidate

/-- The candidates handed out, first one first. -/
structure Vault where
  issued : List Candidate
  isOpen : Bool
  deriving DecidableEq, Repr

namespace Vault

/-- Nothing handed out yet. -/
def fresh : Vault := ⟨[], true⟩

/-- Hands out candidates. -/
def issue (v : Vault) (candidates : List Candidate) : Vault :=
  { v with issued := v.issued ++ candidates }

/-- Wipes every candidate; no more are handed out. -/
def close (v : Vault) : Vault := ⟨v.issued.map Candidate.wiped, false⟩

end Vault
end PackageSigning
