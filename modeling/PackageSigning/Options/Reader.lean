import PackageSigning.Fault
import PackageSigning.Text.Characters

/-!
# A reader over command-line tokens

Options are written `--name`, `-name` or `--name=value`. The first token that
does not start with a dash ends the options, and so does `--`, which is
consumed. A value is the part after `=`, else the next token. One option can be
put back, so that whoever reads next sees it again.

`OptionReader` is the state of a run over the tokens. Each reading step is a
`Reading`: it gives a value or a fault and the reader as it stands afterwards,
also after a fault, because a refused value has been consumed all the same.
-/

namespace PackageSigning

/-- A position in a list of tokens, and what is known of the option before it. -/
structure OptionReader where
  tokens : List String
  /-- The number of tokens read. -/
  position : Nat := 0
  /-- The position of the last option. -/
  optionPosition : Nat := 0
  /-- The last option as written, without its value. -/
  form : Option String := none
  /-- The value written together with the last option, until somebody takes it. -/
  inlineValue : Option String := none
  /-- Whether the last option has been put back. -/
  isPutBack : Bool := false
  deriving DecidableEq, Repr

/-- A step of a reader: a value or a fault, and the reader afterwards. -/
abbrev Reading (α : Type) := ExceptT Fault (StateM OptionReader) α

/-- One token, as far as options go. -/
inductive OptionToken where
  /-- Not an option. -/
  | plain
  /-- The mark that ends the options. -/
  | endMark
  | named (name form : String) (value : Option String)
  deriving DecidableEq, Repr

namespace OptionToken

/-- The mark that ends the options. -/
def endText : String := "--"

/-- The characters before the first equals sign, and those after it if there is one. -/
def cutAtEquals : List Char → List Char × Option (List Char)
  | [] => ([], none)
  | '=' :: rest => ([], some rest)
  | c :: rest => let (name, value) := cutAtEquals rest; (c :: name, value)

/-- What a token is. -/
def ofText (token : String) : OptionToken :=
  if token = endText then endMark
  else match token.toList with
    | '-' :: '-' :: rest =>
      match cutAtEquals rest with
      | (name, some value) =>
        named (String.ofList name) (String.ofList ('-' :: '-' :: name)) (some (String.ofList value))
      | (name, none) => named (String.ofList name) token none
    | '-' :: rest => named (String.ofList rest) token none
    | _ => plain

end OptionToken

namespace OptionReader

/-- A reader in front of the first token. -/
def start (tokens : List String) : OptionReader := { tokens }

/-- The tokens not read yet. -/
def rest (r : OptionReader) : List String := r.tokens.drop r.position

/-- The next token, if there is one. -/
def peek (r : OptionReader) : Option String := r.tokens[r.position]?

/-- The last option as fault messages show it. -/
def shownForm (r : OptionReader) : String := r.form.getD "None"

/-- The name of the next option and the reader after it; no name when the
options have ended. The end mark is consumed. -/
def advance (r : OptionReader) : Option String × OptionReader :=
  let r := { r with isPutBack := false }
  match r.peek with
  | none => (none, r)
  | some token =>
    let after := { r with optionPosition := r.position, position := r.position + 1,
                          inlineValue := none }
    match OptionToken.ofText token with
    | .plain => (none, r)
    | .endMark => (none, { after with form := some OptionToken.endText })
    | .named name form value => (some name, { after with form := some form, inlineValue := value })

/-- The name of the next option, or nothing when the options have ended. -/
def next : Reading (Option String) := fun r =>
  let (name, r) := r.advance
  (.ok name, r)

/-- Puts the last option back. Only one option at a time can be put back. -/
def putBack : Reading Unit := fun r =>
  if r.isPutBack then (.error (.misuse .secondPutBack), r)
  else (.ok (), { r with position := r.optionPosition, inlineValue := none, isPutBack := true })

/-- The value of the last option. -/
def value (description : String) : Reading String := fun r =>
  match r.inlineValue with
  | some text => (.ok text, { r with inlineValue := none })
  | none =>
    match r.peek with
    | none => (.error (.options (.valueMissing description r.shownForm)), r)
    | some token =>
      if token = OptionToken.endText then
        (.error (.options (.valueMissing description r.shownForm)), r)
      else (.ok token, { r with position := r.position + 1 })

/-- The value of the last option as a decimal number. -/
def integer (description : String) : Reading Int := do
  let text ← value description
  match Text.integer? text with
  | some n => return n
  | none =>
    let r ← get
    throw (.options (.notDecimal description r.shownForm text))

/-- The value of a switch. A token that is not `true` or `false` is left alone
and the switch has the value `default`. -/
def switch (default : Bool) : Reading Bool := fun r =>
  match r.inlineValue with
  | some "true" => (.ok true, { r with inlineValue := none })
  | some "false" => (.ok false, { r with inlineValue := none })
  | some text =>
    (.error (.options (.notBoolean r.shownForm text)), { r with inlineValue := none })
  | none =>
    match r.peek with
    | some "true" => (.ok true, { r with position := r.position + 1 })
    | some "false" => (.ok false, { r with position := r.position + 1 })
    | _ => (.ok default, r)

/-- Whether the token just read is the end mark. -/
def isAfterEndMark (r : OptionReader) : Bool :=
  0 < r.position && r.tokens[r.position - 1]? == some OptionToken.endText

/-- The tokens after the options. An option that nobody has read is a fault. -/
def remaining : Reading (List String) := fun r =>
  match r.peek with
  | none => (.ok [], r)
  | some token =>
    if token.toList.head? = some '-' ∧ token ≠ OptionToken.endText ∧ r.isAfterEndMark = false then
      (.error (.options (.leftOver token)), r)
    else (.ok r.rest, r)

end OptionReader

namespace Reading

/-- A step whose fault ends the whole reading. -/
def commit {α : Type} (step : Reading α) (r : OptionReader) : Except Fault (α × OptionReader) :=
  match step r with
  | (.ok a, r) => .ok (a, r)
  | (.error fault, _) => .error fault

end Reading
end PackageSigning
