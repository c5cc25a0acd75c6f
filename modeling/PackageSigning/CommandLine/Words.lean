/-!
# Words of a command line

A command line has options of its own, which a `WordSyntax` lists. An option with a
value takes the part after `=`, else the next word, whatever it looks like. Several
options of one letter can share a dash. The word `--` ends the options and is
dropped. Other words, and unknown options where they are allowed, are kept.
-/

namespace PackageSigning.CommandLine

/-- The options of a command line. -/
structure WordSyntax where
  /-- Options that are given or not. -/
  flags : List String
  /-- Options with a value. -/
  valued : List String
  /-- Options of one letter, each with the flag that it stands for. -/
  letters : List (Char × String)
  /-- Whether unknown options are kept like other words. -/
  keepsUnknown : Bool
  /-- Whether the first word that is no option ends the options. -/
  stopsAtWord : Bool
  deriving DecidableEq, Repr

/-- Options that cannot be read. -/
inductive WordProblem where
  | valueMissing (option : String)
  | valueRefused (option : String)
  | unknown (option : String)
  deriving DecidableEq, Repr

/-- What a word is. -/
inductive Word where
  /-- The mark that ends the options. -/
  | endMark
  | plain
  /-- Flags, and what is kept of the word. -/
  | flags (names : List String) (kept : Option String)
  /-- An option with a value, which may be in the next word. -/
  | valued (name : String) (value : Option String)
  deriving DecidableEq, Repr

/-- An option that was given, with its value if it has one. -/
structure GivenOption where
  name : String
  value : Option String
  deriving DecidableEq, Repr

/-- A command line taken apart. -/
structure Words where
  /-- The options, in the order in which they were given. -/
  options : List GivenOption
  /-- The words that were kept. -/
  kept : List String
  deriving DecidableEq, Repr

namespace Words

/-- The words of a command line with options in front, and a word that is kept. -/
def after (options : List GivenOption) (kept : Option String) (w : Words) : Words :=
  ⟨options ++ w.options, kept.toList ++ w.kept⟩

/-- The last value that was given for an option. -/
def valueOf? (w : Words) (name : String) : Option String :=
  (w.options.reverse.find? (·.name == name)).bind (·.value)

end Words

namespace WordSyntax

/-- The parts of a word before and after the first equals sign. -/
def cut (word : String) : String × Option String :=
  let cs := word.toList
  let name := String.ofList (cs.takeWhile (· != '='))
  match cs.dropWhile (· != '=') with
  | [] => (name, none)
  | _ :: value => (name, some (String.ofList value))

/-- What letters after one dash are. Letters without a meaning stay in a word of their
own where unknown options are kept. -/
def lettersAs (syn : WordSyntax) (letters : List Char) : Except WordProblem Word :=
  let names := letters.filterMap (syn.letters.lookup ·)
  match letters.filter fun c => (syn.letters.lookup c).isNone with
  | [] => .ok (.flags names none)
  | first :: rest =>
    if syn.keepsUnknown then .ok (.flags names (some (String.ofList ('-' :: first :: rest))))
    else .error (.unknown (String.ofList ['-', first]))

/-- What a word is that looks like an option. -/
def optionAs (syn : WordSyntax) (word : String) : Except WordProblem Word :=
  let (name, value) := cut word
  if syn.valued.contains name then .ok (.valued name value)
  else if syn.flags.contains name then
    if value.isSome then .error (.valueRefused name) else .ok (.flags [name] none)
  else match word.toList with
    | '-' :: '-' :: _ =>
      if syn.keepsUnknown then .ok (.flags [] (some word)) else .error (.unknown name)
    | cs => syn.lettersAs (cs.drop 1)

/-- What a word is. A dash alone is no option. -/
def wordAs (syn : WordSyntax) (word : String) : Except WordProblem Word :=
  if word = "--" then .ok .endMark
  else match word.toList with
    | '-' :: _ :: _ => syn.optionAs word
    | _ => .ok .plain

/-- Takes a command line apart. The first problem counts. -/
def read (syn : WordSyntax) : List String → Except WordProblem Words
  | [] => .ok ⟨[], []⟩
  | word :: rest => do
    match ← syn.wordAs word with
    | .endMark => return ⟨[], rest⟩
    | .plain =>
      if syn.stopsAtWord then return ⟨[], word :: rest⟩
      else return (← read syn rest).after [] (some word)
    | .flags names kept => return (← read syn rest).after (names.map (⟨·, none⟩)) kept
    | .valued name (some value) => return (← read syn rest).after [⟨name, some value⟩] none
    | .valued name none =>
      match rest with
      | [] => throw (.valueMissing name)
      | value :: rest => return (← read syn rest).after [⟨name, some value⟩] none

end WordSyntax
end PackageSigning.CommandLine
