import PackageSigning.Json.Value
import PackageSigning.Text.Encoding

/-!
# Reading JSON

One value with blanks around it. Beyond the standard, the words `NaN`,
`Infinity` and `-Infinity` are numbers. Whole numbers have at most
`Text.maxDigits` digits, and values are nested only as deep as the platform allows.
-/

namespace PackageSigning

/-- Why a text is no JSON value. -/
inductive JsonRefusal where
  | malformed
  | tooDeep
  deriving DecidableEq, Repr

namespace JsonReading

/-- Something that was read, and the text behind it. -/
abbrev Front (α : Type) := α × List Char

/-- The same text behind another value. -/
def Front.map (f : α → β) (front : Front α) : Front β := (f front.1, front.2)

/-- The text behind blanks. -/
def skip : List Char → List Char
  | ' ' :: rest | '\t' :: rest | '\n' :: rest | '\r' :: rest => skip rest
  | cs => cs

/-- The value of four hexadecimal digits. -/
def unit? (a b c d : Char) : Option Nat := do
  return (((← Bytes.hexValue? a) * 16 + (← Bytes.hexValue? b)) * 16 + (← Bytes.hexValue? c)) * 16 +
    (← Bytes.hexValue? d)

/-- What a letter stands for behind a backslash. -/
def escaped? : Char → Option Nat
  | '"' => some 34
  | '\\' => some 92
  | '/' => some 47
  | 'b' => some 8
  | 'f' => some 12
  | 'n' => some 10
  | 'r' => some 13
  | 't' => some 9
  | _ => none

/-- The code points and 16-bit units of a string, up to its closing quote. -/
def units : List Char → Except JsonRefusal (Front (List Nat))
  | '"' :: rest => .ok ([], rest)
  | '\\' :: 'u' :: a :: b :: c :: d :: rest =>
    match unit? a b c d with
    | some n => Front.map (n :: ·) <$> units rest
    | none => .error .malformed
  | '\\' :: c :: rest =>
    match escaped? c with
    | some n => Front.map (n :: ·) <$> units rest
    | none => .error .malformed
  | c :: rest =>
    if c.toNat < 32 then .error .malformed
    else Front.map (c.toNat :: ·) <$> units rest
  | [] => .error .malformed

/-- Joins the two halves of a character; a half alone is kept. -/
def joined : List Nat → List Nat
  | high :: low :: rest =>
    if 0xd800 ≤ high ∧ high < 0xdc00 ∧ 0xdc00 ≤ low ∧ low < 0xe000 then
      (0x10000 + (high - 0xd800) * 0x400 + (low - 0xdc00)) :: joined rest
    else high :: joined (low :: rest)
  | [n] => [n]
  | [] => []

/-- A string behind its opening quote. -/
def string (cs : List Char) : Except JsonRefusal (Front JsonText) := do
  let (ns, rest) ← units cs
  return (⟨joined ns⟩, rest)

/-- Whether a character is one of the ten ASCII digits. -/
def isDigit (c : Char) : Bool := '0' ≤ c && c ≤ '9'

/-- The values of digits. -/
def digitsOf (cs : List Char) : List Nat := cs.map fun c => c.toNat - 48

/-- The digits of a whole part, which has no needless zero in front, and the rest. -/
def wholePart : List Char → Option (List Char × List Char)
  | '0' :: rest => some (['0'], rest)
  | cs => if (cs.takeWhile isDigit).isEmpty then none else some (cs.takeWhile isDigit, cs.dropWhile isDigit)

/-- The digits behind a decimal point, if there are any, and the rest. -/
def fractionPart : List Char → List Char × List Char
  | '.' :: rest =>
    if (rest.takeWhile isDigit).isEmpty then ([], '.' :: rest)
    else (rest.takeWhile isDigit, rest.dropWhile isDigit)
  | cs => ([], cs)

/-- A power of ten, if there is one, and the rest. -/
def powerPart (cs : List Char) : Option Int × List Char :=
  match cs with
  | c :: rest =>
    if c = 'e' ∨ c = 'E' then
      let (sign, digits) : Int × List Char := match rest with
        | '-' :: ds => (-1, ds)
        | '+' :: ds => (1, ds)
        | ds => (1, ds)
      if (digits.takeWhile isDigit).isEmpty then (none, cs)
      else
        let n := Text.ofDigits (digitsOf (digits.takeWhile isDigit))
        (some (sign * n), digits.dropWhile isDigit)
    else (none, cs)
  | [] => (none, [])

/-- A number behind its sign. -/
def unsigned ( isNegative : Bool) (cs : List Char) : Except JsonRefusal (Front JsonValue) :=
  match wholePart cs with
  | none => .error .malformed
  | some (digits, rest) =>
    let (fraction, rest) := fractionPart rest
    let (power, rest) := powerPart rest
    if fraction.isEmpty ∧ power.isNone then
      if Text.maxDigits < digits.length then .error .malformed
      else
        let n : Int := Text.ofDigits (digitsOf digits)
        .ok (.integer (if isNegative then -n else n), rest)
    else
      let n := Text.ofDigits (digitsOf (digits ++ fraction))
      .ok (.float (.ofDecimal isNegative n (power.getD 0 - fraction.length)), rest)

/-- Values that are spelled as words. -/
def words : List (List Char × JsonValue) :=
  [("null".toList, .null), ("true".toList, .bool true), ("false".toList, .bool false),
   ("NaN".toList, .float .notANumber), ("Infinity".toList, .float (.infinite false)),
   ("-Infinity".toList, .float (.infinite true))]

/-- A word or a number. -/
def scalar (cs : List Char) : Except JsonRefusal (Front JsonValue) :=
  match words.find? fun (word, _) => word.isPrefixOf cs with
  | some (word, v) => .ok (v, cs.drop word.length)
  | none =>
    match cs with
    | '-' :: rest => unsigned true rest
    | _ => unsigned false cs

mutual

/-- A value, with fuel for the rest of the text and the depth that is left. -/
def value : Nat → Nat → List Char → Except JsonRefusal (Front JsonValue)
  | 0, _, _ => .error .malformed
  | fuel + 1, depth, cs =>
    match cs with
    | '"' :: rest => Front.map .text <$> string rest
    | '[' :: rest =>
      if depth = 0 then .error .tooDeep
      else match skip rest with
        | ']' :: rest => .ok (.list [], rest)
        | rest => Front.map .list <$> items fuel (depth - 1) rest
    | '\x7b' :: rest =>
      if depth = 0 then .error .tooDeep
      else match skip rest with
        | '\x7d' :: rest => .ok (.object [], rest)
        | rest => Front.map .ofMembers <$> members fuel (depth - 1) rest
    | cs => scalar cs

/-- The values of a list, up to its closing bracket. -/
def items : Nat → Nat → List Char → Except JsonRefusal (Front (List JsonValue))
  | 0, _, _ => .error .malformed
  | fuel + 1, depth, cs => do
    let (v, rest) ← value fuel depth cs
    match skip rest with
    | ']' :: rest => return ([v], rest)
    | ',' :: rest =>
      let (vs, rest) ← items fuel depth (skip rest)
      return (v :: vs, rest)
    | _ => .error .malformed

/-- The members of an object, up to its closing brace. -/
def members : Nat → Nat → List Char → Except JsonRefusal (Front (List (JsonText × JsonValue)))
  | 0, _, _ => .error .malformed
  | fuel + 1, depth, cs =>
    match cs with
    | '"' :: rest => do
      let (name, rest) ← string rest
      match skip rest with
      | ':' :: rest =>
        let (v, rest) ← value fuel depth (skip rest)
        match skip rest with
        | '\x7d' :: rest => return ([(name, v)], rest)
        | ',' :: rest =>
          let (ms, rest) ← members fuel depth (skip rest)
          return ((name, v) :: ms, rest)
        | _ => .error .malformed
      | _ => .error .malformed
    | _ => .error .malformed

end

/-- The value of a text. -/
def ofChars [Platform] (cs : List Char) : Except JsonRefusal JsonValue := do
  let (v, rest) ← value (2 * cs.length + 2) (Platform.nesting .read) (skip cs)
  if (skip rest).isEmpty then return v else throw .malformed

/-- The value of a text in UTF-8. -/
def ofBytes [Platform] (b : Bytes) : Except JsonRefusal JsonValue :=
  match Text.Encoding.decodeUtf8 b with
  | some cs => ofChars cs
  | none => .error .malformed

end JsonReading
end PackageSigning
