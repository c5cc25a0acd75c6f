import PackageSigning.Fault
import PackageSigning.Text.Base64
import PackageSigning.Text.Characters
import PackageSigning.Text.Encoding

/-!
# PEM armour

Binary data as text: a line with a label, base 64, and a closing line.

`Pem.blocks?` reads every block of a text and refuses the whole text when one
of them is broken; certificates and stored keys are read this way.
`Pem.unarmor` takes the first block of a key file line by line and puts up with
much more; bytes without any armour are their own content.
-/

namespace PackageSigning

/-- A block of armoured data. -/
structure PemBlock where
  label : String
  headers : List (String × String)
  contents : Bytes
  deriving DecidableEq, Repr

namespace Pem

/-- The opening of a block, up to its label. -/
def opening : Bytes := Bytes.ofAscii "-----BEGIN "

/-- The closing of a block, up to its label. -/
def closing : Bytes := Bytes.ofAscii "-----END "

/-- What ends a label. -/
def dashes : Bytes := Bytes.ofAscii "-----"

/-- What stands before a marker and what stands after it. -/
def splitAt? (marker : Bytes) : Bytes → Option (Bytes × Bytes)
  | [] => if marker.isEmpty then some ([], []) else none
  | x :: rest =>
    if marker.isPrefixOf (x :: rest) then some ([], (x :: rest).drop marker.length)
    else (splitAt? marker rest).map fun (before, after) => (x :: before, after)

/-- The rest after blanks and line ends. -/
def dropBlanks (b : Bytes) : Bytes := b.dropWhile fun x => x = 32 || x = 9 || x = 10 || x = 13

/-- The four parts of a block as they stand. -/
structure RawBlock where
  opened : Bytes
  headers : Bytes
  body : Bytes
  closed : Bytes

/-- The headers and the data of a body: an empty line divides them. -/
def divideBody (b : Bytes) : Bytes × Bytes :=
  ((splitAt? [10, 10] b).orElse fun _ => splitAt? [13, 10, 13, 10] b).getD ([], b)

/-- The next block and what follows it. -/
def nextBlock? (b : Bytes) : Option (RawBlock × Bytes) := do
  let (_, b) ← splitAt? opening b
  let (opened, b) ← splitAt? dashes b
  let (body, b) ← splitAt? closing (dropBlanks b)
  let (closed, b) ← splitAt? dashes b
  let (headers, data) := divideBody body
  return (⟨opened, headers, data, closed⟩, dropBlanks b)

/-- Every block, with fuel for as many as there can be. -/
def rawBlocks : Nat → Bytes → List RawBlock
  | 0, _ => []
  | fuel + 1, b =>
    match nextBlock? b with
    | none => []
    | some (block, rest) => block :: rawBlocks fuel rest

/-- The lines of a text, cut at line feeds, a carriage return before one dropped. -/
def textLines (current : List Char) : List Char → List (List Char)
  | [] => if current.isEmpty then [] else [current.reverse]
  | '\n' :: rest =>
    (match current with
      | '\r' :: before => before.reverse
      | _ => current.reverse) :: textLines [] rest
  | c :: rest => textLines (c :: current) rest

/-- A line without the white space at its end. -/
def trimEnd (cs : List Char) : List Char := (cs.reverse.dropWhile Text.isPadding).reverse

/-- A text without the white space around it. -/
def trim (cs : List Char) : List Char := trimEnd (cs.dropWhile Text.isPadding)

/-- The name and the value of a header line. -/
def header? (line : List Char) : Option (String × String) :=
  match line.dropWhile (· != ':') with
  | [] => none
  | _ :: value =>
    if value.contains ':' then none
    else some (String.ofList (trim (line.takeWhile (· != ':'))), String.ofList (trim value))

/-- The block that four parts make. -/
def block? (raw : RawBlock) : Option PemBlock := do
  let label ← Text.Encoding.decodeUtf8 raw.opened
  let closed ← Text.Encoding.decodeUtf8 raw.closed
  if label.isEmpty || label != closed then none
  else
    let body ← Text.Encoding.decodeUtf8 raw.body
    let contents ← Text.Base64.decode?
      (Bytes.ofText (String.ofList ((textLines [] body).flatMap trimEnd)))
    let headers ← (textLines [] (← Text.Encoding.decodeUtf8 raw.headers)).mapM header?
    return ⟨String.ofList label, headers, contents⟩

/-- Every block of a text, or nothing if one of them is broken. -/
def blocks? (b : Bytes) : Option (List PemBlock) := (rawBlocks b.length b).mapM block?

/-- Whether bytes hold the start of armour. -/
def isArmoured (b : Bytes) : Bool :=
  Bytes.includes (Bytes.ofAscii "-----BEGIN") b || Bytes.includes (Bytes.ofAscii "---- BEGIN") b

/-- The lines of bytes, which line feeds and carriage returns end. -/
def byteLines (current : Bytes) : Bytes → List Bytes
  | [] => if current.isEmpty then [] else [current.reverse]
  | 13 :: 10 :: rest => current.reverse :: byteLines [] rest
  | x :: rest =>
    if x = 10 || x = 13 then current.reverse :: byteLines [] rest
    else byteLines (x :: current) rest

/-- A character of a label: a capital, a digit or a space. -/
def isLabelByte (x : UInt8) : Bool := (65 ≤ x && x ≤ 90) || (48 ≤ x && x ≤ 57) || x = 32

/-- Whether a line opens a block. A space may divide the label from its dashes,
and then four of them do. -/
def opensBlock (line : Bytes) : Bool :=
  let begins := Bytes.ofAscii "BEGIN "
  let fourDashes := Bytes.ofAscii "----"
  let tail :=
    if (dashes ++ begins).isPrefixOf line then some (line.drop 11)
    else if (fourDashes ++ [32] ++ begins).isPrefixOf line then some (line.drop 11)
    else none
  match tail with
  | none => false
  | some tail =>
    let label := tail.takeWhile isLabelByte
    let after := tail.dropWhile isLabelByte
    (!label.isEmpty && dashes.isPrefixOf after) ||
      (2 ≤ label.length && label.getLast? == some 32 && fourDashes.isPrefixOf after)

/-- Whether a line ends a block. -/
def closesBlock (line : Bytes) : Bool :=
  dashes.isPrefixOf line || (Bytes.ofAscii "---- ").isPrefixOf line

/-- The characters up to the line that ends a block. -/
def bodyOf? : List Bytes → Option Bytes
  | [] => none
  | line :: rest => if closesBlock line then some [] else (line ++ ·) <$> bodyOf? rest

/-- Past the header lines, which hold a colon and are ASCII. -/
def pastHeaders? : List Bytes → Option (List Bytes)
  | [] => some []
  | line :: rest =>
    if line.contains 58 then
      if line.all (· < 128) then pastHeaders? rest else none
    else some (line :: rest)

/-- The content of the first block. -/
def firstContent? (b : Bytes) : Option Bytes := do
  let lines := (byteLines [] b).filter (!·.isEmpty)
  let inside := (lines.dropWhile (!opensBlock ·)).drop 1
  Text.Base64.decodeLoose? (← bodyOf? (← pastHeaders? inside))

/-- The content of armoured bytes; other bytes as they are. -/
def unarmor (b : Bytes) : Except Fault Bytes :=
  if isArmoured b then
    match firstContent? b with
    | some contents => .ok contents
    | none => .error (.parse .armour)
  else .ok b

/-- Lines of 64 characters. -/
def wrap (b : Bytes) : Bytes := (Bytes.blocks 64 b).flatMap fun line => line ++ [10]

/-- A block as text. -/
def encode (label : String) (contents : Bytes) : String :=
  Bytes.toLatin <|
    opening ++ Bytes.ofAscii label ++ dashes ++ [10] ++ wrap (Text.Base64.encode contents) ++
      closing ++ Bytes.ofAscii label ++ dashes ++ [10]

end Pem
end PackageSigning
