import PackageSigning.Text.Printable

/-!
# Characters, lines, numbers and quotes

The classes of characters that the program tells apart differ: the information separators 1C to
1F are blank but do not pad a number, and the ideographic space is blank but ends no line.

`lines` cuts a text at every line end. A carriage return and the line feed after it are one line
end; a line end at the very end opens no further line. `plainLineEnds` is how text is read from
the input.

A decimal number (`integer?`) is padding, at most one sign, digits of any script with single
underscores between digits, and padding. At most `maxDigits` digits are read.

A text is shown between single quotes (`quoted`), or between double quotes when it holds a single
quote and no double quote. Inside, the backslash and the quote in use are written with a backslash
before them, line feed, carriage return and tabulator as letters, and every other character that
is not printable as its code point in two, four or eight hexadecimal digits.
-/

namespace PackageSigning.Text

/-! ## White space and line ends -/

/-- The white space of Unicode 14, the information separators included. -/
def isBlank (c : Char) : Bool :=
  let n := c.toNat
  (9 ≤ n && n ≤ 13) || (28 ≤ n && n ≤ 32) || n == 0x85 || n == 0xa0 || n == 0x1680 ||
    (0x2000 ≤ n && n ≤ 0x200a) || n == 0x2028 || n == 0x2029 || n == 0x202f ||
    n == 0x205f || n == 0x3000

/-- The white space allowed around a number: the six ASCII blanks, and every
blank beyond ASCII. -/
def isPadding (c : Char) : Bool :=
  let n := c.toNat
  n == 32 || (9 ≤ n && n ≤ 13) || (128 ≤ n && isBlank c)

/-- The characters without the blanks around them. -/
def stripped (cs : List Char) : List Char :=
  ((cs.dropWhile isBlank).reverse.dropWhile isBlank).reverse

/-- A character that ends a line of text. -/
def isLineEnd (c : Char) : Bool :=
  let n := c.toNat
  (10 ≤ n && n ≤ 13) || (28 ≤ n && n ≤ 30) || n == 0x85 || n == 0x2028 || n == 0x2029

/-! ## Lines -/

/-- The lines of `text`, where `current` holds the characters of the open line,
last one first. -/
def linesFrom (current : List Char) : List Char → List (List Char)
  | [] => if current.isEmpty then [] else [current.reverse]
  | '\r' :: '\n' :: rest => current.reverse :: linesFrom [] rest
  | c :: rest =>
    if isLineEnd c then current.reverse :: linesFrom [] rest
    else linesFrom (c :: current) rest

/-- The lines of a text without their line ends. -/
def lines (text : String) : List String := (linesFrom [] text.toList).map String.ofList

/-- The text without the line feeds and carriage returns at its end. -/
def dropLineFeeds (text : String) : String :=
  String.ofList ((text.toList.reverse.dropWhile fun c => c == '\n' || c == '\r').reverse)

/-- The characters with one line feed for every line end of any system. -/
def plainLineEnds : List Char → List Char
  | [] => []
  | '\r' :: '\n' :: rest => '\n' :: plainLineEnds rest
  | '\r' :: rest => '\n' :: plainLineEnds rest
  | c :: rest => c :: plainLineEnds rest

/-! ## Whole numbers -/

/-- The code point of every zero digit, in order. Each of the scripts of Unicode 14 that write
decimal numbers has ten consecutive code points for its digits. -/
def zeroDigits : List Nat :=
  [0x30, 0x660, 0x6f0, 0x7c0, 0x966, 0x9e6, 0xa66, 0xae6, 0xb66,
   0xbe6, 0xc66, 0xce6, 0xd66, 0xde6, 0xe50, 0xed0, 0xf20, 0x1040,
   0x1090, 0x17e0, 0x1810, 0x1946, 0x19d0, 0x1a80, 0x1a90, 0x1b50, 0x1bb0,
   0x1c40, 0x1c50, 0xa620, 0xa8d0, 0xa900, 0xa9d0, 0xa9f0, 0xaa50, 0xabf0,
   0xff10, 0x104a0, 0x10d30, 0x11066, 0x110f0, 0x11136, 0x111d0, 0x112f0, 0x11450,
   0x114d0, 0x11650, 0x116c0, 0x11730, 0x118e0, 0x11950, 0x11c50, 0x11d50, 0x11da0,
   0x16a60, 0x16ac0, 0x16b50, 0x1d7ce, 0x1d7d8, 0x1d7e2, 0x1d7ec, 0x1d7f6, 0x1e140,
   0x1e2f0, 0x1e950, 0x1fbf0]

/-- The value of a decimal digit of any script. -/
def digitValue? (c : Char) : Option Nat :=
  (zeroDigits.find? fun z => z ≤ c.toNat && c.toNat < z + 10).map (c.toNat - ·)

/-- The longest number, in digits, that is read from or written to text. -/
def maxDigits : Nat := 4300

/-- Digit values of a run of digits in which an underscore stands only between
two digits; `afterDigit` tells whether a digit came last. -/
def digitRun? (afterDigit : Bool) : List Char → Option (List Nat)
  | [] => if afterDigit then some [] else none
  | '_' :: rest => if afterDigit then digitRun? false rest else none
  | c :: rest => do
    let d ← digitValue? c
    let tail ← digitRun? true rest
    return d :: tail

/-- The number that decimal digits spell, first digit most significant. -/
def ofDigits (digits : List Nat) : Nat := digits.foldl (fun n d => n * 10 + d) 0

/-- The digits of a number without sign. -/
def natural? (cs : List Char) : Option Nat := do
  let digits ← digitRun? false cs
  if digits.length ≤ maxDigits then some (ofDigits digits) else none

/-- The text without the padding at both ends. -/
def trimPadding (cs : List Char) : List Char :=
  ((cs.dropWhile isPadding).reverse.dropWhile isPadding).reverse

/-- The whole number that a text spells, if it spells one. -/
def integer? (text : String) : Option Int :=
  match trimPadding text.toList with
  | '+' :: rest => (natural? rest).map Int.ofNat
  | '-' :: rest => (natural? rest).map fun n => - Int.ofNat n
  | rest => (natural? rest).map Int.ofNat

/-! ## Quotes -/

/-- The last `width` hexadecimal digits of `n`. -/
def hexDigits (width n : Nat) : List Char :=
  let digits := Nat.toDigits 16 n
  List.replicate (width - digits.length) '0' ++ digits

/-- The form of one character between quotes `quote`. -/
def quotedChar (quote c : Char) : List Char :=
  if c = quote ∨ c = '\\' then ['\\', c]
  else if c = '\n' then ['\\', 'n']
  else if c = '\r' then ['\\', 'r']
  else if c = '\t' then ['\\', 't']
  else if isPrintable c then [c]
  else if c.toNat < 0x100 then '\\' :: 'x' :: hexDigits 2 c.toNat
  else if c.toNat < 0x10000 then '\\' :: 'u' :: hexDigits 4 c.toNat
  else '\\' :: 'U' :: hexDigits 8 c.toNat

/-- The quote that a text is shown between. -/
def quoteFor (cs : List Char) : Char :=
  if cs.contains '\'' && !cs.contains '"' then '"' else '\''

/-- The text in quotes. -/
def quoted (text : String) : String :=
  let cs := text.toList
  let quote := quoteFor cs
  String.ofList (quote :: cs.flatMap (quotedChar quote) ++ [quote])

/-- Texts in quotes, separated by commas, in square brackets. -/
def quotedList (texts : List String) : String :=
  "[" ++ ", ".intercalate (texts.map quoted) ++ "]"

end PackageSigning.Text
