import PackageSigning.Fault
import PackageSigning.Text.Characters

/-!
# Marked-up text

Text to be shown may hold tags such as `[bold]`, which set a style up to the tag
that closes it. Styles are not shown here, so that tags only vanish. A backslash
before a tag makes plain text of it; `escape` puts them in front of everything
that would be a tag.

What a console makes of a line is up to the platform. `shown` is a console that knows
tags and their closing by name, and no emoji, links or other ways to write one style.
-/

namespace PackageSigning.Markup

/-- Backslashes. -/
def slashes (n : Nat) : List Char := List.replicate n '\\'

/-- Whether a character can come right after the bracket that opens a tag. -/
def isTagStart (c : Char) : Bool := c.isLower || c = '#' || c = '/' || c = '@'

/-- The characters up to a closing bracket, if no other bracket opens before it. -/
def upToClosing : List Char → Option (List Char)
  | [] => none
  | '[' :: _ => none
  | ']' :: _ => some []
  | c :: rest => (upToClosing rest).map (c :: ·)

/-- What a tag holds, if the characters after an opening bracket make it one. -/
def inside? : List Char → Option (List Char)
  | [] => none
  | c :: rest => if isTagStart c then (upToClosing rest).map (c :: ·) else none

/-- Escapes what comes after some backslashes. One backslash at the very end is doubled. -/
def escapeFrom : Nat → List Char → List Char
  | n, [] => slashes (if n = 1 then 2 else n)
  | n, '\\' :: rest => escapeFrom (n + 1) rest
  | n, '[' :: rest =>
    slashes (if (inside? rest).isSome then 2 * n + 1 else n) ++ '[' :: escapeFrom 0 rest
  | n, c :: rest => slashes n ++ c :: escapeFrom 0 rest

/-- The text with backslashes before everything that would be a tag. -/
def escape (text : String) : String := String.ofList (escapeFrom 0 text.toList)

/-- A piece of marked-up text. -/
inductive Piece where
  | plain (text : List Char)
  | tag (inside : List Char)
  deriving DecidableEq, Repr

/-- The pieces of what comes after some backslashes; the first `skipped` characters belong
to a tag that has been seen. An odd number of backslashes makes plain text of a tag, and
each pair of them stands for one. A bracket that opens no tag takes one backslash away. -/
def pieces : Nat → Nat → List Char → List Piece
  | _, n, [] => [.plain (slashes n)]
  | skipped + 1, n, _ :: rest => pieces skipped n rest
  | 0, n, '\\' :: rest => pieces 0 (n + 1) rest
  | 0, n, '[' :: rest =>
    match inside? rest with
    | some inside =>
      .plain (slashes (n / 2)) ::
        (if n % 2 = 1 then .plain ('[' :: inside ++ [']']) else .tag inside) ::
        pieces (inside.length + 1) 0 rest
    | none => .plain (slashes (n - 1) ++ ['[']) :: pieces 0 0 rest
  | 0, n, c :: rest => .plain (slashes n ++ [c]) :: pieces 0 0 rest

/-- The name of a style, in lower case and without blanks around it. -/
def styleName (cs : List Char) : List Char := (Text.stripped cs).map Char.toLower

/-- The open styles after a closing tag with a name, or without one for the last style. -/
def close (name : List Char) (styles : List (List Char)) : Option (List (List Char)) :=
  if name.isEmpty then
    if styles.isEmpty then none else some styles.tail
  else if styles.contains name then some (styles.erase name) else none

/-- The text of the pieces after some styles, the last of them in front, were opened. -/
def textFrom : List (List Char) → List Piece → Except Mishap (List Char)
  | _, [] => .ok []
  | styles, .plain text :: rest => (text ++ ·) <$> textFrom styles rest
  | styles, .tag inside :: rest =>
    match inside.takeWhile (· != '=') with
    | '/' :: name =>
      match close (styleName name) styles with
      | some styles => textFrom styles rest
      | none => .error .badMarkup
    | name => textFrom (styleName name :: styles) rest

/-- Control characters that are never shown. -/
def isDropped (c : Char) : Bool := [7, 8, 11, 12, 13].contains c.toNat

/-- Blanks up to the next multiple of eight columns for each tab; `column` is where the
text starts. -/
def expandTabs : Nat → List Char → List Char
  | _, [] => []
  | column, '\t' :: rest =>
    let width := 8 - column % 8
    List.replicate width ' ' ++ expandTabs (column + width) rest
  | _, '\n' :: rest => '\n' :: expandTabs 0 rest
  | column, c :: rest => c :: expandTabs (column + 1) rest

/-- Marked-up text as shown. -/
def shown (text : String) : Except Mishap String := do
  let cs ← textFrom [] (pieces 0 0 text.toList)
  return String.ofList (expandTabs 0 (cs.filter (!isDropped ·)))

end PackageSigning.Markup
