import PackageSigning.Bytes
import PackageSigning.Fault

/-!
# What the program runs on

Some answers are not the program's own. What an encoding makes of a text, which numbers a
derivation is refused for, how deep nested data may be and how marked-up text looks in the end is
up to the libraries below it, to the interpreter, and to the versions of both. All of that is a
`Platform`, which what follows takes as given; what is proved holds on every one of them.

There are three laws. Data that is nested four levels deep, as the documents are that the program
writes, can be read and written anywhere (`Platform.four_le_nesting`); no key is derived in more
iterations than a machine word counts (`Platform.fits_word`); and a line of printable ASCII
characters that opens no tag can be shown (`Platform.shows_plain`).
-/

namespace PackageSigning

/-- What is done with nested JSON values. -/
inductive NestedTask where
  | read
  /-- Writing a value without blanks. -/
  | write
  /-- Writing a value line by line. -/
  | layOut
  /-- Showing a value as text. -/
  | display
  deriving DecidableEq, Repr

/-- A derivation of a key from a password, with the numbers that it may be refused for. -/
inductive DerivationRequest where
  /-- PBKDF2 that the program asks for itself. -/
  | direct (length iterations : Nat)
  /-- PBKDF2 of sealed data. -/
  | pbkdf2 (iterations : Nat)
  | scrypt (cost blockSize parallel : Nat)
  /-- The derivation of PKCS #12, for sealed data and for check values. -/
  | pkcs12 (iterations : Nat)
  /-- One digest, iterated. -/
  | digested (iterations : Nat)
  deriving DecidableEq, Repr

/-- The libraries and the interpreter that the program runs on. -/
class Platform where
  /-- The bytes of a text in an encoding of which only the name is known here. -/
  encode : String → String → Except Mishap Bytes
  /-- The text of bytes in such an encoding. -/
  decode : String → Bytes → Except Mishap String
  /-- Why a derivation is not carried out; nothing if it is. -/
  refusal : DerivationRequest → Option Mishap
  /-- How deep JSON values may be nested. -/
  nesting : NestedTask → Nat
  /-- Whether the parameters of an encryption scheme are nested too deep to be read. -/
  overflows : Bytes → Bool
  /-- A marked-up line as the console shows it. -/
  rendered : String → Except Mishap String
  four_le_nesting : ∀ task, 4 ≤ nesting task
  fits_word : ∀ {length iterations}, refusal (.direct length iterations) = none →
    iterations < UInt64.size
  shows_plain : ∀ {line : String},
    (∀ c ∈ line.toList, 32 ≤ c.toNat ∧ c.toNat < 127 ∧ c ≠ '[') → ∃ text, rendered line = .ok text

end PackageSigning
