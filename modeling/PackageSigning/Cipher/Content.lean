import PackageSigning.Cipher.Aes
import PackageSigning.Cipher.Chaining
import PackageSigning.Cipher.Des
import PackageSigning.Cipher.Rc2
import PackageSigning.Cipher.Rc4

/-!
# Ciphers of stored keys

The ciphers that stored keys are encrypted with: block ciphers in a chain, and
one stream cipher.
-/

namespace PackageSigning

/-- A cipher. -/
inductive ContentCipher where
  | aes (keyLength : Nat)
  | des
  | tripleDes
  /-- A key of some bytes, of which only so many bits count. -/
  | rc2 (keyLength bits : Nat)
  | rc4
  deriving DecidableEq, Repr

namespace ContentCipher

/-- The length of a key in bytes. -/
def keyLength : ContentCipher → Nat
  | aes n | rc2 n _ => n
  | des => 8
  | tripleDes => 24
  | rc4 => 16

/-- The length of the initial value in bytes. -/
def initialLength : ContentCipher → Nat
  | aes _ => 16
  | rc4 => 0
  | _ => 8

/-- The message that was encrypted, if its padding is right. -/
def open? (cipher : ContentCipher) (key initial data : Bytes) : Option Bytes :=
  match cipher with
  | aes _ => Cipher.openChain? 16 (Cipher.Aes.decryptBlock (Cipher.Aes.roundKeys key)) initial data
  | des => Cipher.openChain? 8 (Cipher.Des.decryptBlock key) initial data
  | tripleDes => Cipher.openChain? 8 (Cipher.Des.tripleDecryptBlock key) initial data
  | rc2 _ bits =>
    Cipher.openChain? 8 (Cipher.Rc2.decryptBlock (Cipher.Rc2.expand bits key)) initial data
  | rc4 => some (Cipher.Rc4.crypt (Cipher.Rc4.schedule key) data)

end ContentCipher
end PackageSigning
