import PackageSigning.Capabilities
import PackageSigning.Certificate
import PackageSigning.Fault
import PackageSigning.Key
import PackageSigning.Keystore.EntryName
import PackageSigning.Path

/-!
# Where a signer's key and certificates are

A signer is described by settings that the user gives one at a time, the last
one of each kind counting. Its key comes from a keystore or from a key file and
a certificate file. `SignerSettings.load` fills in `key` and `certificates`.
-/

namespace PackageSigning

/-- A text setting of a signer. -/
inductive SignerField where
  | name
  | keystoreFile
  | keystoreAlias
  | keystorePassword
  | keyPassword
  | passwordCharset
  | keystoreType
  | providerName
  | providerClass
  | providerArgument
  | keyFile
  | certificateFile
  | v1Name
  deriving DecidableEq, Repr

/-- The description of a signer. -/
structure SignerSettings where
  /-- How the signer is called in messages; after loading, the name of its key. -/
  name : Option EntryName := none
  /-- The keystore, or `NONE` for a keystore without a file. -/
  keystoreFile : Option String := none
  /-- The name of the entry with the key; a user can only give a text. -/
  keystoreAlias : Option EntryName := none
  keystorePassword : Option String := none
  keyPassword : Option String := none
  /-- An encoding to try for passwords after the native one. -/
  passwordCharset : Option String := none
  keystoreType : Option String := none
  providerName : Option String := none
  providerClass : Option String := none
  providerArgument : Option String := none
  keyFile : Option String := none
  certificateFile : Option String := none
  /-- The name of the signature files in the package. -/
  v1Name : Option String := none
  key : Option PrivateKey := none
  certificates : Option (List Certificate) := none
  capabilities : CapabilityChoices := .empty
  deriving DecidableEq, Repr

namespace SignerField

/-- Every text setting. -/
def all : List SignerField :=
  [name, keystoreFile, keystoreAlias, keystorePassword, keyPassword, passwordCharset,
   keystoreType, providerName, providerClass, providerArgument, keyFile, certificateFile, v1Name]

/-- The setting of a signer, as text. -/
def get (s : SignerSettings) : SignerField → Option String
  | name => s.name.map (·.shown)
  | keystoreFile => s.keystoreFile
  | keystoreAlias => s.keystoreAlias.map (·.shown)
  | keystorePassword => s.keystorePassword
  | keyPassword => s.keyPassword
  | passwordCharset => s.passwordCharset
  | keystoreType => s.keystoreType
  | providerName => s.providerName
  | providerClass => s.providerClass
  | providerArgument => s.providerArgument
  | keyFile => s.keyFile
  | certificateFile => s.certificateFile
  | v1Name => s.v1Name

/-- The settings with another text for one of them. -/
def set (s : SignerSettings) (field : SignerField) (text : String) : SignerSettings :=
  match field with
  | name => { s with name := some text }
  | keystoreFile => { s with keystoreFile := some text }
  | keystoreAlias => { s with keystoreAlias := some text }
  | keystorePassword => { s with keystorePassword := some text }
  | keyPassword => { s with keyPassword := some text }
  | passwordCharset => { s with passwordCharset := some text }
  | keystoreType => { s with keystoreType := some text }
  | providerName => { s with providerName := some text }
  | providerClass => { s with providerClass := some text }
  | providerArgument => { s with providerArgument := some text }
  | keyFile => { s with keyFile := some text }
  | certificateFile => { s with certificateFile := some text }
  | v1Name => { s with v1Name := some text }

end SignerField

namespace SignerSettings

/-- The keystore file name that stands for no file. -/
def noFile : String := "NONE"

/-- Nothing set. -/
def empty : SignerSettings := {}

/-- Whether nothing is set, capabilities not counting. -/
def isEmpty (s : SignerSettings) : Bool :=
  (SignerField.all.all fun field => (field.get s).isNone) && s.key.isNone && s.certificates.isNone

/-- The name of the signer in a message. -/
def shownName (s : SignerSettings) : String := (s.name.map (·.shown)).getD "None"

/-- The encodings to try for passwords after the native one. -/
def extraEncodings (s : SignerSettings) : List String :=
  match s.passwordCharset with
  | none | some "" => []
  | some name => [name]

/-- The name of the key: its alias, else the key file's name up to its first full stop. -/
def keyName (s : SignerSettings) : Option EntryName :=
  s.keystoreAlias.orElse fun _ => s.keyFile.map fun file =>
    String.ofList ((Path.ofText file).lastName.toList.takeWhile (· != '.'))

/-- The name of the signature files in the package. -/
def v1Basename (s : SignerSettings) : Except Fault EntryName :=
  match s.v1Name with
  | some name => .ok name
  | none =>
    match s.keyName with
    | some name => .ok name
    | none => .error (.mishap .badValue)

end SignerSettings
end PackageSigning
