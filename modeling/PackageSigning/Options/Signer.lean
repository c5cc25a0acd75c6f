import PackageSigning.Options.Reader
import PackageSigning.Signer.Settings
import PackageSigning.Text.Encoding

/-!
# Options that describe a signer

`keySource?` knows the options that say where a key is. In a signer scope
(`--old-signer`, `--new-signer`, `--signer`) the capability options are known
too; `SignerSettings.scope` reads one scope up to the first option that belongs
to the command again, which it puts back.
-/

namespace PackageSigning

/-- The option for a key source setting, and what its value is called. -/
structure KeySourceOption where
  option : String
  field : SignerField
  description : String

namespace KeySourceOption

/-- Every key source option. -/
def all : List KeySourceOption :=
  [⟨"ks", .keystoreFile, "KeyStore file"⟩,
   ⟨"ks-key-alias", .keystoreAlias, "KeyStore key alias"⟩,
   ⟨"ks-pass", .keystorePassword, "KeyStore password"⟩,
   ⟨"key-pass", .keyPassword, "Key password"⟩,
   ⟨"pass-encoding", .passwordCharset, "Password character encoding"⟩,
   ⟨"ks-type", .keystoreType, "KeyStore type"⟩,
   ⟨"ks-provider-name", .providerName, "KeyStore Provider name"⟩,
   ⟨"ks-provider-class", .providerClass, "KeyStore Provider class name"⟩,
   ⟨"ks-provider-arg", .providerArgument, "KeyStore Provider constructor argument"⟩,
   ⟨"key", .keyFile, "Private key file"⟩,
   ⟨"cert", .certificateFile, "Certificate file"⟩]

/-- The key source option called `name`. -/
def find? (name : String) : Option KeySourceOption := all.find? (·.option == name)

end KeySourceOption

/-- The canonical name of the character encoding that the user calls `name`. -/
def charsetNamed (name : String) : Except Fault String :=
  match Text.Encoding.named name with
  | .ok encoding => .ok encoding.name
  | .error (.mishap .unknownName) => .error (.unsupportedEncoding name)
  | .error fault => .error fault

namespace SignerSettings

/-- The value as stored in a setting: encodings under their canonical name. -/
def stored (field : SignerField) (text : String) : Except Fault String :=
  match field with
  | .passwordCharset => charsetNamed text
  | _ => .ok text

/-- Reads the value of a key source option into the settings; nothing if the
option is not one. -/
def keySource? (name : String) (s : SignerSettings) : Reading (Option SignerSettings) :=
  match KeySourceOption.find? name with
  | none => return none
  | some option => do
    let text ← OptionReader.value option.description
    match stored option.field text with
    | .ok text => return some (option.field.set s text)
    | .error fault => throw fault

/-- One option of a signer scope; nothing if the option does not belong to it. -/
def scopeOption? (name : String) (s : SignerSettings) : Reading (Option SignerSettings) := do
  match ← keySource? name s with
  | some s => return some s
  | none =>
    match Capability.ofOption? name with
    | none => return none
    | some c =>
      let granted ← OptionReader.switch true
      return some { s with capabilities := s.capabilities.choose c granted }

/-- The options of a scope, at most `fuel` of them, read into `s`. -/
def scopeFrom : Nat → SignerSettings → Reading SignerSettings
  | 0, s => return s
  | fuel + 1, s => do
    match ← OptionReader.next with
    | none => return s
    | some name =>
      match ← scopeOption? name s with
      | some s => scopeFrom fuel s
      | none =>
        OptionReader.putBack
        return s

/-- Reads one signer scope. It has to say something about the key source. -/
def scope : Reading SignerSettings := do
  let r ← get
  let s ← scopeFrom (r.tokens.length - r.position + 1) .empty
  if s.isEmpty then throw (.configuration .emptySignerScope) else return s

end SignerSettings
end PackageSigning
