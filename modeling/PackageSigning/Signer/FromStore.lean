import PackageSigning.Keystore.PemStore
import PackageSigning.Keystore.PfxStore
import PackageSigning.Password.Source
import PackageSigning.Provider.Install
import PackageSigning.Signer.Settings

/-!
# Signers from keystores

The passwords of the store open it; they also unlock the key, unless the user
names passwords for the key. When none of them does, the input is asked once for
the password of the key. All of this works for every kind of keystore.
-/

namespace PackageSigning

/-- What keystores and key factories are found with: the provider classes that can be
named, and the installed providers. -/
structure Services where
  catalogue : Catalogue
  registry : ProviderRegistry

/-- A key with the certificates that vouch for it, the one of the key first. -/
structure LoadedSigner where
  /-- The name of the entry in its keystore. -/
  keystoreAlias : Option EntryName
  key : PrivateKey
  certificates : List Certificate
  deriving DecidableEq, Repr

namespace SignerSettings
open PackageSigning.Action

/-- How the signer is called while it is being loaded. -/
def callName (s : SignerSettings) : String :=
  ((s.name.filter (!·.isEmpty)).map (·.shown)).getD "signer"

/-- The passwords that a specification stands for, in every encoding to be tried. -/
def passwords [Platform] (s : SignerSettings) (spec label : String) : Action (List Bytes) :=
  return (← Password.candidates spec label s.extraEncodings).map (·.value)

/-- A specification, or the input where none is given or it is empty. -/
def specOrInput (spec : Option String) : String :=
  (spec.filter (!·.isEmpty)).getD PasswordSource.inputSpec

/-- The type of the keystore. -/
def storeType (s : SignerSettings) (services : Services) : Except Fault StoreType := do
  let type := (s.keystoreType.filter (!·.isEmpty)).getD StoreType.default.name
  match s.providerName, s.providerClass with
  | some name, _ => services.registry.store type (.named name)
  | none, some name =>
    services.registry.store type (.given (← services.catalogue.make name s.providerArgument))
  | none, none => services.registry.store type .any

/-- The key of an entry. With a specification only its passwords are tried. Without
one those of the store are, and when they leave the key locked, one from the input. -/
def entryKey [Platform] (s : SignerSettings) (kind : KeystoreKind σ) (state : σ)
    (entry : EntryName) (storePasswords : List Bytes) : Action (Option PrivateKey) := do
  let label := s!"Key \"{entry.shown}\" password for {s.callName}"
  match s.keyPassword with
  | some spec => ofResult (kind.recoverKey state entry (← s.passwords spec label))
  | none =>
    match kind.recoverKey state entry storePasswords with
    | .error (.lockedKey _) =>
      ofResult (kind.recoverKey state entry (← s.passwords PasswordSource.inputSpec label))
    | result => ofResult result

/-- Names the entry and the store in the report of a key that stays locked. -/
def nameLocked (store entry : String) : Fault → Fault
  | .lockedKey _ => .lockedKey (.keyFrom entry store)
  | fault => fault

/-- The key and the certificates of an entry of an opened store. -/
def fromEntry [Platform] (s : SignerSettings) (kind : KeystoreKind σ) (state : σ)
    (store : String) (entry : EntryName) (storePasswords : List Bytes) : Action LoadedSigner := do
  if !(← ofResult (kind.isKeyEntry state entry)) then throw (.aliasNotFound store (some entry.shown))
  let found ← tryCatch (s.entryKey kind state entry storePasswords) fun fault =>
    throw (nameLocked store entry.shown fault)
  match found with
  | none => throw (.aliasNotFound store (some entry.shown))
  | some key =>
    if !key.canSign then throw (.store (.notAPrivateKey store entry.shown key.typeName))
    match ← ofResult (kind.chain state entry) with
    | none | some [] => throw (.noCertificates (.storeEntry store entry.shown))
    | some chain => return ⟨some entry, key, chain⟩

/-- Opens a store of some kind and takes the entry that the settings name, else the
only key entry. -/
def fromKind [Platform] (s : SignerSettings) (kind : KeystoreKind σ) (store : String) :
    Action LoadedSigner := do
  let passwords ← s.passwords (specOrInput s.keystorePassword)
    s!"Keystore password for {s.callName}"
  let path := if store = noFile then none else some (Path.ofText store)
  let (opened, state) ← kind.openFile path passwords kind.fresh
  ofResult opened
  let entry ← match s.keystoreAlias with
    | some entry => pure entry
    | none => ofResult (kind.onlyKeyAlias state store)
  s.fromEntry kind state store entry passwords

/-- The signer in a keystore. -/
def fromStore [Platform] (s : SignerSettings) (services : Services) (store : String) :
    Action LoadedSigner := do
  match ← ofResult (s.storeType services) with
  | .pkcs12 => s.fromKind PfxStore.kind store
  | .pem => s.fromKind (PemStore.kind (.standard .silent)) store

end SignerSettings
end PackageSigning
