import PackageSigning.Action
import PackageSigning.Certificate
import PackageSigning.Key
import PackageSigning.Keystore.EntryName

/-!
# Keystores

A keystore holds entries by name. A key entry is a private key with the
certificates that vouch for it; other entries are certificates alone. What a
kind of keystore does is given by its operations over some state, and opening a
store and recovering a key by trying passwords works for every kind.
-/

namespace PackageSigning

/-- A kind of keystore with its states. -/
structure KeystoreKind (σ : Type) where
  /-- The state of a store that was never loaded. -/
  fresh : σ
  /-- Replaces the entries by those in some data, or by none without data. The state
  counts whether the data is accepted or not. -/
  load : Option Bytes → Option Bytes → σ → Except Fault Unit × σ
  /-- The names of all entries, in the order of the store. -/
  aliases : σ → List EntryName
  /-- Whether an entry is a key entry. -/
  isKeyEntry : σ → EntryName → Except Fault Bool
  /-- The key of an entry, if it is a key entry. -/
  key : σ → EntryName → Option Bytes → Except Fault (Option PrivateKey)
  /-- The certificates of a key entry, the one of the key first. -/
  chain : σ → EntryName → Except Fault (Option (List Certificate))

namespace KeystoreKind
variable {σ : Type}

/-- Loads some data with the first password that opens it. Only the refusal of a
store makes the next password be tried, and the last refusal counts. -/
def loadFirst (kind : KeystoreKind σ) (data : Option Bytes) :
    List Bytes → σ → Except Fault Unit × σ
  | [], s => (.error (.noPasswords .store), s)
  | [last], s => kind.load data (some last) s
  | password :: rest, s =>
    match kind.load data (some password) s with
    | (.ok (), s) => (.ok (), s)
    | (.error fault, s) =>
      if fault.isStoreFault then loadFirst kind data rest s else (.error fault, s)

/-- Loads a file, or no data without a path, with the first password that opens
it. Without passwords the file is not even read. -/
def openFile (kind : KeystoreKind σ) (path : Option Path) (passwords : List Bytes) (s : σ) :
    Action (Except Fault Unit × σ) :=
  if passwords.isEmpty then return (.error (.noPasswords .store), s)
  else do
    let data ← path.mapM Action.contentsOf
    return kind.loadFirst data passwords s

/-- The name of the only key entry; `store` is what the store is called. -/
def onlyKeyAlias (kind : KeystoreKind σ) (s : σ) (store : String) : Except Fault EntryName := do
  match ← (kind.aliases s).filterM (kind.isKeyEntry s) with
  | [] => throw (.aliasNotFound store none)
  | [name] => return name
  | names => throw (.ambiguousAlias store (names.map (·.shown)))

/-- The key of an entry, recovered with the first password that unlocks it. -/
def recoverKey (kind : KeystoreKind σ) (s : σ) (name : EntryName) :
    List Bytes → Except Fault (Option PrivateKey)
  | [] => .error (.noPasswords .key)
  | [last] => kind.key s name (some last)
  | password :: rest =>
    match kind.key s name (some password) with
    | .error (.lockedKey _) => recoverKey kind s name rest
    | outcome => outcome

end KeystoreKind
end PackageSigning
