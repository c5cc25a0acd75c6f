import PackageSigning.Keystore
import PackageSigning.Keystore.Pfx
import PackageSigning.OrderedMap

/-!
# Keystores of one key

A store in PKCS #12 has at most one key entry, whose certificates are put in
order, each after one that it issued; certificates outside that chain are
entries of their own. The data is kept and opened anew for every recovery of
the key, so that the password of the key is the password of the store.
-/

namespace PackageSigning

namespace Certificate

/-- The issuers of a certificate among others, each next to one that it issued. A
certificate is used once; the first with a fitting name is taken. There is fuel
for every certificate. -/
def issuersFrom : Nat → Certificate → List Certificate → List Certificate
  | 0, _, _ => []
  | fuel + 1, current, others =>
    if current.issuer.same current.subject then []
    else match others.find? (·.subject.same current.issuer) with
      | none => []
      | some issuer => issuer :: issuersFrom fuel issuer (others.erase issuer)

/-- A certificate followed by its issuers among others. -/
def chainAmong (leaf : Certificate) (others : List Certificate) : List Certificate :=
  leaf :: issuersFrom others.length leaf others

/-- The names that the search for issuers looks at, one after the other. -/
def namesFrom : Nat → Certificate → List Certificate → List DistinguishedName
  | 0, current, _ => [current.issuer, current.subject]
  | fuel + 1, current, others =>
    current.issuer :: current.subject ::
      if current.issuer.same current.subject then []
      else match others.find? (·.subject.same current.issuer) with
        | none => others.map (·.subject)
        | some issuer =>
          (others.takeWhile fun c => !c.subject.same current.issuer).map (·.subject) ++
            namesFrom fuel issuer (others.erase issuer)

/-- A certificate followed by its issuers among others, if every name on the way can be read. -/
def readChain (leaf : Certificate) (others : List Certificate) :
    Except Fault (List Certificate) := do
  (namesFrom others.length leaf others).forM fun name => do let _ ← name.read
  return chainAmong leaf others

end Certificate

/-- A keystore of one key. -/
structure PfxStore where
  data : Option Bytes
  keyAlias : Option EntryName
  chains : OrderedMap EntryName (List Certificate)
  certificates : OrderedMap EntryName Certificate
  deriving DecidableEq, Repr

namespace PfxStore

/-- A store without entries, over some data. -/
def holding (data : Option Bytes) : PfxStore := ⟨data, none, .empty, .empty⟩

/-- The name of a key entry that goes by no name. -/
def defaultAlias : String := "1"

/-- The name a certificate goes by, or another one if it goes by none or an empty one. -/
def nameOf (c : NamedCertificate) (other : String) : String :=
  (c.friendlyName.filter (!·.isEmpty)).getD other

/-- The store with the key entry of a file, if it has a key with a certificate. -/
def withKey (s : PfxStore) (pfx : Pfx) : Except Fault PfxStore :=
  match pfx.key, pfx.certificate with
  | some _, some c => do
    let name : EntryName := nameOf c defaultAlias
    let chain ← c.certificate.readChain (pfx.others.map (·.certificate))
    return { s with keyAlias := some name, chains := s.chains.put name chain }
  | _, _ => .ok s

/-- The certificates in the chain of the key entry. -/
def inChain (s : PfxStore) : List Certificate := (s.chains.entries.map (·.2)).flatten

/-- The store with entries for certificates outside the chain, the first of which is
at some place. -/
def withOthers (s : PfxStore) : Nat → List NamedCertificate → PfxStore
  | _, [] => s
  | place, c :: rest =>
    if s.inChain.contains c.certificate then withOthers s (place + 1) rest
    else
      let name : EntryName := nameOf c s!"cert-{place}"
      withOthers { s with certificates := s.certificates.put name c.certificate } (place + 1) rest

/-- What reads files: from their data and a password. -/
abbrev PfxReader := Bytes → Option Bytes → Except Fault Pfx

/-- What a reader makes of data; `refusal` stands for data that it cannot read. An
empty password is none. -/
def parse (reader : PfxReader) (refusal : Fault) (b : Bytes) (password : Option Bytes) :
    Except Fault Pfx :=
  match reader b (password.filter (!·.isEmpty)) with
  | .error (.mishap .badValue) | .error (.mishap .wrongType) => .error refusal
  | result => result

/-- Replaces the entries by those of a file; without data, or if it is refused, by none. -/
def load (reader : PfxReader) (data password : Option Bytes) (_ : PfxStore) :
    Except Fault Unit × PfxStore :=
  match data with
  | none => (.ok (), holding none)
  | some b =>
    match parse reader .storeIntegrity b password with
    | .error fault => (.error fault, holding data)
    | .ok pfx =>
      match (holding data).withKey pfx with
      | .error fault => (.error fault, holding data)
      | .ok s => (.ok (), s.withOthers 1 pfx.others)

/-- The names of the entries, that of the key entry first. -/
def aliases (s : PfxStore) : List EntryName := s.keyAlias.toList ++ s.certificates.keys

/-- The key, if a name is that of the key entry. -/
def key (reader : PfxReader) (s : PfxStore) (name : EntryName) (password : Option Bytes) :
    Except Fault (Option PrivateKey) :=
  match s.data with
  | some b =>
    if s.keyAlias = some name then do
      return (← parse reader (.lockedKey .tampered) b password).key
    else .ok none
  | none => .ok none

/-- The kind of keystore, with what reads its files. -/
def kindWith (reader : PfxReader) : KeystoreKind PfxStore where
  fresh := holding none
  load := load reader
  aliases := aliases
  isKeyEntry := fun s name => .ok (s.keyAlias == some name)
  key := key reader
  chain := fun s name => .ok (s.chains.get? name)

/-- The kind of keystore. -/
def kind [Platform] : KeystoreKind PfxStore := kindWith Pfx.read

end PfxStore
end PackageSigning
