/-!
# What can go wrong

Every failure is a cause, one constructor of `Fault` each, with the values its
wording needs. `Fault.messageWith` is the only place where a cause becomes text.

Three groups are told apart by the callers:

* faults of the tool itself (`Fault.isOwn`), reported as one line;
* faults of the file system, `Fault.file`;
* mishaps, values that an operation cannot work with and that no caller has
  given a better name.
-/

namespace PackageSigning

/-- A file operation that the file system refuses, with the path as shown. -/
inductive FileFault where
  | missing (path : String)
  | isDirectory (path : String)
  | notDirectory (path : String)
  | nameTooLong (path : String)
  | refused (path : String)
  | tooManyLinks (path : String)
  /-- A file is to go where there is something already. -/
  | taken (path : String)
  /-- A file is to be copied over itself. -/
  | sameFile (source target : String)
  /-- The path cannot be made absolute, since links in it lead round in a circle. -/
  | circular (path : String)
  /-- The path holds a zero character and names no file at all. -/
  | unusablePath
  deriving DecidableEq, Repr, Inhabited

namespace FileFault

/-- The system's number for the fault. -/
def code : FileFault → Nat
  | missing _ => 2
  | isDirectory _ => 21
  | notDirectory _ => 20
  | nameTooLong _ => 36
  | refused _ => 13
  | tooManyLinks _ => 40
  | taken _ | sameFile .. | circular _ | unusablePath => 0

/-- The words for the fault. -/
def reason : FileFault → String
  | missing _ => "No such file or directory"
  | isDirectory _ => "Is a directory"
  | notDirectory _ => "Not a directory"
  | nameTooLong _ => "File name too long"
  | refused _ => "Permission denied"
  | tooManyLinks _ => "Too many levels of symbolic links"
  | taken _ => "already exists"
  | sameFile .. => "are the same file"
  | circular _ => "Symlink loop"
  | unusablePath => "embedded null byte"

/-- Whether the fault counts as one of the system. The two others are found before it is asked. -/
def isSystem : FileFault → Bool
  | circular _ | unusablePath => false
  | _ => true

/-- The path that was asked for. -/
def path : FileFault → String
  | missing p | isDirectory p | notDirectory p | nameTooLong p | refused p | tooManyLinks p
  | taken p | sameFile p _ | circular p => p
  | unusablePath => ""

/-- How the fault is reported, with `shown` for how a path is shown. -/
def messageWith (shown : String → String) (fault : FileFault) : String :=
  match fault with
  | taken p => s!"Destination path '{p}' {fault.reason}"
  | sameFile p q => s!"{shown p} and {shown q} {fault.reason}"
  | circular p => s!"{fault.reason} from {shown p}"
  | unusablePath => fault.reason
  | _ => s!"[Errno {fault.code}] {fault.reason}: {shown fault.path}"

end FileFault

/-- Values that an operation cannot be applied to. -/
inductive Mishap where
  /-- A value outside what the operation accepts. -/
  | badValue
  /-- A value of the wrong kind. -/
  | wrongType
  /-- A named entry that is not there. -/
  | missingEntry
  /-- A member that values of this kind do not have. -/
  | missingMember
  /-- A position past the end. -/
  | badIndex
  /-- A name that stands for nothing usable. -/
  | unknownName
  /-- A number too large for the operation. -/
  | tooLarge
  /-- A number that does not fit its field. -/
  | doesNotFit
  /-- Text that an encoding cannot represent. -/
  | unencodable
  /-- Bytes that an encoding cannot represent. -/
  | undecodable
  /-- An encoding that converts nothing. -/
  | badEncoding
  /-- A kind of key or cipher that is not implemented. -/
  | unsupported
  /-- The user ended the dialogue. -/
  | aborted
  /-- Data nested too deeply. -/
  | tooDeep
  /-- Something that cannot be loaded. -/
  | notInstalled
  /-- Something to be loaded that does not exist. -/
  | notFound
  /-- A certificate of a version that is not known. -/
  | unknownVersion
  /-- Marked-up text that closes what is not open. -/
  | badMarkup
  /-- A library that gave up on a value it does not foresee. -/
  | panicked
  deriving DecidableEq, Repr, Inhabited

/-- Parameters that conflict, are missing or make no sense. -/
inductive ConfigurationProblem where
  | variableUnset (name : String)
  | passwordFileUnreadable (path text : String)
  | passwordFileUndecodable (path encoding : String)
  | unknownPasswordSource (label shown : String)
  | providerClassMissing
  | emptySignerScope
  | noSigner
  | apiLevelsReversed (low high : Int)
  | signerNotLoaded (name : String)
  | surplusAfterOption (option surplus : String)
  | surplusAfterPackage (package surplus : String)
  | packageMissing (package : String)
  | unknownOption (form : String)
  | oldSignerMissing
  | newSignerMissing
  | outputLineageMissing
  | inputLineageMissing
  | updateWithoutOutput
  | storeAndKeyFile
  | storeAndCertificateFile
  | noKeySource
  | certificateFileMissing
  deriving DecidableEq, Repr

namespace ConfigurationProblem

/-- The wording of a configuration problem. -/
def message : ConfigurationProblem → String
  | variableUnset name => s!"Environment variable {name} not set"
  | passwordFileUnreadable path text => s!"Failed to read password file {path}: {text}"
  | passwordFileUndecodable path encoding =>
    s!"Failed to read password file {path}: not valid {encoding}"
  | unknownPasswordSource label shown => s!"Unsupported password spec for {label}: {shown}"
  | providerClassMissing => "Provider class name (--provider-class) must be specified"
  | emptySignerScope => "Signer specified without arguments"
  | noSigner => "At least one signer must be specified"
  | apiLevelsReversed low high => s!"Min API Level ({low}) > max API Level ({high})"
  | signerNotLoaded name => s!"Signer {name} has not been loaded"
  | surplusAfterOption option surplus => s!"Unexpected parameter(s) after {option}: {surplus}"
  | surplusAfterPackage package surplus =>
    s!"Unexpected parameter(s) after {package} ({surplus})"
  | packageMissing package => s!"Missing {package}"
  | unknownOption form => s!"Unsupported option: {form}. See --help for supported options."
  | oldSignerMissing => "Signer parameters for old signer not present"
  | newSignerMissing => "Signer parameters for new signer not present"
  | outputLineageMissing => "Output lineage file parameter not present"
  | inputLineageMissing => "Input lineage file parameter not present"
  | updateWithoutOutput =>
    "The lineage was modified but an output file for the lineage was not specified"
  | storeAndKeyFile => "--ks and --key may not be specified at the same time"
  | storeAndCertificateFile => "--ks and --cert may not be specified at the same time"
  | noKeySource => "KeyStore (--ks) or private key file (--key) must be specified"
  | certificateFileMissing => "Certificate file (--cert) must be specified"

end ConfigurationProblem

/-- A malformed stream of command-line tokens. `form` is the option as written. -/
inductive OptionProblem where
  | valueMissing (description form : String)
  | notDecimal (description form value : String)
  | notBoolean (form value : String)
  | leftOver (token : String)
  deriving DecidableEq, Repr

namespace OptionProblem

/-- The wording of an option problem. -/
def message : OptionProblem → String
  | valueMissing description form => s!"{description} missing after {form}"
  | notDecimal description form value =>
    s!"{description} ({form}) must be a decimal number: {value}"
  | notBoolean form value =>
    s!"Unsupported value for {form}: {value}. Only true or false supported."
  | leftOver token => s!"Unprocessed option: {token}"

end OptionProblem

/-- A provider that cannot be found or made. -/
inductive ProviderProblem where
  | notInstalled (name : String)
  | invalidClassName (name : String)
  | notLoadable (name : String)
  | notAProvider (name : String)
  | notInstantiable (name : String)
  deriving DecidableEq, Repr

namespace ProviderProblem

/-- The wording of a provider problem. -/
def message : ProviderProblem → String
  | notInstalled name => s!"Provider {name} not installed"
  | invalidClassName name => s!"Invalid provider class name: {name}"
  | notLoadable name => s!"Failed to load provider class {name}:"
  | notAProvider name =>
    s!"Provider class {name} not subclass of apksign.providers.registry.Provider"
  | notInstantiable name => s!"Failed to instantiate provider {name}:"

end ProviderProblem

/-- What a missing password was for. -/
inductive PasswordUse where
  | store
  | key
  deriving DecidableEq, Repr

/-- Where certificates were expected and none were found. -/
inductive CertificateSource where
  | storeEntry (store entry : String)
  | file (path : String)
  deriving DecidableEq, Repr

/-- Keys that no decoder takes. -/
inductive UnsupportedKey where
  | noFactory (algorithm : String)
  | noneAccepts
  | notLoadable (path reason : String)
  | encryption (scheme : String)
  deriving DecidableEq, Repr

/-- Bytes that are not the structure that was asked for. -/
inductive ParseProblem where
  | armour
  | notEncryptedKey
  | encryptedKeyFile (path : String)
  | certificates
  deriving DecidableEq, Repr

/-- Bytes that are no key of the kind that was asked for. -/
inductive InvalidKey where
  | notPkcs8
  | decryptedNotPkcs8
  | otherAlgorithm (wanted found : String)
  | malformed (algorithm : String)
  | otherKind (algorithm : String)
  deriving DecidableEq, Repr

/-- Keystores that cannot be read or used. -/
inductive StoreProblem where
  | notPemStore
  | unsupportedFormat
  | typeNotFound (type : String)
  | notAPrivateKey (store entry keyType : String)
  deriving DecidableEq, Repr

/-- Key entries that stay locked. -/
inductive LockedKey where
  | entry (name : String)
  | keyFrom (name store : String)
  | tampered
  deriving DecidableEq, Repr

/-- Lineage operations that are not possible. -/
inductive LineageProblem where
  | emptyLineage
  | unsupportedKeyType (keyType : String)
  | unknownAlgorithm (id : Int)
  | keyCannotSign (keyType : String) (id : Int)
  | unreadable (path reason : String)
  | unwritable (path reason : String)
  deriving DecidableEq, Repr

/-- Ways in which stored lineage data is malformed. -/
inductive LineageFormatProblem where
  | duplicateCertificate (index : Nat)
  | firstNodeSigned
  | algorithmMismatch (index : Nat)
  | check (problem : LineageProblem)
  | invalidSignature (index : Nat)
  | lastNodeHasAlgorithm
  | badMagic
  | fileVersion (version : Nat)
  | lineageVersion (version : Nat)
  | noCertificates
  | badCertificate
  | trailing (count : Nat)
  | truncated
  deriving DecidableEq, Repr

/-- Signing back ends that cannot be found or that fail. -/
inductive EngineProblem where
  | unknown (name available : String)
  | oneSignerOnly
  | noLineage
  | toolMissing
  | signing (path reason : String)
  | reported (text : String)
  deriving DecidableEq, Repr

/-- Calls that the protocol of an object forbids. -/
inductive Misuse where
  | closedRetriever
  | secondPutBack
  deriving DecidableEq, Repr

/-- The cause of a failure. -/
inductive Fault where
  | configuration (problem : ConfigurationProblem)
  | unsupportedEncoding (name : String)
  | options (problem : OptionProblem)
  | provider (problem : ProviderProblem)
  | noPasswords (use : PasswordUse)
  | aliasNotFound (store : String) (alias? : Option String)
  | ambiguousAlias (store : String) (aliases : List String)
  | noCertificates (source : CertificateSource)
  | unsupportedKey (problem : UnsupportedKey)
  | parse (problem : ParseProblem)
  | invalidKey (problem : InvalidKey)
  | decryption (report : String)
  | store (problem : StoreProblem)
  | storeIntegrity
  | lockedKey (problem : LockedKey)
  | credential (signer : String) (cause : Fault)
  | lineage (problem : LineageProblem)
  | lineageFormat (problem : LineageFormatProblem)
  | lineageMismatch (signer : String)
  | signerNotInLineage (signer : String)
  | engine (problem : EngineProblem)
  | pluginNotFound (name registry : String)
  | pluginTaken (name registry : String)
  | misuse (problem : Misuse)
  | file (fault : FileFault)
  | mishap (mishap : Mishap)
  deriving DecidableEq, Repr

/-- At least `width` hexadecimal digits of `n`. -/
def hexPadded (width n : Nat) : String :=
  let digits := Nat.toDigits 16 n
  String.ofList (List.replicate (width - digits.length) '0' ++ digits)

/-- An algorithm ID as shown: `0x` and zeros fill it to six characters, a minus
sign counting as one of them. -/
def showAlgorithm (id : Int) : String :=
  if id < 0 then "-0x" ++ hexPadded 3 id.natAbs else "0x" ++ hexPadded 4 id.natAbs

namespace LineageProblem

/-- The wording of a lineage problem. -/
def message : LineageProblem → String
  | emptyLineage => "Cannot spawn a descendant of an empty lineage"
  | unsupportedKeyType keyType => s!"Unsupported key type: {keyType}"
  | unknownAlgorithm id => s!"Unknown signature algorithm ID: {showAlgorithm id}"
  | keyCannotSign keyType id => s!"Key type {keyType} cannot sign with {showAlgorithm id}"
  | unreadable path reason => s!"Failed to read lineage file {path}: {reason}"
  | unwritable path reason => s!"Failed to write lineage file {path}: {reason}"

end LineageProblem

namespace LineageFormatProblem

/-- The wording of a format problem. -/
def message : LineageFormatProblem → String
  | duplicateCertificate index => s!"Duplicate certificate in lineage at node {index}"
  | firstNodeSigned => "First lineage node must not be signed"
  | algorithmMismatch index => s!"Signature algorithm mismatch for certificate #{index}"
  | check problem => problem.message
  | invalidSignature index => s!"Invalid signature on certificate #{index}"
  | lastNodeHasAlgorithm => "Last lineage node must not carry a signature algorithm"
  | badMagic => "Improper lineage file: magic header mismatch"
  | fileVersion version => s!"Unsupported lineage file version: {version}"
  | lineageVersion version => s!"Unsupported lineage version: {version}"
  | noCertificates => "Lineage contains no certificates"
  | badCertificate => "Invalid certificate in lineage:"
  | trailing count => s!"{count} unexpected trailing byte(s) in lineage"
  | truncated => "Truncated lineage data"

end LineageFormatProblem

namespace EngineProblem

/-- The wording of an engine problem. -/
def message : EngineProblem → String
  | unknown name available => s!"Unknown signing engine: {name} (available: {available})"
  | oneSignerOnly => "The apksigtool engine supports exactly one signer"
  | noLineage => "The apksigtool engine does not support --lineage"
  | toolMissing =>
    "The apksigtool engine requires the apksigtool package (pip install apksign[apksigtool])"
  | signing path reason => s!"Failed to sign {path}: {reason}"
  | reported text => text

end EngineProblem

namespace Fault

/-- A key that does not open with a password. -/
def badDecrypt : Fault := decryption "Bad decrypt. Wrong password?"

/-- A keystore whose check value does not match its password. -/
def tamperedText : String := "Keystore was tampered with, or password was incorrect"

/-- Whether the fault is one that the tool raises on purpose. Plugin faults,
misuse, file faults and mishaps are not. -/
def isOwn : Fault → Bool
  | pluginNotFound .. | pluginTaken .. | misuse _ | file _ | mishap _ => false
  | _ => true

/-- Whether the fault comes from a keystore, an unmatched check value and a
locked entry included. -/
def isStoreFault : Fault → Bool
  | store _ | storeIntegrity | lockedKey _ => true
  | _ => false

/-- The wording of a fault; `shown` is how a name is quoted. Mishaps have no
wording of their own. -/
def messageWith (shown : String → String) : Fault → String
  | configuration problem => problem.message
  | unsupportedEncoding name => s!"Unsupported password character encoding: {name}"
  | options problem => problem.message
  | provider problem => problem.message
  | noPasswords .store => "No keystore passwords"
  | noPasswords .key => "No key passwords"
  | aliasNotFound keystore none => s!"{keystore} does not contain key entries"
  | aliasNotFound keystore (some entry) => s!"{keystore} entry \"{entry}\" does not contain a key"
  | ambiguousAlias keystore _ =>
    s!"{keystore} contains multiple key entries. " ++
      "--ks-key-alias option must be used to specify which entry to use."
  | noCertificates (.storeEntry keystore entry) =>
    s!"{keystore} entry \"{entry}\" does not contain certificates"
  | noCertificates (.file path) => s!"{path} does not contain certificates"
  | unsupportedKey (.noFactory algorithm) => s!"{algorithm} KeyFactory not available"
  | unsupportedKey .noneAccepts => "Not an RSA, EC, or DSA private key"
  | unsupportedKey (.notLoadable path reason) =>
    s!"Failed to load PKCS #8 encoded private key from {path}: {reason}"
  | unsupportedKey (.encryption scheme) => s!"Unsupported private key encryption: {scheme}"
  | parse .armour => "Malformed PEM armour:"
  | parse .notEncryptedKey => "Not an encrypted PKCS #8 private key"
  | parse (.encryptedKeyFile path) => s!"Failed to parse encrypted private key blob {path}"
  | parse .certificates => "Failed to decode certificates:"
  | invalidKey .notPkcs8 => "Not a PKCS #8 encoded private key"
  | invalidKey .decryptedNotPkcs8 => "Decrypted data is not a PKCS #8 private key"
  | invalidKey (.otherAlgorithm wanted found) => s!"Not an {wanted} private key: {found}"
  | invalidKey (.malformed algorithm) => s!"Invalid {algorithm} private key:"
  | invalidKey (.otherKind algorithm) => s!"Not an {algorithm} private key"
  | decryption report => report
  | store .notPemStore => "Not a PEMKS keystore"
  | store .unsupportedFormat => "Unsupported PEMKS keystore format"
  | store (.typeNotFound type) => s!"{type} not found"
  | store (.notAPrivateKey keystore entry keyType) =>
    s!"{keystore} entry \"{entry}\" does not contain a private key. " ++
      s!"It contains a key of type: {keyType}"
  | storeIntegrity => tamperedText
  | lockedKey (.entry name) => s!"Cannot recover key \"{name}\""
  | lockedKey (.keyFrom name keystore) =>
    s!"Failed to obtain key with alias \"{name}\" from {keystore}. Wrong password?"
  | lockedKey .tampered => tamperedText
  | credential signer cause => s!"Failed to load signer \"{signer}\": {cause.messageWith shown}"
  | lineage problem => problem.message
  | lineageFormat problem => problem.message
  | lineageMismatch signer => s!"{signer} is not the most recent signer in the lineage"
  | signerNotInLineage signer => s!"The signer {signer} was not found in the specified lineage."
  | engine problem => problem.message
  | pluginNotFound name registry => s!"No plugin {shown name} in registry {shown registry}"
  | pluginTaken name registry =>
    s!"Plugin {shown name} is already registered in registry {shown registry}"
  | misuse .closedRetriever => "Password retriever is closed"
  | misuse .secondPutBack => "Cannot put back more than one option"
  | file fault => fault.messageWith shown
  | mishap _ => ""

end Fault
end PackageSigning
