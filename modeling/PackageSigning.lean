import PackageSigning.Capabilities
import PackageSigning.Certificate.Bundle
import PackageSigning.CommandLine
import PackageSigning.Engine.PackageTool
import PackageSigning.Key.Encrypted
import PackageSigning.Keystore.PemStore
import PackageSigning.Keystore.PfxStore
import PackageSigning.Lineage.File
import PackageSigning.Main
import PackageSigning.Options.Signer
import PackageSigning.Password.Source
import PackageSigning.Pem
import PackageSigning.Plugin
import PackageSigning.Provider.Install
import PackageSigning.Rotation
import PackageSigning.Signature
import PackageSigning.Signer.Loading
import PackageSigning.World
import PackageSigning.Proofs.Bytes
import PackageSigning.Proofs.Lineage.Field
import PackageSigning.Proofs.Lineage.Verification
import PackageSigning.Proofs.Lineage.Format
import PackageSigning.Proofs.Notary.Recorded
import PackageSigning.Proofs.Capabilities
import PackageSigning.Proofs.Lineage.Growth
import PackageSigning.Proofs.Lineage.Chain
import PackageSigning.Proofs.Rotation
import PackageSigning.Proofs.Lineage.Grants
import PackageSigning.Proofs.Rotation.Update
import PackageSigning.Proofs.Rotation.Run
import PackageSigning.Proofs.Action
import PackageSigning.Proofs.World
import PackageSigning.Proofs.Signer.Gathering
import PackageSigning.Proofs.Command.Asking
import PackageSigning.Proofs.Command.Lineage
import PackageSigning.Proofs.Failure
import PackageSigning.Proofs.Failure.Readers
import PackageSigning.Proofs.Failure.Stores
import PackageSigning.Proofs.Failure.Actions
import PackageSigning.Proofs.Failure.Passwords
import PackageSigning.Proofs.Signer.Refusal
import PackageSigning.Proofs.Keystore.Unlocking
import PackageSigning.Proofs.Signer.Recovery
import PackageSigning.Proofs.Keystore.Opening
import PackageSigning.Proofs.OrderedMap
import PackageSigning.Proofs.Json.Scalar
import PackageSigning.Proofs.Json.RoundTrip
import PackageSigning.Proofs.Keystore.Saving
import PackageSigning.Proofs.Keystore.Ordered
import PackageSigning.Proofs.Keystore.Aliases
import PackageSigning.Proofs.World.Asked
import PackageSigning.Proofs.Signer.PlainKey
import PackageSigning.Proofs.Text.Lines
import PackageSigning.Proofs.World.Input
import PackageSigning.Proofs.Password.Asking
import PackageSigning.Proofs.Password.Lifetime
import PackageSigning.Proofs.Password.Expansion
import PackageSigning.Proofs.Text.Encoding
import PackageSigning.Proofs.Password.Sources
import PackageSigning.Proofs.Password.Secrecy
import PackageSigning.Proofs.Options.Written
import PackageSigning.Proofs.Options.Reader
import PackageSigning.Proofs.Options.Rule
import PackageSigning.Proofs.Options.Scope
import PackageSigning.Proofs.Options.Calls
import PackageSigning.Proofs.Options.WrittenScope
import PackageSigning.Proofs.Options.EndMark
import PackageSigning.Proofs.Command.Layout
import PackageSigning.Proofs.Command.Rules
import PackageSigning.Proofs.Command.EndMark
import PackageSigning.Proofs.Command.Usage
import PackageSigning.Proofs.Command.Arguments
import PackageSigning.Proofs.Provider
import PackageSigning.Proofs.Signer.InPlace
import PackageSigning.Proofs.World.Files
import PackageSigning.Proofs.Command.Sign
import PackageSigning.Proofs.Command.Writing
import PackageSigning.Proofs.Plugin
import PackageSigning.Proofs.Lineage.Rejection
import PackageSigning.Proofs.Lineage.Malformed
import PackageSigning.Proofs.Rotation.Extension
import PackageSigning.Proofs.Key.Decryption
import PackageSigning.Proofs.Json.Distinct
import PackageSigning.Proofs.Keystore.Loading
import PackageSigning.Proofs.Text.Base64
import PackageSigning.Proofs.Pem
import PackageSigning.Proofs.Keystore.OwnPassword
import PackageSigning.Proofs.Keystore.SharedPassword
import PackageSigning.Proofs.Signer.Nameless
import PackageSigning.Proofs.Options.History
import PackageSigning.Proofs.Command.Grouping
import PackageSigning.Proofs.Key.Factory
import PackageSigning.Proofs.Asn1.Front
import PackageSigning.Proofs.Pem.Length
import PackageSigning.Proofs.Certificate.Bundle
import PackageSigning.Proofs.Key.Trying
import PackageSigning.Proofs.Certificate.Issuers
