import SealedRecords.FileTree
import SealedRecords.Keys.Wrapping
import SealedRecords.Main
import SealedRecords.Outlines
import SealedRecords.Serde.Pairing
import SealedRecords.Proofs.Envelope.WireFormat
import SealedRecords.Proofs.RecordCipher.Outcomes
import SealedRecords.Proofs.Serde.Calls
import SealedRecords.Proofs.Serde.InClear
import SealedRecords.Proofs.Serde.NoFallback
import SealedRecords.Proofs.Serde.RoundTrip
import SealedRecords.Proofs.Serde.Transports
import SealedRecords.Proofs.Program.Handover
import SealedRecords.Proofs.Program.Leftovers
import SealedRecords.Proofs.Program.SelfAware
import SealedRecords.Proofs.Text.Utf8
import SealedRecords.Proofs.Keys.NameMaps
import SealedRecords.Proofs.Text.Hex
import SealedRecords.Proofs.Keys.Acceptance
import SealedRecords.Proofs.Keys.Loading
import SealedRecords.Proofs.Serde.WrappedKeys
import SealedRecords.Proofs.Cipher.Gcm
import SealedRecords.Proofs.Json.Reading
import SealedRecords.Proofs.Command.Steps
import SealedRecords.Proofs.Files.Listing
import SealedRecords.Proofs.Json.FlatObjects
import SealedRecords.Proofs.Command.SealThenOpen
import SealedRecords.Proofs.Files.Paths
import SealedRecords.Proofs.Files.Directories
import SealedRecords.Proofs.Files.Writing
import SealedRecords.Proofs.Files.Growth
import SealedRecords.Proofs.Keys.Adding
import SealedRecords.Proofs.Command.Arguments
import SealedRecords.Proofs.Command.MakingKeys
import SealedRecords.Proofs.Command.Keygen
import SealedRecords.Proofs.Serde.Opening
import SealedRecords.Proofs.Keys.Insertions
import SealedRecords.Proofs.Program.Secrets
import SealedRecords.Proofs.Command.Inspection
import SealedRecords.Proofs.Command.Traces
import SealedRecords.Proofs.Cipher.Inverse
import SealedRecords.Proofs.Slots.Table
import SealedRecords.Proofs.RecordCipher.Draws
import SealedRecords.Proofs.Program.Draws
import SealedRecords.Proofs.Envelope.Truncation
import SealedRecords.Proofs.Serde.Forwarding
import SealedRecords.Proofs.Slots.Pruning
import SealedRecords.Proofs.RecordCipher.Losses
import SealedRecords.Proofs.Serde.Losses
import SealedRecords.Proofs.Program.Losses
import SealedRecords.Proofs.Keys.HexKeys
import SealedRecords.Proofs.Text.Clean
import SealedRecords.Proofs.Text.References
import SealedRecords.Proofs.Command.ShownReferences
import SealedRecords.Proofs.Keys.Resolving
import SealedRecords.Proofs.Keys.Refusals
import SealedRecords.Proofs.Command.KeyDirectories
import SealedRecords.Proofs.Headers.Multimap
import SealedRecords.Proofs.Json.Orders
import SealedRecords.Proofs.Serde.PayloadCodecs
