import Depot.Artifact
import Depot.Config
import Depot.Content
import Depot.Digest.Sha256
import Depot.Framing
import Depot.Gateway.Basic
import Depot.Gateway.Error
import Depot.Gateway.Input
import Depot.Gateway.Route
import Depot.Http.Form
import Depot.Http.MediaType
import Depot.Http.Message
import Depot.Http.Token
import Depot.Identifier
import Depot.Identifier.Parser
import Depot.Json.Decoder
import Depot.Json.Number
import Depot.Json.Token
import Depot.Json.Value
import Depot.Json.Writer
import Depot.Limits
import Depot.Manifest
import Depot.QualifiedName
import Depot.Reader
import Depot.Registry.Basic
import Depot.Registry.Error
import Depot.Registry.Faults
import Depot.SocketAddress
import Depot.Store.Basic
import Depot.Store.Upload
import Depot.Store.Version
import Depot.TaskQueue
import Depot.Text.Base64
import Depot.Text.Blank
import Depot.Text.Decimal
import Depot.Text.Hex
import Depot.Text.Percent
import Depot.Text.Quoted
import Depot.Text.Reading
import Depot.Text.Unprintable
import Depot.Text.Utf8
import Depot.Time.Calendar
import Depot.Time.Timestamp
import Depot.Toml.Document
import Depot.Toml.Moment
import Depot.Toml.Number
import Depot.Toml.Parser
import Depot.Toml.Text
import Depot.Toml.Value
import Depot.Transfer.Download
import Depot.Transfer.FormUpload
import Depot.Transfer.Metadata
import Depot.Transfer.State
import Depot.Transfer.Upload
import Depot.Wire
import Depot.Proofs.Digest
import Depot.Proofs.StoreInvariant
import Depot.Proofs.TagMap
import Depot.Proofs.Framing
import Depot.Proofs.Relay
import Depot.Proofs.Serialisation
import Depot.Proofs.Fidelity
import Depot.Proofs.Forwarding
import Depot.Proofs.Session
import Depot.Proofs.FailedUpload
import Depot.Proofs.FailedRequest
import Depot.Proofs.BoundedRead
import Depot.Proofs.PartAcceptance
import Depot.Proofs.FormMetadata
import Depot.Proofs.FormAcceptance
import Depot.Proofs.TransferLog
import Depot.Proofs.Isolation
import Depot.Proofs.ConcurrentDownload
import Depot.Proofs.Served
import Depot.Proofs.TagTokens
import Depot.Proofs.BodyLimit
import Depot.Proofs.PullCount
import Depot.Proofs.CommitEffect
import Depot.Proofs.Refusals
import Depot.Proofs.EmptyTags
import Depot.Proofs.InStep
import Depot.Proofs.InternalFaults
import Depot.Proofs.IdentifierGrammar
import Depot.Proofs.IdentifierText
import Depot.Proofs.QueueHistory
import Depot.Proofs.RelayLoop
import Depot.Proofs.Calendar
import Depot.Proofs.DecimalText
import Depot.Proofs.JsonReading
import Depot.Proofs.TimestampText
import Depot.Proofs.WireForms
import Depot.Proofs.Targets
import Depot.Proofs.IndependentWrites
import Depot.Proofs.Downloads
import Depot.Proofs.MetadataLimits
import Depot.Proofs.ByteOrder
import Depot.Proofs.Listing
import Depot.Proofs.SessionCount
import Depot.Proofs.Base64Text
import Depot.Proofs.JsonGrammar
import Depot.Proofs.RecordGrammar
import Depot.Proofs.ManifestGrammar
import Depot.Proofs.ManifestAcceptance
import Depot.Proofs.FrameSpans
import Depot.Proofs.InputCeiling
