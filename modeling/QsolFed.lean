import QsolFed.Library.Checked
import QsolFed.Library.OrderedMap
import QsolFed.Library.Run
import QsolFed.Library.Text
import QsolFed.Library.Lines
import QsolFed.Library.Calendar
import QsolFed.Library.Json.Syntax
import QsolFed.Library.Json.RoundTrip
import QsolFed.Library.Json.Reorder
import QsolFed.Library.Json.Codec
import QsolFed.Library.Acyclic
import QsolFed.Library.Effect
import QsolFed.Library.Files
import QsolFed.Library.Search
import QsolFed.Library.Sorting
import QsolFed.Library.Replace
import QsolFed.Library.Linked
import QsolFed.Library.Json.Sound
import QsolFed.Library.Regex
import QsolFed.Library.Bpf
import QsolFed.Library.Json.Written
import QsolFed.Library.Paired
import QsolFed.Wire
import QsolFed.Wire.Grammars
import QsolFed.Canonical
import QsolFed.Canonical.NormalForm
import QsolFed.Canonical.Settled
import QsolFed.Canonical.Plain
import QsolFed.Canonical.Size
import QsolFed.Canonical.Agreement
import QsolFed.Digest
import QsolFed.Envelope
import QsolFed.Crypto
import QsolFed.Encoding
import QsolFed.Canonical.Reordered
import QsolFed.Canonical.Binding
import QsolFed.Encoding.Size
import QsolFed.Encoding.Growth
import QsolFed.Signed
import QsolFed.Envelope.Wire
import QsolFed.Identity
import QsolFed.Identity.Records
import QsolFed.Identity.Encoding
import QsolFed.Identity.Windows
import QsolFed.Identity.Overlap
import QsolFed.Identity.Attempts
import QsolFed.Replay
import QsolFed.Replay.Log
import QsolFed.Replay.Admission
import QsolFed.Replay.Reopen
import QsolFed.Replay.Failure
import QsolFed.Replay.Retry
import QsolFed.Replay.Capacity
import QsolFed.Peering
import QsolFed.Peering.Records
import QsolFed.Peering.Registry
import QsolFed.Peering.Partition
import QsolFed.Peering.Extension
import QsolFed.Peering.History
import QsolFed.Peering.Policy
import QsolFed.Peering.Trust
import QsolFed.Peering.Durability
import QsolFed.Store
import QsolFed.Store.Disk
import QsolFed.Store.Records
import QsolFed.Store.Foreign
import QsolFed.Store.Listing
import QsolFed.Store.Accrual
import QsolFed.Store.Moves
import QsolFed.Store.Descendants
import QsolFed.Store.Conservation
import QsolFed.Store.Derivation
import QsolFed.Store.Stops
import QsolFed.Store.Rejection
import QsolFed.Store.Repeats
import QsolFed.Store.Additions
import QsolFed.Bundle
import QsolFed.Bundle.Embedded
import QsolFed.Bundle.Verified
import QsolFed.Bundle.Size
import QsolFed.Bundle.Peers
import QsolFed.Bundle.Outcomes
import QsolFed.Bundle.Imports
import QsolFed.Bundle.Expansion
import QsolFed.Bundle.Exports
import QsolFed.Bundle.Selections
import QsolFed.Bundle.Resume
import QsolFed.Bundle.Completeness
import QsolFed.Bundle.Partial
import QsolFed.Adapters
import QsolFed.Adapters.Membrane
import QsolFed.Assembly
import QsolFed.Assembly.Operations
import QsolFed.Assembly.Members
import QsolFed.Assembly.Electorates
import QsolFed.Assembly.Receipts
import QsolFed.Assembly.Outcome
import QsolFed.Holodeck
import QsolFed.Holodeck.Calls
import QsolFed.Holodeck.Audit
import QsolFed.Holodeck.Ledger
import QsolFed.Holodeck.Safeguards
import QsolFed.Holodeck.Plans
import QsolFed.Adapters.WorldPlan
import QsolFed.Holodeck.Receipts
import QsolFed.Holodeck.Codecs
import QsolFed.Adapters.Preservation
import QsolFed.Adapters.Nexus
import QsolFed.Invariants
import QsolFed.Api
import QsolFed.Api.Hello
import QsolFed.Api.Interleaving
import QsolFed.Api.Poisoning
import QsolFed.Api.Retry
import QsolFed.Transport
import QsolFed.Transport.Relay
import QsolFed.Transport.Queue
import QsolFed.Oracle
import QsolFed.Sdk
import QsolFed.Oracle.Answers
import QsolFed.Sandbox
import QsolFed.Signing
import QsolFed.Signing.Wire
import QsolFed.Bundle.Spelling
import QsolFed.Bundle.Realised
import QsolFed.Signing.Verdict
import QsolFed.Signing.Advertisements
import QsolFed.Signing.Records
import QsolFed.Transport.Identified
import QsolFed.Transport.Packages
