import McpRe.Admission.Check
import McpRe.Admission.Enforcer
import McpRe.Admission.Record
import McpRe.Admission.Verify.Enforcer
import McpRe.Admission.Verify.Record
import McpRe.Audit.Record
import McpRe.Audit.Verify.Record
import McpRe.Continuation.Plane
import McpRe.Continuation.Verify.Plane
import McpRe.Exchange.Progress
import McpRe.Exchange.Verify.Progress
import McpRe.Handshake.Ocsp
import McpRe.Handshake.Quota
import McpRe.Handshake.Verify.Ocsp
import McpRe.Handshake.Verify.Quota
import McpRe.Http.Artifact
import McpRe.Http.Block
import McpRe.Http.Body
import McpRe.Http.BoundResponse
import McpRe.Http.Chain
import McpRe.Http.Custody
import McpRe.Http.Delegation
import McpRe.Http.Digest
import McpRe.Http.Floor
import McpRe.Http.Message
import McpRe.Http.Response
import McpRe.Http.Serde
import McpRe.Http.SigBase
import McpRe.Http.SignatureInput
import McpRe.Http.Strip
import McpRe.Http.Verify.BaseInjective
import McpRe.Http.Verify.Body
import McpRe.Http.Verify.BoundResponse
import McpRe.Http.Verify.Chain
import McpRe.Http.Verify.ChainVerdict
import McpRe.Http.Verify.Components
import McpRe.Http.Verify.Continuation
import McpRe.Http.Verify.Custody
import McpRe.Http.Verify.CustodyAudit
import McpRe.Http.Verify.CustodySign
import McpRe.Http.Verify.Floor
import McpRe.Http.Verify.Identity
import McpRe.Http.Verify.JsonPath
import McpRe.Http.Verify.Parameters
import McpRe.Http.Verify.Sign
import McpRe.Http.Verify.Spelling
import McpRe.Http.Verify.Strip
import McpRe.Http.Verify.StripNames
import McpRe.Http.Verify.StripPositions
import McpRe.Inner.Pool
import McpRe.Lib.Chain
import McpRe.Lib.Counter
import McpRe.Lib.Delimited
import McpRe.Lib.Dict
import McpRe.Lib.Directory
import McpRe.Lib.Double
import McpRe.Lib.Folder
import McpRe.Lib.I64
import McpRe.Lib.Lines
import McpRe.Lib.Merkle
import McpRe.Lib.QuoteSplit
import McpRe.Lib.Result
import McpRe.Lib.Run
import McpRe.Lib.Slots
import McpRe.Lib.Table
import McpRe.Lib.Trail
import McpRe.Manifest.Floor
import McpRe.Manifest.Load
import McpRe.Manifest.Verify.Floor
import McpRe.Replay.Cache
import McpRe.Replay.Ledger
import McpRe.Replay.Retained
import McpRe.Replay.Shared
import McpRe.Replay.Tier
import McpRe.Replay.Verify.Cache
import McpRe.Replay.Verify.Key
import McpRe.Replay.Verify.Ledger
import McpRe.Replay.Verify.Reserve
import McpRe.Replay.Verify.Retained
import McpRe.Replay.Verify.Shared
import McpRe.Replay.Verify.Tier
import McpRe.Retention.Record
import McpRe.Retention.Store
import McpRe.Retention.Verify.Capacity
import McpRe.Retention.Verify.Record
import McpRe.Retention.Verify.Store
import McpRe.Scitt.Commitment
import McpRe.Scitt.Merkle
import McpRe.Sdk.Correlation
import McpRe.Sdk.Verify.Correlation
import McpRe.Trust.Cache
import McpRe.Trust.Epoch
import McpRe.Trust.Reload
import McpRe.Trust.Shared
import McpRe.Trust.Verify.Cache
import McpRe.Trust.Verify.Epoch
import McpRe.Trust.Verify.Reload
import McpRe.Trust.Verify.Shared
import McpRe.Transport.Response
import McpRe.Transport.Verify.Response
import McpRe.Lib.Tally
import McpRe.Inner.Verify.Pool
import McpRe.Inner.Verify.Probe
import McpRe.Audit.Sink
import McpRe.Audit.Verify.Sink
import McpRe.Replay.Etcd
import McpRe.Replay.Verify.Etcd
import McpRe.Http.Bodyless
import McpRe.Http.Verify.Bodyless
import McpRe.Scitt.Verify.Inclusion
import McpRe.Display.Locator
import McpRe.Scitt.Verify.Commitment
import McpRe.Display.Verify.Locator
import McpRe.Outbound.Address
import McpRe.Outbound.Verify.Address
import McpRe.Core.Time
import McpRe.Lib.Calendar
import McpRe.Core.Verify.Calendar
import McpRe.Lib.Ascii
import McpRe.Core.Verify.Time
import McpRe.Http.Verify.Decimal
