import CLSP.Lib.Utf8
import CLSP.Lib.LineText
import CLSP.Lib.LineScan
import CLSP.Lib.Eol
import CLSP.Lib.Sequences
import CLSP.Lib.Decimal
import CLSP.Lib.Search
import CLSP.DocumentStore.Conversion
import CLSP.DocumentStore.Reference
import CLSP.DocumentStore.Malformed
import CLSP.DocumentStore.LspLines
import CLSP.DocumentStore.Theorems
import CLSP.DocumentStore.Validity
import CLSP.DocumentStore.Batches
import CLSP.Stdio.Theorems
import CLSP.Stdio.ContentLength
import CLSP.Stdio.HeaderFields
import CLSP.Uri.Theorems
import CLSP.Uri.PercentCodec
import CLSP.Rpc.JsonRpc
import CLSP.Rpc.Table
import CLSP.Rpc.Codec
import CLSP.Rpc.Fields
import CLSP.Protocol.Sync
import CLSP.Protocol.Positions
import CLSP.Protocol.Diagnostics
import CLSP.Protocol.Completion
import CLSP.Protocol.Lifecycle
import CLSP.Lib.Transition
import CLSP.SemanticTokens.Theorems
import CLSP.Pool.Runs
import CLSP.Pool.Wakeups
import CLSP.Server.Responses
import CLSP.Server.ErrorCodes
import CLSP.Server.Ids
import CLSP.Server.Lifecycle
import CLSP.Server.ExitCode
import CLSP.Server.Failure
import CLSP.Server.ReadLoop
import CLSP.Server.Silence
import CLSP.Server.Containment
import CLSP.Server.Callbacks
import CLSP.Server.Cancellation
import CLSP.Server.Ordering
import CLSP.Server.Serial
import CLSP.Server.Hooks
import CLSP.Server.Targets
import CLSP.Server.TokenTable
import CLSP.Server.Answers
import CLSP.Lib.Channel
import CLSP.Lib.Locked
import CLSP.Server.Outgoing
import CLSP.Server.Wire
import CLSP.Server.Peers
import CLSP.Server.TypedCalls
import CLSP.Server.Documents
import CLSP.Server.Pipes
import CLSP.Lib.Fairness
import CLSP.Server.Scheduling
import CLSP.Server.Liveness
import CLSP.Server.Return
import CLSP.Server.Convergence
import CLSP.Pool.Liveness
import CLSP.Server.Calls
import CLSP.Protocol.SemanticTokens
import CLSP.Protocol.Capabilities
import CLSP.Server.Initialize
import CLSP.Server.Agreement
import CLSP.Server.Messages
import CLSP.Server.Input
import CLSP.Server.Conservation
