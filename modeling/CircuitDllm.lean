import CircuitDllm.Api.Sse
import CircuitDllm.Api.ToolCalls
import CircuitDllm.Batch.Scheduler
import CircuitDllm.Coord.Admission
import CircuitDllm.Coord.Attempts
import CircuitDllm.Coord.AuditRound
import CircuitDllm.Coord.Chain
import CircuitDllm.Coord.ChainFault
import CircuitDllm.Coord.ChainRoute
import CircuitDllm.Coord.ChainSession
import CircuitDllm.Coord.EagleContext
import CircuitDllm.Coord.Lending
import CircuitDllm.Coord.OwnReplies
import CircuitDllm.Coord.PrefixCache
import CircuitDllm.Coord.Rehome
import CircuitDllm.Coord.Release
import CircuitDllm.Coord.RemoteRoutes
import CircuitDllm.Coord.SessionIds
import CircuitDllm.Coord.Speculative
import CircuitDllm.Coord.WorkerThreads
import CircuitDllm.Decode.Text
import CircuitDllm.Kv.Simulation
import CircuitDllm.Lib.Apportion
import CircuitDllm.Lib.Balance
import CircuitDllm.Lib.Codec
import CircuitDllm.Lib.Json
import CircuitDllm.Lib.Matching
import CircuitDllm.Lib.Numeral
import CircuitDllm.Lib.Regex
import CircuitDllm.Lib.Tiling
import CircuitDllm.Lib.Walk
import CircuitDllm.Mesh.Audit
import CircuitDllm.Mesh.Build
import CircuitDllm.Mesh.Canonical
import CircuitDllm.Mesh.Churn
import CircuitDllm.Mesh.Durable
import CircuitDllm.Mesh.Heal
import CircuitDllm.Mesh.Ledger
import CircuitDllm.Mesh.LoadAccounting
import CircuitDllm.Mesh.Partition
import CircuitDllm.Mesh.Placement
import CircuitDllm.Mesh.Plan
import CircuitDllm.Mesh.SignedRequests
import CircuitDllm.Mesh.Spread
import CircuitDllm.Mesh.Staffing
import CircuitDllm.Mesh.Strikes
import CircuitDllm.Mesh.TrustLife
import CircuitDllm.Mesh.WeightedSplit
import CircuitDllm.Onchain.AuditAuthority
import CircuitDllm.Onchain.Layout
import CircuitDllm.Relay.Handshake
import CircuitDllm.Relay.Ownership
import CircuitDllm.Relay.Pipe
import CircuitDllm.Shard.Catalog
import CircuitDllm.Shard.Complete
import CircuitDllm.Shard.Slice
import CircuitDllm.Shard.SubModel
import CircuitDllm.SpecDecode.Targets
import CircuitDllm.TreeDecode.Build
import CircuitDllm.TreeDecode.Exact
import CircuitDllm.TreeDecode.MaskFrame
import CircuitDllm.Wire.Fields
import CircuitDllm.Wire.Frame
import CircuitDllm.Wire.Tensor
