import MultiFlow.Bats.DestWorkers
import MultiFlow.Bats.SourcePipeline
import MultiFlow.Dispatch.Producers
import MultiFlow.Dispatch.Wakeups
import MultiFlow.Dispatch.WorkerPackets
import MultiFlow.Fec.LengthTable
import MultiFlow.Fec.Pacing
import MultiFlow.Fec.Rejected
import MultiFlow.Pipeline.BufferTransfer
import MultiFlow.Relay.CacheExpiry
import MultiFlow.Relay.Chain
import MultiFlow.Relay.DatagramPool
import MultiFlow.Relay.EgressQueue
import MultiFlow.Relay.HubService
import MultiFlow.Relay.TxWorker
import MultiFlow.Wire.Arrivals
import MultiFlow.Wire.Isolation
import MultiFlow.Wire.SharedWindow
import MultiFlow.Wire.Transfer
import MultiFlow.Wirehair.EarlyAcks
import MultiFlow.Wirehair.PacketIds
import MultiFlow.Wirehair.ProtocolSafety
