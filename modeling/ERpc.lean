import ERpc.Lib.Reach
import ERpc.Lib.Chunk
import ERpc.Lib.DList
import ERpc.Lib.OptVec
import ERpc.Lib.Extent
import ERpc.Lib.OnesSum
import ERpc.Lib.TimeQueue
import ERpc.Lib.Arc
import ERpc.Lib.Histogram
import ERpc.Model.Wire
import ERpc.Model.State
import ERpc.Model.Client
import ERpc.Model.Server
import ERpc.Model.Uri
import ERpc.Model.Sm
import ERpc.Model.Reset
import ERpc.Model.Nexus
import ERpc.Model.HugeAlloc
import ERpc.Model.EthCommon
import ERpc.Model.QpOwnership
import ERpc.Model.HeartbeatMgr
import ERpc.Model.IbTransport
import ERpc.Model.TimingWheel
import ERpc.Model.IbRecv
import ERpc.Model.TxBatch
import ERpc.Model.Latency
import ERpc.Model.MtQueue
import ERpc.Model.NexusHooks
import ERpc.Spec.Client
import ERpc.Spec.Server
import ERpc.Spec.Latency
import ERpc.System.SmNet
import ERpc.System.SmRpc
import ERpc.System.SmWrap
import ERpc.System.Datapath
import ERpc.System.View
import ERpc.System.SlotInv
import ERpc.System.Inv
import ERpc.System.ServerStep
import ERpc.System.ClientFrame
import ERpc.System.Reset
import ERpc.System.Segment
import ERpc.System.HugeAlloc
import ERpc.System.ServerAlloc
import ERpc.System.MsgLayout
import ERpc.System.QpOwnership
import ERpc.System.HeartbeatMgr
import ERpc.System.IbTransport
import ERpc.System.TimingWheel
import ERpc.System.IbRecv
import ERpc.System.TxBatch
import ERpc.System.BgQueues
import ERpc.System.Registry
