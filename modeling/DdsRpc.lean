import DdsRpc.Library.StdMap
import DdsRpc.Library.OptionRel
import DdsRpc.Library.Machine
import DdsRpc.Library.SharedObject
import DdsRpc.Library.Programs
import DdsRpc.Library.NumberedCalls
import DdsRpc.Library.Chains
import DdsRpc.Library.Faults
import DdsRpc.Library.ReadModifyWrite
import DdsRpc.Library.Updates
import DdsRpc.Library.Ownership
import DdsRpc.Library.Heap
import DdsRpc.RpcTypes
import DdsRpc.Connext
import DdsRpc.RequesterImpl
import DdsRpc.Session
import DdsRpc.Numbering
import DdsRpc.Execute
import DdsRpc.Futures
import DdsRpc.Samples
import DdsRpc.Correlation
import DdsRpc.LatestRequest
import DdsRpc.ReceiveReply
import DdsRpc.ReplierImpl
import DdsRpc.RequestIds
import DdsRpc.RobotTypes
import DdsRpc.Dispatcher
import DdsRpc.Serving
import DdsRpc.ClientImpl
import DdsRpc.RemoteCalls
import DdsRpc.RemoteRefinement
import DdsRpc.RemotePrograms
import DdsRpc.FutureAdapter
import DdsRpc.ClientReplies
import DdsRpc.ClientCalls
import DdsRpc.AsyncCalls
import DdsRpc.AsyncClients
import DdsRpc.AsyncRefinement
import DdsRpc.AsyncPrograms
import DdsRpc.AsyncSchedules
import DdsRpc.ServerImpl
import DdsRpc.RobotServers
import DdsRpc.ServerAgreement
import DdsRpc.SpeedLimit
import DdsRpc.TestSynchronous
import DdsRpc.TestAsynchronous
import DdsRpc.RequestReply
import DdsRpc.RequestReplyRefinement
import DdsRpc.RequestReplyLoops
import DdsRpc.AsyncRequests
import DdsRpc.Speedup
import DdsRpc.SpeedupClients
import DdsRpc.TestSynchronousApi
import DdsRpc.AsyncRequestSchedules
import DdsRpc.TestSynchronousFuture
import DdsRpc.TestAsynchronousRace
import DdsRpc.Nondata
import DdsRpc.Lifecycle
import DdsRpc.ExecuteEnds
import DdsRpc.Captures
import DdsRpc.UniqueData
import DdsRpc.UniqueDataFrame
import DdsRpc.ReplyData
import DdsRpc.Params
import DdsRpc.ParamsRecords
import DdsRpc.ParamsValues
import DdsRpc.Construction
import DdsRpc.DefaultParticipant
import DdsRpc.ConstructionNames
