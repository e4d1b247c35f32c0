import Fzsvn.Guarantees.Datastruct.ArenaSafety
import Fzsvn.Guarantees.Datastruct.DbufContract
import Fzsvn.Guarantees.Datastruct.ObjpoolIntegrity
import Fzsvn.Guarantees.Datastruct.ShashCounters
import Fzsvn.Guarantees.Debug.LogBalance
import Fzsvn.Guarantees.Debug.RingLog
import Fzsvn.Guarantees.Http.HeadAcceptance
import Fzsvn.Guarantees.Ipc.ShmpoolExclusion
import Fzsvn.Guarantees.Kernel.LogQueue
import Fzsvn.Guarantees.Netlink.AttributeCodec
import Fzsvn.Guarantees.Netutil.AddressOrder
import Fzsvn.Guarantees.Netutil.LooseTexts
import Fzsvn.Guarantees.Netutil.PrefixBits
import Fzsvn.Guarantees.Packet.InsertionPoint
import Fzsvn.Guarantees.Packet.DecodeSafety
import Fzsvn.Guarantees.Packet.HeaderChecksum
import Fzsvn.Guarantees.Packet.NetpktContract
import Fzsvn.Guarantees.Packet.SequenceCheck
import Fzsvn.Guarantees.Packet.TcpReassembly
import Fzsvn.Guarantees.Proxy.AcceptedWatch
import Fzsvn.Guarantees.Proxy.BlockedOutput
import Fzsvn.Guarantees.Proxy.CommandDelivery
import Fzsvn.Guarantees.Proxy.ConfigWellFormed
import Fzsvn.Guarantees.Proxy.ConfigText
import Fzsvn.Guarantees.Proxy.HalfClose
import Fzsvn.Guarantees.Proxy.InterestRecovery
import Fzsvn.Guarantees.Proxy.PhaseAgreement
import Fzsvn.Guarantees.Proxy.PoolTable
import Fzsvn.Guarantees.Proxy.ReleaseBalance
import Fzsvn.Guarantees.Proxy.RoundRobin
import Fzsvn.Guarantees.Proxy.ServerRefs
import Fzsvn.Guarantees.Proxy.SingleRelease
import Fzsvn.Guarantees.Proxy.SslBinding
import Fzsvn.Guarantees.Proxy.TaskQueue
import Fzsvn.Guarantees.Proxy.TableBounds
import Fzsvn.Guarantees.Proxy.TransientErrors
import Fzsvn.Guarantees.Proxy.WeightGcd
import Fzsvn.Guarantees.Socket.PoolReuse
import Fzsvn.Guarantees.Socket.SessionLookup
import Fzsvn.Guarantees.Datastruct.BucketCount
import Fzsvn.Guarantees.Socket.EventDispatch
import Fzsvn.Guarantees.Algorithm.Selection
import Fzsvn.Guarantees.Stdext.Copies
import Fzsvn.Guarantees.Stdext.Tokens
import Fzsvn.Guarantees.Stdext.Substrings
import Fzsvn.Guarantees.Kernel.BoundedFile
import Fzsvn.Guarantees.Sysutil.PidRoundTrip
