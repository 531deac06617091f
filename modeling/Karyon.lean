import Karyon.Core.QueueWakeups
import Karyon.P2p.Broadcast
import Karyon.P2p.HandshakeAgreement
import Karyon.P2p.NodeStatus
import Karyon.P2p.PoolShutdown
import Karyon.P2p.Advertisement
import Karyon.P2p.NodeEvents
import Karyon.P2p.PeerStop
import Karyon.P2p.PoolLocks
import Karyon.P2p.Mediation
import Karyon.P2p.WireDelivery
import Karyon.Swarm.SwarmKey
import Karyon.Jsonrpc.Transports
import Karyon.Utils.TopicListeners
import Karyon.Jsonrpc.QuicSubscriptions
import Karyon.Jsonrpc.Oversized
import Karyon.Swarm.Concurrency
import Karyon.P2p.PublicIp
import Karyon.P2p.WireReaders
import Karyon.P2p.LookupExchange
import Karyon.P2p.BloomMatching
import Karyon.LengthFields
import Karyon.Net.FramedSends
import Karyon.Stun.Server
import Karyon.Core.Backoff
import Karyon.Stun.Discover
import Karyon.P2p.PingReplay
import Karyon.Core.TaskBookkeeping
