import Tenet.Lib.GoMap
import Tenet.Lib.Run
import Tenet.Lib.Fragment
import Tenet.Lib.ByteStream
import Tenet.Lib.Announcement
import Tenet.Lib.Network
import Tenet.Lib.Custody
import Tenet.Lib.Slice
import Tenet.Wire
import Tenet.Noise
import Tenet.Peer
import Tenet.Mux
import Tenet.Node
import Tenet.Send
import Tenet.Receive
import Tenet.Readers
import Tenet.Delivery
import Tenet.Transcript
import Tenet.Splicing
import Tenet.NoSplicing
import Tenet.Handshake
import Tenet.Heartbeat
import Tenet.RelayAuth
import Tenet.Relay
import Tenet.Events
import Tenet.AddressTable
import Tenet.RelayGate
import Tenet.RelayDivert
import Tenet.Channels
import Tenet.ChannelDirection
import Tenet.ChannelViews
import Tenet.Demux
import Tenet.KcpRouting
import Tenet.HandshakeStep
import Tenet.UdpHandshake
import Tenet.UdpInvariant
import Tenet.UdpSteps
import Tenet.DuplicateTolerance
import Tenet.TcpHandshake
import Tenet.TcpAgreement
import Tenet.Reconnect
import Tenet.ReconnectLoop
import Tenet.ReconnectTasks
import Tenet.RelayFormat
import Tenet.TcpUpgrade
import Tenet.Rehandshake
import Tenet.RehandshakeFallback
import Tenet.Lib.InFlight
import Tenet.Lib.Handover
import Tenet.Codec
import Tenet.Activity
import Tenet.Attribution
import Tenet.Glare
import Tenet.RelayNet
import Tenet.RelayBothWays
import Tenet.RelaySeparate
import Tenet.SessionSwitch
import Tenet.SwitchDelivery
import Tenet.Lib.RefMap
import Tenet.KcpRegistry
import Tenet.PeerRemoval
import Tenet.KcpAddress
import Tenet.RemovalCalls
import Tenet.SessionCustody
import Tenet.SessionHygiene
import Tenet.ChannelOrder
import Tenet.Discovery
import Tenet.FrameLength
import Tenet.HandshakeCalls
import Tenet.Admission
import Tenet.PendingState
import Tenet.ConnectFlow
import Tenet.ConnectLeak
import Tenet.ConnectContinuations
import Tenet.Lib.RateWindow
import Tenet.Lib.HashIndex
import Tenet.Lib.Sweep
import Tenet.Throttle
import Tenet.TcpFraming
import Tenet.KcpSchedule
import Tenet.Reassembly
import Tenet.FailedSend
import Tenet.PendingExpiry
import Tenet.ChannelSet
import Tenet.Shutdown
import Tenet.Lib.Counted
import Tenet.Lib.Deadlines
import Tenet.Lib.Float64
import Tenet.Lib.Buffer
import Tenet.Lib.Mark
import Tenet.Lib.Loan
import Tenet.Lib.ValueSet
import Tenet.DiscoveryCodec
import Tenet.DiscoveryThrottle
import Tenet.TokenFreshness
import Tenet.Backoff
import Tenet.Probe
import Tenet.ProbeReader
import Tenet.NatInfo
import Tenet.RehandshakeMark
import Tenet.RehandshakeAlone
import Tenet.MuxClosing
import Tenet.RelayTables
import Tenet.Lib.KeepAlive
import Tenet.HeartbeatTiming
import Tenet.Lib.LockedWrites
import Tenet.TcpWriters
import Tenet.Lib.Gossip
import Tenet.DiscoveryMesh
import Tenet.NetworkIsolation
