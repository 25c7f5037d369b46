import Rusbmux.StepSystem
import Rusbmux.KeyTable
import Rusbmux.Errors
import Rusbmux.Utf8Lossy
import Rusbmux.MuxPacket
import Rusbmux.MuxParser
import Rusbmux.MuxParserSafety
import Rusbmux.Framing
import Rusbmux.UsbConn
import Rusbmux.AckLaw
import Rusbmux.Relay
import Rusbmux.RelayLoss
import Rusbmux.WriterLoop
import Rusbmux.RelayUpload
import Rusbmux.ParseStream
import Rusbmux.ReaderLoop
import Rusbmux.Shutdown
import Rusbmux.FlowControl
import Rusbmux.SourcePort
import Rusbmux.RouterLock
import Rusbmux.RegistryLock
import Rusbmux.UsbMux
import Rusbmux.MuxEncode
import Rusbmux.TcpWire
import Rusbmux.MuxRoundTrip
import Rusbmux.PairRecord
import Rusbmux.UsbMuxParser
import Rusbmux.ClientHandler
import Rusbmux.ClientStream
import Rusbmux.ClientReplies
import Rusbmux.Registry
import Rusbmux.Hotplug
import Rusbmux.Watchers
import Rusbmux.SerialReads
import Rusbmux.WatchersSound
import Rusbmux.DeviceObjects
import Rusbmux.WatchersTell
import Rusbmux.ListenerView
import Rusbmux.HandOver
import Rusbmux.Announced
import Rusbmux.ListenWire
import Rusbmux.SeqTiling
import Rusbmux.ConcurrentSends
import Rusbmux.NetworkEntries
import Rusbmux.NetworkIds
import Rusbmux.PlugUnplug
import Rusbmux.RemovalAnnounced
import Rusbmux.RegistryFrame
import Rusbmux.DeviceList
import Rusbmux.UsbMuxRoundTrip
import Rusbmux.FileSystem
import Rusbmux.BuidStability
import Rusbmux.PortRouting
import Rusbmux.RouterOwners
import Rusbmux.DeviceRst
import Rusbmux.DeviceRstEnds
import Rusbmux.RusbWriter
import Rusbmux.ZlpAccount
import Rusbmux.WriterPolls
import Rusbmux.ShardLocks
import Rusbmux.RouteGuard
import Rusbmux.ConnTeardown
import Rusbmux.ConnectCall
import Rusbmux.Handshake
import Rusbmux.PathResolution
import Rusbmux.RecordPaths
import Rusbmux.ClientProgress
import Rusbmux.PacketLayout
import Rusbmux.Utf8Reencode
import Rusbmux.DecodedPackets
import Rusbmux.RusbReader
import Rusbmux.ReaderPolls
import Rusbmux.ReadTiming
import Rusbmux.TransferLoop
import Rusbmux.SerialNumber
import Rusbmux.Heartbeat
import Rusbmux.EndpointSelection
import Rusbmux.IdLog
import Rusbmux.PollingStream
import Rusbmux.NusbWatch
import Rusbmux.IdPairing
import Rusbmux.ShortPackets
import Rusbmux.WriterTransfers
import Rusbmux.DeviceOpen
import Rusbmux.DeviceOpenRoutes
import Rusbmux.UploadWire
import Rusbmux.TransferRouting
import Rusbmux.TransferOwnership
import Rusbmux.DownloadWire
import Rusbmux.Broadcast
import Rusbmux.ListenLag
import Rusbmux.DeviceIds
import Rusbmux.FirstMatch
import Rusbmux.ServiceResolution
import Rusbmux.DownloadProgress
import Rusbmux.DeviceRelays
import Rusbmux.WriterProgress
