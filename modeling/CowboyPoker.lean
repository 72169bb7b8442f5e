import CowboyPoker.Found.Transducer
import CowboyPoker.Found.LittleEndian
import CowboyPoker.Found.Decimal
import CowboyPoker.Found.DoubleIndex
import CowboyPoker.Found.FaultyWrites
import CowboyPoker.Found.Framing
import CowboyPoker.Found.Simulation
import CowboyPoker.ServerCore.BufferIO
import CowboyPoker.ServerCore.UdpSession
import CowboyPoker.ServerCore.UdpService
import CowboyPoker.ServerCore.Registry
import CowboyPoker.ServerCore.Deliveries
import CowboyPoker.ServerCore.RecvBuffer
import CowboyPoker.ServerCore.PacketSession
import CowboyPoker.GameServer.WeaponData
import CowboyPoker.GameServer.RedisClient
import CowboyPoker.GameServer.Packets
import CowboyPoker.GameServer.UdpServerPacketHandler
import CowboyPoker.GameServer.UdpGameSession
import CowboyPoker.GameServer.ServerRuns
import CowboyPoker.GameServer.SessionIds
import CowboyPoker.GameServer.AddressIsolation
import CowboyPoker.GameServer.SequenceFilter
import CowboyPoker.GameServer.UserIds
import CowboyPoker.GameServer.RelayBounds
import CowboyPoker.GameServer.RedisServer
import CowboyPoker.GameServer.AccountIsolation
import CowboyPoker.GameServer.Purchase
import CowboyPoker.GameServer.Economy
import CowboyPoker.GameServer.TwoThreads
import CowboyPoker.GameServer.Expiry
import CowboyPoker.GameServer.GhostPlayers
import CowboyPoker.GameServer.Handshakes
import CowboyPoker.GameServer.WireFormat
import CowboyPoker.GameServer.DatagramParsing
import CowboyPoker.GameServer.ServerPacketHandler
import CowboyPoker.GameServer.VariableBuilders
import CowboyPoker.GameServer.RecordReading
import CowboyPoker.GameServer.SessionTimeouts
import CowboyPoker.GameServer.MoveRelay
import CowboyPoker.ServerCore.StrandedSend
import CowboyPoker.ServerCore.LockExclusion
import CowboyPoker.ServerCore.WaitCycles
import CowboyPoker.ServerCore.ReceiveToken
import CowboyPoker.ServerCore.Connections
import CowboyPoker.ServerCore.SessionLife
import CowboyPoker.ServerCore.ReleaseRight
import CowboyPoker.ServerCore.SessionRegistry
import CowboyPoker.ServerCore.ConnectOnce
import CowboyPoker.ServerCore.ReleasedSessions
import CowboyPoker.ServerCore.DeafSessions
import CowboyPoker.ServerCore.SessionCap
import CowboyPoker.ServerCore.Allocator
import CowboyPoker.ServerCore.Rearming
import CowboyPoker.ServerCore.ReceiveRoom
import CowboyPoker.ServerCore.ThreadManager
import CowboyPoker.GameServer.UserKeys
import CowboyPoker.GameServer.AmmoReport
import CowboyPoker.ServerCore.RecursiveAcquisition
import CowboyPoker.ServerCore.UnlockChecking
import CowboyPoker.GameServer.FreshSequence
import CowboyPoker.ServerCore.PointerSafety
import CowboyPoker.Found.CriticalSection
import CowboyPoker.ServerCore.RegistryCalls
import CowboyPoker.ServerCore.RegistryThreads
import CowboyPoker.ServerCore.Peers
import CowboyPoker.GameServer.WorkerThreads
import CowboyPoker.GameServer.DatagramDelivery
import CowboyPoker.GameServer.LeaveNotices
import CowboyPoker.GameServer.AccountSafety
import CowboyPoker.GameServer.SendCauses
