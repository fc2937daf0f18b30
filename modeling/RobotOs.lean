import RobotOs.Ipc.CapRevocation
import RobotOs.Ipc.CapQuota
import RobotOs.Kernel.MotorControl
import RobotOs.Ota.MetaStore
import RobotOs.Ota.BootMachine
import RobotOs.Sched.SchedWord
import RobotOs.Syscall.FastCall
import RobotOs.Syscall.RpcCall
import RobotOs.Brain.ReplayDefence
import RobotOs.Crypto.SessionGate
import RobotOs.Ipc.ChannelRing
import RobotOs.Ipc.LeaseRun
import RobotOs.Ipc.RingPages
import RobotOs.Ipc.ShmAccounting
import RobotOs.Sched.ApsState
import RobotOs.Sched.ApsWindow
import RobotOs.Syscall.PortEvents
import RobotOs.Ipc.PipeRing
import RobotOs.Net.TcpReceive
import RobotOs.Net.TcpReclaim
import RobotOs.Net.TcpRetention
import RobotOs.Dfu.Recovery
import RobotOs.Flight.LoopSafety
import RobotOs.Net.TcpInjection
import RobotOs.Net.Tftp
import RobotOs.Drivers.DriverCorrelation
import RobotOs.Drivers.VirtioNet
import RobotOs.Ipc.CapDereference
import RobotOs.Ipc.FastIpcSweep
import RobotOs.Ipc.IoRingCompletions
import RobotOs.Ipc.TypedTransactions
import RobotOs.Ml.GgufSafety
import RobotOs.Msc.Dispatch
import RobotOs.Net.DnsProvenance
import RobotOs.Ipc.PipeReuse
import RobotOs.Ipc.SignalIsolation
import RobotOs.Sched.EdfServers
import RobotOs.Sched.RunqueueIntegrity
import RobotOs.Sched.CfsFairness
import RobotOs.Behavior.Tilt
import RobotOs.Drivers.MotorPidLaw
import RobotOs.Robot.Odometry
import RobotOs.Ota.SecureBoot
import RobotOs.Sched.UserCopy
import RobotOs.Net.TcpDuplicates
import RobotOs.Crypto.NonceReuse
import RobotOs.Fs.VfsFat32
import RobotOs.Fs.FatTable
import RobotOs.Net.Checksum
import RobotOs.Crypto.Sha256
import RobotOs.Net.Arp
import RobotOs.Drivers.StaleCompletion
import RobotOs.Flight.Path3d
import RobotOs.Gps.Nmea
import RobotOs.Config.Store
import RobotOs.Net.TcpAccept
