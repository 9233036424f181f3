import VirtioOsx.Lib.CycleWalk
import VirtioOsx.Lib.OnesComplement
import VirtioOsx.Lib.Pool
import VirtioOsx.Lib.Runs
import VirtioOsx.Lib.Threaded
import VirtioOsx.Lib.RingWindow
import VirtioOsx.BalloonFailures
import VirtioOsx.BalloonPages
import VirtioOsx.BalloonReferences
import VirtioOsx.BalloonSystem
import VirtioOsx.BlockLimits
import VirtioOsx.BlockPoolWaiting
import VirtioOsx.BlockRange
import VirtioOsx.BlockRequests
import VirtioOsx.BlockReset
import VirtioOsx.BlockWire
import VirtioOsx.SCSIProgress
import VirtioOsx.SCSIWire
import VirtioOsx.SCSITargets
import VirtioOsx.SCSITaskManagement
import VirtioOsx.SCSITransferCount
import VirtioOsx.SetupVirtqueue
import VirtioOsx.CompletionRuns
import VirtioOsx.DebuggerReceive
import VirtioOsx.DeviceRuns
import VirtioOsx.DeviceView
import VirtioOsx.DmaRuns
import VirtioOsx.EmissionBounds
import VirtioOsx.IndirectView
import VirtioOsx.InterruptEnabling
import VirtioOsx.LegacyPCIDevice
import VirtioOsx.MbufDescriptor
import VirtioOsx.MultiSubrange
import VirtioOsx.NetDriverDevice
import VirtioOsx.PCICapabilities
import VirtioOsx.PublicationRuns
import VirtioOsx.RegisterAccess
import VirtioOsx.Shutdown
import VirtioOsx.SubmitAtomicity
import VirtioOsx.SubmitLoad
import VirtioOsx.TcpChecksum
