import LxcUio.Foundation.LabelledRun
import LxcUio.Foundation.HeapArray
import LxcUio.Foundation.CursorLog
import LxcUio.Foundation.CInt
import LxcUio.Foundation.LittleEndian
import LxcUio.Foundation.CText
import LxcUio.Foundation.Program
import LxcUio.Foundation.LockOrder
import LxcUio.Foundation.TwoPhase
import LxcUio.Foundation.SerialSections
import LxcUio.Foundation.ForwardSimulation
import LxcUio.Foundation.IocWord
import LxcUio.Foundation.Unwinding
import LxcUio.Foundation.BlockHeap
import LxcUio.Foundation.HeapShadow
import LxcUio.Foundation.WorkQueue
import LxcUio.Foundation.Ranking
import LxcUio.Foundation.StructBytes
import LxcUio.Protocol
import LxcUio.Proxy.ModuleTable
import LxcUio.Proxy.Cdev
import LxcUio.Proxy.TableLog
import LxcUio.Proxy.ServerRecord
import LxcUio.Proxy.UserData
import LxcUio.Proxy.Lookup
import LxcUio.Proxy.Packet
import LxcUio.Proxy.WriteDevice
import LxcUio.Proxy.Locks
import LxcUio.Proxy.SerialLocks
import LxcUio.Proxy.Device
import LxcUio.Proxy.DeviceRuns
import LxcUio.Proxy.StaleKernel
import LxcUio.Proxy.LoadUnload
import LxcUio.Proxy.KernelHeap
import LxcUio.Tap.LoadModule
import LxcUio.Tap.Permissions
import LxcUio.Server.UuidTable
import LxcUio.Server.TableRuns
import LxcUio.Server.TableGrowth
import LxcUio.Server.LifeCycle
import LxcUio.Server.InitializeMemory
import LxcUio.Server.ProcessEntry
import LxcUio.Server.MajorNumber
import LxcUio.Server.Main
import LxcUio.Server.ExitStatus
import LxcUio.Server.WorkDone
import LxcUio.Server.Serving
import LxcUio.Server.Registration
import LxcUio.Server.StaleHeap
import LxcUio.Server.GuestMemory
import LxcUio.Server.MemoryComplete
import LxcUio.Server.OneEntry
import LxcUio.Server.Settles
import LxcUio.Server.Stopped
import LxcUio.Server.ServerHeap
import LxcUio.Server.HeapRuns
import LxcUio.Server.LostBlocks
import LxcUio.System.ProcFile
import LxcUio.System.Delivery
import LxcUio.System.PoppedPointer
import LxcUio.System.LiveEventfd
import LxcUio.System.Host
import LxcUio.System.NewEntry
import LxcUio.System.Wakeup
import LxcUio.System.Mirror
import LxcUio.System.Generations
import LxcUio.System.Rest
import LxcUio.System.VmImage
import LxcUio.System.UserMessages
import LxcUio.System.IoctlDispatch
import LxcUio.System.AbsentProxy
