import DragoonKernel.Library.Transition
import DragoonKernel.PageAllocatorOwnership
import DragoonKernel.PageAccounting
import DragoonKernel.PageTableMapping
import DragoonKernel.AddressSpaceTeardown
import DragoonKernel.IdentityMap
import DragoonKernel.IpcDelivery
import DragoonKernel.IpcBlocking
import DragoonKernel.IpcIncarnation
import DragoonKernel.ContextSwitch
import DragoonKernel.TaskReuse
import DragoonKernel.KmallocBounds
import DragoonKernel.SchedRoundRobin
import DragoonKernel.SchedIrqMask
import DragoonKernel.SmpCurrent
import DragoonKernel.WaitQueueFifo
import DragoonKernel.WaitQueueTasks
import DragoonKernel.WaitQueueTimeouts
import DragoonKernel.FutexWakeup
import DragoonKernel.FutexSequential
import DragoonKernel.TaskRunSpec
import DragoonKernel.TaskAsids
import DragoonKernel.TaskMemory
import DragoonKernel.TaskRoots
import DragoonKernel.TaskCount
import DragoonKernel.TaskCreateRace
import DragoonKernel.CapHandles
import DragoonKernel.CapConfinement
import DragoonKernel.SyscallArguments
import DragoonKernel.TlbIsolation
import DragoonKernel.Spinlock
import DragoonKernel.VirtioInput
import DragoonKernel.VirtioMalformed
import DragoonKernel.VirtioShift
import DragoonKernel.VirtioNames
import DragoonKernel.UartKeys
import DragoonKernel.FwCfg
import DragoonKernel.IrqRequests
import DragoonKernel.PlatformMatching
import DragoonKernel.WmHitTest
import DragoonKernel.WmFrame
import DragoonKernel.WmReach
import DragoonKernel.WmBuffers
import DragoonKernel.GpuPixels
import DragoonKernel.PrintfNumbers
import DragoonKernel.GuiApps
import DragoonKernel.GuiClicks
import DragoonKernel.RaycasterHits
import DragoonKernel.TermLines
import DragoonKernel.TetrisConsistent
import DragoonKernel.SnakeFood
import DragoonKernel.SnakeTurns
import DragoonKernel.BreakoutWalls
import DragoonKernel.GpuText
import DragoonKernel.TermShellCore
import DragoonKernel.TermShell
import DragoonKernel.BreakoutLedger
import DragoonKernel.TetrisLedger
import DragoonKernel.TetrisDrop
import DragoonKernel.SnakeTrail
import DragoonKernel.VectorsResume
import DragoonKernel.Desktop
import DragoonKernel.VirtioBringUp
import DragoonKernel.VirtioTabletCore
import DragoonKernel.VirtioTablet
import DragoonKernel.DesktopPointer
import DragoonKernel.SnakeDrawCore
import DragoonKernel.SnakeWindow
