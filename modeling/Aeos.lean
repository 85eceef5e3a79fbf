import Aeos.Afs.BootCount
import Aeos.Afs.Bounds
import Aeos.Afs.RefusedWrite
import Aeos.Afs.Space
import Aeos.Ai.History
import Aeos.Ai.Clock
import Aeos.Ai.Consciousness
import Aeos.Ai.Rate
import Aeos.Ai.Scans
import Aeos.Blk.Submit
import Aeos.Dtb.Uart
import Aeos.Frame.Errors
import Aeos.Frame.Ledger
import Aeos.Frame.Paging
import Aeos.Frame.Runs
import Aeos.Ipc.Channel
import Aeos.Ipc.Queues
import Aeos.Mem.Bitmap
import Aeos.Mem.KernelMap
import Aeos.Mem.Separation
import Aeos.Net.Buffers
import Aeos.Net.Ping
import Aeos.Proc.Identity
import Aeos.Proc.Isolation
import Aeos.Proc.Liveness
import Aeos.Proc.Reaping
import Aeos.Ramfs.Deleted
import Aeos.Sched.Fairness
import Aeos.Sched.Watchdog
import Aeos.Scheduler.Policy
import Aeos.Scheduler.Stable
import Aeos.Scheduler.Stacks
import Aeos.Sdk.Backends
import Aeos.Sdk.Mirrors
import Aeos.Sdk.Weights
import Aeos.Security.Audit
import Aeos.Security.Delegation
import Aeos.Shell.Install
import Aeos.Shell.Line
import Aeos.Smp.Jobs
import Aeos.Switch.X86
import Aeos.Sync.Items
import Aeos.Syscall.Names
import Aeos.Syscall.OpenCounts
import Aeos.Syscall.Waitpid
import Aeos.Trap.Return
import Aeos.Vnet.Delivery
import Aeos.X86.Interrupts
