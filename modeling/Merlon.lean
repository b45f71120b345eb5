import Merlon.Heap.Realloc
import Merlon.Heap.SizeContract
import Merlon.Physical.Accounting
import Merlon.Physical.Swapfile
import Merlon.Irq.Draining
import Merlon.Virtual.Flags
import Merlon.Virtual.Wiping
import Merlon.Virtual.Eviction
import Merlon.Threads.TaskRuns
import Merlon.Process.Exits
import Merlon.Process.Reaping
import Merlon.Files.Refinement
import Merlon.Files.References
import Merlon.DemoFs.Reading
import Merlon.DemoFs.Listing
import Merlon.Dev.Partition
import Merlon.Threads.Deferrals
import Merlon.Irq.Locks
import Merlon.Sync.MessageBoxRuns
import Merlon.Dev.Pipe
import Merlon.Dev.Terminal
import Merlon.Vfs.OpenFlags
import Merlon.Vfs.Creating
import Merlon.Vfs.Balance
import Merlon.Vfs.Lifetime
import Merlon.Vfs.Registration
import Merlon.Libc.MallocRuns
import Merlon.Libc.Strtok
import Merlon.Drivers.Reload
import Merlon.Drivers.Loading
import Merlon.Sys.Indices
import Merlon.Sys.ProgramHeaders
import Merlon.Threads.GroupSignals
import Merlon.Threads.Priority
import Merlon.Signals.Waits
import Merlon.Signals.Stops
import Merlon.Signals.Masks
