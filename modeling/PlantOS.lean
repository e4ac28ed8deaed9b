import PlantOS.Arch.Clock
import PlantOS.Disk.TurnOrder
import PlantOS.Fat.NameRoundTrip
import PlantOS.Fat.Resize
import PlantOS.Futex.Contract
import PlantOS.Gui.SheetCalls
import PlantOS.Gui.StateSequence
import PlantOS.Ide.Contract
import PlantOS.Input.HidReports
import PlantOS.Ipc.Timeout
import PlantOS.Ldso.AbsolutePath
import PlantOS.Ldso.Initialize
import PlantOS.Ldso.Symbols
import PlantOS.Ldso.Tls
import PlantOS.Libp.Barrier
import PlantOS.Libp.Exit
import PlantOS.Libp.Multibyte
import PlantOS.Libp.Rpc
import PlantOS.Libp.RuntimeArgs
import PlantOS.Libp.Semaphore
import PlantOS.Libp.Sort
import PlantOS.Libp.ThreadContract
import PlantOS.Libp.TimeContract
import PlantOS.Mm.Exclusive
import PlantOS.Mm.PageSearch
import PlantOS.Modules.Contract
import PlantOS.Net.Contract
import PlantOS.Net.Rtl8139
import PlantOS.Net.SlotContract
import PlantOS.Pipe.Blocked
import PlantOS.Pit.Contract
import PlantOS.Poll.Contract
import PlantOS.Sched.Pull
import PlantOS.Signal.Pending
import PlantOS.Task.Handoff
import PlantOS.Usb.Descriptors
import PlantOS.Usb.Storage
import PlantOS.Usb.WorkContract
import PlantOS.Vfs.Exclusion
import PlantOS.Vfs.IsoRead
import PlantOS.Vfs.RecordRequests
import PlantOS.Vfs.Reported
