import VirtioMem.Core.Allocation
import VirtioMem.Core.DeviceSelection
import VirtioMem.Core.DeviceSizes
import VirtioMem.Core.GuestPolicy
import VirtioMem.Core.History
import VirtioMem.Core.JournalRuns
import VirtioMem.Core.Reason
import VirtioMem.Core.Units
import VirtioMem.Core.WindowsPath
import VirtioMem.Guest.Emergency
import VirtioMem.Guest.Evidence
import VirtioMem.Guest.Handoff
import VirtioMem.Guest.Reclaim
import VirtioMem.Guest.ServiceHost
import VirtioMem.Guest.ServiceRuns
import VirtioMem.Guest.ServiceThreads
import VirtioMem.Guest.StopSignal
import VirtioMem.Host.Agreement
import VirtioMem.Host.AttestedArgv
import VirtioMem.Host.Channel
import VirtioMem.Host.Charges
import VirtioMem.Host.CheckpointStore
import VirtioMem.Host.Extension
import VirtioMem.Host.GuestFiles
import VirtioMem.Host.Latched
import VirtioMem.Host.Limits
import VirtioMem.Host.Recovery
import VirtioMem.Host.Refusal
import VirtioMem.Host.Reserve
import VirtioMem.Host.ResizeSink
import VirtioMem.Host.Service
import VirtioMem.Joint.Conversation
import VirtioMem.Lib.Effect
import VirtioMem.Lib.Text
import VirtioMem.Lib.Window
