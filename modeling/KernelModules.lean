import KernelModules.Dsc.Exclusion
import KernelModules.Dsc.Pending
import KernelModules.Dsc.Priority
import KernelModules.Dsc.Quiescence
import KernelModules.IpaNat.Atomicity
import KernelModules.IpaNat.Pdn
import KernelModules.IpaNat.Checksum
import KernelModules.HwFence.Fifo
import KernelModules.HwFence.Draining
import KernelModules.HwFence.JoinBook
import KernelModules.HwFence.Telling
import KernelModules.HwFence.GlobalLock
import KernelModules.Wlan.Acceptance
import KernelModules.CamSync.NotifyOnce
import KernelModules.Vidc.HfiFifo
import KernelModules.MgmtRx.Bounds
import KernelModules.MgmtRx.Duplicates
import KernelModules.Mmrm.Overshoot
import KernelModules.Synx.Undoing
import KernelModules.MgmtRx.ListRuns
import KernelModules.Rmnet.Sending
import KernelModules.Rmnet.Egress
import KernelModules.Rmnet.Identities
import KernelModules.Rmnet.Conservation
import KernelModules.Serialization.BulkCancel
import KernelModules.Kgsl.Separation
import KernelModules.Serialization.Waiting
import KernelModules.IpaTables.Spilling
import KernelModules.IpaRouting.Bookkeeping
import KernelModules.Kgsl.Events
import KernelModules.Kgsl.SyncObject
import KernelModules.GpuMemory.Lifetime
import KernelModules.KgslTimeline.Queries
import KernelModules.KgslTimeline.Fences
import KernelModules.Hwsched.Bookkeeping
import KernelModules.Hwsched.Retirement
import KernelModules.Smcinvoke.Replies
import KernelModules.Smcinvoke.Requests
import KernelModules.Smcinvoke.MemObjects
import KernelModules.Smcinvoke.HandOff
import KernelModules.Camera.Packet
import KernelModules.Camera.Workq
import KernelModules.Mmrm.Votes
import KernelModules.Mmrm.Current
import KernelModules.Rmnet.LinearizeCopy
import KernelModules.Wlan.Elements
import KernelModules.Wlan.Separate
import KernelModules.Vidc.HfiSafety
import KernelModules.Vidc.HfiResponse
