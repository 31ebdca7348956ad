import IOIsolation.Sched.Quiescence
import IOIsolation.Sched.PodDeletion
import IOIsolation.Aggr.PodListProtocol
import IOIsolation.Aggr.StatusFreshness
import IOIsolation.Sched.ReserveUndo
import IOIsolation.Sched.HotPlug
import IOIsolation.Sched.ClaimSpace
import IOIsolation.Sched.DiskUsage
import IOIsolation.Service.NoTrace
import IOIsolation.Service.NetRestart
import IOIsolation.Aggr.PodListComplete
import IOIsolation.Aggr.StatusDelivery
import IOIsolation.Sched.Score
import IOIsolation.Service.Subscription
import IOIsolation.Sched.PackerAdmission
import IOIsolation.Agent.CommandFailures
import IOIsolation.Service.RdtExecutor
import IOIsolation.Agent.Oob
import IOIsolation.Csi.PublishedMounts
import IOIsolation.Csi.Retry
import IOIsolation.Csi.DisksInUse
import IOIsolation.Sched.Merging
import IOIsolation.Sched.AskedBandwidth
import IOIsolation.Agent.SharedBandwidth
import IOIsolation.Aggr.CacheFollows
import IOIsolation.Aggr.StatusMerge
import IOIsolation.Sched.StatusUpdate
import IOIsolation.Sched.AnnotationRemoval
import IOIsolation.Agent.RDTRegistration
import IOIsolation.Agent.StatusReport
import IOIsolation.Agent.DeviceChanges
import IOIsolation.Service.BlockSizes
import IOIsolation.Service.CacheMasks
import IOIsolation.Service.IoStat
import IOIsolation.Sched.RatioLookup
