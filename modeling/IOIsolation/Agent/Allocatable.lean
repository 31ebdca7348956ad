import IOIsolation.Agent.DiskConfig
import IOIsolation.Agent.Registration

/-!
# Agent.Allocatable

What the disk engine reports as allocatable. `calDiskAllocatable` takes the requests of the guaranteed
and the burstable pods off the part of a disk that is not the best-effort pool; both groups may use what
is left. It also computes the bandwidths that the limits of the groups are set by. Setting the limits is
left out.
-/

namespace IOIsolation.Agent

open Lib

structure PerGroup (α : Type) where
  ga : α
  bt : α
  be : α
  deriving DecidableEq

/-- `CalculateGroupBw`: the bandwidths of all pods of a table. -/
def calculateGroupBw (podDWl : Dict String Workload) : ℚ × ℚ :=
  (Dict.total (fun _ w => w.inBps) podDWl, Dict.total (fun _ w => w.outBps) podDWl)

/-- The result of `calDiskAllocatable`, and the bandwidths it hands to `SetLimit`. -/
structure Allocatable where
  read : PerGroup ℚ
  write : PerGroup ℚ
  total : PerGroup ℚ
  pressure : PerGroup Bool
  expectIn : PerGroup ℚ
  expectOut : PerGroup ℚ
  deriving DecidableEq

/-- `calDiskAllocatable`. The best-effort group has the read share of its pool for writing, and the
other way round. -/
def calDiskAllocatable (diskInfos : DiskInfos) (bePool : Int) (e : PodEngine) (diskId : String) :
    Option Allocatable :=
  match diskInfos.lookup diskId, e.wgDevices.lookup diskId with
  | some diskInfo, some wgs =>
    let bePoolRatio : ℚ := bePool / 100
    let bePoolSizeRead := bePoolRatio * diskInfo.totalRBPS
    let bePoolSizeWrite := bePoolRatio * diskInfo.totalWBPS
    let bePoolSizeTotal := bePoolRatio * diskInfo.totalBPS
    let (gaIn, gaOut) := calculateGroupBw (wgs .gaIndex).requestPods
    let (btIn, btOut) := calculateGroupBw (wgs .btIndex).requestPods
    let allocIn := diskInfo.totalRBPS - bePoolSizeRead - gaIn - btIn
    let allocOut := diskInfo.totalWBPS - bePoolSizeWrite - gaOut - btOut
    let allocTotal := diskInfo.totalBPS - bePoolSizeTotal - gaIn - btIn - gaOut - btOut
    let (btActualIn, btActualOut) := calculateGroupBw (wgs .btIndex).actualPods
    some {
      read := ⟨allocIn, allocIn, bePoolSizeWrite⟩
      write := ⟨allocOut, allocOut, bePoolSizeRead⟩
      total := ⟨allocTotal, allocTotal, bePoolSizeTotal⟩
      pressure := ⟨false, false, false⟩
      expectIn :=
        { ga := if gaIn = 0 then allocIn else gaIn
          bt := if 0 < btIn then allocIn / btIn + 1 else 1
          be := diskInfo.totalRBPS - gaIn - if btActualIn < btIn then btIn else btActualIn }
      expectOut :=
        { ga := if gaOut = 0 then allocOut else gaOut
          bt := if 0 < btOut then allocOut / btOut + 1 else 1
          be := diskInfo.totalWBPS - gaOut - if btActualOut < btOut then btOut else btActualOut } }
  | _, _ => none

end IOIsolation.Agent
