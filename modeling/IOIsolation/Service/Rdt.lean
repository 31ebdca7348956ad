import IOIsolation.Service.Persist
import Mathlib.Data.Rat.Defs

/-!
# Service.Rdt

Registering applications with the RDT engine of the service. It ends like the disk engine's
registration and checks a request in its own way: no devices, but a container name.

* `checkApp_ok_iff` — what a request needs to get as far as the table.
-/

namespace IOIsolation.Service.Rdt

open Lib

structure RDTClassInfo where
  l3CacheReq : ℚ
  l3CacheLim : ℚ
  mbaReq : ℚ
  mbaLim : ℚ
  deriving DecidableEq

structure RDTAppInfo where
  containerName : String
  cgroupPath : String
  rdtClass : String
  podUid : String
  podName : String
  rdtClassInfo : RDTClassInfo
  deriving DecidableEq

structure AppInfo where
  appName : String
  rdtAppInfo : RDTAppInfo
  deriving DecidableEq

abbrev RdtEngine := Tables AppInfo.appName

/-- The checks of `RegisterApp`, in their order. The name in the JSON text is not used. -/
def checkApp (parse : String → Except String AppInfo) (fs : Files) (e : RdtEngine)
    (req : RegisterAppRequest) : Except Reply AppInfo :=
  if (e.apps.lookup req.appName).isSome then
    .error ⟨none, some (.status .alreadyExists "App Already Registered")⟩
  else
    match parse req.appInfo with
    | .error message => .error (replyFail req.appName message)
    | .ok app =>
      if req.appName = "" ∨ app.rdtAppInfo.cgroupPath = "" ∨ app.rdtAppInfo.containerName = "" then
        .error (replyFail req.appName ("input information for RegisterApp is not complete. " ++
          "ContainerId, ContainerName and ContainerCgroupPath are required"))
      else if fs.stat app.rdtAppInfo.cgroupPath = false then
        .error (replyFail req.appName "CgroupPath is invalid or does not exist")
      else if fs.readlink app.rdtAppInfo.cgroupPath = true then
        .error (replyFail req.appName "CgroupPath is a symbolic link, which is not allowed")
      else .ok ⟨req.appName, app.rdtAppInfo⟩

def registerApp (parse : String → Except String AppInfo) (fs : Files) (saved : Bool)
    (e : RdtEngine) (req : RegisterAppRequest) : Reply × RdtEngine :=
  registerChecked e (checkApp parse fs e req) saved

/-- The request is for a new application, complete, and names an existing cgroup. -/
structure Passes (parse : String → Except String AppInfo) (fs : Files) (e : RdtEngine)
    (req : RegisterAppRequest) (app : AppInfo) : Prop where
  new : e.apps.lookup req.appName = none
  parsed : parse req.appInfo = .ok app
  appName : req.appName ≠ ""
  cgroupPath : app.rdtAppInfo.cgroupPath ≠ ""
  containerName : app.rdtAppInfo.containerName ≠ ""
  stat : fs.stat app.rdtAppInfo.cgroupPath = true
  noLink : fs.readlink app.rdtAppInfo.cgroupPath = false

variable {parse : String → Except String AppInfo} {fs : Files} {e : RdtEngine}
  {req : RegisterAppRequest}

theorem checkApp_ok_iff {a : AppInfo} :
    checkApp parse fs e req = .ok a ↔
      ∃ app, Passes parse fs e req app ∧ a = ⟨req.appName, app.rdtAppInfo⟩ := by
  constructor
  · intro h
    unfold checkApp at h
    split at h
    · cases h
    rename_i hnew
    split at h
    · cases h
    rename_i app hparse
    split_ifs at h with hfull hstat hlink
    obtain ⟨hname, hpath, hcont⟩ : req.appName ≠ "" ∧ app.rdtAppInfo.cgroupPath ≠ "" ∧
        app.rdtAppInfo.containerName ≠ "" := by
      simpa [not_or] using hfull
    exact ⟨app, ⟨by simpa using hnew, hparse, hname, hpath, hcont, by simpa using hstat,
      by simpa using hlink⟩, (Except.ok.inj h).symm⟩
  · rintro ⟨app, hp, rfl⟩
    simp [checkApp, hp.new, hp.parsed, hp.appName, hp.cgroupPath, hp.containerName, hp.stat,
      hp.noLink]

end IOIsolation.Service.Rdt
