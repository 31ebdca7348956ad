import IOIsolation.Service.Disk
import IOIsolation.Service.Net
import IOIsolation.Service.Rdt

/-!
# Service.NoTrace

What a failed `RegisterApp` leaves behind, in the three engines. All of them enter the application
into memory before the last step that can fail, and none takes it out again.

* `no_trace_iff` — exactly when a failed call leaves both tables as they were.
-/

namespace IOIsolation.Service

open Lib

variable {α : Type} {name : α → String}

/-- A call that fails leaves the applications in memory and in the database as they were. -/
def NoTrace (r : Reply) (before after : Tables name) : Prop := r.Failed → after = before

theorem Disk.noTrace_iff (parse : String → Except String Disk.DiskCgroupInfo) (fs : Files)
    (saved : Bool) (e : Disk.DiskEngine) (req : RegisterAppRequest) :
    NoTrace (Disk.registerApp parse fs saved e req).1 e (Disk.registerApp parse fs saved e req).2 ↔
      ∀ pp, Disk.Passes parse fs e req pp → saved = true := by
  apply registerChecked_same_iff Disk.checkApp_ok_iff
  exact fun pp hp => ⟨hp.appName, hp.new⟩

theorem Rdt.noTrace_iff (parse : String → Except String Rdt.AppInfo) (fs : Files) (saved : Bool)
    (e : Rdt.RdtEngine) (req : RegisterAppRequest) :
    NoTrace (Rdt.registerApp parse fs saved e req).1 e (Rdt.registerApp parse fs saved e req).2 ↔
      ∀ app, Rdt.Passes parse fs e req app → saved = true := by
  apply registerChecked_same_iff Rdt.checkApp_ok_iff
  exact fun app hp => ⟨hp.appName, hp.new⟩

/-- The network engine reports no failed write; what can fail after the checks are the plugins. -/
theorem Net.noTrace_iff (parse : String → Except String Net.RegisterAppInfo)
    (found : Dict String String) (kernel : String → Net.Kernel) (saved : Bool) (e : Net.NetEngine)
    (req : RegisterAppRequest) :
    NoTrace (Net.registerApp parse found kernel saved e req).1 e.tables
        (Net.registerApp parse found kernel saved e req).2.tables ↔
      ∀ app, Net.Passes parse e req app →
        ¬ Net.PluginFails e kernel e.nics (Net.record e found req app) := by
  constructor
  · intro h app hp hfail
    obtain ⟨a, err, hname, hr⟩ := Net.registerApp_pluginFails hp hfail saved
    rw [hr] at h
    have hsame := congrArg Tables.apps (h (replyFail_failed _ _))
    exact AppTable.insert_ne_self (hname ▸ hp.new) hsame
  · intro h hfailed
    by_cases hpass : ∃ app, Net.Passes parse e req app
    · obtain ⟨app, hp⟩ := hpass
      obtain ⟨a, hname, hr⟩ := Net.registerApp_passes hp (h app hp) saved
      rw [hr] at hfailed
      exact absurd hfailed (replyOk_not_failed _)
    · rw [Net.registerApp_refused fun app hp => hpass ⟨app, hp⟩]

/-- A call of `RegisterApp` of one of the engines, with what it finds: the texts it can read, the
files, or the devices and the answers of the kernel, and whether the write to the database works. -/
inductive RegisterCall where
  | disk (parse : String → Except String Disk.DiskCgroupInfo) (fs : Files) (saved : Bool)
      (e : Disk.DiskEngine) (req : RegisterAppRequest)
  | net (parse : String → Except String Net.RegisterAppInfo) (found : Dict String String)
      (kernel : String → Net.Kernel) (saved : Bool) (e : Net.NetEngine) (req : RegisterAppRequest)
  | rdt (parse : String → Except String Rdt.AppInfo) (fs : Files) (saved : Bool)
      (e : Rdt.RdtEngine) (req : RegisterAppRequest)

def RegisterCall.LeavesNoTrace : RegisterCall → Prop
  | .disk parse fs saved e req =>
    NoTrace (Disk.registerApp parse fs saved e req).1 e (Disk.registerApp parse fs saved e req).2
  | .net parse found kernel saved e req =>
    NoTrace (Net.registerApp parse found kernel saved e req).1 e.tables
      (Net.registerApp parse found kernel saved e req).2.tables
  | .rdt parse fs saved e req =>
    NoTrace (Rdt.registerApp parse fs saved e req).1 e (Rdt.registerApp parse fs saved e req).2

/-- A request that passes the checks meets no failure afterwards: of the write in the disk and the
RDT engine, of a plugin in the network engine. -/
def RegisterCall.Unhindered : RegisterCall → Prop
  | .disk parse fs saved e req => ∀ pp, Disk.Passes parse fs e req pp → saved = true
  | .net parse found kernel _ e req => ∀ app, Net.Passes parse e req app →
      ¬ Net.PluginFails e kernel e.nics (Net.record e found req app)
  | .rdt parse fs saved e req => ∀ app, Rdt.Passes parse fs e req app → saved = true

/-- A failed registration leaves no trace exactly if it can only fail in the checks. -/
theorem no_trace_iff (call : RegisterCall) : call.LeavesNoTrace ↔ call.Unhindered :=
  match call with
  | .disk parse fs saved e req => Disk.noTrace_iff parse fs saved e req
  | .net parse found kernel saved e req => Net.noTrace_iff parse found kernel saved e req
  | .rdt parse fs saved e req => Rdt.noTrace_iff parse fs saved e req

/-- Every text reads as one container of one pod, for calls on fixed inputs. -/
def parseContainer (_ : String) : Except String Rdt.AppInfo :=
  .ok ⟨"", ⟨"container", "/sys/fs/cgroup/pod", "", "", "", ⟨0, 0, 0, 0⟩⟩⟩

def parseNet (_ : String) : Except String Net.RegisterAppInfo :=
  .ok ⟨"0", "/proc/1/ns/net", Finmap.singleton "eth0" "10.0.0.2", "/sys/fs/cgroup/pod"⟩

/-- A network engine configured with one NIC, which gets the generic plugin, and one shared group. -/
def configuredNet : Net.NetEngine :=
  (Net.updateConfig ⟨"flannel", "cni0"⟩ (fun _ => ⟨true, false⟩)
    ⟨[⟨"ens1", "10.0.0.1", "", ""⟩], [⟨"0", Net.groupShare, 100, 1⟩]⟩ (Net.start false "ifb")).getD
    (Net.start false "ifb")

/-- Each engine keeps an application of which it reported that it could not be registered. -/
theorem traces_left :
    (¬ ∀ parse fs saved e req, (RegisterCall.disk parse fs saved e req).LeavesNoTrace) ∧
    (¬ ∀ parse found kernel saved e req,
      (RegisterCall.net parse found kernel saved e req).LeavesNoTrace) ∧
    (¬ ∀ parse fs saved e req, (RegisterCall.rdt parse fs saved e req).LeavesNoTrace) := by
  refine ⟨fun h => ?_, fun h => ?_, fun h => ?_⟩
  · have hkept := congrArg (fun t => (t.apps.lookup "pod").isSome)
      (h Disk.parseOne Disk.plainFiles false ⟨.empty, .empty⟩ ⟨"pod", "info"⟩ (by decide +kernel))
    exact absurd hkept (by decide +kernel)
  · have hkept := congrArg (fun t => (t.apps.lookup "pod").isSome)
      (h parseNet ∅ (fun _ => ⟨∅, none, none, some "failed in LinkByName"⟩) true configuredNet
        ⟨"pod", "info"⟩ (by decide +kernel))
    exact absurd hkept (by decide +kernel)
  · have hkept := congrArg (fun t => (t.apps.lookup "pod").isSome)
      (h parseContainer Disk.plainFiles false ⟨.empty, .empty⟩ ⟨"pod", "info"⟩ (by decide +kernel))
    exact absurd hkept (by decide +kernel)

end IOIsolation.Service
