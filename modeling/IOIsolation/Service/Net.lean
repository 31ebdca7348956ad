import IOIsolation.Service.Persist
import Mathlib.Data.List.Basic

/-!
# Service.Net

The network engine of the service: configuring the node's NICs with one of two plugins, registering
applications with every plugin, setting limits, and rebuilding the engine from the database after a
restart. What the kernel, the set-up command of the NICs and the JSON texts give is input.

* `registerNics_fails_iff` — when the loop over the plugins of `RegisterApp` stops with an error.
* `registerApp_passes`, `registerApp_refused` — `RegisterApp` before and after its checks.
* `restart` — `Initialize` of a new process, with `rebuild`.
-/

namespace IOIsolation.Service.Net

open Lib

structure BWLimit where
  id : String
  ingress : String
  egress : String
  deriving DecidableEq

structure AppInfo where
  appName : String
  group : String
  netNS : String
  cgroupPath : String
  devices : Dict String String
  limits : List BWLimit
  ifbName : String
  deriving DecidableEq

/-- A group of applications: controlled one by one (lazy or dynamic) or together (share). -/
structure Group where
  id : String
  groupType : Int
  pool : ℕ
  queues : ℕ
  deriving DecidableEq

def groupSeparateLazy : Int := 0
def groupSeparateDynamic : Int := 1
def groupShare : Int := 2

structure NICInfo where
  interfaceName : String
  ipAddr : String
  macAddr : String
  interfaceType : String
  deriving DecidableEq

structure CNI where
  name : String
  gateway : String
  deriving DecidableEq

/-! ## Plugins -/

inductive PluginKind where
  | adq
  | generic
  deriving DecidableEq

/-- The interface type of a NIC under each plugin. -/
def PluginKind.interfaceType : PluginKind → String
  | .adq => "adq"
  | .generic => "non-adq"

structure Plugin where
  kind : PluginKind
  nic : String
  cni : CNI
  groups : List Group
  deriving DecidableEq

/-- What one plugin call meets: the devices `GetDevices` finds when it has to look, the errors of
looking up the host's link and of reading the numbers of a limit, and that of the kernel after that. -/
structure Kernel where
  devices : Dict String String
  link : Option String
  numbers : Option String
  op : Option String

def getGroupType (groups : List Group) (group : String) : Int :=
  match groups.find? (·.id = group) with
  | some g => g.groupType
  | none => -1

def isGroupSettable (bridgeMode : Bool) (groupType : Int) : Bool :=
  groupType = groupShare && !bridgeMode

/-- The devices of an application, looked for as long as none is known. -/
def AppInfo.getDevices (app : AppInfo) (k : Kernel) : AppInfo :=
  { app with devices := if app.devices = ∅ then k.devices else app.devices }

def noGroup (app : AppInfo) : String :=
  "app " ++ app.appName ++ " group " ++ app.group ++ " doesn't exist"

/-- The group types the plugins control. -/
def known (groupType : Int) : Bool :=
  groupType = groupSeparateLazy || groupType = groupSeparateDynamic || groupType = groupShare

/-- The application after the call, and its error. An application without devices has no filters to
set; the generic plugin sets none for groups it does not control as a whole. -/
def Plugin.registerApp (bridgeMode : Bool) (p : Plugin) (k : Kernel) (app : AppInfo) :
    AppInfo × Option String :=
  let groupType := getGroupType p.groups app.group
  match p.kind with
  | .adq =>
    if app.devices = ∅ then (app, none)
    else if k.link.isSome then (app, k.link)
    else if known groupType then (app, k.op)
    else (app, some (noGroup app))
  | .generic =>
    if isGroupSettable bridgeMode groupType then (app.getDevices k, k.op) else (app, none)

/-- Errors are only logged. -/
def Plugin.unRegisterApp (p : Plugin) (k : Kernel) (app : AppInfo) : AppInfo :=
  match p.kind with
  | .adq => app
  | .generic => app.getDevices k

/-- Set the limit of an application, or of a group (`none`). The outer `none` is the nil application
that the generic plugin dereferences for a group it does not control as a whole. -/
def Plugin.setLimit (bridgeMode : Bool) (p : Plugin) (k : Kernel) (group : String) :
    Option AppInfo → Option (Option AppInfo × Option String)
  | none =>
    let groupType := getGroupType p.groups group
    match p.kind with
    | .adq => some (none, none)
    | .generic =>
      if groupType = -1 ∨ groupType = groupSeparateLazy then some (none, none)
      else if k.numbers.isSome then some (none, k.numbers)
      else if isGroupSettable bridgeMode groupType then some (none, k.op)
      else none
  | some app =>
    match p.kind with
    | .adq =>
      if k.link.isSome then some (some app, k.link)
      else if known (getGroupType p.groups app.group) then some (some app, k.numbers.or k.op)
      else some (some app, some (noGroup app))
    | .generic =>
      let groupType := getGroupType p.groups group
      if groupType = -1 ∨ isGroupSettable bridgeMode groupType then some (some app, none)
      else if k.numbers.isSome then some (some app, k.numbers)
      else some (some (app.getDevices k), k.op)

/-! ## The engine -/

/-- Which groups the agent may set a limit for, as told in the reply to `Configure`. -/
abbrev GroupSettable := List (String × Bool)

def groupSettableOf (kind : PluginKind) (bridgeMode : Bool) (groups : List Group) : GroupSettable :=
  groups.filterMap fun g =>
    if known g.groupType then
      some (g.id, decide (kind = .generic) && isGroupSettable bridgeMode g.groupType)
    else none

/-- The buckets besides `APPS`, and the keys of the engine's own bucket. -/
structure Database where
  groups : Dict String Group
  groupLimit : Dict String BWLimit
  nics : Dict String NICInfo
  cnis : Dict String CNI
  groupSettable : Option GroupSettable
  interval : Option Int
  generation : ℕ
  deriving DecidableEq

structure NetEngine where
  tables : Tables AppInfo.appName
  isBridgeCNI : Bool
  ifname : String
  bridgeMode : Bool
  groupSettable : Option GroupSettable
  groups : List Group
  groupLimit : Dict String BWLimit
  nics : List NICInfo
  cnis : List CNI
  interval : Int
  plugins : Dict String Plugin
  db : Database

/-- A write under a key; an empty key is refused, other writes succeed. -/
def saveKey {V : Type} (d : Dict String V) (key : String) (v : V) : Dict String V :=
  if key = "" then d else d.insert key v

/-! ## Configure -/

structure ConfigureInfo where
  nodeIps : List NICInfo
  groups : List Group
  deriving DecidableEq

/-- The text of a `Configure` request, read. -/
inductive ConfigureRequest where
  | unreadable
  | interval (i : Int)
  | system (config : ConfigureInfo)

/-- What the set-up of a NIC for ADQ finds: an ingress queue that is there already, and whether the
set-up command succeeds. -/
structure AdqSetup where
  hasIngress : Bool
  succeeds : Bool
  deriving DecidableEq

def checkAdq (setup : AdqSetup) (groups : List Group) : Bool :=
  !setup.hasIngress && groups.all (·.queues ≠ 0) && setup.succeeds

def kindOf (isAdq : Bool) : PluginKind := if isAdq then .adq else .generic

def setPlugins (isAdq : NICInfo → Bool) (e : NetEngine) : NetEngine :=
  { e with
    nics := e.nics.map fun nic => { nic with interfaceType := (kindOf (isAdq nic)).interfaceType }
    plugins := e.nics.foldl (fun plugins nic =>
      plugins.insert nic.ipAddr
        ⟨kindOf (isAdq nic), nic.interfaceName, e.cnis.headD ⟨"", ""⟩, e.groups⟩) e.plugins }

/-- Only the first NIC is stored, as it came with the request. Without a NIC the index is out of
range. -/
def updateConfig (network : CNI) (setup : String → AdqSetup) (config : ConfigureInfo)
    (e : NetEngine) : Option NetEngine :=
  match config.nodeIps with
  | [] => none
  | first :: _ =>
    let cni := if network.gateway = "" then { network with gateway := first.interfaceName } else network
    let isAdq := fun nic : NICInfo => checkAdq (setup nic.interfaceName) config.groups
    let settable := (config.nodeIps.getLast?).map fun nic =>
      groupSettableOf (kindOf (isAdq nic)) e.bridgeMode config.groups
    some (setPlugins isAdq { e with
      groups := config.groups
      nics := config.nodeIps
      cnis := e.cnis.set 0 cni
      groupSettable := settable
      db := { e.db with
        nics := saveKey e.db.nics first.interfaceName first
        groups := config.groups.foldl (fun d g => saveKey d g.id g) e.db.groups
        cnis := saveKey e.db.cnis cni.name cni
        groupSettable := settable } })

structure ConfigureResponse where
  status : ResponseState
  responseInfo : Option GroupSettable
  deriving DecidableEq

/-- An engine that has been configured only repeats its answer. -/
def configure (network : CNI) (setup : String → AdqSetup) (e : NetEngine) :
    ConfigureRequest → Option (ConfigureResponse × NetEngine)
  | .unreadable => some (⟨.fail, none⟩, e)
  | .interval i =>
    some (⟨.ok, none⟩, { e with interval := i, db := { e.db with interval := some i } })
  | .system config =>
    if e.groupSettable.isSome then some (⟨.ok, e.groupSettable⟩, e)
    else (updateConfig network setup config e).map fun e => (⟨.ok, e.groupSettable⟩, e)

/-! ## RegisterApp and UnRegisterApp -/

/-- The JSON text of a request's `AppInfo`. -/
structure RegisterAppInfo where
  group : String
  netNS : String
  devices : Dict String String
  cgroupPath : String
  deriving DecidableEq

def notConfigured (nic : NICInfo) : String :=
  "\x7b" ++ nic.interfaceName ++ " " ++ nic.ipAddr ++ " " ++ nic.macAddr ++ " " ++
    nic.interfaceType ++ "\x7d is not been configured"

/-- The loop over the NICs: the application as the plugins leave it, and the error it stops with. -/
def registerNics (e : NetEngine) (kernel : String → Kernel) :
    List NICInfo → AppInfo → AppInfo × Option String
  | [], a => (a, none)
  | nic :: rest, a =>
    match e.plugins.lookup nic.ipAddr with
    | none => (a, some (notConfigured nic))
    | some p =>
      match p.registerApp e.bridgeMode (kernel nic.ipAddr) a with
      | (a, some err) => (a, some err)
      | (a, none) => registerNics e kernel rest a

theorem Plugin.registerApp_appName (bridgeMode : Bool) (p : Plugin) (k : Kernel) (a : AppInfo) :
    (p.registerApp bridgeMode k a).1.appName = a.appName := by
  unfold Plugin.registerApp
  cases p.kind with
  | adq | generic => dsimp only; split_ifs <;> rfl

theorem registerNics_appName (e : NetEngine) (kernel : String → Kernel) :
    ∀ (nics : List NICInfo) (a : AppInfo),
      (registerNics e kernel nics a).1.appName = a.appName := by
  intro nics
  induction nics with
  | nil => intro a; rfl
  | cons nic rest ih =>
    intro a
    simp only [registerNics]
    split
    · rfl
    rename_i p hp
    have hname := p.registerApp_appName e.bridgeMode (kernel nic.ipAddr) a
    split
    · rename_i b err hb
      rw [hb] at hname
      exact hname
    rename_i b hb
    rw [hb] at hname
    rw [ih b]
    exact hname

/-- The checks of `RegisterApp`, in their order. The devices in the text only have to be there; those
of the record are what `found` in the network namespace. -/
def checkApp (parse : String → Except String RegisterAppInfo) (found : Dict String String)
    (e : NetEngine) (req : RegisterAppRequest) : Except Reply AppInfo :=
  if req.appName = "" ∨ req.appInfo = "" then
    .error (replyFail req.appName "app name or app info should not be empty")
  else if (e.tables.apps.lookup req.appName).isSome then
    .error (replyFail req.appName "app already registered")
  else
    match parse req.appInfo with
    | .error message => .error (replyFail req.appName message)
    | .ok app =>
      if app.group = "" ∨ app.netNS = "" ∨ app.cgroupPath = "" ∨ app.devices = ∅ then
        .error (replyFail req.appName
          "app group or app netns or App Devices should not be empty")
      else .ok ⟨req.appName, app.group, app.netNS, app.cgroupPath, found, [], e.ifname⟩

/-- The application is entered before the plugins are asked; that it could not be stored is only
logged. -/
def registerApp (parse : String → Except String RegisterAppInfo) (found : Dict String String)
    (kernel : String → Kernel) (saved : Bool) (e : NetEngine) (req : RegisterAppRequest) :
    Reply × NetEngine :=
  match checkApp parse found e req with
  | .error reply => (reply, e)
  | .ok a =>
    match registerNics e kernel e.nics a with
    | (a, some err) =>
      (replyFail req.appName err, { e with tables := { e.tables with apps := e.tables.apps.insert a } })
    | (a, none) =>
      (replyOk req.appName,
        { e with
          tables :=
            { apps := e.tables.apps.insert a
              stored := (addAppInfo e.tables.stored a saved).getD e.tables.stored } })

structure Passes (parse : String → Except String RegisterAppInfo) (e : NetEngine)
    (req : RegisterAppRequest) (app : RegisterAppInfo) : Prop where
  appName : req.appName ≠ ""
  appInfo : req.appInfo ≠ ""
  new : e.tables.apps.lookup req.appName = none
  parsed : parse req.appInfo = .ok app
  group : app.group ≠ ""
  netNS : app.netNS ≠ ""
  cgroupPath : app.cgroupPath ≠ ""
  devices : app.devices ≠ ∅

def record (e : NetEngine) (found : Dict String String) (req : RegisterAppRequest)
    (app : RegisterAppInfo) : AppInfo :=
  ⟨req.appName, app.group, app.netNS, app.cgroupPath, found, [], e.ifname⟩

def handled (e : NetEngine) (kernel : String → Kernel) (a : AppInfo) (nic : NICInfo) : AppInfo :=
  match e.plugins.lookup nic.ipAddr with
  | none => a
  | some p => (p.registerApp e.bridgeMode (kernel nic.ipAddr) a).1

/-- The NIC has no plugin, or its plugin does not take the application. -/
def Refuses (e : NetEngine) (kernel : String → Kernel) (a : AppInfo) (nic : NICInfo) : Prop :=
  ∀ p, e.plugins.lookup nic.ipAddr = some p →
    (p.registerApp e.bridgeMode (kernel nic.ipAddr) a).2 ≠ none

/-- Some NIC refuses the application as the NICs before it leave it. -/
def PluginFails (e : NetEngine) (kernel : String → Kernel) (nics : List NICInfo) (a : AppInfo) :
    Prop :=
  ∃ before nic after, nics = before ++ nic :: after ∧
    Refuses e kernel (before.foldl (handled e kernel) a) nic

variable {parse : String → Except String RegisterAppInfo} {found : Dict String String}
  {kernel : String → Kernel} {e : NetEngine} {req : RegisterAppRequest} {a : AppInfo}
  {app : RegisterAppInfo}

theorem pluginFails_cons {nic : NICInfo} {rest : List NICInfo} :
    PluginFails e kernel (nic :: rest) a ↔
      Refuses e kernel a nic ∨ PluginFails e kernel rest (handled e kernel a nic) := by
  constructor
  · rintro ⟨before, x, after, heq, hr⟩
    cases before with
    | nil =>
      obtain ⟨rfl, -⟩ := List.cons.inj heq
      exact .inl hr
    | cons b before =>
      obtain ⟨rfl, hrest⟩ := List.cons.inj heq
      exact .inr ⟨before, x, after, hrest, hr⟩
  · rintro (hr | ⟨before, x, after, heq, hr⟩)
    · exact ⟨[], nic, rest, rfl, hr⟩
    · exact ⟨nic :: before, x, after, by rw [heq, List.cons_append], hr⟩

theorem registerNics_fails_iff :
    ∀ (nics : List NICInfo) (a : AppInfo),
      (registerNics e kernel nics a).2 ≠ none ↔ PluginFails e kernel nics a := by
  intro nics
  induction nics with
  | nil =>
    intro a
    simp [registerNics, PluginFails]
  | cons nic rest ih =>
    intro a
    rw [pluginFails_cons]
    cases hp : e.plugins.lookup nic.ipAddr with
    | none => simp [registerNics, Refuses, hp]
    | some p =>
      rcases hr : p.registerApp e.bridgeMode (kernel nic.ipAddr) a with ⟨b, err⟩
      cases err with
      | some err => simp [registerNics, Refuses, hp, hr]
      | none =>
        have hhandled : handled e kernel a nic = b := by simp only [handled, hp, hr]
        have hnot : ¬ Refuses e kernel a nic := fun h => h p hp (by rw [hr])
        simp only [registerNics, hp, hr, hhandled, hnot, false_or]
        exact ih b

theorem checkApp_ok_iff :
    checkApp parse found e req = .ok a ↔
      ∃ app, Passes parse e req app ∧ a = record e found req app := by
  constructor
  · intro h
    unfold checkApp at h
    split_ifs at h with hreq hnew
    split at h
    · cases h
    rename_i app hparse
    split_ifs at h with hfull
    obtain ⟨hname, hinfo⟩ := not_or.mp hreq
    simp only [not_or] at hfull
    exact ⟨app, ⟨hname, hinfo, by simpa using hnew, hparse, hfull.1, hfull.2.1, hfull.2.2.1,
      hfull.2.2.2⟩, (Except.ok.inj h).symm⟩
  · rintro ⟨app, hp, rfl⟩
    simp [checkApp, record, hp.appName, hp.appInfo, hp.new, hp.parsed, hp.group, hp.netNS,
      hp.cgroupPath, hp.devices]

/-- A complete request that a NIC refuses leaves the application in memory and fails. -/
theorem registerApp_pluginFails (h : Passes parse e req app)
    (hfail : PluginFails e kernel e.nics (record e found req app)) (saved : Bool) :
    ∃ a err, a.appName = req.appName ∧
      registerApp parse found kernel saved e req =
        (replyFail req.appName err,
          { e with tables := { e.tables with apps := e.tables.apps.insert a } }) := by
  rcases hr : registerNics e kernel e.nics (record e found req app) with ⟨a, o⟩
  have hname := registerNics_appName e kernel e.nics (record e found req app)
  have herr := (registerNics_fails_iff _ _).mpr hfail
  rw [hr] at hname herr
  obtain ⟨err, rfl⟩ := Option.ne_none_iff_exists'.mp herr
  exact ⟨a, err, hname, by simp only [registerApp, checkApp_ok_iff.mpr ⟨app, h, rfl⟩, hr]⟩

/-- A complete request that no NIC refuses is entered and stored. -/
theorem registerApp_passes (h : Passes parse e req app)
    (hfail : ¬ PluginFails e kernel e.nics (record e found req app)) (saved : Bool) :
    ∃ a, a.appName = req.appName ∧
      registerApp parse found kernel saved e req =
        (replyOk req.appName, { e with
            tables :=
              { apps := e.tables.apps.insert a
                stored := if saved then e.tables.stored.insert a else e.tables.stored } }) := by
  rcases hr : registerNics e kernel e.nics (record e found req app) with ⟨a, o⟩
  have hname := registerNics_appName e kernel e.nics (record e found req app)
  have herr := mt (registerNics_fails_iff _ _).mp hfail
  rw [hr] at hname herr
  obtain rfl := not_not.mp herr
  refine ⟨a, hname, ?_⟩
  have hne : a.appName ≠ "" := hname ▸ h.appName
  simp only [registerApp, checkApp_ok_iff.mpr ⟨app, h, rfl⟩, hr, addAppInfo, hne, if_false]
  cases saved <;> rfl

theorem registerApp_refused (h : ∀ app, ¬ Passes parse e req app) (saved : Bool) :
    (registerApp parse found kernel saved e req).2 = e := by
  cases hc : checkApp parse found e req with
  | ok a =>
    obtain ⟨app, hp, -⟩ := checkApp_ok_iff.mp hc
    exact absurd hp (h app)
  | error reply => simp only [registerApp, hc]

/-- The loop over the NICs of `deleteAppInfo`, which stops at one without plugin. -/
def unRegisterNics (e : NetEngine) (kernel : String → Kernel) :
    List NICInfo → AppInfo → AppInfo × Option String
  | [], a => (a, none)
  | nic :: rest, a =>
    match e.plugins.lookup nic.ipAddr with
    | none => (a, some (nic.ipAddr ++ " haven't been configured"))
    | some p => unRegisterNics e kernel rest (p.unRegisterApp (kernel nic.ipAddr) a)

/-- The status of a reply, and the error beside it. -/
structure StatusReply where
  status : ResponseState
  err : Option String
  deriving DecidableEq

/-- Take an application out of the plugins, the database (`deleted`, or only logged) and memory. -/
def unRegisterApp (kernel : String → Kernel) (deleted : Bool) (e : NetEngine) (appId : String) :
    StatusReply × NetEngine :=
  if appId = "" then (⟨.fail, some "req appid is null"⟩, e)
  else
    match e.tables.apps.lookup appId with
    | none => (⟨.fail, some "app not registered or already deleted"⟩, e)
    | some a =>
      match unRegisterNics e kernel e.nics a with
      | (a, some err) =>
        (⟨.fail, some err⟩, { e with tables := { e.tables with apps := e.tables.apps.insert a } })
      | (_, none) => (⟨.ok, none⟩, { e with tables := deleteAppInfo e.tables appId deleted })

/-! ## SetAppLimit -/

structure SetAppLimitRequest where
  appId : String
  limit : List BWLimit
  deriving DecidableEq

/-- The group and the application of an id; an id without application is a group's. -/
def groupApp (appId : String) : Option (String × String) :=
  match (appId.toList.splitOn '.').map String.ofList with
  | [group] => some (group, "")
  | [group, app] => some (group, app)
  | _ => none

/-- The first loop: limits go into the application's record, or into the group limits and their
bucket. A limit without values ends it. -/
def enterLimits (group app : String) : List BWLimit → NetEngine → NetEngine × Bool
  | [], e => (e, true)
  | limit :: rest, e =>
    if limit.ingress = "" ∧ limit.egress = "" then (e, false)
    else
      match e.tables.apps.lookup app with
      | some a =>
        enterLimits group app rest { e with
          tables := { e.tables with apps := e.tables.apps.insert { a with limits := [limit] } } }
      | none =>
        if limit.ingress ≠ "" ∧ limit.egress ≠ "" then
          enterLimits group app rest { e with
            groupLimit := e.groupLimit.insert group limit
            db := { e.db with groupLimit := saveKey e.db.groupLimit group limit } }
        else enterLimits group app rest e

/-- The second loop, over each NIC and limit: the application as the plugins leave it, and the error
it stops with. A NIC without plugin and a nil application are fatal. -/
def limitNics (e : NetEngine) (kernel : String → Kernel) (group : String) :
    List (NICInfo × BWLimit) → Option AppInfo → Option (Option AppInfo × Option String)
  | [], a => some (a, none)
  | (nic, _) :: rest, a =>
    match e.plugins.lookup nic.ipAddr with
    | none => none
    | some p =>
      match p.setLimit e.bridgeMode (kernel nic.ipAddr) group a with
      | none => none
      | some (a, some err) => some (a, some err)
      | some (a, none) => limitNics e kernel group rest a

/-- The record of an application that a plugin may have completed. -/
def NetEngine.enterApp (e : NetEngine) : Option AppInfo → NetEngine
  | none => e
  | some a => { e with tables := { e.tables with apps := e.tables.apps.insert a } }

def setAppLimit (kernel : String → Kernel) (e : NetEngine) (req : SetAppLimitRequest) :
    Option (StatusReply × NetEngine) :=
  if req.appId = "" then some (⟨.fail, some "req appid is null"⟩, e)
  else
    match groupApp req.appId with
    | none => some (⟨.fail, some "appId format error"⟩, e)
    | some (group, app) =>
      let appOk := (e.tables.apps.lookup app).isSome
      let grpOk := e.groups.any (·.id = group)
      if app ≠ "" ∧ appOk = false then
        some (⟨.fail, some ("app " ++ app ++ " is unregistered")⟩, e)
      else if appOk = false ∧ grpOk = false then some (⟨.fail, some "app is not registered"⟩, e)
      else
        match enterLimits group app req.limit e with
        | (e, false) =>
          some (⟨.fail, some "invalid limit values: in and out are both absent"⟩, e)
        | (e, true) =>
          match limitNics e kernel group (e.nics ×ˢ req.limit) (e.tables.apps.lookup app) with
          | none => none
          | some (a, some err) => some (⟨.fail, some err⟩, e.enterApp a)
          | some (a, none) => some (⟨.ok, none⟩, e.enterApp a)

/-! ## Restart -/

/-- The orders in which the three buckets are gone through. -/
structure Orders where
  nics : List String
  groups : List String
  cnis : List String

def Orders.Valid (o : Orders) (db : Database) : Prop :=
  Dict.Lists o.nics db.nics ∧ Dict.Lists o.groups db.groups ∧ Dict.Lists o.cnis db.cnis

instance (o : Orders) (db : Database) : Decidable (o.Valid db) :=
  inferInstanceAs (Decidable (_ ∧ _ ∧ _))

/-- Everything is taken from the database; the plugins follow the stored types of the NICs. -/
def rebuild (o : Orders) (e : NetEngine) : NetEngine :=
  let cnis := Dict.listing o.cnis e.db.cnis
  let loaded := setPlugins (fun nic => nic.interfaceType = PluginKind.adq.interfaceType) { e with
    tables := { e.tables with apps := e.tables.stored }
    nics := Dict.listing o.nics e.db.nics
    groups := Dict.listing o.groups e.db.groups
    groupLimit := e.db.groupLimit
    cnis := if cnis = [] then e.cnis else cnis }
  { loaded with groupSettable := e.db.groupSettable.or e.groupSettable }

/-- An engine as `Initialize` sets it up before it looks further into the database. -/
def blank (isBridgeCNI : Bool) (ifname : String) (stored : AppTable AppInfo.appName)
    (db : Database) : NetEngine where
  tables := ⟨stored, stored⟩
  isBridgeCNI := isBridgeCNI
  ifname := ifname
  bridgeMode := isBridgeCNI
  groupSettable := none
  groups := []
  groupLimit := ∅
  nics := []
  cnis := [⟨"", ""⟩]
  interval := db.interval.getD 2
  plugins := ∅
  db := db

/-- `Initialize` of an engine that starts with this database and these options. The first start, which
finds no generation, rebuilds nothing. -/
def initializeEngine (isBridgeCNI : Bool) (ifname : String) (o : Orders)
    (stored : AppTable AppInfo.appName) (db : Database) : NetEngine :=
  let e := blank isBridgeCNI ifname stored db
  { (if db.generation = 0 then e else rebuild o e) with
    db := { db with generation := db.generation + 1 } }

/-- The process ends and a new one starts with the same options. -/
def restart (o : Orders) (e : NetEngine) : NetEngine :=
  initializeEngine e.isBridgeCNI e.ifname o e.tables.stored e.db

def start (isBridgeCNI : Bool) (ifname : String) : NetEngine :=
  initializeEngine isBridgeCNI ifname ⟨[], [], []⟩ .empty ⟨∅, ∅, ∅, ∅, none, none, 0⟩

end IOIsolation.Service.Net
