import IOIsolation.Lib.Run
import IOIsolation.Service.Net

/-!
# Service.NetRestart

Runs of the network engine over its requests, and what a restart makes of the engine. Every database
operation succeeds.

* `restart_same_inv` — an engine that agrees with its database is the same after a restart.
* `restart_same` — the engine is the same after a restart, if it was configured with one NIC whose
  stored type is the type of its plugin, and with different groups; no registration was refused by a
  plugin; and no limit of an application was set.
-/

namespace IOIsolation.Service.Net

open Lib Option

/-- The requests, with what they meet outside the engine, and restarts. -/
inductive Event where
  | configure (network : CNI) (setup : String → AdqSetup) (req : ConfigureRequest)
  | registerApp (req : RegisterAppRequest) (found : Dict String String) (kernel : String → Kernel)
  | unRegisterApp (appId : String) (kernel : String → Kernel)
  | setAppLimit (req : SetAppLimitRequest) (kernel : String → Kernel)
  | restart (o : Orders)

def step (parse : String → Except String RegisterAppInfo) (e : NetEngine) : Event → Option NetEngine
  | .configure network setup req => (configure network setup e req).map Prod.snd
  | .registerApp req found kernel => some (registerApp parse found kernel true e req).2
  | .unRegisterApp appId kernel => some (unRegisterApp kernel true e appId).2
  | .setAppLimit req kernel => (setAppLimit kernel e req).map Prod.snd
  | .restart o => if o.Valid e.db then some (restart o e) else none

/-- The same NICs with plugins of the same kind, the same groups with the same settings, and the same
applications with the same limits. -/
structure Same (e e' : NetEngine) : Prop where
  nics : e'.nics.Perm e.nics
  kinds : ∀ nic ∈ e.nics, (e'.plugins.lookup nic.ipAddr).map Plugin.kind =
    (e.plugins.lookup nic.ipAddr).map Plugin.kind
  groups : e'.groups.Perm e.groups
  groupSettable : e'.groupSettable = e.groupSettable
  groupLimit : e'.groupLimit = e.groupLimit
  apps : e'.tables.apps = e.tables.apps

/-- There is one NIC, and it is said to be of the type its set-up gives it. -/
def SingleNic (setup : String → AdqSetup) (groups : List Group) : List NICInfo → Prop
  | [nic] => nic.interfaceName ≠ "" ∧
      (nic.interfaceType = PluginKind.adq.interfaceType ↔
        checkAdq (setup nic.interfaceName) groups = true)
  | _ => False

instance (setup : String → AdqSetup) (groups : List Group) :
    ∀ nics, Decidable (SingleNic setup groups nics)
  | [] => isFalse id
  | [_] => inferInstanceAs (Decidable (_ ∧ (_ ↔ _)))
  | _ :: _ :: _ => isFalse id

/-- No application would be left in memory only: a complete request is refused by no NIC. -/
def Accepted (parse : String → Except String RegisterAppInfo) (e : NetEngine)
    (req : RegisterAppRequest) (found : Dict String String) (kernel : String → Kernel) : Prop :=
  ∀ app, Passes parse e req app → ¬ PluginFails e kernel e.nics (record e found req app)

instance (e : NetEngine) (kernel : String → Kernel) (nics : List NICInfo) (a : AppInfo) :
    Decidable (PluginFails e kernel nics a) :=
  decidable_of_iff ((registerNics e kernel nics a).2 ≠ none) (registerNics_fails_iff nics a)

instance (parse : String → Except String RegisterAppInfo) (e : NetEngine)
    (req : RegisterAppRequest) (found : Dict String String) (kernel : String → Kernel) :
    Decidable (Accepted parse e req found kernel) :=
  match h : checkApp parse found e req with
  | .error _ =>
    isTrue fun app hp => absurd (checkApp_ok_iff.mpr ⟨app, hp, rfl⟩) (by rw [h]; exact nofun)
  | .ok a =>
    decidable_of_iff (¬ PluginFails e kernel e.nics a)
      ⟨fun hf app hp => by
          rwa [← Except.ok.inj (h.symm.trans (checkApp_ok_iff.mpr ⟨app, hp, rfl⟩))],
        fun hf => by
          obtain ⟨app, hp, rfl⟩ := checkApp_ok_iff.mp h
          exact hf app hp⟩

/-- A step whose outcome is stored as it is in memory: the first configuration has one NIC and groups
with different names, a registration is accepted by the plugins, and limits are those of groups. -/
def Stored (parse : String → Except String RegisterAppInfo) (e : NetEngine) : Event → Prop
  | .configure _ setup (.system config) => e.groupSettable = none →
      SingleNic setup config.groups config.nodeIps ∧ (config.groups.map Group.id).Nodup ∧
        ∀ g ∈ config.groups, g.id ≠ ""
  | .registerApp req found kernel => Accepted parse e req found kernel
  | .setAppLimit req _ =>
    ∀ x ∈ groupApp req.appId, (e.tables.apps.lookup x.2).isSome → req.limit = []
  | _ => True

instance Stored.decidable (parse : String → Except String RegisterAppInfo) (e : NetEngine) :
    ∀ ev, Decidable (Stored parse e ev)
  | .configure _ _ (.system _) => inferInstanceAs (Decidable (_ → _ ∧ _ ∧ _))
  | .configure _ _ .unreadable | .configure _ _ (.interval _) => isTrue trivial
  | .registerApp req found kernel => inferInstanceAs (Decidable (Accepted parse e req found kernel))
  | .setAppLimit req _ => inferInstanceAs (Decidable (∀ x ∈ groupApp req.appId, _ → _))
  | .unRegisterApp _ _ | .restart _ => isTrue trivial

/-! ## Agreement with the database -/

structure Unconfigured (e : NetEngine) : Prop where
  groupSettable : e.groupSettable = none
  nics : e.nics = []
  groups : e.groups = []
  storedNics : e.db.nics = ∅
  storedGroups : e.db.groups = ∅

/-- One NIC is configured; it is stored as it came, and its type tells the kind of its plugin. -/
structure Configured (e : NetEngine) (nic : NICInfo) (kind : PluginKind) : Prop where
  groupSettable : e.groupSettable ≠ none
  nics : e.nics = [{ nic with interfaceType := kind.interfaceType }]
  stored : Dict.Stores NICInfo.interfaceName [nic] e.db.nics
  type : nic.interfaceType = PluginKind.adq.interfaceType ↔ kind = .adq
  plugin : (e.plugins.lookup nic.ipAddr).map Plugin.kind = some kind

structure Inv (e : NetEngine) : Prop where
  apps : e.tables.apps = e.tables.stored
  groupLimit : e.groupLimit = e.db.groupLimit
  groupSettable : e.groupSettable = e.db.groupSettable
  generation : e.db.generation ≠ 0
  groups : Dict.Stores Group.id e.groups e.db.groups
  ids : ∀ g ∈ e.groups, g.id ≠ ""
  config : Unconfigured e ∨ ∃ nic kind, Configured e nic kind

variable {e e' : NetEngine} {nic : NICInfo} {o : Orders}
  {parse : String → Except String RegisterAppInfo} {kernel : String → Kernel} {group : String}

/-- What is configured is a matter of the settings, the NICs with their plugins and the groups, in
memory and in the database. -/
theorem Inv.configFrame (h : Inv e) (hsettable : e'.groupSettable = e.groupSettable)
    (hnics : e'.nics = e.nics) (hgroups : e'.groups = e.groups) (hplugins : e'.plugins = e.plugins)
    (hstoredNics : e'.db.nics = e.db.nics) (hstoredGroups : e'.db.groups = e.db.groups) :
    Unconfigured e' ∨ ∃ nic kind, Configured e' nic kind := by
  rcases h.config with hu | ⟨nic, kind, hc⟩
  · exact .inl
      { groupSettable := hsettable.trans hu.groupSettable
        nics := hnics.trans hu.nics
        groups := hgroups.trans hu.groups
        storedNics := hstoredNics.trans hu.storedNics
        storedGroups := hstoredGroups.trans hu.storedGroups }
  · exact .inr ⟨nic, kind,
      { groupSettable := hsettable ▸ hc.groupSettable
        nics := hnics.trans hc.nics
        stored := hstoredNics ▸ hc.stored
        type := hc.type
        plugin := hplugins ▸ hc.plugin }⟩

theorem start_inv (isBridgeCNI : Bool) (ifname : String) : Inv (start isBridgeCNI ifname) where
  apps := rfl
  groupLimit := rfl
  groupSettable := rfl
  generation := Nat.one_ne_zero
  groups := Dict.stores_nil
  ids := by simp [start, initializeEngine, blank]
  config := .inl ⟨rfl, rfl, rfl, rfl, rfl⟩

theorem Inv.plugin (h : Inv e) (hnic : nic ∈ e.nics) : e.plugins.lookup nic.ipAddr ≠ none := by
  rcases h.config with hu | ⟨x, kind, hc⟩
  · rw [hu.nics] at hnic
    cases hnic
  rw [hc.nics] at hnic
  obtain rfl := List.mem_singleton.mp hnic
  intro hnone
  have hplugin := hc.plugin
  rw [show e.plugins.lookup x.ipAddr = none from hnone] at hplugin
  cases hplugin

/-! ## Restart -/

theorem restart_eq (h : e.db.generation ≠ 0) (o : Orders) :
    restart o e =
      { rebuild o (blank e.isBridgeCNI e.ifname e.tables.stored e.db) with
        db := { e.db with generation := e.db.generation + 1 } } := by
  simp only [restart, initializeEngine, if_neg h]

variable {kind : PluginKind} {network : CNI} {setup : String → AdqSetup}

theorem Configured.kindOf (h : Configured e nic kind) :
    kindOf (decide (nic.interfaceType = PluginKind.adq.interfaceType)) = kind := by
  cases kind with
  | adq | generic => simp [Net.kindOf, h.type]

theorem Configured.listing (h : Configured e nic kind) (ho : o.Valid e.db) :
    Dict.listing o.nics e.db.nics = [nic] := List.perm_singleton.mp (h.stored.listing_perm ho.1)

theorem Unconfigured.listing (h : Unconfigured e) (ho : o.Valid e.db) :
    Dict.listing o.nics e.db.nics = [] := by
  have hstored : Dict.Stores NICInfo.interfaceName [] e.db.nics := h.storedNics ▸ Dict.stores_nil
  exact List.perm_nil.mp (hstored.listing_perm ho.1)

theorem Inv.ofStored (h : Inv e) (ho : o.Valid e.db)
    (htables : e'.tables = ⟨e.tables.stored, e.tables.stored⟩)
    (hlimit : e'.groupLimit = e.db.groupLimit) (hsettable : e'.groupSettable = e.groupSettable)
    (hgroups : e'.groups = Dict.listing o.groups e.db.groups)
    (hdb : e'.db = { e.db with generation := e.db.generation + 1 })
    (hconfig : Unconfigured e' ∨ ∃ nic kind, Configured e' nic kind) : Inv e' := by
  have hperm : (Dict.listing o.groups e.db.groups).Perm e.groups := h.groups.listing_perm ho.2.1
  exact
    { apps := by rw [htables]
      groupLimit := by rw [hlimit, hdb]
      groupSettable := by rw [hsettable, hdb]; exact h.groupSettable
      generation := by rw [hdb]; exact Nat.succ_ne_zero _
      groups := by rw [hgroups, hdb]; exact h.groups.perm hperm
      ids := fun g hg => h.ids g (hperm.mem_iff.mp (hgroups ▸ hg))
      config := hconfig }

theorem restart_same_inv (h : Inv e) (ho : o.Valid e.db) :
    Same e (restart o e) ∧ Inv (restart o e) := by
  have hgroups : (Dict.listing o.groups e.db.groups).Perm e.groups := h.groups.listing_perm ho.2.1
  have hsettable : (e.db.groupSettable.or none : Option GroupSettable) = e.groupSettable := by
    rw [or_none, h.groupSettable]
  rw [restart_eq h.generation]
  rcases h.config with hu | ⟨nic, kind, hc⟩
  · have hnics := hu.listing ho
    refine ⟨⟨?_, ?_, hgroups, hsettable, h.groupLimit.symm, h.apps.symm⟩, ?_⟩
    · simp [rebuild, setPlugins, blank, hnics, hu.nics]
    · simp [hu.nics]
    refine h.ofStored ho rfl rfl hsettable rfl rfl (.inl ?_)
    refine ⟨hsettable.trans hu.groupSettable, ?_, ?_, hu.storedNics, hu.storedGroups⟩
    · simp [rebuild, setPlugins, blank, hnics]
    · exact List.perm_nil.mp (hu.groups ▸ hgroups)
  have hnics := hc.listing ho
  have hkind := hc.kindOf
  have hplugin : ((rebuild o (blank e.isBridgeCNI e.ifname e.tables.stored e.db)).plugins.lookup
      nic.ipAddr).map Plugin.kind = some kind := by
    simp [rebuild, setPlugins, blank, hnics, hkind]
  have hsame : (rebuild o (blank e.isBridgeCNI e.ifname e.tables.stored e.db)).nics = e.nics := by
    simp [rebuild, setPlugins, blank, hnics, hkind, hc.nics]
  refine ⟨⟨?_, ?_, hgroups, hsettable, h.groupLimit.symm, h.apps.symm⟩, ?_⟩
  · exact List.Perm.of_eq hsame
  · intro x hx
    rw [hc.nics] at hx
    obtain rfl := List.mem_singleton.mp hx
    exact hplugin.trans hc.plugin.symm
  · refine h.ofStored ho rfl rfl hsettable rfl rfl (.inr ⟨nic, kind, ?_⟩)
    exact ⟨fun hn => hc.groupSettable (hsettable.symm.trans hn), hsame.trans hc.nics, hc.stored,
      hc.type, hplugin⟩

/-! ## Requests -/

theorem Inv.withTables (h : Inv e) {t : Tables AppInfo.appName} (ht : t.apps = t.stored) :
    Inv { e with tables := t } where
  __ := h
  apps := ht
  config := h.configFrame rfl rfl rfl rfl rfl rfl

theorem Inv.withLimits (h : Inv e) (limits : Dict String BWLimit) :
    Inv { e with groupLimit := limits, db := { e.db with groupLimit := limits } } where
  __ := h
  groupLimit := rfl
  config := h.configFrame rfl rfl rfl rfl rfl rfl

theorem foldl_saveKey {groups : List Group} (h : ∀ g ∈ groups, g.id ≠ "") (d : Dict String Group) :
    groups.foldl (fun d g => saveKey d g.id g) d = groups.foldl (fun d g => d.insert g.id g) d :=
  List.foldl_ext _ _ _ fun _ g hg => if_neg (h g hg)

theorem updateConfig_inv {config : ConfigureInfo} (h : Inv e) (hu : Unconfigured e)
    (hnic : SingleNic setup config.groups config.nodeIps)
    (hnodup : (config.groups.map Group.id).Nodup) (hids : ∀ g ∈ config.groups, g.id ≠ "")
    (hup : updateConfig network setup config e = some e') : Inv e' := by
  obtain ⟨nic, hone, hname, htype⟩ : ∃ nic, config.nodeIps = [nic] ∧ nic.interfaceName ≠ "" ∧
      (nic.interfaceType = PluginKind.adq.interfaceType ↔
        checkAdq (setup nic.interfaceName) config.groups = true) := by
    match hl : config.nodeIps with
    | [] => rw [hl] at hnic; exact hnic.elim
    | [nic] => rw [hl] at hnic; exact ⟨nic, rfl, hnic.1, hnic.2⟩
    | _ :: _ :: _ => rw [hl] at hnic; exact hnic.elim
  simp only [updateConfig, hone, some.injEq] at hup
  subst hup
  refine ⟨h.apps, h.groupLimit, rfl, h.generation, ?_, hids, .inr ⟨nic, _, ?_, rfl, ?_, ?_, ?_⟩⟩
  · rw [foldl_saveKey hids, hu.storedGroups]
    exact Dict.stores_foldl_insert hnodup
  · exact some_ne_none _
  · rw [saveKey, if_neg hname, hu.storedNics]
    exact Dict.stores_foldl_insert (l := [nic]) (List.nodup_singleton _)
  · rw [htype]
    cases hadq : checkAdq (setup nic.interfaceName) config.groups <;> simp [kindOf, hadq]
  · simp [setPlugins]

theorem configure_inv {req : ConfigureRequest} {r : ConfigureResponse} (h : Inv e)
    (hc : Stored parse e (.configure network setup req))
    (hstep : configure network setup e req = some (r, e')) : Inv e' := by
  cases req with
  | unreadable =>
    cases hstep
    exact h
  | interval i =>
    cases hstep
    exact { h with config := h.configFrame rfl rfl rfl rfl rfl rfl }
  | system config =>
    simp only [configure] at hstep
    split at hstep
    · cases hstep
      exact h
    rename_i hset
    have hnone : e.groupSettable = none := by simpa using hset
    obtain ⟨hnic, hnodup, hids⟩ := hc hnone
    obtain ⟨x, hup, hx⟩ := map_eq_some_iff.mp hstep
    obtain ⟨-, rfl⟩ := Prod.mk.inj hx
    rcases h.config with hu | ⟨nic, kind, hcon⟩
    · exact updateConfig_inv h hu hnic hnodup hids hup
    · exact absurd hnone hcon.groupSettable

theorem registerApp_inv {req : RegisterAppRequest} {found : Dict String String} (h : Inv e)
    (hc : Accepted parse e req found kernel) :
    Inv (registerApp parse found kernel true e req).2 := by
  by_cases hpass : ∃ app, Passes parse e req app
  · obtain ⟨app, hp⟩ := hpass
    obtain ⟨a, -, hr⟩ := registerApp_passes hp (hc app hp) true
    rw [hr]
    refine h.withTables ?_
    simp only [if_true, h.apps]
  · rw [registerApp_refused fun app hp => hpass ⟨app, hp⟩]
    exact h

theorem unRegisterNics_ends :
    ∀ {nics : List NICInfo}, (∀ nic ∈ nics, e.plugins.lookup nic.ipAddr ≠ none) →
      ∀ a, (unRegisterNics e kernel nics a).2 = none := by
  intro nics
  induction nics with
  | nil => intro _ a; rfl
  | cons nic rest ih =>
    intro h a
    obtain ⟨p, hp⟩ := ne_none_iff_exists'.mp (h nic List.mem_cons_self)
    simp only [unRegisterNics, hp]
    exact ih (fun x hx => h x (List.mem_cons_of_mem nic hx)) _

theorem unRegisterApp_inv {appId : String} (h : Inv e) :
    Inv (unRegisterApp kernel true e appId).2 := by
  unfold unRegisterApp
  split
  · exact h
  cases ha : e.tables.apps.lookup appId with
  | none => exact h
  | some a =>
    have hend : (unRegisterNics e kernel e.nics a).2 = none :=
      unRegisterNics_ends (fun nic hnic => h.plugin hnic) a
    rcases hr : unRegisterNics e kernel e.nics a with ⟨b, err⟩
    obtain rfl : err = none := by rwa [hr] at hend
    simp only [hr]
    refine h.withTables ?_
    rw [deleteAppInfo_eq ha]
    simp [h.apps]

theorem enterLimits_inv {app : String} (hgroup : group ≠ "") :
    ∀ (limits : List BWLimit) {e : NetEngine}, Inv e → e.tables.apps.lookup app = none →
      Inv (enterLimits group app limits e).1 ∧
        (enterLimits group app limits e).1.tables = e.tables := by
  intro limits
  induction limits with
  | nil => exact fun h _ => ⟨h, rfl⟩
  | cons limit rest ih =>
    intro e h ha
    simp only [enterLimits, ha]
    split_ifs with hempty hboth
    · exact ⟨h, rfl⟩
    · have hsave : saveKey e.db.groupLimit group limit = e.groupLimit.insert group limit := by
        rw [saveKey, if_neg hgroup, h.groupLimit]
      rw [hsave]
      exact ih (h.withLimits _) ha
    · exact ih h ha

theorem setLimit_none {bridgeMode : Bool} {p : Plugin} {k : Kernel} {a : Option AppInfo}
    {err : Option String} (h : p.setLimit bridgeMode k group none = some (a, err)) : a = none := by
  unfold Plugin.setLimit at h
  cases hk : p.kind with
  | adq => simp only [hk, some.injEq, Prod.mk.injEq] at h; exact h.1.symm
  | generic =>
    simp only [hk] at h
    split_ifs at h <;> exact (Prod.mk.inj (some.inj h)).1.symm

theorem limitNics_none :
    ∀ {l : List (NICInfo × BWLimit)} {a : Option AppInfo} {err : Option String},
      limitNics e kernel group l none = some (a, err) → a = none := by
  intro l
  induction l with
  | nil => intro a err h; cases h; rfl
  | cons x rest ih =>
    intro a err h
    simp only [limitNics] at h
    split at h
    · cases h
    split at h
    · cases h
    · rename_i b err' hb
      cases h
      exact setLimit_none hb
    · rename_i b hb
      rw [setLimit_none hb] at h
      exact ih h

theorem setAppLimit_inv {req : SetAppLimitRequest} {r : StatusReply} (h : Inv e)
    (hc : Stored parse e (.setAppLimit req kernel))
    (hstep : setAppLimit kernel e req = some (r, e')) : Inv e' := by
  unfold setAppLimit at hstep
  split at hstep
  · cases hstep; exact h
  split at hstep
  · cases hstep; exact h
  rename_i group app hga
  cases ha : e.tables.apps.lookup app with
  | some a =>
    -- a request for an application has no limits to enter
    have hnil : req.limit = [] := hc (group, app) hga (by simp [ha])
    simp only [ha, hnil, enterLimits, List.product_nil, limitNics, NetEngine.enterApp,
      AppTable.insert_self ha] at hstep
    split_ifs at hstep <;> cases hstep <;> exact h
  | none =>
    simp only [ha, isSome_none, true_and] at hstep
    split_ifs at hstep with happ hgrp
    · cases hstep; exact h
    · cases hstep; exact h
    obtain ⟨g, hg, rfl⟩ : ∃ g ∈ e.groups, g.id = group := by simpa using hgrp
    obtain ⟨hinv, htables⟩ := enterLimits_inv (h.ids g hg) req.limit h ha
    rcases hr : enterLimits g.id app req.limit e with ⟨e₁, done⟩
    rw [hr] at hinv htables
    have hsame : e₁.tables.apps.lookup app = none := by rw [htables]; exact ha
    cases done with
    | false =>
      simp only [hr] at hstep
      cases hstep
      exact hinv
    | true =>
      simp only [hr, hsame] at hstep
      split at hstep
      · cases hstep
      · rename_i b err hb
        cases hstep
        rw [limitNics_none hb]
        exact hinv
      · rename_i b hb
        cases hstep
        rw [limitNics_none hb]
        exact hinv

theorem step_inv (e : NetEngine) (ev : Event) (e' : NetEngine) (hstep : step parse e ev = some e')
    (hc : Stored parse e ev) (h : Inv e) : Inv e' := by
  cases ev with
  | configure network setup req =>
    obtain ⟨⟨r, x⟩, hr, rfl⟩ := map_eq_some_iff.mp hstep
    exact configure_inv h hc hr
  | registerApp req found kernel =>
    cases hstep
    exact registerApp_inv h hc
  | unRegisterApp appId kernel =>
    cases hstep
    exact unRegisterApp_inv h
  | setAppLimit req kernel =>
    obtain ⟨⟨r, x⟩, hr, rfl⟩ := map_eq_some_iff.mp hstep
    exact setAppLimit_inv h hc hr
  | restart o =>
    simp only [step] at hstep
    split at hstep
    · rename_i ho
      cases hstep
      exact (restart_same_inv h ho).2
    · cases hstep

/-- A restart changes nothing in any run whose steps are all stored as they are in memory, whatever
the order in which the database is read. -/
theorem restart_same (parse : String → Except String RegisterAppInfo) (isBridgeCNI : Bool)
    (ifname : String) (es : List Event) (e : NetEngine)
    (hrun : run (step parse) (start isBridgeCNI ifname) es = some e)
    (hstored : Along (step parse) (Stored parse) (start isBridgeCNI ifname) es) (o : Orders)
    (ho : o.Valid e.db) : Same e (restart o e) :=
  (restart_same_inv (run_invariant (I := Inv) step_inv (start_inv isBridgeCNI ifname) hstored hrun)
    ho).1

/-! ## Runs on fixed inputs -/

def parseGuaranteed (_ : String) : Except String RegisterAppInfo :=
  .ok ⟨"0", "/proc/1/ns/net", Finmap.singleton "eth0" "10.0.0.2", "/sys/fs/cgroup/pod"⟩

def quietKernel (_ : String) : Kernel := ⟨∅, none, none, none⟩

/-- One NIC, which gets the generic plugin, a group of applications controlled one by one and a
shared group; then an application of the first group. -/
def setUp : List Event :=
  [.configure ⟨"flannel", "cni0"⟩ (fun _ => ⟨true, false⟩)
      (.system ⟨[⟨"ens1", "10.0.0.1", "", ""⟩], [⟨"0", groupSeparateLazy, 100, 1⟩,
        ⟨"1", groupShare, 50, 1⟩]⟩),
    .registerApp ⟨"pod", "info"⟩ (Finmap.singleton "eth0" "10.0.0.2") quietKernel]

def keyOrder : Orders := ⟨["ens1"], ["1", "0"], ["flannel"]⟩

/-- The limit of an application is lost with a restart. -/
theorem restart_not_same :
    ¬ ∀ (parse : String → Except String RegisterAppInfo) (isBridgeCNI : Bool) (ifname : String)
        (es : List Event) (e : NetEngine),
        run (step parse) (start isBridgeCNI ifname) es = some e →
          ∀ o : Orders, o.Valid e.db → Same e (restart o e) := by
  intro h
  obtain ⟨e, he, hvalid, hbefore, hafter⟩ : ∃ e ∈ run (step parseGuaranteed) (start false "ifb")
      (setUp ++ [.setAppLimit ⟨"0.pod", [⟨"0", "80", "80"⟩]⟩ quietKernel]),
      keyOrder.Valid e.db ∧
        (e.tables.apps.lookup "pod").map AppInfo.limits = some [⟨"0", "80", "80"⟩] ∧
        ((restart keyOrder e).tables.apps.lookup "pod").map AppInfo.limits = some [] := by
    decide +kernel
  have hsame := (h parseGuaranteed false "ifb" _ e he keyOrder hvalid).apps
  rw [hsame, hbefore] at hafter
  exact absurd hafter (by decide)

/-- With a limit of the shared group the engine comes back as it was. -/
theorem restart_same_group :
    ∃ e, run (step parseGuaranteed) (start false "ifb")
        (setUp ++ [.setAppLimit ⟨"1", [⟨"0", "80", "80"⟩]⟩ quietKernel]) = some e ∧
      Same e (restart keyOrder e) ∧ e.groupLimit.lookup "1" = some ⟨"0", "80", "80"⟩ := by
  obtain ⟨e, he, hvalid, hlimit⟩ : ∃ e ∈ run (step parseGuaranteed) (start false "ifb")
      (setUp ++ [.setAppLimit ⟨"1", [⟨"0", "80", "80"⟩]⟩ quietKernel]),
      keyOrder.Valid e.db ∧ e.groupLimit.lookup "1" = some ⟨"0", "80", "80"⟩ := by
    decide +kernel
  exact ⟨e, he, restart_same parseGuaranteed false "ifb" _ e he (by decide +kernel) keyOrder hvalid,
    hlimit⟩

end IOIsolation.Service.Net
