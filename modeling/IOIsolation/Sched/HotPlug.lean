import IOIsolation.Sched.StaticInfo
import IOIsolation.Sched.HandlerParts

/-!
# Sched.HotPlug

What a change of a node's disks leaves behind. The update handler adds the new disks and drops the
removed ones, and leaves every other part of the entry as it is.

* `rebuilt_iff`  — when the entry is the one a rebuild from the new configuration gives.
* `returned_iff` — when deleting a pod after disks were removed returns what it has on the others.
-/

namespace IOIsolation.Sched

open Lib Finmap BlockIo Outcome Dict List Option

theorem Pools.take_inj (p : Pools) (d e : Demand) : p.take d = p.take e ↔ d = e := by
  constructor
  · intro h
    have hin : p.ga.inBps - d.1 = p.ga.inBps - e.1 := congrArg (fun q => q.ga.inBps) h
    have hout : p.ga.outBps - d.2.1 = p.ga.outBps - e.2.1 := congrArg (fun q => q.ga.outBps) h
    have hnum : p.be.num + d.2.2 = p.be.num + e.2.2 := congrArg (fun q => q.be.num) h
    ext
    · exact sub_right_inj.mp hin
    · exact sub_right_inj.mp hout
    · exact add_left_cancel hnum
  · rintro rfl
    rfl

namespace BlockIo

/-! ## The disk a rebuild gives -/

/-- The cached disk has what the configuration, the reserved pods and the bound claims say. -/
structure BuiltFrom [QuantityParser] (rc : ResourceConfigSpec) (pods : Dict String PodRequest)
    (used : Int)
    (size : String → Int) (dev : String) (info : Device) (disk : DiskInfo) : Prop where
  pools : disk.toPools = initDevice .diskIo rc.bePool dev info pods ⟨.zero, beShare rc.bePool info⟩
  name : disk.diskName = info.name
  readRatio : disk.readRatio = parseMappingRatio info.readRatio
  writeRatio : disk.writeRatio = parseMappingRatio info.writeRatio
  beDefaultRead : disk.beDefaultRead = info.defaultIn
  beDefaultWrite : disk.beDefaultWrite = info.defaultOut
  capacity : disk.capacity = size info.diskSize
  used : disk.requestedDiskSpace = used
  mountPath : disk.mountPath = info.mountPath

variable {rc : ResourceConfigSpec} {pods : Dict String PodRequest} {used : Int}
  {size : String → Int} {dev : String} {info : Device}

theorem BuiltFrom.unique [QuantityParser] {disk disk' : DiskInfo}
    (h : BuiltFrom rc pods used size dev info disk)
    (h' : BuiltFrom rc pods used size dev info disk') : disk = disk' := by
  obtain ⟨p, n, r, w, br, bw, c, u, m⟩ := disk
  obtain ⟨p', n', r', w', br', bw', c', u', m'⟩ := disk'
  obtain ⟨h1, h2, h3, h4, h5, h6, h7, h8, h9⟩ := h
  obtain ⟨h1', h2', h3', h4', h5', h6', h7', h8', h9'⟩ := h'
  dsimp only at *
  rw [h1, h2, h3, h4, h5, h6, h7, h8, h9, h1', h2', h3', h4', h5', h6', h7', h8', h9']

theorem addedDisk_builtFrom_iff [QuantityParser] :
    BuiltFrom rc pods used size dev info (addedDisk rc size info) ↔
      computedTotal .diskIo dev pods = 0 ∧ used = 0 := by
  have hfresh : (addedDisk rc size info).toPools =
      initDevice .diskIo rc.bePool dev info ∅ ⟨.zero, beShare rc.bePool info⟩ := by
    simp [addedDisk, initDevice, beShare]
  constructor
  · intro h
    have hpools := h.pools
    rw [initDevice_eq_take, hfresh, ← Pools.take_zero (initDevice _ _ _ _ ∅ _),
      Pools.take_take, zero_add, Pools.take_inj] at hpools
    exact ⟨hpools.symm, h.used.symm⟩
  · rintro ⟨hzero, hused⟩
    refine ⟨?_, rfl, rfl, rfl, rfl, rfl, rfl, hused.symm, rfl⟩
    rw [initDevice_eq_take, hzero, Pools.take_zero, hfresh]

def rebuild [QuantityParser] (node : String) (rc : ResourceConfigSpec) (size : String → Int)
    (order : List String)
    (a : UsageAnswers) (env : Env) : Outcome (Except String Resource) :=
  match buildNode node rc size order a env with
  | .error err => .done (.error err)
  | .ok (ps, env) => do return .ok (← initNodeStatus ps env.ctx rc)

/-- The loop over the devices ends with the last default device it visits. -/
def isDefault (devices : Dict String Device) (dev : String) : Bool :=
  (devices.lookup dev).any fun info => info.type = .defaultDevice

theorem lastDefault_eq (devices : Dict String Device) (order : List String) (dev : String) :
    lastDefault devices order dev = (order.filter (isDefault devices)).getLastD dev := by
  induction order generalizing dev with
  | nil => rfl
  | cons d order ih =>
    have hstep : lastDefault devices (d :: order) dev =
        lastDefault devices order (if isDefault devices d then d else dev) := by
      simp only [lastDefault, foldl_cons, isDefault]
      congr 1
      rcases eq_none_or_eq_some (devices.lookup d) with h | ⟨info, h⟩
      · simp [h]
      · simp [h]
    rw [hstep, ih]
    by_cases hd : isDefault devices d
    · rw [if_pos hd, filter_cons_of_pos hd, getLastD_cons]
    · rw [if_neg hd, filter_cons_of_neg hd]

/-- What a rebuild gives: one disk for each device, as `BuiltFrom` says. -/
theorem rebuild_spec [QuantityParser] {node : String} {order : List String} {a : UsageAnswers} {env : Env}
    {l : PodList} {claims : Dict String StorageInfo} {ps : Resource}
    (hl : env.ctx.getReservedPods node = .ok l)
    (hclaims : getDeviceUsage env.cms node a = .ok claims)
    (h : rebuild node rc size order a env = .done (.ok ps)) :
    ps.nodeName = node ∧ ps.info.emptyDirDevice = lastDefault rc.devices order "" ∧
      ∀ dev, match rc.devices.lookup dev with
        | some info => ∃ disk, ps.info.disksStatus.lookup dev = some disk ∧
            BuiltFrom rc l.podList (usedSpace claims node dev) size dev info disk
        | none => ps.info.disksStatus.lookup dev = none := by
  have hlist : ∀ claims', ({ env.ctx with claimDevMap := claims' } :
      ResourceIOContext).getReservedPods node = .ok l := fun _ => hl
  simp only [rebuild, buildNode, hclaims, initNodeStatus, addCacheNodeInfo, hlist,
    done_bind, pure_eq, done.injEq, Except.ok.injEq] at h
  subst h
  refine ⟨rfl, rfl, fun dev => ?_⟩
  simp only [Resource.setDisks_disksStatus, initDisks, lookup_mapVals]
  cases hinfo : rc.devices.lookup dev with
  | none => rfl
  | some info =>
    simp only [map_some, some.injEq, exists_eq_left']
    constructor <;> rfl

/-! ## The entry after the change -/

theorem Resource.eq_of_parts {a b : Resource} (hname : a.nodeName = b.nodeName)
    (hdisks : a.info.disksStatus = b.info.disksStatus)
    (hdefault : a.info.emptyDirDevice = b.info.emptyDirDevice) : a = b := by
  obtain ⟨name, disks, dflt⟩ := a
  dsimp only at hname hdisks hdefault
  rw [hname, hdisks, hdefault]

theorem lookup_changeDisks [QuantityParser] (ps : Resource) (old new : ResourceConfigSpec)
    (size : String → Int)
    (order : List String) (dev : String) :
    (changeDisks ps old new size order).info.disksStatus.lookup dev =
      if dev ∈ old.devices then
        if dev ∈ new.devices then ps.info.disksStatus.lookup dev else none
      else
        match new.devices.lookup dev with
        | some info => some (addedDisk new size info)
        | none => ps.info.disksStatus.lookup dev := by
  have hadds : dev ∈ devicesAdded old new ↔ dev ∈ new.devices ∧ dev ∉ old.devices := by
    rw [← lookup_isSome, devicesAdded, lookup_without]
    by_cases h : dev ∈ old.devices <;> simp [h, lookup_isSome]
  have hdels : dev ∈ devicesDeleted old new ↔ dev ∈ old.devices ∧ dev ∉ new.devices := by
    rw [← lookup_isSome, devicesDeleted, lookup_without]
    by_cases h : dev ∈ new.devices <;> simp [h, lookup_isSome]
  have hmap : dev ∈ mapVals (fun _ info => addedDisk new size info) (devicesAdded old new) ↔
      dev ∈ devicesAdded old new := by
    rw [← lookup_isSome, lookup_mapVals, isSome_map, lookup_isSome]
  simp only [changeDisks, lookup_without, lookup_union_ite, hmap, hadds, hdels, lookup_mapVals]
  by_cases ho : dev ∈ old.devices
  · by_cases hn : dev ∈ new.devices <;> simp [ho, hn]
  cases hn : new.devices.lookup dev with
  | none => simp [ho, lookup_eq_none.mp hn]
  | some info =>
    simp [ho, mem_of_lookup_eq_some hn, devicesAdded, lookup_without, hn]

end BlockIo

/-! ## What the handler does -/

section Update

variable [QuantityParser] {hash : ResourceConfigSpec → Nat} {handles : List HandleKind} {node : String}
  {base : Dict WorkloadIOType ResourceConfigSpec} {o n : ResourceConfigSpec}
  {size : String → Int} {a : StaticAnswers}

theorem updateNodeStaticIOInfo_skip {k : WorkloadIOType} (hk : k ≠ .blockIo)
    (order : List WorkloadIOType) (s : SchedState) :
    updateNodeStaticIOInfo hash handles node (base.insert .blockIo o) (base.insert .blockIo n) size
        a (k :: order) s =
      updateNodeStaticIOInfo hash handles node (base.insert .blockIo o) (base.insert .blockIo n)
        size a order s := by
  have hl : ∀ x, (base.insert .blockIo x).lookup k = base.lookup k := fun x => by
    rw [lookup_insert_ite, if_neg hk]
  rw [updateNodeStaticIOInfo, hl]
  cases hb : base.lookup k with
  | none => rfl
  | some x =>
    have hsame : updateResource hash node k (some x) x size a s = .done (s, true) := by
      simp only [updateResource]
      rw [if_neg fun h => hk h.2]
    simp only [hl, hb, hsame, done_bind, if_true, ite_self]

variable {order : List WorkloadIOType} {ps : Resource} {s : SchedState}

theorem updateNodeStaticIOInfo_others (hnot : .blockIo ∉ order) (s : SchedState) :
    updateNodeStaticIOInfo hash handles node (base.insert .blockIo o) (base.insert .blockIo n) size
      a order s = .done s := by
  induction order with
  | nil => rfl
  | cons k order ih =>
    rw [mem_cons, not_or] at hnot
    rw [updateNodeStaticIOInfo_skip fun h => hnot.1 h.symm]
    exact ih hnot.2

def entryAfter (hash : ResourceConfigSpec → Nat) (o n : ResourceConfigSpec) (size : String → Int)
    (order : List String) (ps : Resource) : Resource :=
  if hash n ≠ hash o then changeDisks ps o n size order else ps

theorem updateResource_blockIo (hash : ResourceConfigSpec → Nat) (o n : ResourceConfigSpec)
    (size : String → Int) (a : StaticAnswers) (hps : s.caches.blockIo.lookup node = some ps) :
    ∃ go, updateResource hash node .blockIo (some o) n size a s =
      .done ({ s with caches := { s.caches with
        blockIo := s.caches.blockIo.insert node (entryAfter hash o n size a.deviceOrder ps) } },
        go) := by
  unfold updateResource entryAfter
  by_cases hh : hash n ≠ hash o
  · simp [hh, updateDeviceNodeInfo, hps]
  · simp [hh, insert_lookup hps]

theorem updateNodeStaticIOInfo_entry (hash : ResourceConfigSpec → Nat)
    (base : Dict WorkloadIOType ResourceConfigSpec) (o n : ResourceConfigSpec) (size : String → Int)
    (a : StaticAnswers) (hmem : .blockIo ∈ order) (hnodup : order.Nodup)
    (hhandle : .blockIo ∈ handles) (hps : s.caches.blockIo.lookup node = some ps) :
    ∃ s', updateNodeStaticIOInfo hash handles node (base.insert .blockIo o)
        (base.insert .blockIo n) size a order s = .done s' ∧
      s'.caches.blockIo.lookup node = some (entryAfter hash o n size a.deviceOrder ps) := by
  induction order with
  | nil => cases hmem
  | cons k order ih =>
    rw [nodup_cons] at hnodup
    by_cases hk : k = .blockIo
    · subst hk
      obtain ⟨go, hupd⟩ := updateResource_blockIo hash o n size a hps
      have hrun : updateNodeStaticIOInfo hash handles node (base.insert .blockIo o)
          (base.insert .blockIo n) size a (.blockIo :: order) s = .done { s with
            caches := { s.caches with
              blockIo := s.caches.blockIo.insert node
                (entryAfter hash o n size a.deviceOrder ps) } } := by
        unfold updateNodeStaticIOInfo
        simp only [lookup_insert, handleOf, hhandle, if_true, hupd, done_bind,
          updateNodeStaticIOInfo_others hnodup.1, pure_eq, ite_self]
      exact ⟨_, hrun, lookup_insert _⟩
    · rw [updateNodeStaticIOInfo_skip hk]
      exact ih ((mem_cons.mp hmem).resolve_left fun h => hk h.symm) hnodup.2

end Update

/-! ## When the entry is the rebuilt one -/

section Rebuilt

variable [QuantityParser] (hash : ResourceConfigSpec → Nat) (o n : ResourceConfigSpec)

/-- The update enters the device, or drops it. A change of the configuration is seen by its hash. -/
def Plugs (dev : String) : Prop := hash n ≠ hash o ∧ dev ∈ n.devices ∧ dev ∉ o.devices

def Unplugs (dev : String) : Prop := hash n ≠ hash o ∧ dev ∈ o.devices ∧ dev ∉ n.devices

instance (dev : String) : Decidable (Plugs hash o n dev) :=
  inferInstanceAs (Decidable (_ ∧ _ ∧ _))

instance (dev : String) : Decidable (Unplugs hash o n dev) :=
  inferInstanceAs (Decidable (_ ∧ _ ∧ _))

/-- What the update does not do must not be needed: every disk that stays is already as the new
configuration, the reserved pods and the claims want it, no reserved pod and no claim is on a new
disk, no other disk is cached, and the last new default device, or the one before where there is no
new one, is the default device of the new configuration. -/
structure UpToDate (size : String → Int) (order buildOrder : List String)
    (pods : Dict String PodRequest) (used : String → Int) (ps : Resource) : Prop where
  stays : ∀ dev info, n.devices.lookup dev = some info → ¬ Plugs hash o n dev →
    ∃ disk, ps.info.disksStatus.lookup dev = some disk ∧
      BuiltFrom n pods (used dev) size dev info disk
  enters : ∀ dev, Plugs hash o n dev → computedTotal .diskIo dev pods = 0 ∧ used dev = 0
  leaves : ∀ dev ∈ ps.info.disksStatus, dev ∉ n.devices → Unplugs hash o n dev
  default : (order.filter fun dev => Plugs hash o n dev ∧ isDefault n.devices dev).getLastD
      ps.info.emptyDirDevice = (buildOrder.filter (isDefault n.devices)).getLastD ""

variable {hash o n} {size : String → Int} {order : List String} {ps : Resource}

theorem entryAfter_nodeName : (entryAfter hash o n size order ps).nodeName = ps.nodeName := by
  unfold entryAfter
  split <;> rfl

theorem lookup_entryAfter (dev : String) :
    (entryAfter hash o n size order ps).info.disksStatus.lookup dev =
      if Plugs hash o n dev then (n.devices.lookup dev).map (addedDisk n size)
      else if Unplugs hash o n dev then none
      else ps.info.disksStatus.lookup dev := by
  unfold entryAfter Plugs Unplugs
  by_cases hh : hash n = hash o
  · simp [hh]
  simp only [ne_eq, hh, not_false_eq_true, if_true, true_and, lookup_changeDisks]
  by_cases ho : dev ∈ o.devices
  · by_cases hn : dev ∈ n.devices <;> simp [ho, hn]
  cases hn : n.devices.lookup dev with
  | none => simp [ho, lookup_eq_none.mp hn]
  | some info => simp [ho, mem_of_lookup_eq_some hn]

theorem entryAfter_emptyDirDevice :
    (entryAfter hash o n size order ps).info.emptyDirDevice =
      (order.filter fun dev => Plugs hash o n dev ∧ isDefault n.devices dev).getLastD
        ps.info.emptyDirDevice := by
  unfold entryAfter Plugs
  by_cases hh : hash n = hash o
  · simp [hh]
  simp only [ne_eq, hh, not_false_eq_true, if_true, true_and, changeDisks, lastDefault_eq]
  congr 2
  funext dev
  by_cases ho : dev ∈ o.devices
  · simp [isDefault, devicesAdded, lookup_without, ho]
  cases hn : n.devices.lookup dev with
  | none =>
    simp [isDefault, devicesAdded, lookup_without, ho, hn]
  | some info =>
    simp [isDefault, devicesAdded, lookup_without, ho, hn, mem_of_lookup_eq_some hn]

variable {node : String} {buildOrder : List String} {a : UsageAnswers} {env : Env}
  {l : PodList} {claims : Dict String StorageInfo} {built : Resource}

theorem lookup_eq_iff (hash : ResourceConfigSpec → Nat) (o : ResourceConfigSpec)
    (order : List String) (ps : Resource) {pods : Dict String PodRequest}
    {used : String → Int} {dev : String} (hbuilt : match n.devices.lookup dev with
      | some info => ∃ disk, built.info.disksStatus.lookup dev = some disk ∧
          BuiltFrom n pods (used dev) size dev info disk
      | none => built.info.disksStatus.lookup dev = none) :
    (entryAfter hash o n size order ps).info.disksStatus.lookup dev =
        built.info.disksStatus.lookup dev ↔
      (∀ info, n.devices.lookup dev = some info → ¬ Plugs hash o n dev →
        ∃ disk, ps.info.disksStatus.lookup dev = some disk ∧
          BuiltFrom n pods (used dev) size dev info disk) ∧
      (Plugs hash o n dev → computedTotal .diskIo dev pods = 0 ∧ used dev = 0) ∧
      (dev ∈ ps.info.disksStatus → dev ∉ n.devices → Unplugs hash o n dev) := by
  rw [lookup_entryAfter]
  cases hn : n.devices.lookup dev with
  | none =>
    have hnot := lookup_eq_none.mp hn
    have henter : ¬ Plugs hash o n dev := fun h => hnot h.2.1
    simp only [hn] at hbuilt
    rw [hbuilt, if_neg henter]
    by_cases hleave : Unplugs hash o n dev
    · simp [hleave, henter]
    · simp [hleave, henter, hnot, lookup_eq_none]
  | some info =>
    have hmem := mem_of_lookup_eq_some hn
    have hleave : ¬ Unplugs hash o n dev := fun h => h.2.2 hmem
    simp only [hn] at hbuilt
    obtain ⟨disk, hdisk, hfrom⟩ := hbuilt
    rw [hdisk]
    by_cases henter : Plugs hash o n dev
    · simp only [henter, if_true, map_some, some.injEq, not_true_eq_false,
        false_imp_iff, implies_true, true_and, hmem, and_true, forall_const]
      exact ⟨fun h => addedDisk_builtFrom_iff.mp (h ▸ hfrom),
        fun h => (addedDisk_builtFrom_iff.mpr h).unique hfrom⟩
    · simp only [henter, if_false, hleave, not_false_eq_true, forall_const, false_imp_iff,
        hmem, not_true_eq_false, implies_true, and_true, some.injEq,
        forall_eq']
      exact ⟨fun h => ⟨disk, h, hfrom⟩, fun ⟨disk', h, h'⟩ => h.trans (congrArg some (h'.unique hfrom))⟩

/-- Handling a change of the devices gives the entry that `AddCacheNodeInfo` and `InitNodeStatus`
would build exactly when what it leaves as it is is up to date. -/
theorem rebuilt_iff {handles : List HandleKind} {base : Dict WorkloadIOType ResourceConfigSpec}
    {loopOrder : List WorkloadIOType} {answers : StaticAnswers} {s : SchedState}
    (hloop : .blockIo ∈ loopOrder) (hnodup : loopOrder.Nodup) (hhandle : .blockIo ∈ handles)
    (hps : s.caches.blockIo.lookup node = some ps) (hname : ps.nodeName = node)
    (hl : s.env.ctx.getReservedPods node = .ok l)
    (hclaims : getDeviceUsage s.env.cms node a = .ok claims)
    (hbuild : rebuild node n size buildOrder a s.env = .done (.ok built)) :
    ∃ s', updateNodeStaticIOInfo hash handles node (base.insert .blockIo o)
        (base.insert .blockIo n) size answers loopOrder s = .done s' ∧
      (s'.caches.blockIo.lookup node = some built ↔
        UpToDate hash o n size answers.deviceOrder buildOrder l.podList
          (fun dev => usedSpace claims node dev) ps) := by
  obtain ⟨s', hrun, hentry⟩ := updateNodeStaticIOInfo_entry hash base o n size answers hloop hnodup
    hhandle hps
  refine ⟨s', hrun, ?_⟩
  obtain ⟨hbname, hbdefault, hbdisks⟩ := rebuild_spec hl hclaims hbuild
  have hdevs := fun dev => lookup_eq_iff hash o answers.deviceOrder ps (hbdisks dev)
  rw [hentry, some.injEq]
  constructor
  · intro heq
    have hdev := fun dev => (hdevs dev).mp (by rw [heq])
    refine ⟨fun dev => (hdev dev).1, fun dev => (hdev dev).2.1, fun dev => (hdev dev).2.2, ?_⟩
    calc _ = (entryAfter hash o n size answers.deviceOrder ps).info.emptyDirDevice :=
          entryAfter_emptyDirDevice.symm
      _ = _ := by rw [heq, hbdefault, lastDefault_eq]
  · rintro ⟨hstays, henters, hleaves, hdefault⟩
    apply Resource.eq_of_parts
    · rw [entryAfter_nodeName, hname, hbname]
    · exact ext_lookup fun dev => (hdevs dev).mpr ⟨hstays dev, henters dev, hleaves dev⟩
    · rw [entryAfter_emptyDirDevice, hbdefault, lastDefault_eq, hdefault]

end Rebuilt

/-! The share of the best-effort pool grows, and the cached disk keeps the old pools; a new disk is
entered as a rebuild would. -/

/-- Every change gives the rebuilt entry. -/
def AlwaysRebuilt [QuantityParser] (hash : ResourceConfigSpec → Nat) : Prop :=
  ∀ (handles : List HandleKind) (node : String) (base : Dict WorkloadIOType ResourceConfigSpec)
    (o n : ResourceConfigSpec) (size : String → Int) (answers : StaticAnswers)
    (loopOrder : List WorkloadIOType) (s s' : SchedState) (l : PodList)
    (a : UsageAnswers) (buildOrder : List String) (built : Resource),
    .blockIo ∈ loopOrder → loopOrder.Nodup → .blockIo ∈ handles →
    (∃ ps, s.caches.blockIo.lookup node = some ps ∧ ps.nodeName = node) →
    s.env.ctx.getReservedPods node = .ok l →
    rebuild node n size buildOrder a s.env = .done (.ok built) →
    updateNodeStaticIOInfo hash handles node (base.insert .blockIo o) (base.insert .blockIo n) size
      answers loopOrder s = .done s' →
    s'.caches.blockIo.lookup node = some built

attribute [local instance] sampleParser

def rebuiltFrom (rc : ResourceConfigSpec) : Resource :=
  let ps := addCacheNodeInfo "n" rc
    (Dict.mapVals (fun dev _ => usedSpace ∅ "n" dev) rc.devices) (fun _ => 1000) "sda"
  ps.setDisks (initDisks rc ∅ ps.info.disksStatus)

def sdaSched : SchedState :=
  { caches := { blockIo := Finmap.singleton "n" (rebuiltFrom sdaConfig), networkIo := ∅,
                rdt := ∅, rdtQuantity := ∅ }
    env := sdaEnv }

def wideConfig : ResourceConfigSpec := { sdaConfig with bePool := 30 }

def sdbDevice : Device :=
  { name := "sdb", type := .otherDevice, defaultIn := 5, defaultOut := 5, readRatio := ∅,
    writeRatio := ∅, capacityIn := 80, capacityOut := 80, capacityTotal := 120,
    diskSize := "1Gi", mountPath := "/mnt/sdb" }

def pluggedConfig : ResourceConfigSpec :=
  { sdaConfig with devices := sdaConfig.devices.insert "sdb" sdbDevice }

def noClaims : UsageAnswers := { pvcs := .ok [], getFail := none }

def plugAnswers : StaticAnswers :=
  { usage := noClaims, patchFail := fun _ => none, deviceOrder := ["sdb"], podOrder := [] }

theorem not_alwaysRebuilt : ¬ ∃ hash, AlwaysRebuilt hash := by
  rintro ⟨hash, h⟩
  have hps : sdaSched.caches.blockIo.lookup "n" = some (rebuiltFrom sdaConfig) := rfl
  have hloop : WorkloadIOType.blockIo ∈ [WorkloadIOType.blockIo] := mem_singleton.mpr rfl
  have hhandle : HandleKind.blockIo ∈ [HandleKind.blockIo] := mem_singleton.mpr rfl
  obtain ⟨s', hrun, hentry⟩ := updateNodeStaticIOInfo_entry hash ∅ sdaConfig wideConfig
    (fun _ => 1000) plugAnswers hloop (nodup_singleton _) hhandle hps
  have heq := h _ "n" ∅ sdaConfig wideConfig (fun _ => 1000) plugAnswers _
    sdaSched s' ⟨0, ∅⟩ noClaims ["sda"] (rebuiltFrom wideConfig) hloop (nodup_singleton _)
    hhandle ⟨_, hps, rfl⟩ rfl rfl hrun
  rw [hentry, some.injEq] at heq
  have hdisk := congrArg (fun ps => ps.info.disksStatus.lookup "sda") heq
  have hold : "sda" ∈ sdaConfig.devices := by decide
  have hnew : "sda" ∈ wideConfig.devices := by decide
  simp only [lookup_entryAfter, Plugs, Unplugs, hold, hnew, not_true_eq_false, and_false,
    if_false] at hdisk
  revert hdisk
  decide +kernel

theorem rebuilt_of_plug :
    ∃ s', updateNodeStaticIOInfo (fun rc => rc.devices.keys.card) [.blockIo] "n"
        (Finmap.insert .blockIo sdaConfig ∅) (Finmap.insert .blockIo pluggedConfig ∅)
        (fun _ => 1000) plugAnswers [.blockIo] sdaSched = .done s' ∧
      s'.caches.blockIo.lookup "n" = some (rebuiltFrom pluggedConfig) := by
  obtain ⟨s', hrun, hiff⟩ := rebuilt_iff (mem_singleton.mpr rfl)
    (nodup_singleton WorkloadIOType.blockIo)
    (show HandleKind.blockIo ∈ [HandleKind.blockIo] by decide)
    (show sdaSched.caches.blockIo.lookup "n" = some (rebuiltFrom sdaConfig) from rfl) rfl
    (show sdaSched.env.ctx.getReservedPods "n" = .ok ⟨0, ∅⟩ from rfl)
    (show getDeviceUsage sdaSched.env.cms "n" noClaims = .ok ∅ from rfl)
    (show rebuild "n" pluggedConfig (fun _ => 1000) ["sda", "sdb"] noClaims sdaSched.env =
      .done (.ok (rebuiltFrom pluggedConfig)) from rfl)
  refine ⟨s', hrun, hiff.mpr ⟨?_, ?_, ?_, by decide +kernel⟩⟩
  · intro dev info hinfo henter
    have hdev : dev = "sda" := by
      by_contra hne
      refine henter ⟨by decide, mem_of_lookup_eq_some hinfo, ?_⟩
      exact fun hmem => hne ((mem_singleton _ _ _).mp hmem)
    subst hdev
    obtain rfl : _ = info := some.inj hinfo
    exact ⟨_, rfl, rfl, rfl, rfl, rfl, rfl, rfl, rfl, rfl, rfl⟩
  · intro dev _
    exact ⟨rfl, rfl⟩
  · intro dev hmem hnot
    have hold := addCacheNodeInfo_configured _ _ _ _ _ dev (mem_initDisks.mp hmem)
    exact absurd (mem_insert.mpr (.inr hold)) hnot

/-! ## Deleting a pod after its disks changed -/

variable {t : IOType} {as bs rs : List IOResourceRequest} {dev : String} {r : IOResourceRequest}
  {rc : ResourceConfigSpec}

theorem WellFormed.append_left (h : WellFormed t (as ++ bs)) : WellFormed t as :=
  ⟨fun r hr => h.schedulable r (mem_append_left bs hr), (pairwise_append.mp h.distinct).1⟩

theorem WellFormed.append_right (h : WellFormed t (as ++ bs)) : WellFormed t bs :=
  ⟨fun r hr => h.schedulable r (mem_append_right as hr), (pairwise_append.mp h.distinct).2.1⟩

theorem WellFormed.podDemand_of_mem (h : WellFormed t rs) (hr : r ∈ rs) (ht : r.ioType = t)
    (hd : devName r = some dev) : podDemand t dev rs = demand r := by
  obtain ⟨as, bs, rfl⟩ := append_of_mem hr
  have hbefore : podDemand t dev as = 0 := by
    apply podDemand_eq_zero
    intro x hx hxt hxd
    exact (pairwise_append.mp h.distinct).2.2 x hx r mem_cons_self hxt ht
      (hxd.trans hd.symm)
  rw [podDemand_append, podDemand_cons, hbefore, h.append_right.podDemand_tail ht hd,
    demandOn_self ht hd, zero_add, add_zero]

theorem podDemand_be_eq_zero (h : ∀ r ∈ rs, r.workloadType ≠ .beIndex) :
    (podDemand t dev rs).2.2 = 0 := by
  induction rs with
  | nil => rfl
  | cons r rs ih =>
    have hr : (demandOn t dev r).2.2 = 0 := by
      unfold demandOn
      split_ifs
      · exact demand_be_of_ne (h r mem_cons_self)
      · rfl
    rw [podDemand_cons, Prod.snd_add, Prod.snd_add, hr,
      ih fun r hr => h r (mem_cons_of_mem _ hr), add_zero]

namespace BlockIo

variable {disks : Disks}

/-- The request names a registered disk, or is not one for a disk. -/
def Passes (disks : Disks) (r : IOResourceRequest) : Prop :=
  r.ioType = .diskIo → ∀ dev, devName r = some dev → dev ∈ disks

instance (disks : Disks) (r : IOResourceRequest) : Decidable (Passes disks r) :=
  match h : devName r with
  | some dev => decidable_of_iff (r.ioType = .diskIo → dev ∈ disks) (by simp [Passes, h])
  | none => isTrue fun _ dev hdev => by rw [h] at hdev; cases hdev

def reached (disks : Disks) (rs : List IOResourceRequest) : List IOResourceRequest :=
  rs.takeWhile fun r => Passes disks r

/-- The requests from the first one for a missing disk on. -/
def missed (disks : Disks) (rs : List IOResourceRequest) : List IOResourceRequest :=
  rs.dropWhile fun r => Passes disks r

theorem reached_append_missed (disks : Disks) (rs : List IOResourceRequest) :
    reached disks rs ++ missed disks rs = rs := takeWhile_append_dropWhile

theorem passes_of_reached (h : r ∈ reached disks rs) : Passes disks r := by
  simpa using mem_takeWhile_imp h

theorem missed_cases (disks : Disks) (rs : List IOResourceRequest) :
    missed disks rs = [] ∨ ∃ v vs, missed disks rs = v :: vs ∧ ¬ Passes disks v := by
  cases h : missed disks rs with
  | nil => exact .inl rfl
  | cons v vs =>
    have hne : missed disks rs ≠ [] := by rw [h]; exact cons_ne_nil v vs
    have hhead : (missed disks rs).head hne = v := by simp only [h, head_cons]
    have hv := head_dropWhile_not (fun r => decide (Passes disks r)) hne
    refine .inr ⟨v, vs, rfl, ?_⟩
    rw [← hhead]
    exact of_decide_eq_false hv

variable {disks' : Disks} {r : Except String Unit}

theorem refundAll_append (nodeName : String)
    (bs : List IOResourceRequest) (h : refundAll nodeName as disks = .done (disks', .ok ())) :
    refundAll nodeName (as ++ bs) disks = refundAll nodeName bs disks' := by
  induction as generalizing disks with
  | nil => cases h; rfl
  | cons v vs ih =>
    rw [cons_append, refundAll]
    rw [refundAll] at h
    split_ifs at h ⊢ with ht
    · exact ih h
    rw [bind_eq_done] at h
    obtain ⟨d, hd, h⟩ := h
    rw [hd, done_bind]
    cases hl : disks.lookup d.devName with
    | none => simp [hl] at h
    | some disk =>
      simp only [hl, bind_eq_done] at h
      obtain ⟨pools, hpools, h⟩ := h
      simp only [hpools, done_bind]
      exact ih h

/-- The loop gives back what the requests before the first missing disk took. -/
theorem refundAll_reached (nodeName : String) (hwf : WellFormed .diskIo rs)
    (hnum : ∀ dev disk, disks.lookup dev = some disk →
      (podDemand .diskIo dev rs).2.2 ≤ disk.be.num) :
    ∃ r, refundAll nodeName rs disks =
      .done (takeAll (fun dev => -podDemand .diskIo dev (reached disks rs)) disks, r) := by
  have hsplit := reached_append_missed disks rs
  have hpre : refundAll nodeName (reached disks rs) disks =
      .done (takeAll (fun dev => -podDemand .diskIo dev (reached disks rs)) disks, .ok ()) := by
    apply refundAll_of_wellFormed nodeName (WellFormed.append_left (by rw [hsplit]; exact hwf))
    · exact fun r hr => passes_of_reached hr
    intro dev disk hl
    have hle := hnum dev disk hl
    rw [← hsplit, podDemand_append] at hle
    have hrest := podDemand_be_nonneg .diskIo dev (missed disks rs)
    rw [Prod.snd_add, Prod.snd_add] at hle
    omega
  have hrun := refundAll_append nodeName (missed disks rs) hpre
  rw [hsplit] at hrun
  rw [hrun]
  rcases missed_cases disks rs with hnil | ⟨v, vs, hv, hpass⟩
  · rw [hnil]
    exact ⟨.ok (), rfl⟩
  -- the first missing disk ends the loop
  simp only [Passes, not_forall] at hpass
  obtain ⟨ht, dev, hdev, hmem⟩ := hpass
  obtain ⟨d, hd, rfl⟩ := map_eq_some_iff.mp hdev
  have hnone : (takeAll (fun dev => -podDemand .diskIo dev (reached disks rs)) disks).lookup
      d.devName = none := lookup_eq_none.mpr fun h => hmem (mem_takeAll.mp h)
  refine ⟨.error (noDevice nodeName d.devName), ?_⟩
  rw [hv]
  simp [refundAll, ht, hd, hnone]

theorem podDemand_missed_iff (hwf : WellFormed .diskIo rs) :
    (∀ dev ∈ disks, podDemand .diskIo dev (missed disks rs) = 0) ↔
      rs.Pairwise fun u v => ¬ Passes disks u → v.ioType = .diskIo → Passes disks v →
        demand v = 0 := by
  have hsplit := reached_append_missed disks rs
  have hwf' : WellFormed .diskIo (missed disks rs) := by
    rw [← hsplit] at hwf
    exact hwf.append_right
  constructor
  · intro hzero
    rw [← hsplit, pairwise_append]
    refine ⟨?_, ?_, ?_⟩
    · exact pairwise_of_forall_mem_list fun u hu v _ hno => absurd (passes_of_reached hu) hno
    · refine pairwise_of_forall_mem_list fun u _ v hv _ ht hpass => ?_
      obtain ⟨d, hd⟩ : ∃ d, v.devRequest = some d := by
        rcases (hwf'.schedulable v hv ht).cases with ⟨d, q, -, hd, -⟩ | ⟨d, -, hd⟩ <;>
          exact ⟨d, hd⟩
      have hname : devName v = some d.devName := by simp [devName, hd]
      rw [← hwf'.podDemand_of_mem hv ht hname]
      exact hzero d.devName (hpass ht d.devName hname)
    · exact fun u hu v _ hno => absurd (passes_of_reached hu) hno
  · intro hpairs dev hdev
    rw [← hsplit] at hpairs
    have hrest := (pairwise_append.mp hpairs).2.1
    rcases missed_cases disks rs with hnil | ⟨v, vs, hv, hpass⟩
    · rw [hnil, podDemand_nil]
    rw [hv] at hrest ⊢
    have hhead : v.ioType = .diskIo → devName v ≠ some dev := by
      intro ht hname
      refine hpass fun _ dev' hdev' => ?_
      rw [hname, some.injEq] at hdev'
      exact hdev' ▸ hdev
    apply sum_eq_zero
    intro d hd
    obtain ⟨r, hr, rfl⟩ := mem_map.mp hd
    unfold demandOn
    split_ifs with hon
    · rcases mem_cons.mp hr with rfl | hr
      · exact absurd hon.2 (hhead hon.1)
      refine (pairwise_cons.mp hrest).1 r hr hpass hon.1 fun _ dev' hdev' => ?_
      rw [hon.2, some.injEq] at hdev'
      exact hdev' ▸ hdev
    · rfl

/-- The disks after the loop are the ones without the pod exactly when nothing was missed. -/
theorem refundAll_complete_iff (nodeName : String) (hwf : WellFormed .diskIo rs)
    (hnum : ∀ dev disk, disks.lookup dev = some disk → (podDemand .diskIo dev rs).2.2 ≤ disk.be.num)
    (h : refundAll nodeName rs disks = .done (disks', r)) :
    disks' = takeAll (fun dev => -podDemand .diskIo dev rs) disks ↔
      rs.Pairwise fun u v => ¬ Passes disks u → v.ioType = .diskIo → Passes disks v →
        demand v = 0 := by
  obtain ⟨r', hrun⟩ := refundAll_reached nodeName hwf hnum
  rw [hrun] at h
  cases h
  rw [← podDemand_missed_iff hwf]
  have hparts : ∀ dev, podDemand .diskIo dev rs =
      podDemand .diskIo dev (reached disks rs) + podDemand .diskIo dev (missed disks rs) := by
    intro dev
    rw [← podDemand_append, reached_append_missed]
  constructor
  · intro heq dev hdev
    obtain ⟨disk, hdisk⟩ := mem_iff.mp hdev
    have hl := congrArg (Finmap.lookup dev) heq
    simp only [lookup_takeAll, hdisk, map_some, some.injEq] at hl
    have hpools := congrArg DiskInfo.toPools hl
    simp only [DiskInfo.setPools_toPools, Pools.take_inj, hparts, neg_add_rev] at hpools
    simpa using hpools
  · intro hzero
    apply ext_lookup
    intro dev
    rw [lookup_takeAll, lookup_takeAll]
    cases hdisk : disks.lookup dev with
    | none => rfl
    | some disk =>
      rw [hparts dev, hzero dev (mem_of_lookup_eq_some hdisk), add_zero]

end BlockIo

/-- The entry of a reserved pod as the node's cache counts it: its disk requests are well formed and
for registered disks of the configuration, and the best-effort counters include it. -/
structure Counted (rc : ResourceConfigSpec) (ps : Resource) (e : PodRequest) : Prop where
  wellFormed : WellFormed .diskIo e.request
  registered : ∀ r ∈ e.request, r.ioType = .diskIo → ∀ dev, devName r = some dev →
    dev ∈ ps.info.disksStatus ∧ dev ∈ rc.devices
  counted : ∀ dev disk, ps.info.disksStatus.lookup dev = some disk →
    (podDemand .diskIo dev e.request).2.2 ≤ disk.be.num

/-- The request is for a disk of the configuration, or for one it does not have. -/
def OnKept (rc : ResourceConfigSpec) (r : IOResourceRequest) : Prop :=
  r.ioType = .diskIo ∧ ∃ dev, devName r = some dev ∧ dev ∈ rc.devices

def OnRemoved (rc : ResourceConfigSpec) (r : IOResourceRequest) : Prop :=
  r.ioType = .diskIo ∧ ∃ dev, devName r = some dev ∧ dev ∉ rc.devices

/-- The pod is off the list of the node, and every disk has back what the pod took from it. -/
structure Returned (node uid : String) (e : PodRequest) (s s' : SchedState) : Prop where
  unlisted : ∀ l, s'.env.ctx.reservedpod.lookup node = some l → uid ∉ l.podList
  returned : ∀ ps, s.caches.blockIo.lookup node = some ps →
    s'.caches.blockIo.lookup node = some (ps.setDisks (takeAll
      (fun dev => -podDemand .diskIo dev e.request) ps.info.disksStatus))

theorem Counted.named {ps : Resource} {e : PodRequest} (h : Counted rc ps e)
    (r : IOResourceRequest) (hr : r ∈ e.request) :
    r.ioType = .diskIo → ∃ dev, devName r = some dev := by
  intro ht
  rcases (h.wellFormed.schedulable r hr ht).cases with ⟨d, q, -, hd, -⟩ | ⟨d, -, hd⟩ <;>
    exact ⟨d.devName, by simp [devName, hd]⟩

theorem onKept_iff (h : r.ioType = .diskIo → ∃ dev, devName r = some dev) :
    OnKept rc r ↔ r.ioType = .diskIo ∧ ¬ OnRemoved rc r := by
  unfold OnKept OnRemoved
  by_cases ht : r.ioType = .diskIo
  · obtain ⟨dev, hdev⟩ := h ht
    simp [ht, hdev]
  · simp [ht]

section Delete

variable {old new : ResourceConfigSpec} {size : String → Int} {order : List String}
  {ps : Resource} {e : PodRequest}

theorem passes_changeDisks [QuantityParser] (h : Counted old ps e) (hr : r ∈ e.request) :
    Passes (changeDisks ps old new size order).info.disksStatus r ↔
      ¬ OnRemoved new r := by
  have hthere : r.ioType = .diskIo → ∀ dev, devName r = some dev →
      (dev ∈ (changeDisks ps old new size order).info.disksStatus ↔ dev ∈ new.devices) := by
    intro ht dev hdev
    obtain ⟨hmem, hold⟩ := h.registered r hr ht dev hdev
    rw [← lookup_isSome, lookup_changeDisks, if_pos hold]
    by_cases hn : dev ∈ new.devices
    · simp [hn, lookup_isSome.mpr hmem]
    · simp [hn]
  constructor
  · rintro hpass ⟨ht, dev, hdev, hnot⟩
    exact hnot ((hthere ht dev hdev).mp (hpass ht dev hdev))
  · intro hno ht dev hdev
    rw [hthere ht dev hdev]
    by_contra hnot
    exact hno ⟨ht, dev, hdev, hnot⟩

theorem counted_changeDisks [QuantityParser] (h : Counted old ps e) (dev : String) (disk : DiskInfo)
    (hl : (changeDisks ps old new size order).info.disksStatus.lookup dev = some disk) :
    (podDemand .diskIo dev e.request).2.2 ≤ disk.be.num := by
  rw [lookup_changeDisks] at hl
  split_ifs at hl with hold hnew
  · exact h.counted dev disk hl
  cases hn : new.devices.lookup dev with
  | none =>
    rw [hn] at hl
    exact h.counted dev disk hl
  | some info =>
    rw [hn] at hl
    cases hl
    -- the pod has no request for a disk that is new
    have hzero : podDemand .diskIo dev e.request = 0 :=
      podDemand_eq_zero fun r hr ht hdev => hold (h.registered r hr ht dev hdev).2
    rw [hzero]
    exact le_refl _

theorem deletePod_annotated {handles : List HandleKind} {s s' : SchedState} {l : PodList} {pod : Pod}
    {classOrder : List String} (hnodup : handles.Nodup) (hhandle : .blockIo ∈ handles)
    (hanno : allocatedIOAnno ∈ pod.annotations)
    (hps : s.caches.blockIo.lookup pod.nodeName = some ps) (hname : ps.nodeName = pod.nodeName)
    (hl : s.env.ctx.reservedpod.lookup pod.nodeName = some l)
    (he : l.podList.lookup pod.uid = some e)
    (hdelete : deletePod .ignored handles (.pod pod) classOrder s = .done s') :
    ∃ disks r, refundAll ps.nodeName e.request ps.info.disksStatus = .done (disks, r) ∧
      s'.caches.blockIo.lookup pod.nodeName = some (ps.setDisks disks) ∧
      s'.env.ctx.reservedpod.lookup pod.nodeName =
        some ⟨l.generation + 1, l.podList.erase pod.uid⟩ := by
  simp only [deletePod, hanno, not_true_eq_false, if_false, bind_eq_done] at hdelete
  obtain ⟨t, hloop, hdelete⟩ := hdelete
  cases hdelete
  -- the block I/O handler was called on its part of the state
  obtain ⟨u, u', r, hag, hlists, hrem, hag'⟩ :=
    (removeLoop_called hnodup hloop .blockIo).1 hhandle
  have hl' : u.env.ctx.reservedpod.lookup ps.nodeName = some l := by
    rw [hlists, hname, hl]
  have hlt : t.env.ctx.reservedpod.lookup pod.nodeName = some l := by
    rw [(removeLoop_frame hloop).2.reservedpod, hl]
  rw [hag.1] at hps
  obtain ⟨hnone, -⟩ | ⟨ps₀, ps', env', hps₀, hcall, rfl⟩ := handleRemovePod_blockIo hrem
  · rw [hps] at hnone
    cases hnone
  obtain rfl := mem_unique hps hps₀
  obtain ⟨disks, hrefund, rfl⟩ := removePod_refunds hl' he hcall
  refine ⟨disks, _, hrefund, ?_, ?_⟩
  · rw [← hag'.1]
    exact lookup_insert _
  · rw [ResourceIOContext.removePod_of_lookup rfl hlt]
    exact lookup_insert _

/-- Deleting a pod after disks were removed returns what it has on the remaining ones exactly when
the pod carries the annotation, and no request for a remaining disk comes after one for a removed
disk, unless it takes nothing. -/
theorem returned_iff [QuantityParser] {handles : List HandleKind} {node : String} {s s' : SchedState}
    {l : PodList} {pod : Pod} {classOrder : List String} {cache : Dict String Resource}
    {changes : Dict String Device × Dict String Device}
    (hnodup : handles.Nodup) (hhandle : .blockIo ∈ handles) (hnode : pod.nodeName = node)
    (hps : s.caches.blockIo.lookup node = some ps) (hname : ps.nodeName = node)
    (hl : s.env.ctx.reservedpod.lookup node = some l) (he : l.podList.lookup pod.uid = some e)
    (hcounted : Counted old ps e)
    (hchange : updateDeviceNodeInfo s.caches.blockIo node old new size order =
      (cache, .ok changes))
    (hdelete : deletePod .ignored handles (.pod pod) classOrder
      { s with caches := { s.caches with blockIo := cache } } = .done s') :
    Returned node pod.uid e { s with caches := { s.caches with blockIo := cache } } s' ↔
      allocatedIOAnno ∈ pod.annotations ∧
        e.request.Pairwise fun u v => OnRemoved new u → OnKept new v → demand v = 0 := by
  subst hnode
  simp only [updateDeviceNodeInfo, hps, Prod.mk.injEq] at hchange
  obtain ⟨rfl, -⟩ := hchange
  set ps1 := changeDisks ps old new size order with hps1
  set t : SchedState := { s with caches := { s.caches with
    blockIo := s.caches.blockIo.insert pod.nodeName ps1 } } with ht
  have hentry : t.caches.blockIo.lookup pod.nodeName = some ps1 := lookup_insert _
  by_cases hanno : allocatedIOAnno ∈ pod.annotations
  · obtain ⟨disks, r, hrefund, hafter, hlist⟩ :=
      deletePod_annotated hnodup hhandle hanno hentry hname (s := t) hl he hdelete
    have hcomplete := refundAll_complete_iff ps1.nodeName hcounted.wellFormed
      (counted_changeDisks hcounted) hrefund
    have hpairs : (e.request.Pairwise fun u v => ¬ Passes ps1.info.disksStatus u →
          v.ioType = .diskIo → Passes ps1.info.disksStatus v → demand v = 0) ↔
        e.request.Pairwise fun u v => OnRemoved new u → OnKept new v → demand v = 0 := by
      refine Pairwise.iff_of_mem fun {u v} hu hv => ?_
      rw [passes_changeDisks hcounted hu, passes_changeDisks hcounted hv, not_not,
        onKept_iff (hcounted.named v hv), and_imp]
    rw [and_iff_right hanno, ← hpairs, ← hcomplete]
    constructor
    · intro hret
      have heq := hret.returned ps1 hentry
      rw [hafter, some.injEq] at heq
      exact congrArg (fun p => p.info.disksStatus) heq
    · rintro rfl
      refine ⟨fun l' hl' => ?_, fun ps' hps' => ?_⟩
      · obtain rfl := mem_unique hlist hl'
        exact notMem_erase_self
      · obtain rfl := mem_unique hentry hps'
        exact hafter
  · simp only [deletePod, hanno, not_false_eq_true, if_true, done.injEq] at hdelete
    subst hdelete
    refine iff_of_false (fun hret => ?_) fun h => hanno h.1
    exact hret.unlisted l hl (mem_of_lookup_eq_some he)

end Delete

/-! A pod on two disks, one of which is removed: what it has on the other comes back only if its
request for that one is stored first. -/

/-- Every pod with the annotation gets everything back on the disks that are left. -/
def AlwaysReturned [QuantityParser] : Prop :=
  ∀ (old new : ResourceConfigSpec) (size : String → Int) (order : List String)
    (ps : Resource) (e : PodRequest) (handles : List HandleKind) (node : String)
    (s s' : SchedState) (l : PodList) (pod : Pod) (classOrder : List String)
    (cache : Dict String Resource) (changes : Dict String Device × Dict String Device),
    handles.Nodup → .blockIo ∈ handles → pod.nodeName = node →
    allocatedIOAnno ∈ pod.annotations →
    s.caches.blockIo.lookup node = some ps → ps.nodeName = node →
    s.env.ctx.reservedpod.lookup node = some l → l.podList.lookup pod.uid = some e →
    Counted old ps e →
    updateDeviceNodeInfo s.caches.blockIo node old new size order = (cache, .ok changes) →
    deletePod .ignored handles (.pod pod) classOrder
      { s with caches := { s.caches with blockIo := cache } } = .done s' →
    Returned node pod.uid e { s with caches := { s.caches with blockIo := cache } } s'

def diskRequest (dev : String) : IOResourceRequest :=
  { ioType := .diskIo, workloadType := .gaIndex, devRequest := some {
      devName := dev, request := some ⟨10, 10, 0, 0⟩, limit := none, rawRequest := none,
      rawLimit := none } }

def twoDisks (devs : List String) : PodRequest := ⟨"a", "default", devs.map diskRequest⟩

/-- The pod is reserved with its requests in the order of `devs`. -/
def twoDiskSched (devs : List String) : SchedState :=
  { caches := { blockIo := Finmap.singleton "n" (rebuiltFrom pluggedConfig), networkIo := ∅,
                rdt := ∅, rdtQuantity := ∅ }
    env := { sdaEnv with ctx := { sdaEnv.ctx with
      reservedpod := Finmap.singleton "n" ⟨1, Finmap.singleton "a" (twoDisks devs)⟩ } } }

def annotatedPod : Pod :=
  { sdaPod "a" with annotations := Finmap.singleton allocatedIOAnno "" }

def unplugged : Dict String Resource :=
  (Finmap.singleton "n" (rebuiltFrom pluggedConfig)).insert "n"
    (changeDisks (rebuiltFrom pluggedConfig) pluggedConfig sdaConfig
      (fun _ => 1000) [])

def unpluggedSched (devs : List String) : SchedState :=
  { twoDiskSched devs with caches := { (twoDiskSched devs).caches with blockIo := unplugged } }

theorem counted_twoDisks {devs : List String} (hnodup : devs.Nodup)
    (hdevs : ∀ dev ∈ devs, dev = "sda" ∨ dev = "sdb") :
    Counted pluggedConfig (rebuiltFrom pluggedConfig) (twoDisks devs) := by
  have hregistered : ∀ r ∈ (twoDisks devs).request, r.ioType = .diskIo → ∀ dev,
      devName r = some dev → dev ∈ (rebuiltFrom pluggedConfig).info.disksStatus ∧
        dev ∈ pluggedConfig.devices := by
    intro r hr _ dev hdev
    obtain ⟨x, hx, rfl⟩ := mem_map.mp hr
    obtain rfl : x = dev := some.inj hdev
    rcases hdevs x hx with rfl | rfl <;> decide +kernel
  refine ⟨⟨?_, ?_⟩, hregistered, ?_⟩
  · intro r hr _
    obtain ⟨x, -, rfl⟩ := mem_map.mp hr
    exact .inl ⟨rfl, rfl⟩
  · refine pairwise_map.mpr (hnodup.imp ?_)
    intro x y hxy _ _ heq
    exact hxy (some.inj heq)
  intro dev disk hdisk
  obtain ⟨disk0, info, -, -, rfl⟩ :=
    lookup_initDisks (addCacheNodeInfo_configured _ _ _ _ _) hdisk
  have hzero : (podDemand .diskIo dev (twoDisks devs).request).2.2 = 0 := by
    apply podDemand_be_eq_zero
    intro r hr
    obtain ⟨x, -, rfl⟩ := mem_map.mp hr
    simp [diskRequest]
  rw [hzero]
  exact le_refl _

theorem not_alwaysReturned : ¬ AlwaysReturned := by
  intro h
  have hcounted := counted_twoDisks (nodup_cons.mpr ⟨by decide, nodup_singleton "sda"⟩)
    (show ∀ dev ∈ ["sdb", "sda"], dev = "sda" ∨ dev = "sdb" by decide)
  obtain ⟨s', hs'⟩ : ∃ s', deletePod .ignored [.blockIo] (.pod annotatedPod) []
      (unpluggedSched ["sdb", "sda"]) = .done s' := ⟨_, rfl⟩
  have hret := h pluggedConfig sdaConfig (fun _ => 1000) [] _ _ [.blockIo] "n"
    (twoDiskSched ["sdb", "sda"]) s' _ annotatedPod [] _ _ (by decide) (by decide) rfl
    (by decide +kernel) rfl rfl rfl rfl hcounted rfl hs'
  obtain ⟨disks, r, hrefund, hafter, -⟩ := deletePod_annotated (by decide) (by decide)
    (by decide +kernel) rfl rfl rfl rfl hs'
  have hdisks := congrArg (fun ps => ps.info.disksStatus)
    (some.inj (hafter.symm.trans (hret.returned _ rfl)))
  have hpairs := (refundAll_complete_iff _ hcounted.wellFormed
    (counted_changeDisks hcounted) hrefund).mp hdisks
  revert hpairs
  decide +kernel

theorem returned_of_order :
    ∃ s', deletePod .ignored [.blockIo] (.pod annotatedPod) [] (unpluggedSched ["sda", "sdb"]) =
        .done s' ∧
      Returned "n" "a" (twoDisks ["sda", "sdb"]) (unpluggedSched ["sda", "sdb"]) s' := by
  have hcounted := counted_twoDisks (nodup_cons.mpr ⟨by decide, nodup_singleton "sdb"⟩)
    (show ∀ dev ∈ ["sda", "sdb"], dev = "sda" ∨ dev = "sdb" by decide)
  obtain ⟨s', hs'⟩ : ∃ s', deletePod .ignored [.blockIo] (.pod annotatedPod) []
      (unpluggedSched ["sda", "sdb"]) = .done s' := ⟨_, rfl⟩
  have hchange : updateDeviceNodeInfo (twoDiskSched ["sda", "sdb"]).caches.blockIo "n"
      pluggedConfig sdaConfig (fun _ => 1000) [] =
        (unplugged, .ok (devicesAdded pluggedConfig sdaConfig,
          devicesDeleted pluggedConfig sdaConfig)) := rfl
  have hiff := returned_iff (by decide) (by decide) (show annotatedPod.nodeName = "n" from rfl)
    rfl rfl rfl rfl hcounted hchange hs'
  refine ⟨s', hs', hiff.mpr ⟨by decide +kernel, pairwise_pair.mpr ?_⟩⟩
  rintro ⟨-, dev, hdev, hnot⟩
  obtain rfl : "sda" = dev := some.inj hdev
  exact absurd (by decide) hnot

end IOIsolation.Sched
