import IOIsolation.Sched.Guaranteed

/-!
# Sched.StatusUpdate

What a status of the current generation does to the pools of a node, in the handler of the disks and in
that of the network cards. The loops go over the cached devices, not over the listed ones, and a device
for which they find nothing gets empty pools.

* `applied_iff`          — one device.
* `updated_iff`          — a node gets the reported bandwidths, and nothing else changes, exactly if the
  devices that are passed over have empty pools already.
* `not_alwaysUpdated`    — a status that does not list a disk clears its pools.
-/

namespace IOIsolation.Sched.StatusUpdate

open Lib Option

/-! ## One device -/

def listedGA (info : Option (Dict WorkloadQoSType IOStatus)) : Option IOStatus :=
  info.bind fun pools => pools.lookup .ga

/-- A device that is listed with a guaranteed bandwidth has it; others are as before. The bandwidth
`-1` stands for none. -/
def Applied (info : Option (Dict WorkloadQoSType IOStatus)) (p p' : Pools) : Prop :=
  match listedGA info with
  | some v => if v.inBps = -1 then p' = p else p'.ga.bandwidth = (v.inBps, v.outBps, v.total)
  | none => p' = p

def listedPressure (info : Option (Dict WorkloadQoSType IOStatus)) : Bool :=
  match info.bind fun pools => pools.lookup .be with
  | some r => isUnderPressure r.pressure
  | none => false

/-- A negative bandwidth is there already, and so are the pools of a device without bandwidth. -/
def Unaffected (info : Option (Dict WorkloadQoSType IOStatus)) (p : Pools) : Prop :=
  match listedGA info with
  | some v => v.inBps < 0 → v.inBps ≠ -1 → p.ga.bandwidth = (v.inBps, v.outBps, v.total)
  | none => p.ga = .zero ∧ p.be.underPressure = listedPressure info

variable {bw : Dict String (Dict WorkloadQoSType IOStatus)} {dev : String}

theorem applyStatus_none (h : listedGA (bw.lookup dev) = none) (p : Pools) :
    applyStatus bw dev p =
      ⟨.zero, { p.be with underPressure := listedPressure (bw.lookup dev) }⟩ := by
  unfold applyStatus calculateStatus listedPressure
  unfold listedGA at h
  cases hdev : bw.lookup dev with
  | none => rfl
  | some info =>
    rw [hdev, bind_some] at h
    simp only [h, bind_some]
    cases info.lookup .be <;> rfl

theorem applyStatus_some {v : IOStatus} (h : listedGA (bw.lookup dev) = some v) (p : Pools) :
    if v.inBps < 0 then applyStatus bw dev p = p
    else (applyStatus bw dev p).ga.bandwidth = (v.inBps, v.outBps, v.total) := by
  obtain ⟨info, hdev, hga⟩ := bind_eq_some_iff.mp h
  unfold applyStatus calculateStatus
  rw [hdev]
  simp only [hga]
  split_ifs
  · rfl
  · rfl

theorem applied_iff (bw : Dict String (Dict WorkloadQoSType IOStatus)) (dev : String) (p : Pools) :
    Applied (bw.lookup dev) p (applyStatus bw dev p) ↔ Unaffected (bw.lookup dev) p := by
  unfold Applied Unaffected
  cases h : listedGA (bw.lookup dev) with
  | none =>
    rw [applyStatus_none h]
    obtain ⟨ga, be⟩ := p
    obtain ⟨total, inBps, outBps, underPressure, num⟩ := be
    simp [eq_comm]
  | some v =>
    have happly := applyStatus_some h p
    by_cases hneg : v.inBps < 0
    · rw [if_pos hneg] at happly
      rw [happly]
      by_cases hone : v.inBps = -1
      · simp [hone]
      · simp [hone, hneg]
    · rw [if_neg hneg] at happly
      have hone : v.inBps ≠ -1 := by
        intro heq
        exact hneg (by rw [heq]; norm_num)
      simp [hone, hneg, happly]

/-! ## Both handlers -/

inductive NodeCache where
  | disk (ps : BlockIo.Resource)
  | network (ps : NetworkIo.Resource)
  deriving DecidableEq

namespace NodeCache

def nodeName : NodeCache → String
  | disk ps => ps.nodeName
  | network ps => ps.nodeName

def ioType : NodeCache → WorkloadIOType
  | disk _ => .blockIo
  | network _ => .networkIo

def pools : NodeCache → String → Option Pools
  | disk ps, dev => (ps.info.disksStatus.lookup dev).map (·.toPools)
  | network ps, dev => (ps.info.nicsStatus.lookup dev).map (·.toPools)

/-- Other pools for the devices, and nothing else. -/
def withPools (f : String → Pools → Pools) : NodeCache → NodeCache
  | disk ps => disk (ps.setDisks (Dict.mapVals (fun dev disk =>
      disk.setPools (f dev disk.toPools)) ps.info.disksStatus))
  | network ps => network (ps.setNics (Dict.mapVals (fun dev nic =>
      nic.setPools (f dev nic.toPools)) ps.info.nicsStatus))

def updateCacheNodeStatus (ctx : ResourceIOContext) (st : NodeIOStatusStatus) : NodeCache → NodeCache
  | disk ps => disk (BlockIo.updateCacheNodeStatus ps ctx st)
  | network ps => network (NetworkIo.updateCacheNodeStatus ps ctx st)

theorem pools_withPools (f : String → Pools → Pools) (c : NodeCache) (dev : String) :
    (c.withPools f).pools dev = (c.pools dev).map (f dev) := by
  cases c with
  | disk ps =>
    simp only [withPools, pools, BlockIo.Resource.setDisks_disksStatus, Dict.lookup_mapVals,
      map_map]
    rfl
  | network ps =>
    simp only [withPools, pools, NetworkIo.Resource.setNics, Dict.lookup_mapVals, map_map]
    rfl

theorem withPools_self (c : NodeCache) : c.withPools (fun _ p => p) = c := by
  have hself : ∀ {V : Type} (m : Dict String V), Dict.mapVals (fun _ v => v) m = m := by
    intro V m
    apply Finmap.ext_lookup
    intro dev
    rw [Dict.lookup_mapVals, map_id']
  cases c with
  | disk ps => exact congrArg (fun m => disk (ps.setDisks m)) (hself ps.info.disksStatus)
  | network ps => exact congrArg (fun m => network (ps.setNics m)) (hself ps.info.nicsStatus)

end NodeCache

/-- The devices of the handler that the status lists. -/
def listed (st : NodeIOStatusStatus) (t : WorkloadIOType) :
    Dict String (Dict WorkloadQoSType IOStatus) :=
  (st.allocatableBandwidth.lookup t).getD ∅

theorem updateCacheNodeStatus_eq {c : NodeCache} {ctx : ResourceIOContext} {st : NodeIOStatusStatus}
    {pl : PodList} (hctx : ctx.getReservedPods c.nodeName = .ok pl)
    (hgen : st.observedGeneration = pl.generation) :
    c.updateCacheNodeStatus ctx st = if listed st c.ioType = ∅ then c
      else c.withPools (applyStatus (listed st c.ioType)) := by
  cases c with
  | disk ps =>
    rw [NodeCache.nodeName] at hctx
    rw [NodeCache.updateCacheNodeStatus, NodeCache.ioType, listed, BlockIo.updateCacheNodeStatus, hctx]
    cases hl : st.allocatableBandwidth.lookup .blockIo with
    | none => rfl
    | some bw =>
      by_cases hbw : bw = ∅
      · simp [hbw]
      · simp [hbw, hgen, NodeCache.withPools]
  | network ps =>
    rw [NodeCache.nodeName] at hctx
    rw [NodeCache.updateCacheNodeStatus, NodeCache.ioType, listed, NetworkIo.updateCacheNodeStatus,
      hctx]
    cases hl : st.allocatableBandwidth.lookup .networkIo with
    | none => rfl
    | some bw =>
      by_cases hbw : bw = ∅
      · simp [hbw]
      · simp [hbw, hgen, NodeCache.withPools]

/-- The bandwidths of the status, and nothing else, have changed. -/
def Updated (st : NodeIOStatusStatus) (c c' : NodeCache) : Prop :=
  ∃ f, c' = c.withPools f ∧
    ∀ dev p, c.pools dev = some p → Applied ((listed st c.ioType).lookup dev) p (f dev p)

/-- At the current generation a node is updated right exactly if the status lists no device of the
handler, or what is listed for each cached device leaves nothing to go wrong. -/
theorem updated_iff (c : NodeCache) {ctx : ResourceIOContext} {st : NodeIOStatusStatus} {pl : PodList}
    (hctx : ctx.getReservedPods c.nodeName = .ok pl) (hgen : st.observedGeneration = pl.generation) :
    Updated st c (c.updateCacheNodeStatus ctx st) ↔
      (listed st c.ioType ≠ ∅ → ∀ dev p, c.pools dev = some p →
        Unaffected ((listed st c.ioType).lookup dev) p) := by
  rw [updateCacheNodeStatus_eq hctx hgen]
  by_cases hempty : listed st c.ioType = ∅
  · rw [if_pos hempty]
    refine iff_of_true ⟨fun _ p => p, c.withPools_self.symm, fun dev p _ => ?_⟩
      fun hne => absurd hempty hne
    rw [hempty, Finmap.lookup_empty]
    exact rfl
  · rw [if_neg hempty]
    constructor
    · rintro ⟨f, hf, happlied⟩ - dev p hp
      have hpools := congrArg (fun c => c.pools dev) hf
      simp only [NodeCache.pools_withPools, hp, map_some, some.injEq] at hpools
      rw [← applied_iff, hpools]
      exact happlied dev p hp
    · intro h
      exact ⟨_, rfl, fun dev p hp => (applied_iff _ dev p).mpr (h hempty dev p hp)⟩

def twoDisks : NodeCache :=
  let disk (name : String) : BlockIo.DiskInfo :=
    ⟨⟨⟨150, 100, 50, false, 0⟩, .zero⟩, name, [], [], 1, 1, 1000, 0, "/"⟩
  .disk ⟨"n", ⟨(Finmap.singleton "sda" (disk "sda") : BlockIo.Disks).insert "sdb" (disk "sdb"), "sda"⟩⟩

def firstGeneration : ResourceIOContext where
  reservedpod := Finmap.singleton "n" ⟨1, ∅⟩
  nsWhiteList := []
  claimDevMap := ∅
  queue := ⟨[], [], none⟩
  lastUpdatedGen := ∅

def sdaOnly : NodeIOStatusStatus :=
  ⟨1, Finmap.singleton .blockIo (Finmap.singleton "sda" (Finmap.singleton .ga ⟨120, 80, 40, 0⟩))⟩

def bothDisks : NodeIOStatusStatus :=
  let ga : Dict WorkloadQoSType IOStatus := Finmap.singleton .ga ⟨120, 80, 40, 0⟩
  ⟨1, Finmap.singleton .blockIo ((Finmap.singleton "sda" ga : Dict String _).insert "sdb" ga)⟩

theorem updated_iff_twoDisks :
    Updated bothDisks twoDisks (twoDisks.updateCacheNodeStatus firstGeneration bothDisks) := by
  refine (updated_iff twoDisks (show firstGeneration.getReservedPods "n" = .ok ⟨1, ∅⟩ from rfl)
    rfl).mpr fun _ dev p hp => ?_
  have hdev : dev ∈ ["sda", "sdb"] := by
    obtain ⟨disk, hdisk, -⟩ := map_eq_some_iff.mp hp
    have hmem := Finmap.mem_of_lookup_eq_some hdisk
    simpa [or_comm] using hmem
  have hlisted : ∀ dev ∈ ["sda", "sdb"],
      listedGA ((listed bothDisks .blockIo).lookup dev) = some ⟨120, 80, 40, 0⟩ := by decide +kernel
  rw [Unaffected, show listedGA ((listed bothDisks twoDisks.ioType).lookup dev) = _ from
    hlisted dev hdev]
  intro hneg
  exact absurd hneg (by norm_num)

def AlwaysUpdated : Prop :=
  ∀ (c : NodeCache) (ctx : ResourceIOContext) (st : NodeIOStatusStatus) (pl : PodList),
    ctx.getReservedPods c.nodeName = .ok pl → st.observedGeneration = pl.generation →
      Updated st c (c.updateCacheNodeStatus ctx st)

theorem not_alwaysUpdated : ¬ AlwaysUpdated := by
  intro h
  obtain ⟨f, hf, happlied⟩ := h twoDisks firstGeneration sdaOnly ⟨1, ∅⟩ rfl rfl
  have hbefore : twoDisks.pools "sdb" = some ⟨⟨150, 100, 50, false, 0⟩, .zero⟩ := by decide +kernel
  have hafter : (twoDisks.updateCacheNodeStatus firstGeneration sdaOnly).pools "sdb" =
      some ⟨.zero, .zero⟩ := by decide +kernel
  have hkept := happlied "sdb" _ hbefore
  rw [hf, NodeCache.pools_withPools, hbefore, map_some, some.injEq] at hafter
  rw [hafter] at hkept
  have hunlisted : (listed sdaOnly twoDisks.ioType).lookup "sdb" = none := by decide +kernel
  have heq : (⟨.zero, .zero⟩ : Pools) = ⟨⟨150, 100, 50, false, 0⟩, .zero⟩ := hkept
  exact absurd heq (by decide +kernel)

end IOIsolation.Sched.StatusUpdate
