import IOIsolation.Sched.BlockRequest
import IOIsolation.Sched.ClaimRecords
import Mathlib

/-!
# Sched.Recovery

The requests a restarted scheduler computes for a pod are those of its scheduling cycle. In a cycle
the requests of the volumes are merged in three steps and in between claims are placed; at a restart
they are merged in one pass over a map. Both are a sum over the volumes: a merge of requests is an
addition of `Load`s, so neither the order nor the steps matter.

* `addPodRequest_loads` — merging adds the loads.
* `cycle_loads`, `init_loads` — the two computations as sums over the volumes of the pod.
* `recovered` — they agree if claims that keep a disk are recorded there and no mount path has a
  colon; `not_alwaysRecovers` — with a colon they need not.
-/

namespace IOIsolation.Sched.BlockIo

open Lib Finmap Outcome List Option

/-! ## Loads -/

abbrev Rates : Type := ℚ × ℚ × ℚ × ℚ

/-- What a number of requests for one disk comes to: how many there are, how many of them are
guaranteed, and the sums of their four quantities. -/
abbrev Load : Type := ℕ × ℕ × Rates × Rates × Rates × Rates

/-- The rates of a quantity; a missing one is zero. -/
def rates (q : Option Quantity) : Rates :=
  match q with
  | some q => (q.inbps, q.outbps, q.iniops, q.outiops)
  | none => 0

def amounts (r : IOResourceRequest) : Rates × Rates × Rates × Rates :=
  (rates (r.devRequest.bind (·.request)), rates (r.devRequest.bind (·.limit)),
    rates (r.devRequest.bind (·.rawRequest)), rates (r.devRequest.bind (·.rawLimit)))

def loadOf (r : IOResourceRequest) : Load :=
  (1, if r.workloadType = .gaIndex then 1 else 0, amounts r)

/-- A request as it is built for a disk: guaranteed with all quantities, where only the raw ones
have operations, or best effort without any. -/
structure Built (dev : String) (r : IOResourceRequest) : Prop where
  named : ∃ d, r.devRequest = some d ∧ d.devName = dev
  kind : r.workloadType = .gaIndex ∨ r.workloadType = .beIndex ∧ amounts r = 0
  asked : r.workloadType = .gaIndex → (r.devRequest.bind (·.request)).isSome = true
  noOps : (rates (r.devRequest.bind (·.request))).2.2 = 0 ∧
    (rates (r.devRequest.bind (·.limit))).2.2 = 0

/-- The entry of a map of requests shows a load. -/
def Shows (dev : String) (entry : Option IOResourceRequest) (x : Load) : Prop :=
  match entry with
  | none => x = 0
  | some r => Built dev r ∧ 0 < x.1 ∧ (r.workloadType = .gaIndex ↔ 0 < x.2.1) ∧ amounts r = x.2.2

variable {dev ns : String} {r : IOResourceRequest} {f : String → Load} {m m' : Requests}
  {disk : DiskInfo} {l : List (String × String)} {assign : Volume → Option String}
  {vols : List Volume} {vol : Volume} {bound pvcs : Dict String PVCInfo}
  {provisioner : Volume → ProvisionerAnswer} {a : RequestAnswers} {rest : List PackVolume}
  {devices : Disks}

theorem Built.schedulable (h : Built dev r) : Schedulable r := by
  obtain ⟨d, hd, -⟩ := h.named
  have hasked := h.asked
  rw [hd] at hasked
  simp only [Schedulable, hd]
  exact h.kind.imp (fun hga => ⟨hga, hasked hga⟩) And.left

theorem Built.shows (h : Built dev r) : Shows dev (some r) (loadOf r) := by
  refine ⟨h, Nat.one_pos, ?_, rfl⟩
  by_cases hw : r.workloadType = .gaIndex <;> simp [loadOf, hw]

theorem rates_addBps {q r : Option Quantity} (hq : (rates q).2.2 = 0) (hr : (rates r).2.2 = 0) :
    rates (some (addBps q r)) = rates q + rates r := by
  cases q with
  | none =>
    cases r with
    | none => simp [rates, addBps]
    | some r => simp_all [rates, addBps]
  | some q =>
    cases r with
    | none | some => simp_all [rates, addBps]

theorem rates_addRaw (q r : Option Quantity) : rates (some (addRaw q r)) = rates q + rates r := by
  cases q <;> cases r <;> simp [rates, addRaw]

/-- Merging two requests for a disk adds their loads. -/
theorem mergeRequest_shows {r' : IOResourceRequest} {x y : Load} (h : Shows dev (some r) x)
    (h' : Shows dev (some r') y) : Shows dev (some (mergeRequest r r')) (x + y) := by
  obtain ⟨hb, hpos, hga, ham⟩ := h
  obtain ⟨hb', hpos', hga', ham'⟩ := h'
  obtain ⟨d, hd, hname⟩ := hb.named
  obtain ⟨e, he, -⟩ := hb'.named
  have hcount : 0 < (x + y).1 := Nat.add_pos_left hpos _
  rcases hb'.kind with hw' | ⟨hw', hzero⟩
  · have hops := hb.noOps
    have hops' := hb'.noOps
    simp only [hd, bind_some] at hops
    simp only [he, bind_some] at hops'
    have hm : mergeRequest r r' = { r with
        workloadType := .gaIndex
        devRequest := some { d with
          request := some (addBps d.request e.request)
          limit := some (addBps d.limit e.limit)
          rawRequest := some (addRaw d.rawRequest e.rawRequest)
          rawLimit := some (addRaw d.rawLimit e.rawLimit) } } := by
      simp [mergeRequest, hd, he, hw']
    rw [hm]
    refine ⟨⟨⟨_, rfl, hname⟩, .inl rfl, fun _ => rfl, ?_⟩, hcount, ?_, ?_⟩
    · simp only [bind_some, rates_addBps hops.1 hops'.1, rates_addBps hops.2 hops'.2]
      exact ⟨by rw [Prod.snd_add, Prod.snd_add, hops.1, hops'.1, add_zero],
        by rw [Prod.snd_add, Prod.snd_add, hops.2, hops'.2, add_zero]⟩
    · have := hga'.mp hw'
      simp only [true_iff, Prod.snd_add, Prod.fst_add]
      omega
    · rw [Prod.snd_add, Prod.snd_add, ← ham, ← ham']
      simp only [amounts, hd, he, bind_some, rates_addBps hops.1 hops'.1,
        rates_addBps hops.2 hops'.2, rates_addRaw, Prod.mk_add_mk]
  · -- a best-effort request changes nothing
    have hm : mergeRequest r r' = r := by
      rcases hb.kind with hw | ⟨hw, -⟩
      · simp [mergeRequest, hd, he, hw', hw]
      obtain ⟨t, w, q⟩ := r
      dsimp only at hw hd
      simp [mergeRequest, hd, he, hw', hw]
    have hy : y.2.1 = 0 := by
      by_contra hne
      have := hga'.mpr (Nat.pos_of_ne_zero hne)
      rw [hw'] at this
      cases this
    rw [hm]
    refine ⟨hb, hcount, ?_, ?_⟩
    · rw [hga, Prod.snd_add, Prod.fst_add, hy, add_zero]
    · rw [Prod.snd_add, Prod.snd_add, ← ham', hzero, add_zero, ham]

def Loads (m : Requests) (f : String → Load) : Prop := ∀ dev, Shows dev (m.lookup dev) (f dev)

theorem loads_empty : Loads ∅ 0 := fun _ => rfl

theorem loads_singleton (h : Built dev r) :
    Loads (Finmap.singleton dev r) (Pi.single dev (loadOf r)) := by
  intro x
  by_cases hx : x = dev
  · subst hx
    rw [lookup_singleton_eq, Pi.single_eq_same]
    exact h.shows
  have hnone : (Finmap.singleton dev r : Requests).lookup x = none :=
    lookup_eq_none.mpr fun hmem => hx ((mem_singleton _ _ _).mp hmem)
  rw [hnone, Pi.single_eq_of_ne hx]
  rfl

theorem addPodRequest_loads {n : Requests} {g : String → Load} (hm : Loads m f) (hn : Loads n g) :
    Loads (addPodRequest m n) (f + g) := by
  intro dev
  have hf := hm dev
  have hg := hn dev
  rw [addPodRequest, Dict.lookup_unionWith, Pi.add_apply]
  cases hl : m.lookup dev with
  | none =>
    rw [hl] at hf
    rw [hf, zero_add]
    exact hg
  | some r =>
    rw [hl] at hf
    cases hl' : n.lookup dev with
    | none =>
      rw [hl'] at hg
      rw [hg, add_zero]
      exact hf
    | some r' =>
      rw [hl'] at hg
      exact mergeRequest_shows hf hg

/-- Two maps ask the same of every disk: the same type of workload and the same four quantities. -/
def SameRequests (m m' : Requests) : Prop :=
  ∀ dev, (m.lookup dev).map (fun r => (r.workloadType, amounts r)) =
    (m'.lookup dev).map fun r => (r.workloadType, amounts r)

theorem Loads.same (h : Loads m f) (h' : Loads m' f) : SameRequests m m' := by
  intro dev
  have hf := h dev
  have hf' := h' dev
  cases hl : m.lookup dev with
  | none =>
    rw [hl] at hf
    cases hl' : m'.lookup dev with
    | none => rfl
    | some r' =>
      rw [hl', hf] at hf'
      exact absurd hf'.2.1 (Nat.lt_irrefl 0)
  | some r =>
    rw [hl] at hf
    cases hl' : m'.lookup dev with
    | none =>
      rw [hl'] at hf'
      rw [hf'] at hf
      exact absurd hf.2.1 (Nat.lt_irrefl 0)
    | some r' =>
      rw [hl'] at hf'
      have hw : r.workloadType = r'.workloadType := by
        have hiff := hf.2.2.1.trans hf'.2.2.1.symm
        rcases hf.1.kind with hk | ⟨hk, -⟩ <;> rcases hf'.1.kind with hk' | ⟨hk', -⟩ <;>
          simp_all
      rw [map_some, map_some, hw, hf.2.2.2, hf'.2.2.2]

/-! ## The load of a volume -/

variable {anno : PodAnnoThroughput} {disks : Disks}

theorem built_parseBE (dev : String) : Built dev (parseBEIOAnnotations dev) :=
  ⟨⟨_, rfl, rfl⟩, .inr ⟨rfl, rfl⟩, nofun, rfl, rfl⟩

section

variable [QuantityParser]

theorem getDeviceRequest_built {v : VolumeAnnoThroughput}
    (h : getDeviceRequest dev disk v = .done r) : Built dev r := by
  simp only [getDeviceRequest, bind_eq_done] at h
  obtain ⟨rr, -, wr, -, rl, -, wl, -, h⟩ := h
  split_ifs at h
  · cases h
    exact ⟨⟨_, rfl, rfl⟩, .inr ⟨rfl, rfl⟩, nofun, rfl, rfl⟩
  · cases h
    exact ⟨⟨_, rfl, rfl⟩, .inl rfl, fun _ => rfl, rfl, rfl⟩

/-- What a volume asks of the disks when it is on `dev`. -/
def volumeLoad (anno : PodAnnoThroughput) (disks : Disks) (vol dev : String) : String → Load :=
  match anno.lookup vol with
  | none => Pi.single dev (loadOf (parseBEIOAnnotations dev))
  | some v =>
    match disks.lookup dev with
    | none => 0
    | some disk =>
      match getDeviceRequest dev disk v with
      | .done r => Pi.single dev (loadOf r)
      | _ => 0

/-- Weighing the bandwidths of the volume on the disk does not panic. -/
def Weighs [Rounding] (anno : PodAnnoThroughput) (disks : Disks) (vol dev : String) :
    Prop :=
  ∀ v disk, anno.lookup vol = some v → disks.lookup dev = some disk →
    ∃ r, getDeviceRequest dev disk v = .done r

theorem addVolume_weighs [Rounding] {vol : String} (hdisk : disks.lookup dev = some disk)
    (h : addVolume anno dev disk vol m = .done m') : Weighs anno disks vol dev := by
  intro v disk' hv hdisk'
  obtain rfl : disk = disk' := some.inj (hdisk.symm.trans hdisk')
  simp only [addVolume, hv, bind_eq_done] at h
  obtain ⟨r, hr, -⟩ := h
  exact ⟨r, hr⟩

theorem addVolume_loads {vol : String} (hdisk : disks.lookup dev = some disk) (hm : Loads m f)
    (h : addVolume anno dev disk vol m = .done m') :
    Loads m' (f + volumeLoad anno disks vol dev) := by
  unfold addVolume at h
  unfold volumeLoad
  cases hv : anno.lookup vol with
  | none =>
    simp only [hv] at h
    cases h
    exact addPodRequest_loads hm (loads_singleton (built_parseBE dev))
  | some v =>
    simp only [hv, bind_eq_done] at h
    obtain ⟨r, hr, h⟩ := h
    cases h
    simp only [hdisk, hr]
    exact addPodRequest_loads hm (loads_singleton (getDeviceRequest_built hr))

theorem addVolume_done {vol : String} (hdisk : disks.lookup dev = some disk)
    (hw : Weighs anno disks vol dev) (m : Requests) :
    ∃ m', addVolume anno dev disk vol m = .done m' := by
  unfold addVolume
  cases hv : anno.lookup vol with
  | none => exact ⟨_, rfl⟩
  | some v =>
    obtain ⟨r, hr⟩ := hw v disk hv hdisk
    simp only [hr, done_bind]
    exact ⟨_, rfl⟩

theorem volumeRequests_weighs [Rounding] (h : volumeRequests anno disks l m = .done m') :
    ∀ p ∈ l, Weighs anno disks p.1 p.2 := by
  induction l generalizing m with
  | nil => simp
  | cons p l ih =>
    obtain ⟨vol, dev⟩ := p
    rw [forall_mem_cons]
    cases hd : disks.lookup dev with
    | some disk =>
      simp only [volumeRequests, hd, bind_eq_done] at h
      obtain ⟨m1, hadd, h⟩ := h
      exact ⟨addVolume_weighs hd hadd, ih h⟩
    | none =>
      have hw : Weighs anno disks vol dev := fun v disk _ hdisk => by cases hd.symm.trans hdisk
      simp only [volumeRequests, hd] at h
      split_ifs at h
      · exact ⟨hw, ih h⟩
      · exact ⟨hw, ih h⟩

theorem volumeRequests_loads (hm : Loads m f) (h : volumeRequests anno disks l m = .done m') :
    Loads m' (f + (l.map fun p => volumeLoad anno disks p.1 p.2).sum) := by
  induction l generalizing m f with
  | nil =>
    cases h
    simpa using hm
  | cons p l ih =>
    obtain ⟨vol, dev⟩ := p
    rw [map_cons, sum_cons, ← add_assoc]
    cases hd : disks.lookup dev with
    | some disk =>
      simp only [volumeRequests, hd, bind_eq_done] at h
      obtain ⟨m1, hadd, h⟩ := h
      exact ih (addVolume_loads hd hm hadd) h
    | none =>
      simp only [volumeRequests, hd] at h
      cases hv : anno.lookup vol with
      | some v =>
        have hzero : volumeLoad anno disks vol dev = 0 := by
          simp only [volumeLoad, hv, hd]
        rw [if_pos (mem_of_lookup_eq_some hv)] at h
        rw [hzero, add_zero]
        exact ih hm h
      | none =>
        have hload : volumeLoad anno disks vol dev =
            Pi.single dev (loadOf (parseBEIOAnnotations dev)) := by
          simp only [volumeLoad, hv]
        rw [if_neg (lookup_eq_none.mp hv)] at h
        rw [hload]
        exact ih (addPodRequest_loads hm (loads_singleton (built_parseBE dev))) h

theorem volumeRequests_done (hw : ∀ p ∈ l, Weighs anno disks p.1 p.2) (m : Requests) :
    ∃ m', volumeRequests anno disks l m = .done m' := by
  induction l generalizing m with
  | nil => exact ⟨m, rfl⟩
  | cons p l ih =>
    obtain ⟨vol, dev⟩ := p
    rw [forall_mem_cons] at hw
    simp only [volumeRequests]
    cases hd : disks.lookup dev with
    | some disk =>
      obtain ⟨m1, hm1⟩ := addVolume_done hd hw.1 m
      simp only [hm1, done_bind]
      exact ih hw.2 m1
    | none =>
      split_ifs
      · exact ih hw.2 m
      · exact ih hw.2 _

/-! ## The volumes of a pod -/

/-- The device of a volume, given those of the claims. -/
def assigned (devs : String → Option String) (ns defaultDev : String)
    (provisioner : Volume → ProvisionerAnswer) (vol : Volume) : Option String :=
  match vol.claimName with
  | some pvc =>
    match isIOIProvisioner (provisioner vol) with
    | .done (.ok true) => devs (claimKey pvc ns)
    | _ => none
  | none => if vol.emptyDir then some defaultDev else none

/-- What the volumes ask of the disks when `assign` gives their devices. -/
def podLoads (anno : PodAnnoThroughput) (disks : Disks) (assign : Volume → Option String)
    (vols : List Volume) : String → Load :=
  (vols.map fun v => (assign v).elim 0 (volumeLoad anno disks v.name)).sum

def placedVolumes (assign : Volume → Option String) (vols : List Volume) : List (String × String) :=
  vols.filterMap fun v => (assign v).map (v.name, ·)

theorem sum_placedVolumes (assign : Volume → Option String) (vols : List Volume) :
    ((placedVolumes assign vols).map fun p => volumeLoad anno disks p.1 p.2).sum =
      podLoads anno disks assign vols := by
  induction vols with
  | nil => rfl
  | cons v vols ih =>
    rw [podLoads, map_cons, sum_cons, ← podLoads, ← ih, placedVolumes]
    cases h : assign v with
    | none | some => simp [h, placedVolumes]

end

theorem mem_placedVolumes {x d : String} : (x, d) ∈ placedVolumes assign vols ↔
      ∃ v ∈ vols, v.name = x ∧ assign v = some d := by
  simp only [placedVolumes, mem_filterMap, map_eq_some_iff, Prod.mk.injEq]
  constructor
  · rintro ⟨v, hv, d', hd, rfl, rfl⟩
    exact ⟨v, hv, rfl, hd⟩
  · rintro ⟨v, hv, rfl, hd⟩
    exact ⟨v, hv, d, hd, rfl, rfl⟩

theorem nodup_placedVolumes (assign : Volume → Option String) (h : (vols.map (·.name)).Nodup) :
    (placedVolumes assign vols).Nodup := by
  rw [Nodup, pairwise_map] at h
  refine Pairwise.filterMap _ ?_ h
  intro v w hvw x hx y hy hxy
  obtain ⟨d, -, rfl⟩ := map_eq_some_iff.mp hx
  obtain ⟨d', -, rfl⟩ := map_eq_some_iff.mp hy
  exact hvw (Prod.mk.inj hxy).1

variable {order : List String} {claims : Dict String StorageInfo} {node name key : String}
  {ds : Dict String PackDevice} {allocation : Dict String PVCInfo} {volToDev : Dict String String}
  {info : NodeInfo} {b e : Option String} {passed : String → Prop}

theorem inOrder_perm {mapping : Dict String String} (hl : l.Nodup)
    (hmap : ∀ x d, mapping.lookup x = some d ↔ (x, d) ∈ l) (horder : order.Nodup)
    (hall : ∀ p ∈ l, p.1 ∈ order) : (inOrder order mapping).Perm l := by
  have hnodup : (inOrder order mapping).Nodup := by
    refine horder.filterMap fun v w p hv hw => ?_
    obtain ⟨d, -, rfl⟩ := map_eq_some_iff.mp hv
    obtain ⟨d', -, heq⟩ := map_eq_some_iff.mp hw
    exact (Prod.mk.inj heq).1.symm
  rw [perm_ext_iff_of_nodup hnodup hl]
  rintro ⟨x, d⟩
  simp only [inOrder, mem_filterMap, map_eq_some_iff, Prod.mk.injEq]
  constructor
  · rintro ⟨v, -, d', hd, rfl, rfl⟩
    exact (hmap _ _).mp hd
  · intro hmem
    exact ⟨x, hall _ hmem, d, (hmap x d).mpr hmem, rfl, rfl⟩

/-! ## At a restart -/

section Init

variable {devs : String → Option String} {defaultDev : String}

def Answered (provisioner : Volume → ProvisionerAnswer) (vols : List Volume) : Prop :=
  ∀ v ∈ vols, v.claimName.isSome = true → ∃ b, isIOIProvisioner (provisioner v) = .done b

theorem assigned_claim {pvc : String} {b : Except String Bool}
    (hc : vol.claimName = some pvc) (hb : isIOIProvisioner (provisioner vol) = .done b) :
    assigned devs ns defaultDev provisioner vol =
      if b = .ok true then devs (claimKey pvc ns) else none := by
  simp only [assigned, hc, hb]
  rcases b with e | (_ | _) <;> simp

/-- The map has the volumes with their devices. -/
theorem getDiskFromContext_spec (claims : Dict String StorageInfo) (ns defaultDev : String)
    (hans : Answered provisioner vols) (hnames : (vols.map (·.name)).Nodup)
    (mapping : Dict String String) :
    ∃ mapping', getDiskFromContext claims ns defaultDev provisioner vols mapping = .done mapping' ∧
      Dict.Overlays (fun x d => (x, d) ∈ placedVolumes (assigned
        (fun key => (claims.lookup key).map (·.devID)) ns defaultDev provisioner) vols)
        mapping mapping' := by
  induction vols generalizing mapping with
  | nil => exact ⟨mapping, rfl, by simp [placedVolumes], by simp⟩
  | cons vol vols ih =>
    set assign := assigned (fun key => (claims.lookup key).map (·.devID)) ns defaultDev provisioner
      with hassign
    rw [map_cons, nodup_cons] at hnames
    rw [Answered, forall_mem_cons] at hans
    -- the loop goes on with the volume entered on its device, or without it
    have hstep : getDiskFromContext claims ns defaultDev provisioner (vol :: vols) mapping =
        getDiskFromContext claims ns defaultDev provisioner vols
          ((assign vol).elim mapping (mapping.insert vol.name)) := by
      cases hc : vol.claimName with
      | none =>
        cases he : vol.emptyDir <;> simp [getDiskFromContext, hassign, assigned, hc, he]
      | some pvc =>
        obtain ⟨b, hb⟩ := hans.1 (by simp [hc])
        rw [hassign, assigned_claim hc hb]
        simp only [getDiskFromContext, hc, hb, done_bind]
        rcases b with e | (_ | _)
        · simp
        · simp
        · cases claims.lookup (claimKey pvc ns) <;> simp
    obtain ⟨mapping', hrun, hover⟩ := ih hans.2 hnames.2 ((assign vol).elim mapping
      (mapping.insert vol.name))
    refine ⟨mapping', hstep.trans hrun, ?_⟩
    cases hd : assign vol with
    | none => simpa [placedVolumes, hd] using hover
    | some d =>
      rw [hd, elim_some] at hover
      refine hover.insert (fun d' hmem => ?_) (fun x d' => by simp [placedVolumes, hd])
      obtain ⟨w, hw, hname, -⟩ := mem_placedVolumes.mp hmem
      exact absurd (mem_map.mpr ⟨w, hw, hname⟩) hnames.1

/-- The pod is best effort on the default disk when none of its volumes has a device. -/
def defaultLoad (assign : Volume → Option String) (defaultDev : String) (vols : List Volume) :
    String → Load :=
  if vols.all fun v => (assign v).isNone then
    Pi.single defaultDev (loadOf (parseBEIOAnnotations defaultDev))
  else 0

variable {mapping : Dict String String}

theorem getVolumeRequestFromAnno_loads [QuantityParser] (hne : l ≠ [])
    (hl : l.Nodup) (hmap : ∀ x d, mapping.lookup x = some d ↔ (x, d) ∈ l) (horder : order.Nodup)
    (hall : ∀ p ∈ l, p.1 ∈ order) (h : getVolumeRequestFromAnno mapping order anno info = .done m) :
    (∀ p ∈ l, Weighs anno info.disksStatus p.1 p.2) ∧
      Loads m (l.map fun p => volumeLoad anno info.disksStatus p.1 p.2).sum := by
  have hperm := inOrder_perm hl hmap horder hall
  have hmapping : mapping ≠ ∅ := by
    rintro rfl
    obtain ⟨⟨x, d⟩, hp⟩ := exists_mem_of_ne_nil l hne
    have := (hmap x d).mpr hp
    cases this
  rw [getVolumeRequestFromAnno, if_neg hmapping] at h
  have hw := volumeRequests_weighs h
  have hloads := volumeRequests_loads loads_empty h
  refine ⟨fun p hp => hw p (hperm.mem_iff.mpr hp), ?_⟩
  rw [zero_add] at hloads
  rw [← (hperm.map fun p => volumeLoad anno info.disksStatus p.1 p.2).sum_eq]
  exact hloads

theorem getVolumeRequestFromAnno_done [QuantityParser] (hl : l.Nodup)
    (hmap : ∀ x d, mapping.lookup x = some d ↔ (x, d) ∈ l) (horder : order.Nodup)
    (hall : ∀ p ∈ l, p.1 ∈ order) (hw : ∀ p ∈ l, Weighs anno info.disksStatus p.1 p.2) :
    ∃ m, getVolumeRequestFromAnno mapping order anno info = .done m := by
  have hperm := inOrder_perm hl hmap horder hall
  unfold getVolumeRequestFromAnno
  split_ifs
  · cases info.disksStatus.lookup info.emptyDirDevice <;> exact ⟨_, rfl⟩
  · exact volumeRequests_done (fun p hp => hw p (hperm.mem_iff.mp hp)) _

theorem placedVolumes_eq_nil :
    placedVolumes assign vols = [] ↔ (vols.all fun v => (assign v).isNone) = true := by
  simp [placedVolumes, filterMap_eq_nil_iff]

/-- At a restart the volumes are merged in one pass. -/
theorem init_loads [QuantityParser] {pod : Pod}
    (hans : Answered provisioner pod.volumes) (hnames : (pod.volumes.map (·.name)).Nodup)
    (horder : order.Nodup) (hall : ∀ v ∈ pod.volumes, v.name ∈ order)
    (hdefault : info.emptyDirDevice ∈ info.disksStatus)
    (hassign : ∀ v ∈ pod.volumes, assigned (fun key => (claims.lookup key).map (·.devID)) pod.ns
      info.emptyDirDevice provisioner v = assign v)
    (hw : ∀ v ∈ pod.volumes, ∀ dev, assign v = some dev → Weighs anno info.disksStatus v.name dev) :
    ∃ m, getInitRequest info claims pod anno provisioner order = .done m ∧
      Loads m (podLoads anno info.disksStatus assign pod.volumes +
        defaultLoad assign info.emptyDirDevice pod.volumes) := by
  obtain ⟨mapping, hrun, hover⟩ := getDiskFromContext_spec claims pod.ns info.emptyDirDevice
    hans hnames ∅
  have hplaced : placedVolumes (assigned (fun key => (claims.lookup key).map (·.devID)) pod.ns
      info.emptyDirDevice provisioner) pod.volumes = placedVolumes assign pod.volumes :=
    filterMap_congr fun v hv => by rw [hassign v hv]
  rw [hplaced] at hover
  have hmap := hover.lookup_iff
  have hl := nodup_placedVolumes assign hnames
  have horder' : ∀ p ∈ placedVolumes assign pod.volumes, p.1 ∈ order := by
    rintro ⟨x, d⟩ hp
    obtain ⟨v, hv, rfl, -⟩ := mem_placedVolumes.mp hp
    exact hall v hv
  have hweighs : ∀ p ∈ placedVolumes assign pod.volumes,
      Weighs anno info.disksStatus p.1 p.2 := by
    rintro ⟨x, d⟩ hp
    obtain ⟨v, hv, rfl, hd⟩ := mem_placedVolumes.mp hp
    exact hw v hv d hd
  obtain ⟨m, hm⟩ := getVolumeRequestFromAnno_done hl hmap horder horder' hweighs
  refine ⟨m, by simp only [getInitRequest, hrun, done_bind, hm], ?_⟩
  by_cases hnil : placedVolumes assign pod.volumes = []
  · have hempty : mapping = ∅ := by
      refine Dict.eq_empty fun x hx => ?_
      obtain ⟨d, hd⟩ := mem_iff.mp hx
      have := (hmap x d).mp hd
      rw [hnil] at this
      cases this
    obtain ⟨disk, hdisk⟩ := mem_iff.mp hdefault
    simp only [getVolumeRequestFromAnno, hempty, if_true, hdisk, done.injEq] at hm
    rw [← sum_placedVolumes, hnil, map_nil, sum_nil, zero_add, defaultLoad,
      if_pos (placedVolumes_eq_nil.mp hnil), ← hm]
    exact loads_singleton (built_parseBE _)
  · obtain ⟨-, hloads⟩ := getVolumeRequestFromAnno_loads hnil hl hmap horder horder' hm
    rw [sum_placedVolumes] at hloads
    rw [defaultLoad, if_neg fun h => hnil (placedVolumes_eq_nil.mpr h), add_zero]
    exact hloads

end Init

/-! ## In a scheduling cycle -/

section

variable [QuantityParser]

/-- All volumes with a device can be weighed on it. -/
def AllWeigh (anno : PodAnnoThroughput) (disks : Disks) (assign : Volume → Option String)
    (vols : List Volume) : Prop :=
  ∀ v ∈ vols, ∀ dev, assign v = some dev → Weighs anno disks v.name dev

theorem podLoads_step (hw : ∀ dev, assign vol = some dev → Weighs anno disks vol.name dev)
    (h : AllWeigh anno disks assign vols ∧
      Loads m' (f + (assign vol).elim 0 (volumeLoad anno disks vol.name) +
        podLoads anno disks assign vols)) :
    AllWeigh anno disks assign (vol :: vols) ∧
      Loads m' (f + podLoads anno disks assign (vol :: vols)) := by
  refine ⟨forall_mem_cons.mpr ⟨hw, h.1⟩, ?_⟩
  rw [podLoads, map_cons, sum_cons, ← podLoads, ← add_assoc]
  exact h.2

theorem podLoads_skip (hnone : assign vol = none)
    (h : AllWeigh anno disks assign vols ∧ Loads m' (f + podLoads anno disks assign vols)) :
    AllWeigh anno disks assign (vol :: vols) ∧
      Loads m' (f + podLoads anno disks assign (vol :: vols)) := by
  apply podLoads_step
  · intro dev hdev
    rw [hnone] at hdev
    cases hdev
  · rw [hnone, elim_none, add_zero]
    exact h

theorem podLoads_place (hdev : assign vol = some dev) (hw : Weighs anno disks vol.name dev)
    (h : AllWeigh anno disks assign vols ∧
      Loads m' (f + volumeLoad anno disks vol.name dev + podLoads anno disks assign vols)) :
    AllWeigh anno disks assign (vol :: vols) ∧
      Loads m' (f + podLoads anno disks assign (vol :: vols)) := by
  apply podLoads_step
  · intro dev' hdev'
    rw [hdev, some.injEq] at hdev'
    exact hdev' ▸ hw
  · rw [hdev]
    exact h

theorem podLoads_none (h : ∀ v ∈ vols, assign v = none) :
    AllWeigh anno disks assign vols ∧ podLoads anno disks assign vols = 0 := by
  refine ⟨fun v hv dev hdev => ?_, sum_eq_zero fun x hx => ?_⟩
  · rw [h v hv] at hdev
    cases hdev
  · obtain ⟨v, hv, rfl⟩ := mem_map.mp hx
    rw [h v hv, elim_none]

def emptyDirAssign (dev : String) (vol : Volume) : Option String :=
  if vol.emptyDir then some dev else none

theorem emptyDirRequests_loads (hdisk : disks.lookup dev = some disk) (hm : Loads m f)
    (h : emptyDirRequests anno dev disk vols m = .done m') :
    AllWeigh anno disks (emptyDirAssign dev) vols ∧
      Loads m' (f + podLoads anno disks (emptyDirAssign dev) vols) := by
  induction vols generalizing m f with
  | nil =>
    cases h
    exact ⟨by simp [AllWeigh], by simpa [podLoads] using hm⟩
  | cons vol vols ih =>
    cases he : vol.emptyDir with
    | true =>
      simp only [emptyDirRequests, he, if_true, bind_eq_done] at h
      obtain ⟨m1, hadd, h⟩ := h
      have hw := addVolume_weighs hdisk hadd
      have hm1 := addVolume_loads hdisk hm hadd
      exact podLoads_place (by simp [emptyDirAssign, he]) hw (ih hm1 h)
    | false =>
      simp only [emptyDirRequests, he, Bool.false_eq_true, if_false] at h
      exact podLoads_skip (by simp [emptyDirAssign, he]) (ih hm h)

/-- The registered device of a claim that is already bound to one. -/
def boundAssign (bound : Dict String PVCInfo) (ns : String) (disks : Disks)
    (provisioner : Volume → ProvisionerAnswer) (vol : Volume) : Option String :=
  match vol.claimName.bind fun pvc => bound.lookup (claimKey pvc ns) with
  | some info =>
    match isIOIProvisioner (provisioner vol) with
    | .done (.ok true) => if info.devID ∈ disks then some info.devID else none
    | _ => none
  | none => none

theorem getBoundedTotalRequests_loads (hm : Loads m f)
    (h : getBoundedTotalRequests anno ns bound disks provisioner vols m = .done m') :
    AllWeigh anno disks (boundAssign bound ns disks provisioner) vols ∧
      Loads m' (f + podLoads anno disks (boundAssign bound ns disks provisioner) vols) := by
  induction vols generalizing m f with
  | nil =>
    cases h
    exact ⟨by simp [AllWeigh], by simpa [podLoads] using hm⟩
  | cons vol vols ih =>
    cases hinfo : vol.claimName.bind fun pvc => bound.lookup (claimKey pvc ns) with
    | none =>
      simp only [getBoundedTotalRequests, hinfo] at h
      exact podLoads_skip (by simp only [boundAssign, hinfo]) (ih hm h)
    | some info =>
      simp only [getBoundedTotalRequests, hinfo, bind_eq_done] at h
      obtain ⟨b, hb, h⟩ := h
      rcases b with e | (_ | _)
      · exact podLoads_skip (by simp only [boundAssign, hinfo, hb]) (ih hm h)
      · exact podLoads_skip (by simp only [boundAssign, hinfo, hb]) (ih hm h)
      cases hdisk : disks.lookup info.devID with
      | none =>
        have hnot := lookup_eq_none.mp hdisk
        simp only [hdisk] at h
        exact podLoads_skip (by simp only [boundAssign, hinfo, hb, if_neg hnot]) (ih hm h)
      | some disk =>
        have hmem := mem_of_lookup_eq_some hdisk
        simp only [hdisk, bind_eq_done] at h
        obtain ⟨m1, hadd, h⟩ := h
        have hw := addVolume_weighs hdisk hadd
        have hm1 := addVolume_loads hdisk hm hadd
        have hassign : boundAssign bound ns disks provisioner vol = some info.devID := by
          simp only [boundAssign, hinfo, hb, if_pos hmem]
        exact podLoads_place hassign hw (ih hm1 h)

end

/-- The claim of the volume has a node and is not pending any more, and the claim map has a disk for
it. -/
def Keeps (claims : Dict String StorageInfo) (a : RequestAnswers) (ns key dev : String) (vol : Volume) :
    Prop :=
  OfClaim a.boundProvisioner ns key vol ∧
    (∃ claim, a.boundPVC vol = .ok claim ∧ claim.selectedNode.isSome = true ∧
      claim.phase ≠ .pending) ∧
    (claims.lookup key).map (·.devID) = some dev

/-- The claims that are bound already keep the disks of the claim map. -/
theorem getBoundedPVCInfo_spec {bound' : Dict String PVCInfo}
    (h : getBoundedPVCInfo claims ns node a vols bound = .done (.ok bound')) :
    Answered a.boundProvisioner vols ∧ ∀ key info, bound'.lookup key = some info →
      bound.lookup key = some info ∨
        info.reuse = true ∧ ∃ v ∈ vols, Keeps claims a ns key info.devID v := by
  induction vols generalizing bound with
  | nil =>
    cases h
    exact ⟨by simp [Answered], fun _ _ h => .inl h⟩
  | cons vol vols ih =>
    -- the volume enters nothing
    have hpass : (vol.claimName.isSome = true →
          ∃ b, isIOIProvisioner (a.boundProvisioner vol) = .done b) →
        getBoundedPVCInfo claims ns node a vols bound = .done (.ok bound') →
        Answered a.boundProvisioner (vol :: vols) ∧ ∀ key info, bound'.lookup key = some info →
          bound.lookup key = some info ∨
            info.reuse = true ∧ ∃ v ∈ vol :: vols, Keeps claims a ns key info.devID v := by
      intro hb h
      obtain ⟨hans, hkeys⟩ := ih h
      refine ⟨forall_mem_cons.mpr ⟨hb, hans⟩, fun key info hinfo => ?_⟩
      rcases hkeys key info hinfo with hold | ⟨hre, v, hv, hof⟩
      · exact .inl hold
      · exact .inr ⟨hre, v, mem_cons_of_mem _ hv, hof⟩
    cases hc : vol.claimName with
    | none =>
      simp only [getBoundedPVCInfo, hc] at h
      exact hpass (by simp [hc]) h
    | some pvc =>
      simp only [getBoundedPVCInfo, hc, bind_eq_done] at h
      obtain ⟨b, hb, h⟩ := h
      have hans : vol.claimName.isSome = true →
          ∃ b, isIOIProvisioner (a.boundProvisioner vol) = .done b := fun _ => ⟨b, hb⟩
      rcases b with e | (_ | _)
      · exact hpass hans h
      · exact hpass hans h
      cases hclaim : a.boundPVC vol with
      | error err => simp [hclaim] at h
      | ok claim =>
        simp only [hclaim] at h
        cases hn : claim.selectedNode with
        | none =>
          simp only [hn] at h
          exact hpass hans h
        | some n =>
          simp only [hn] at h
          split_ifs at h with hnode hphase
          · cases h
          · exact hpass hans h
          cases hs : claims.lookup (claimKey pvc ns) with
          | none =>
            simp only [hs] at h
            exact hpass hans h
          | some s =>
            simp only [hs] at h
            obtain ⟨hans', hkeys⟩ := ih h
            refine ⟨forall_mem_cons.mpr ⟨hans, hans'⟩, fun key info hinfo => ?_⟩
            rcases hkeys key info hinfo with hold | ⟨hre, v, hv, hof⟩
            · rw [Dict.lookup_insert_ite] at hold
              split_ifs at hold with hkey
              · cases hold
                refine .inr ⟨rfl, vol, mem_cons_self, ⟨⟨by simp [hc], hb⟩, ?_⟩,
                  ⟨claim, hclaim, by simp [hn], hphase⟩, ?_⟩
                · rw [hc, map_some, hkey]
                · rw [hkey, hs, map_some]
              · exact .inl hold
            · exact .inr ⟨hre, v, mem_cons_of_mem _ hv, hof⟩

/-- The name and the key of a volume whose claim is to be placed. -/
def restOf (bound : Dict String PVCInfo) (ns : String) (provisioner : Volume → ProvisionerAnswer)
    (vol : Volume) : Option (String × String) :=
  match vol.claimName with
  | some pvc =>
    match isIOIProvisioner (provisioner vol) with
    | .done (.ok true) =>
      if claimKey pvc ns ∈ bound then none else some (vol.name, claimKey pvc ns)
    | _ => none
  | none => none

theorem getRestVolumes_cons [QuantityParser] [Rounding]
    (h : getRestVolumes anno ns bound a (vol :: vols) = .done (.ok rest)) :
    restOf bound ns a.restProvisioner vol = none ∧
        getRestVolumes anno ns bound a vols = .done (.ok rest) ∨
      ∃ key claim rest', restOf bound ns a.restProvisioner vol = some (vol.name, key) ∧
        a.restPVC vol = .ok claim ∧ getRestVolumes anno ns bound a vols = .done (.ok rest') ∧
        rest = packVolumeOf anno vol.name key (claim.requestedStorage.getD 0) :: rest' := by
  cases hc : vol.claimName with
  | none =>
    simp only [getRestVolumes, hc] at h
    exact .inl ⟨by simp only [restOf, hc], h⟩
  | some pvc =>
    simp only [getRestVolumes, hc, bind_eq_done] at h
    obtain ⟨b, hb, h⟩ := h
    rcases b with e | (_ | _)
    · exact .inl ⟨by simp only [restOf, hc, hb], h⟩
    · exact .inl ⟨by simp only [restOf, hc, hb], h⟩
    by_cases hmem : claimKey pvc ns ∈ bound
    · simp only [hmem, if_true] at h
      exact .inl ⟨by simp only [restOf, hc, hb, if_pos hmem], h⟩
    simp only [hmem, if_false] at h
    split at h
    · cases h
    rename_i claim hclaim
    rw [bind_eq_done] at h
    obtain ⟨r, hr, h⟩ := h
    cases r with
    | error e => cases h
    | ok rest' =>
      cases h
      exact .inr ⟨_, claim, rest', by simp only [restOf, hc, hb, if_neg hmem], hclaim, hr, rfl⟩

theorem getRestVolumes_spec [QuantityParser] [Rounding]
    (h : getRestVolumes anno ns bound a vols = .done (.ok rest)) :
    rest.map (fun v => (v.name, v.pvcName)) = vols.filterMap (restOf bound ns a.restProvisioner) := by
  induction vols generalizing rest with
  | nil => cases h; rfl
  | cons vol vols ih =>
    rcases getRestVolumes_cons h with ⟨hnone, h⟩ | ⟨key, claim, rest', hsome, -, hrest, rfl⟩
    · rw [filterMap_cons_none hnone]
      exact ih h
    · rw [filterMap_cons_some hsome, map_cons, ih hrest]
      rfl

theorem getRestVolumes_size [QuantityParser]
    (h : getRestVolumes anno ns bound a vols = .done (.ok rest)) :
    ∀ pv ∈ rest, ∃ v ∈ vols, ∃ claim, a.restPVC v = .ok claim ∧
      pv.size = claim.requestedStorage.getD 0 := by
  induction vols generalizing rest with
  | nil => cases h; simp
  | cons vol vols ih =>
    have htail : ∀ {rest : List PackVolume}, getRestVolumes anno ns bound a vols = .done (.ok rest) →
        ∀ pv ∈ rest, ∃ v ∈ vol :: vols, ∃ claim, a.restPVC v = .ok claim ∧
          pv.size = claim.requestedStorage.getD 0 := by
      intro rest h pv hpv
      obtain ⟨v, hv, hclaim⟩ := ih h pv hpv
      exact ⟨v, mem_cons_of_mem _ hv, hclaim⟩
    rcases getRestVolumes_cons h with ⟨-, h⟩ | ⟨key, claim, rest', -, hclaim, hrest, rfl⟩
    · exact htail h
    · exact forall_mem_cons.mpr ⟨⟨vol, mem_cons_self, claim, hclaim, rfl⟩, htail hrest⟩

theorem firstFit_mem [Rounding] {vol : PackVolume} {names : List String} {ds' : Dict String PackDevice}
    (h : firstFit devices vol names ds = some (name, ds')) : name ∈ devices := by
  induction names with
  | nil => cases h
  | cons x names ih =>
    unfold firstFit at h
    split at h
    · rename_i disk dev hdisk hdev
      split_ifs at h
      · cases h
        exact mem_of_lookup_eq_some hdisk
      · exact ih h
    · exact ih h

/-- The packer puts every volume on one of the devices, and its claim with it. -/
theorem packLoop_spec [Rounding] {devs : List String} {vols : List PackVolume}
    {volToDev' : Dict String String}
    {allocation' : Dict String PVCInfo} (hnames : (vols.map (·.name)).Nodup)
    (hpvcs : (vols.map (·.pvcName)).Nodup) (hfresh : ∀ v ∈ vols, v.pvcName ∉ allocation)
    (h : packLoop devices devs vols ds volToDev allocation = some (volToDev', allocation')) :
    ∃ place : String → String, (∀ v ∈ vols, place v.name ∈ devices) ∧
      Dict.Overlays (fun x d => (x, d) ∈ vols.map fun v => (v.name, place v.name))
        volToDev volToDev' ∧
      Dict.Overlays (fun key info => ∃ v ∈ vols, v.pvcName = key ∧
        info = ⟨place v.name, v.size, false⟩) allocation allocation' := by
  induction vols generalizing ds volToDev allocation with
  | nil =>
    cases h
    exact ⟨id, by simp, ⟨by simp, by simp⟩, ⟨by simp, by simp⟩⟩
  | cons vol vols ih =>
    rw [map_cons, nodup_cons] at hnames hpvcs
    rw [forall_mem_cons] at hfresh
    unfold packLoop at h
    cases hfit : firstFit devices vol devs ds with
    | none =>
      simp only [hfit, if_neg hfresh.1] at h
      cases h
    | some p =>
      obtain ⟨name, ds1⟩ := p
      simp only [hfit] at h
      have hne : ∀ v ∈ vols, v.name ≠ vol.name := fun v hv heq =>
        hnames.1 (mem_map.mpr ⟨v, hv, heq⟩)
      have hne' : ∀ v ∈ vols, v.pvcName ≠ vol.pvcName := fun v hv heq =>
        hpvcs.1 (mem_map.mpr ⟨v, hv, heq⟩)
      obtain ⟨place, hin, hvols, hclaims⟩ := ih hnames.2 hpvcs.2 (fun v hv hmem => by
        rcases mem_insert.mp hmem with heq | hmem
        · exact hne' v hv heq
        · exact hfresh.2 v hv hmem) h
      have hplace : ∀ v ∈ vols, Function.update place vol.name name v.name = place v.name :=
        fun v hv => Function.update_of_ne (hne v hv) _ _
      refine ⟨Function.update place vol.name name, ?_, hvols.insert ?_ ?_, hclaims.insert ?_ ?_⟩
      · rw [forall_mem_cons, Function.update_self]
        exact ⟨firstFit_mem hfit, fun v hv => by rw [hplace v hv]; exact hin v hv⟩
      · intro d hmem
        obtain ⟨v, hv, heq⟩ := mem_map.mp hmem
        exact absurd (Prod.mk.inj heq).1 (hne v hv)
      · intro x d
        rw [map_cons, mem_cons, Function.update_self, Prod.mk.injEq,
          map_congr_left fun v hv => by rw [hplace v hv]]
      · rintro info ⟨v, hv, hkey, -⟩
        exact absurd hkey (hne' v hv)
      intro key info
      simp only [exists_mem_cons_iff, Function.update_self, eq_comm (a := vol.pvcName)]
      refine or_congr_right (exists_congr fun v => and_congr_right fun hv => ?_)
      rw [hplace v hv]

theorem pack_spec [Rounding] {vols : List PackVolume} (hnames : (vols.map (·.name)).Nodup)
    (hpvcs : (vols.map (·.pvcName)).Nodup)
    (h : pack devices order vols = some (volToDev, allocation)) :
    ∃ place : String → String, (∀ v ∈ vols, place v.name ∈ devices) ∧
      (∀ x d, volToDev.lookup x = some d ↔ (x, d) ∈ vols.map fun v => (v.name, place v.name)) ∧
      (∀ key info, allocation.lookup key = some info ↔ ∃ v ∈ vols, v.pvcName = key ∧
        info = ⟨place v.name, v.size, false⟩) := by
  have hperm : (vols.insertionSort fun v w => w.getVolume ≤ v.getVolume).Perm vols :=
    perm_insertionSort _ _
  obtain ⟨place, hin, hvols, hclaims⟩ := packLoop_spec ((hperm.map _).nodup_iff.mpr hnames)
    ((hperm.map _).nodup_iff.mpr hpvcs) (fun _ _ => notMem_empty) h
  refine ⟨place, fun v hv => hin v (hperm.mem_iff.mpr hv), fun x d => ?_, fun key info => ?_⟩
  · rw [hvols.lookup_iff, (hperm.map _).mem_iff]
  · rw [hclaims.lookup_iff]
    exact ⟨fun ⟨v, hv, h⟩ => ⟨v, hperm.mem_iff.mp hv, h⟩,
      fun ⟨v, hv, h⟩ => ⟨v, hperm.mem_iff.mpr hv, h⟩⟩

def restAssign (bound : Dict String PVCInfo) (ns : String)
    (provisioner : Volume → ProvisionerAnswer) (place : String → String) (vol : Volume) :
    Option String :=
  (restOf bound ns provisioner vol).map fun _ => place vol.name

theorem restOf_of_claim (hof : OfClaim provisioner ns key vol) (hkey : key ∉ bound) :
    restOf bound ns provisioner vol = some (vol.name, key) := by
  obtain ⟨⟨-, hioi⟩, hclaim⟩ := hof
  obtain ⟨claim, hc, rfl⟩ := map_eq_some_iff.mp hclaim
  simp only [restOf, hc, hioi, if_neg hkey]

theorem restOf_name (h : restOf bound ns provisioner vol = some (name, key)) :
    name = vol.name ∧ key ∉ bound ∧ OfClaim provisioner ns key vol := by
  unfold restOf at h
  split at h
  · rename_i pvc hc
    split at h
    · rename_i hb
      split_ifs at h with hmem
      cases h
      exact ⟨rfl, hmem, ⟨by simp [hc], hb⟩, by rw [hc, map_some]⟩
    · cases h
  · cases h

theorem placedVolumes_restAssign (bound : Dict String PVCInfo) (ns : String)
    (provisioner : Volume → ProvisionerAnswer) (place : String → String) (vols : List Volume) :
    placedVolumes (restAssign bound ns provisioner place) vols =
      (vols.filterMap (restOf bound ns provisioner)).map fun p => (p.1, place p.1) := by
  rw [placedVolumes, map_filterMap]
  refine filterMap_congr fun v _ => ?_
  cases h : restOf bound ns provisioner v with
  | none => simp [restAssign, h]
  | some p => simp [restAssign, h, (restOf_name h).1]

theorem getRestVolumes_names [QuantityParser] [Rounding] (hnames : (vols.map (·.name)).Nodup)
    (h : getRestVolumes anno ns bound a vols = .done (.ok rest)) : (rest.map (·.name)).Nodup := by
  have heq : rest.map (·.name) = (vols.filterMap (restOf bound ns a.restProvisioner)).map (·.1) := by
    rw [← getRestVolumes_spec h, List.map_map]; rfl
  rw [heq, map_filterMap]
  refine Pairwise.filterMap _ ?_ (pairwise_map.mp hnames)
  intro v w hvw x hx y hy hxy
  obtain ⟨p, hp, rfl⟩ := map_eq_some_iff.mp hx
  obtain ⟨q, hq, rfl⟩ := map_eq_some_iff.mp hy
  rw [(restOf_name hp).1, (restOf_name hq).1] at hxy
  exact hvw hxy

/-- The volumes of a pod as Kubernetes has them: with different names, of one kind each, and here
also of different claims. -/
structure PodVolumes (vols : List Volume) : Prop where
  names : (vols.map (·.name)).Nodup
  claims : (vols.filterMap (·.claimName)).Nodup
  kind : ∀ v ∈ vols, v.emptyDir = true → v.claimName = none

theorem claimKey_inj {a b : String} (h : claimKey a ns = claimKey b ns) : a = b := by
  have hl := congrArg String.toList h
  simp only [claimKey, String.toList_append, append_assoc] at hl
  exact String.toList_injective (append_cancel_right hl)

variable {v : Volume}

theorem PodVolumes.eq_of_claim (h : PodVolumes vols) {w : Volume} (hv : v ∈ vols) (hw : w ∈ vols)
    {claim : String} (hvc : v.claimName = some claim) (hwc : w.claimName = some claim) : v = w := by
  have hclaims := h.claims
  rw [Nodup, pairwise_filterMap] at hclaims
  have : Std.Symm fun x y : Volume => ∀ c, x.claimName = some c → ∀ d, y.claimName = some d → c ≠ d :=
    ⟨fun _ _ hxy c hc d hd hcd => hxy d hd c hc hcd.symm⟩
  by_contra hne
  exact hclaims.forall hv hw hne claim hvc claim hwc rfl

/-- Step 3: every claim without a device gets one, and the requests of its volume are added. -/
theorem placeRest_loads [QuantityParser] (hvols : PodVolumes vols) (horder : a.volumeOrder.Nodup)
    (hall : ∀ v ∈ vols, v.name ∈ a.volumeOrder) (hm : Loads m f)
    (h : placeRest info anno ns a vols m bound = .done (.ok (m', pvcs))) :
    ∃ place : String → String,
      AllWeigh anno info.disksStatus (restAssign bound ns a.restProvisioner place) vols ∧
      Loads m' (f + podLoads anno info.disksStatus
        (restAssign bound ns a.restProvisioner place) vols) ∧
      (∀ v ∈ vols, ∀ name key, restOf bound ns a.restProvisioner v = some (name, key) →
        ∃ size, pvcs.lookup key = some ⟨place name, size, false⟩) ∧
      (∀ key ∈ bound, pvcs.lookup key = bound.lookup key) ∧
      ∀ key ∈ pvcs, key ∈ bound ∨ ∃ v ∈ vols, OfClaim a.restProvisioner ns key v := by
  obtain ⟨rest, hrest, hcases⟩ := placeRest_cases h
  have hspec := getRestVolumes_spec hrest
  have hnames := getRestVolumes_names hvols.names hrest
  have hpvcs : (rest.map (·.pvcName)).Nodup := by
    have heq : rest.map (·.pvcName) =
        (vols.filterMap (restOf bound ns a.restProvisioner)).map (·.2) := by
      rw [← hspec, List.map_map]; rfl
    have hclaims := hvols.claims
    rw [Nodup, pairwise_filterMap] at hclaims
    rw [heq, map_filterMap]
    refine Pairwise.filterMap _ ?_ hclaims
    intro v w hvw x hx y hy hxy
    obtain ⟨p, hp, rfl⟩ := map_eq_some_iff.mp hx
    obtain ⟨q, hq, rfl⟩ := map_eq_some_iff.mp hy
    obtain ⟨c, hc, hkc⟩ := map_eq_some_iff.mp (restOf_name hp).2.2.2
    obtain ⟨d, hd, hkd⟩ := map_eq_some_iff.mp (restOf_name hq).2.2.2
    rw [hxy, ← hkd] at hkc
    exact hvw c hc d hd (claimKey_inj hkc)
  rcases hcases with ⟨rfl, rfl, rfl⟩ | ⟨hnil, volToDev, alloc, m2, hpack, hm2, rfl, rfl⟩
  · -- nothing to place
    have hno : ∀ v ∈ vols, restOf pvcs ns a.restProvisioner v = none := by
      simpa using hspec.symm
    obtain ⟨hw, hzero⟩ := podLoads_none fun v hv =>
      show restAssign pvcs ns a.restProvisioner id v = none by rw [restAssign, hno v hv, map_none]
    refine ⟨id, hw, by rwa [hzero, add_zero], ?_, fun _ _ => rfl, fun key hkey => .inl hkey⟩
    intro v hv name key hkey
    rw [hno v hv] at hkey
    cases hkey
  obtain ⟨place, hin, hdev, halloc⟩ := pack_spec hnames hpvcs hpack
  have hplaced : (rest.map fun v => (v.name, place v.name)) =
      placedVolumes (restAssign bound ns a.restProvisioner place) vols := by
    rw [placedVolumes_restAssign, ← hspec, List.map_map]; rfl
  rw [hplaced] at hdev
  have hne : placedVolumes (restAssign bound ns a.restProvisioner place) vols ≠ [] := by
    rw [← hplaced, ne_eq, map_eq_nil_iff]
    exact hnil
  obtain ⟨hw, hloads⟩ := getVolumeRequestFromAnno_loads hne
    (nodup_placedVolumes _ hvols.names) hdev horder (by
      rintro ⟨x, d⟩ hp
      obtain ⟨v, hv, rfl, -⟩ := mem_placedVolumes.mp hp
      exact hall v hv) hm2
  rw [sum_placedVolumes] at hloads
  -- the claims of the placed volumes are those of the rest
  have hkeys : ∀ key info', alloc.lookup key = some info' →
      key ∉ bound ∧ ∃ v ∈ vols, OfClaim a.restProvisioner ns key v := by
    intro key info' hinfo
    obtain ⟨v, hv, rfl, -⟩ := (halloc key info').mp hinfo
    have hmem : (v.name, v.pvcName) ∈ vols.filterMap (restOf bound ns a.restProvisioner) := by
      rw [← hspec]
      exact mem_map.mpr ⟨v, hv, rfl⟩
    obtain ⟨w, hw, hrest⟩ := mem_filterMap.mp hmem
    exact ⟨(restOf_name hrest).2.1, w, hw, (restOf_name hrest).2.2⟩
  refine ⟨place, ?_, addPodRequest_loads hm hloads, ?_, ?_, ?_⟩
  · intro v hv dev hdev'
    exact hw _ (mem_placedVolumes.mpr ⟨v, hv, rfl, hdev'⟩)
  · intro v hv name key hrest
    have hmem : (name, key) ∈ rest.map fun v => (v.name, v.pvcName) := by
      rw [hspec]
      exact mem_filterMap.mpr ⟨v, hv, hrest⟩
    obtain ⟨w, hw, heq⟩ := mem_map.mp hmem
    cases heq
    have hl := (halloc w.pvcName _).mpr ⟨w, hw, rfl, rfl⟩
    exact ⟨w.size, by
      rw [lookup_union_left (mem_of_lookup_eq_some hl), hl]⟩
  · intro key hkey
    refine lookup_union_right fun hmem => ?_
    obtain ⟨info', hinfo⟩ := mem_iff.mp hmem
    exact (hkeys key info' hinfo).1 hkey
  · intro key hkey
    rcases mem_union.mp hkey with hmem | hmem
    · obtain ⟨info', hinfo⟩ := mem_iff.mp hmem
      exact .inr (hkeys key info' hinfo).2
    · exact .inl hmem

def placement (pvcs : Dict String PVCInfo) (key : String) : Option String :=
  (pvcs.lookup key).map (·.devID)

/-- A claim that keeps its disk has it in the device table, or its volume is annotated: a disk that
is not in the table is passed over for annotated volumes only. -/
def ReuseKnown (anno : PodAnnoThroughput) (disks : Disks) (pvcs : Dict String PVCInfo) (ns : String)
    (vols : List Volume) : Prop :=
  ∀ v ∈ vols, ∀ pvc, v.claimName = some pvc → ∀ info, pvcs.lookup (claimKey pvc ns) = some info →
    info.reuse = true → info.devID ∈ disks ∨ v.name ∈ anno

/-- The step of a cycle that adds the request of a volume: none of the three, where a volume then has
no device or one that is `passed` over, or exactly one of them, with the device of the volume. -/
inductive AddedIn (passed : String → Prop) :
    Option String → Option String → Option String → Option String → Prop where
  | none {x : Option String} (h : ∀ dev, x = some dev → passed dev) : AddedIn passed none none none x
  | emptyDir (dev : String) : AddedIn passed (some dev) none none (some dev)
  | bound (dev : String) : AddedIn passed none (some dev) none (some dev)
  | rest (dev : String) : AddedIn passed none none (some dev) (some dev)

theorem AddedIn.sum {r x : Option String} {f : String → String → Load}
    (hpassed : ∀ dev, passed dev → f dev = 0) (h : AddedIn passed e b r x) :
    e.elim 0 f + b.elim 0 f + r.elim 0 f = x.elim 0 f := by
  cases h with
  | none h =>
    cases x with
    | none => simp
    | some dev => simp [hpassed dev (h dev rfl)]
  | emptyDir | bound | rest => simp

theorem AddedIn.step {r : Option String} (h : AddedIn passed e b r (some dev)) :
    passed dev ∨ e = some dev ∨ b = some dev ∨ r = some dev := by
  cases h with
  | none h => exact .inl (h dev rfl)
  | emptyDir => exact .inr (.inl rfl)
  | bound => exact .inr (.inr (.inl rfl))
  | rest => exact .inr (.inr (.inr rfl))

theorem assigned_addedIn (defaultDev : String) {place : String → String}
    (hkind : vol.emptyDir = true → vol.claimName = none)
    (hans : vol.claimName.isSome = true → ∃ b, isIOIProvisioner (provisioner vol) = .done b)
    (hrest : ∀ name key, restOf bound ns provisioner vol = some (name, key) →
      placement pvcs key = some (place name))
    (hbound : ∀ key info, bound.lookup key = some info → pvcs.lookup key = some info)
    (hreg : ∀ pvc, vol.claimName = some pvc → ∀ info, bound.lookup (claimKey pvc ns) = some info →
      info.devID ∈ disks ∨ vol.name ∈ anno) :
    AddedIn (fun dev => dev ∉ disks ∧ vol.name ∈ anno) (emptyDirAssign defaultDev vol)
      (boundAssign bound ns disks provisioner vol) (restAssign bound ns provisioner place vol)
      (assigned (placement pvcs) ns defaultDev provisioner vol) := by
  cases hc : vol.claimName with
  | none =>
    have hb : boundAssign bound ns disks provisioner vol = none := by simp [boundAssign, hc]
    have hr : restAssign bound ns provisioner place vol = none := by simp [restAssign, restOf, hc]
    rw [hb, hr]
    cases he : vol.emptyDir with
    | true =>
      simp only [emptyDirAssign, assigned, hc, he, if_true]
      exact .emptyDir defaultDev
    | false =>
      simp only [emptyDirAssign, assigned, hc, he, Bool.false_eq_true, if_false]
      exact .none (by simp)
  | some pvc =>
    have he : emptyDirAssign defaultDev vol = none := by
      by_contra hne
      have : vol.emptyDir = true := by
        by_contra hf
        exact hne (by simp [emptyDirAssign, hf])
      rw [hkind this] at hc
      cases hc
    obtain ⟨b, hb⟩ := hans (by simp [hc])
    rw [he, assigned_claim hc hb]
    by_cases hioi : b = .ok true
    · subst hioi
      cases hl : bound.lookup (claimKey pvc ns) with
      | none =>
        have hmem := lookup_eq_none.mp hl
        have hrestOf : restOf bound ns provisioner vol = some (vol.name, claimKey pvc ns) := by
          simp only [restOf, hc, hb, if_neg hmem]
        have hb' : boundAssign bound ns disks provisioner vol = none := by
          simp [boundAssign, hc, hl]
        rw [hb', hrest _ _ hrestOf, restAssign, hrestOf]
        exact .rest (place vol.name)
      | some info =>
        have hmem := mem_of_lookup_eq_some hl
        have hr : restAssign bound ns provisioner place vol = none := by
          simp only [restAssign, restOf, hc, hb, if_pos hmem, map_none]
        rw [hr, placement, hbound _ _ hl, map_some]
        by_cases hdisk : info.devID ∈ disks
        · simp only [boundAssign, hc, bind_some, hl, hb, if_pos hdisk]
          exact .bound info.devID
        simp only [boundAssign, hc, bind_some, hl, hb, if_neg hdisk]
        refine .none fun dev hdev => ?_
        cases hdev
        exact ⟨hdisk, (hreg pvc hc info hl).resolve_left hdisk⟩
    · have hb' : boundAssign bound ns disks provisioner vol = none := by
        unfold boundAssign
        rw [hb]
        cases vol.claimName.bind fun pvc => bound.lookup (claimKey pvc ns) with
        | none => rfl
        | some info =>
          rcases b with e | (_ | _)
          · rfl
          · rfl
          · exact absurd rfl hioi
      have hr : restAssign bound ns provisioner place vol = none := by
        simp only [restAssign, restOf, hc, hb]
        rcases b with e | (_ | _)
        · rfl
        · rfl
        · exact absurd rfl hioi
      rw [hb', hr, if_neg hioi]
      exact .none (by simp)

/-- The three steps of a cycle. -/
structure Parts (ns : String) (provisioner : Volume → ProvisionerAnswer) (vols : List Volume)
    (bound pvcs : Dict String PVCInfo) (place : String → String) : Prop where
  answered : Answered provisioner vols
  kept : ∀ key i, bound.lookup key = some i → pvcs.lookup key = some i ∧ i.reuse = true
  placed : ∀ v ∈ vols, ∀ name key, restOf bound ns provisioner v = some (name, key) →
    placement pvcs key = some (place name)
  claimed : ∀ key ∈ pvcs, ∃ v ∈ vols, OfClaim provisioner ns key v

section Parts

variable {place : String → String}

variable (h : Parts ns provisioner vols bound pvcs place) (hvols : PodVolumes vols)
include h hvols

theorem Parts.none_iff (defaultDev : String) :
    (pvcs = ∅ ∧ ¬ vols.any (·.emptyDir) = true) ↔
      (vols.all fun v => (assigned (placement pvcs) ns defaultDev provisioner v).isNone) = true := by
  rw [List.all_eq_true, List.any_eq_true]
  constructor
  · rintro ⟨hpvcs, hno⟩ v hv
    cases hc : v.claimName with
    | none =>
      have he : v.emptyDir = false := by
        by_contra hne
        exact hno ⟨v, hv, by simpa using hne⟩
      simp [assigned, hc, he]
    | some pvc =>
      obtain ⟨b, hb⟩ := h.answered v hv (by simp [hc])
      rw [assigned_claim hc hb, placement, hpvcs]
      simp
  · intro hall
    refine ⟨?_, ?_⟩
    · by_contra hne
      obtain ⟨key, hkey⟩ : ∃ key, key ∈ pvcs := by
        by_contra hno
        exact hne (Dict.eq_empty fun key hmem => hno ⟨key, hmem⟩)
      obtain ⟨v, hv, ⟨-, hb⟩, hclaim⟩ := h.claimed key hkey
      obtain ⟨pvc, hc, rfl⟩ := map_eq_some_iff.mp hclaim
      obtain ⟨i, hi⟩ := mem_iff.mp hkey
      have := hall v hv
      rw [assigned_claim hc hb, if_pos rfl, placement, hi] at this
      cases this
    · rintro ⟨v, hv, he⟩
      have := hall v hv
      simp [assigned, hvols.kind v hv he, he] at this

variable (hreuse : ReuseKnown anno info.disksStatus pvcs ns vols)
include hreuse

theorem Parts.addedIn (defaultDev : String) (hv : v ∈ vols) :
    AddedIn (fun dev => dev ∉ info.disksStatus ∧ v.name ∈ anno) (emptyDirAssign defaultDev v)
      (boundAssign bound ns info.disksStatus provisioner v) (restAssign bound ns provisioner place v)
      (assigned (placement pvcs) ns defaultDev provisioner v) :=
  assigned_addedIn defaultDev (hvols.kind v hv) (h.answered v hv) (h.placed v hv)
    (fun key i hi => (h.kept key i hi).1)
    (fun pvc hc i hi => hreuse v hv pvc hc i (h.kept _ i hi).1 (h.kept _ i hi).2)

theorem Parts.sum [QuantityParser] (defaultDev : String) :
    podLoads anno info.disksStatus (emptyDirAssign defaultDev) vols +
        podLoads anno info.disksStatus (boundAssign bound ns info.disksStatus provisioner) vols +
        podLoads anno info.disksStatus (restAssign bound ns provisioner place) vols =
      podLoads anno info.disksStatus (assigned (placement pvcs) ns defaultDev provisioner) vols := by
  unfold podLoads
  rw [← sum_map_add, ← sum_map_add]
  congr 1
  refine map_congr_left fun v hv => (h.addedIn hvols hreuse defaultDev hv).sum ?_
  -- an annotated volume on an unknown disk asks for nothing
  rintro dev ⟨hnot, hanno⟩
  obtain ⟨x, hx⟩ := mem_iff.mp hanno
  simp only [volumeLoad, hx, lookup_eq_none.mpr hnot]

theorem Parts.weigh [QuantityParser] {defaultDev : String}
    (hempty : AllWeigh anno info.disksStatus (emptyDirAssign defaultDev) vols)
    (hbound : AllWeigh anno info.disksStatus
      (boundAssign bound ns info.disksStatus provisioner) vols)
    (hrest : AllWeigh anno info.disksStatus (restAssign bound ns provisioner place) vols) :
    AllWeigh anno info.disksStatus (assigned (placement pvcs) ns defaultDev provisioner) vols := by
  intro v hv dev hdev
  have hadded := h.addedIn hvols hreuse defaultDev hv
  rw [hdev] at hadded
  rcases hadded.step with hpassed | he | hb | hr
  · intro _ disk _ hdisk
    exact absurd (mem_of_lookup_eq_some hdisk) hpassed.1
  · exact hempty v hv dev he
  · exact hbound v hv dev hb
  · exact hrest v hv dev hr

end Parts

/-- Without bound claims the loop over them is not run, and would add nothing. -/
theorem boundTotal_loads [QuantityParser] (h : getBoundedTotalRequests anno ns bound disks provisioner
      (if bound = ∅ then [] else vols) ∅ = .done m) :
    AllWeigh anno disks (boundAssign bound ns disks provisioner) vols ∧
      Loads m (podLoads anno disks (boundAssign bound ns disks provisioner) vols) := by
  obtain ⟨hw, hl⟩ := getBoundedTotalRequests_loads loads_empty h
  rw [zero_add] at hl
  by_cases hb : bound = ∅
  · obtain ⟨hw, hzero⟩ := podLoads_none fun v (_ : v ∈ vols) =>
      show boundAssign bound ns disks provisioner v = none by
        cases hc : v.claimName <;> simp [boundAssign, hc, hb]
    rw [if_pos hb] at hl
    exact ⟨hw, by rwa [hzero]⟩
  · rw [if_neg hb] at hw hl
    exact ⟨hw, hl⟩

/-- What a scheduling cycle computes: the loads of the volumes on their devices, or best effort on
the default disk. -/
theorem cycle_loads [QuantityParser] {pod : Pod} {requests : Requests}
    (htotal : a.totalProvisioner = a.boundProvisioner)
    (hrest : a.restProvisioner = a.boundProvisioner) (hvols : PodVolumes pod.volumes)
    (horder : a.volumeOrder.Nodup) (hall : ∀ v ∈ pod.volumes, v.name ∈ a.volumeOrder)
    (hkept : ∀ v ∈ pod.volumes, ∀ key dev, Keeps claims a pod.ns key dev v →
      dev ∈ info.disksStatus ∨ v.name ∈ anno)
    (h : getCycleRequest node info claims pod anno a = .done (.ok (requests, pvcs))) :
    info.emptyDirDevice ∈ info.disksStatus ∧ Answered a.boundProvisioner pod.volumes ∧
      (∀ key i, pvcs.lookup key = some i → i.reuse = true →
        ∃ v ∈ pod.volumes, Keeps claims a pod.ns key i.devID v) ∧
      AllWeigh anno info.disksStatus (assigned (placement pvcs) pod.ns info.emptyDirDevice
        a.boundProvisioner) pod.volumes ∧
      Loads requests (podLoads anno info.disksStatus (assigned (placement pvcs) pod.ns
          info.emptyDirDevice a.boundProvisioner) pod.volumes +
        defaultLoad (assigned (placement pvcs) pod.ns info.emptyDirDevice a.boundProvisioner)
          info.emptyDirDevice pod.volumes) := by
  obtain ⟨disk, m1, bound, m2, m3, hdisk, hempty, hbinfo, htot, hplace, rfl⟩ :=
    getCycleRequest_cases h
  obtain ⟨hans, hbkeys⟩ := getBoundedPVCInfo_spec hbinfo
  obtain ⟨hw1, hl1⟩ := emptyDirRequests_loads hdisk loads_empty hempty
  rw [htotal] at htot
  obtain ⟨hw2, hl2⟩ := boundTotal_loads htot
  rw [zero_add] at hl1
  obtain ⟨place, hw3, hl3, hnew, hold, hkeys⟩ := placeRest_loads hvols horder hall
    (addPodRequest_loads hl1 hl2) hplace
  rw [hrest] at hw3 hl3 hnew hkeys
  have hbound : ∀ key i, bound.lookup key = some i →
      i.reuse = true ∧ ∃ v ∈ pod.volumes, Keeps claims a pod.ns key i.devID v :=
    fun key i hi => (hbkeys key i hi).resolve_left (by simp)
  have hparts : Parts pod.ns a.boundProvisioner pod.volumes bound pvcs place := by
    refine ⟨hans, fun key i hi => ?_, fun v hv name key hr => ?_, fun key hkey => ?_⟩
    · rw [hold key (mem_of_lookup_eq_some hi)]
      exact ⟨hi, (hbound key i hi).1⟩
    · obtain ⟨size, hsize⟩ := hnew v hv name key hr
      rw [placement, hsize, map_some]
    rcases hkeys key hkey with hmem | hv
    · obtain ⟨i, hi⟩ := mem_iff.mp hmem
      obtain ⟨-, v, hv, hkeeps⟩ := hbound key i hi
      exact ⟨v, hv, hkeeps.1⟩
    · exact hv
  -- a claim that is placed anew does not reuse a disk
  have hreused : ∀ key i, pvcs.lookup key = some i → i.reuse = true →
      ∃ v ∈ pod.volumes, Keeps claims a pod.ns key i.devID v := by
    intro key i hi hre
    by_cases hmem : key ∈ bound
    · rw [hold key hmem] at hi
      exact (hbound key i hi).2
    obtain ⟨v, hv, hof⟩ := hparts.claimed key (mem_of_lookup_eq_some hi)
    obtain ⟨size, hsize⟩ := hnew v hv _ key (restOf_of_claim hof hmem)
    rw [hi, some.injEq] at hsize
    rw [hsize] at hre
    cases hre
  have hreuse : ReuseKnown anno info.disksStatus pvcs pod.ns pod.volumes := by
    intro v hv pvc hc i hi hre
    obtain ⟨w, hw, hkeeps⟩ := hreused _ i hi hre
    obtain ⟨claim, hclaim, heq⟩ := map_eq_some_iff.mp hkeeps.1.2
    rw [claimKey_inj heq] at hclaim
    rw [hvols.eq_of_claim hv hw hc hclaim]
    exact hkept w hw _ _ hkeeps
  refine ⟨mem_of_lookup_eq_some hdisk, hans, hreused, hparts.weigh hvols hreuse hw1 hw2 hw3, ?_⟩
  rw [hparts.sum hvols hreuse] at hl3
  have hiff := hparts.none_iff hvols info.emptyDirDevice
  unfold defaultLoad
  by_cases hnone : pvcs = ∅ ∧ ¬ pod.volumes.any (·.emptyDir) = true
  · rw [if_pos hnone, if_pos (hiff.mp hnone)]
    exact addPodRequest_loads hl3 (loads_singleton (built_parseBE _))
  · rw [if_neg hnone, if_neg fun hall => hnone (hiff.mpr hall), add_zero]
    exact hl3

/-! ## The device table -/

/-- What the requests depend on in a disk. -/
def profile (disk : DiskInfo) : List MappingRatio × List MappingRatio × ℚ × ℚ :=
  (disk.readRatio, disk.writeRatio, disk.beDefaultRead, disk.beDefaultWrite)

/-- The same device table: the pools and the used space of the disks may differ. -/
structure SameTable (info info' : NodeInfo) : Prop where
  default : info'.emptyDirDevice = info.emptyDirDevice
  disks : ∀ dev, (info'.disksStatus.lookup dev).map profile =
    (info.disksStatus.lookup dev).map profile

theorem getDeviceRequest_profile [QuantityParser] {disk' : DiskInfo} (h : profile disk' = profile disk)
    (dev : String) (v : VolumeAnnoThroughput) :
    getDeviceRequest dev disk' v = getDeviceRequest dev disk v := by
  simp only [profile, Prod.mk.injEq] at h
  obtain ⟨hr, hw, hin, hout⟩ := h
  simp only [getDeviceRequest, hr, hw, hin, hout]

section SameTable

variable {info' : NodeInfo}

variable (h : SameTable info info')
include h

theorem SameTable.mem_iff (dev : String) :
    dev ∈ info'.disksStatus ↔ dev ∈ info.disksStatus := by
  have := congrArg isSome (h.disks dev)
  rw [isSome_map, isSome_map] at this
  rw [← lookup_isSome, ← lookup_isSome, this]

variable [QuantityParser]

theorem SameTable.request
    (hdisk : info'.disksStatus.lookup dev = some disk) (v : VolumeAnnoThroughput) :
    ∃ disk₀, info.disksStatus.lookup dev = some disk₀ ∧
      getDeviceRequest dev disk v = getDeviceRequest dev disk₀ v := by
  have hmap := h.disks dev
  rw [hdisk, map_some] at hmap
  obtain ⟨disk₀, hdisk₀, hprofile⟩ := map_eq_some_iff.mp hmap.symm
  exact ⟨disk₀, hdisk₀, getDeviceRequest_profile hprofile.symm dev v⟩

theorem SameTable.volumeLoad_eq (vol : String) :
    volumeLoad anno info'.disksStatus vol = volumeLoad anno info.disksStatus vol := by
  funext dev
  unfold volumeLoad
  cases anno.lookup vol with
  | none => rfl
  | some v =>
    cases hdisk : info'.disksStatus.lookup dev with
    | none =>
      have hno := (h.mem_iff dev).not.mp (lookup_eq_none.mp hdisk)
      simp only [lookup_eq_none.mpr hno]
    | some disk =>
      obtain ⟨disk₀, hdisk₀, hreq⟩ := h.request hdisk v
      simp only [hdisk₀, hreq]

theorem SameTable.podLoads_eq (assign : Volume → Option String)
    (vols : List Volume) :
    podLoads anno info'.disksStatus assign vols = podLoads anno info.disksStatus assign vols := by
  unfold podLoads
  simp only [h.volumeLoad_eq]

theorem SameTable.allWeigh (hw : AllWeigh anno info.disksStatus assign vols) :
    AllWeigh anno info'.disksStatus assign vols := by
  intro v hv dev hdev x disk hx hdisk
  obtain ⟨disk₀, hdisk₀, hreq⟩ := h.request hdisk x
  rw [hreq]
  exact hw v hv dev hdev x disk₀ hx hdisk₀

end SameTable

/-! ## A restart -/

/-- A loop over a map with an entry for each of these volumes, in any order. -/
structure Visits (order : List String) (vols : List Volume) : Prop where
  once : order.Nodup
  all : ∀ v ∈ vols, v.name ∈ order

/-- A pod is scheduled to a node, its claims are recorded, and the scheduler restarts. The node's
entry in the cache is `ps` in the scheduling cycle, `reserving` when the claims are recorded, and
`restarted` after the restart. -/
structure Restart where
  decode : String → PodAnnoThroughput
  pod : Pod
  ps : Resource
  reserving : Resource
  restarted : Resource
  claims : Dict String StorageInfo
  env : Env
  answers : RequestAnswers
  mapping : MappingAnswers
  usage : UsageAnswers
  answers' : RequestAnswers

namespace Restart

variable (r : Restart)

/-- The node and its device table stay as they are, and the answers about provisioners agree. -/
structure Steady : Prop where
  volumes : PodVolumes r.pod.volumes
  reservingNode : r.reserving.nodeName = r.ps.nodeName
  restartedNode : r.restarted.nodeName = r.ps.nodeName
  table : SameTable r.ps.info r.restarted.info
  total : r.answers.totalProvisioner = r.answers.boundProvisioner
  rest : r.answers.restProvisioner = r.answers.boundProvisioner
  recorded : r.mapping.provisioner = r.answers.boundProvisioner
  init : r.answers'.initProvisioner = r.answers.boundProvisioner
  visits : Visits r.answers.volumeOrder r.pod.volumes
  visits' : Visits r.answers'.volumeOrder r.pod.volumes
  devices : ∀ dev ∈ r.reserving.info.disksStatus, ':' ∉ dev.toList

/-- A claim that keeps its disk was recorded on it before. -/
def Recorded : Prop :=
  ∀ v ∈ r.pod.volumes, ∀ key dev, Keeps r.claims r.answers r.pod.ns key dev v →
    (recordedText r.env.cms r.ps.nodeName key).map deviceOf = some dev

/-- A disk that a claim keeps is in the device table, or its volume is annotated. -/
def Known : Prop :=
  ∀ v ∈ r.pod.volumes, ∀ key dev, Keeps r.claims r.answers r.pod.ns key dev v →
    dev ∈ r.ps.info.disksStatus ∨ v.name ∈ annotationOf r.decode r.pod

variable [QuantityParser]

/-- A claim that is placed gets a disk whose mount path has no colon. -/
def PlainPaths : Prop :=
  ∀ requests pvcs, getRequestByAnnotation r.decode r.ps r.claims r.pod r.answers false =
      .done (.ok (requests, some pvcs)) →
    ∀ key i disk, pvcs.lookup key = some i → i.reuse = false →
      r.reserving.info.disksStatus.lookup i.devID = some disk → ':' ∉ disk.mountPath.toList

/-- The requests after the restart are those of the scheduling cycle, if the cycle, the recording and
the reading of the claims succeed. -/
def Recovers : Prop :=
  ∀ requests pvcs env' claims',
    getRequestByAnnotation r.decode r.ps r.claims r.pod r.answers false =
      .done (.ok (requests, some pvcs)) →
    volumeDeviceMapping .ignored r.reserving pvcs r.pod r.mapping r.env = .done (env', .ok ()) →
    getDeviceUsage env'.cms r.restarted.nodeName r.usage = .ok claims' →
    ∃ requests', getRequestByAnnotation r.decode r.restarted claims' r.pod r.answers' true =
        .done (.ok (requests', none)) ∧ SameRequests requests requests'

variable {r}

omit [QuantityParser] in
theorem placement_recovered (h : r.Steady) (hrecorded : r.Recorded)
    (hpaths : ∀ key i disk, pvcs.lookup key = some i → i.reuse = false →
      r.reserving.info.disksStatus.lookup i.devID = some disk → ':' ∉ disk.mountPath.toList)
    {env' : Env} {claims' : Dict String StorageInfo}
    (hreused : ∀ key i, pvcs.lookup key = some i → i.reuse = true →
      ∃ v ∈ r.pod.volumes, Keeps r.claims r.answers r.pod.ns key i.devID v)
    (hmapping : volumeDeviceMapping .ignored r.reserving pvcs r.pod r.mapping r.env =
      .done (env', .ok ()))
    (husage : getDeviceUsage env'.cms r.restarted.nodeName r.usage = .ok claims')
    (hv : v ∈ r.pod.volumes)
    (hof : OfClaim r.answers.boundProvisioner r.pod.ns key v) :
    (claims'.lookup key).map (·.devID) = placement pvcs key := by
  rw [← h.recorded] at hof
  obtain ⟨dev, hdev, hentry⟩ := volumeDeviceMapping_entries hmapping hv hof
  have hkey : key ≠ deviceInUse := by
    obtain ⟨claim, -, rfl⟩ := map_eq_some_iff.mp hof.2
    exact claimKey_ne_deviceInUse claim _
  rw [getDeviceUsage_device husage hkey, h.restartedNode, placement, hdev, map_some]
  rw [h.reservingNode] at hentry
  cases hre : dev.reuse with
  | true =>
    rw [hre, if_pos rfl] at hentry
    obtain ⟨w, hw, hkeeps⟩ := hreused key dev hdev hre
    rw [hentry]
    exact hrecorded w hw key _ hkeeps
  | false =>
    rw [hre, if_neg Bool.false_ne_true] at hentry
    obtain ⟨disk, hdisk, htext⟩ := hentry
    rw [htext, map_some,
      deviceOf_entryText (h.devices _ (mem_of_lookup_eq_some hdisk))
        (hpaths key dev disk hdev hre hdisk)]

end Restart

theorem assigned_congr {devs devs' : String → Option String} (defaultDev : String)
    (h : ∀ key, OfClaim provisioner ns key vol → devs key = devs' key) :
    assigned devs ns defaultDev provisioner vol = assigned devs' ns defaultDev provisioner vol := by
  unfold assigned
  cases hc : vol.claimName with
  | none => rfl
  | some pvc =>
    dsimp only
    split
    · rename_i hioi
      exact h _ ⟨⟨by simp [hc], hioi⟩, by rw [hc, map_some]⟩
    · rfl

/-- A restarted scheduler finds the requests of the scheduling cycle. -/
theorem recovered [QuantityParser] (r : Restart) (h : r.Steady) (hrecorded : r.Recorded)
    (hknown : r.Known) (hpaths : r.PlainPaths) : r.Recovers := by
  intro requests pvcs env' claims' hcycle hmapping husage
  have hplain := hpaths _ _ hcycle
  simp only [ getRequestByAnnotation, Bool.false_eq_true, if_false, bind_eq_done] at hcycle
  obtain ⟨x, hcycle, hx⟩ := hcycle
  cases x with
  | error e => cases hx
  | ok p =>
    obtain ⟨requests', pvcs'⟩ := p
    obtain ⟨rfl, rfl⟩ := hx
    obtain ⟨hdefault, hans, hreused, hw, hloads⟩ := cycle_loads h.total h.rest h.volumes h.visits.once
      h.visits.all hknown hcycle
    -- the same volumes are on the same devices after the restart
    have hassign : ∀ v ∈ r.pod.volumes,
        assigned (fun key => (claims'.lookup key).map (·.devID)) r.pod.ns
            r.restarted.info.emptyDirDevice r.answers'.initProvisioner v =
          assigned (placement pvcs') r.pod.ns r.ps.info.emptyDirDevice r.answers.boundProvisioner v := by
      intro v hv
      rw [h.table.default, h.init]
      exact assigned_congr _ fun key hof =>
        Restart.placement_recovered h hrecorded hplain hreused hmapping husage hv hof
    rw [← h.init] at hans
    obtain ⟨restored, hinit, hloads'⟩ := init_loads hans h.volumes.names h.visits'.once h.visits'.all
      ((h.table.mem_iff _).mpr (h.table.default ▸ hdefault)) hassign (h.table.allWeigh hw)
    rw [h.table.podLoads_eq, h.table.default] at hloads'
    refine ⟨restored, ?_, hloads.same hloads'⟩
    simp only [ getRequestByAnnotation, if_true, hinit, done_bind, pure_eq]

/-! A pod with one new claim, on a node with one disk. -/

def dataClaim : PersistentVolumeClaim :=
  { name := "data", ns := "default", phase := .pending, storageClassName := some "ioi",
    selectedNode := none, storageProvisioner := none, requestedStorage := some 10 }

def dataProvisioner (_ : Volume) : ProvisionerAnswer := ⟨.ok dataClaim, .ok ioiProvisioner⟩

def dataAnswers : RequestAnswers :=
  { initProvisioner := dataProvisioner, boundProvisioner := dataProvisioner,
    totalProvisioner := dataProvisioner, restProvisioner := dataProvisioner,
    boundPVC := fun _ => .ok dataClaim, restPVC := fun _ => .ok dataClaim,
    deviceOrder := ["sda"], volumeOrder := ["v"] }

attribute [local instance] sampleParser

/-- The disk is mounted at `path`. -/
def mountedNode (path : String) : Resource :=
  addCacheNodeInfo "n" { sdaConfig with
    devices := Dict.mapVals (fun _ d => { d with mountPath := path }) sdaConfig.devices }
    ∅ (fun _ => 1000) "sda"

def dataRestart (path : String) : Restart :=
  { decode := fun _ => ∅
    pod := { sdaPod "a" with volumes := [⟨"v", some "data", false⟩] }
    ps := mountedNode path
    reserving := mountedNode path
    restarted := mountedNode path
    claims := ∅
    env := sdaEnv
    answers := dataAnswers
    mapping := { provisioner := dataProvisioner, getFail := none, writeFail := none }
    usage := { pvcs := .ok [], getFail := none }
    answers' := dataAnswers }

theorem mem_mountedNode {path : String} (h : dev ∈ (mountedNode path).info.disksStatus) :
    dev = "sda" := by
  obtain ⟨disk, hdisk⟩ := mem_iff.mp h
  simp only [mountedNode, addCacheNodeInfo, sdaConfig, Dict.lookup_mapVals,
    map_eq_some_iff] at hdisk
  obtain ⟨_, ⟨_, hdev, -⟩, -⟩ := hdisk
  exact (Dict.eq_of_lookup_singleton hdev).1

theorem dataRestart_steady (path : String) : (dataRestart path).Steady where
  volumes := ⟨nodup_singleton _, nodup_singleton _, by simp [dataRestart]⟩
  reservingNode := rfl
  restartedNode := rfl
  table := ⟨rfl, fun _ => rfl⟩
  total := rfl
  rest := rfl
  recorded := rfl
  init := rfl
  visits := ⟨nodup_singleton _, by simp [dataRestart, dataAnswers]⟩
  visits' := ⟨nodup_singleton _, by simp [dataRestart, dataAnswers]⟩
  devices := by
    intro dev hdev
    rw [mem_mountedNode hdev]
    decide

/-- The claim is bound, on `dev` by the claim map and on `sdb` by the ConfigMap. -/
def keptRestart (dev : String) : Restart :=
  { dataRestart "/mnt" with
    claims := Finmap.singleton "data.default" ⟨dev, 10, "n"⟩
    env := { sdaEnv with cms := Finmap.singleton "n" (Finmap.singleton "data.default" "sdb:/mnt") }
    answers := { dataAnswers with
      boundPVC := fun _ => .ok { dataClaim with phase := .bound, selectedNode := some "n" } } }

theorem keptRestart_steady (dev : String) : (keptRestart dev).Steady :=
  { dataRestart_steady "/mnt" with }

theorem keptRestart_keeps {d : String} (h : Keeps (keptRestart d).claims a ns key dev v) :
    key = "data.default" ∧ dev = d := by
  obtain ⟨i, hi, rfl⟩ := map_eq_some_iff.mp h.2.2
  obtain ⟨rfl, rfl⟩ := Dict.eq_of_lookup_singleton hi
  exact ⟨rfl, rfl⟩

theorem plainPaths_mnt {r : Restart} (h : r.reserving = mountedNode "/mnt") : r.PlainPaths := by
  intro requests pvcs _ key i disk _ _ hdisk
  rw [h] at hdisk
  have hpath : (((mountedNode "/mnt").info.disksStatus.lookup "sda").all fun d =>
      ':' ∉ d.mountPath.toList) = true := by decide +kernel
  rw [mem_mountedNode (mem_of_lookup_eq_some hdisk)] at hdisk
  rw [hdisk] at hpath
  simpa using hpath

def dataRequests (dev : String) : Requests := Finmap.singleton dev (parseBEIOAnnotations dev)

def dataPlacement : Dict String PVCInfo := Finmap.singleton "data.default" ⟨"sda", 10, false⟩

/-- The claim is mapped and recorded. -/
def dataEnv (path : String) : Env :=
  { sdaEnv with
    ctx := { sdaEnv.ctx with claimDevMap := Finmap.singleton "data.default" ⟨"sda", 10, "n"⟩ }
    cms := Finmap.singleton "n" (Finmap.singleton "data.default" ("sda:" ++ path)) }

def AlwaysRecovers [QuantityParser] : Prop := ∀ r : Restart, r.Steady → r.Recovers

/-- The restart has a best-effort request for a device that the cycle did not ask for. -/
theorem Restart.not_recovers {r : Restart} (requests : Requests) (pvcs : Dict String PVCInfo)
    (env' : Env) (claims' : Dict String StorageInfo) (dev : String)
    (hcycle : getRequestByAnnotation r.decode r.ps r.claims r.pod r.answers false =
      .done (.ok (requests, some pvcs)))
    (hmapping : volumeDeviceMapping .ignored r.reserving pvcs r.pod r.mapping r.env =
      .done (env', .ok ()))
    (husage : getDeviceUsage env'.cms r.restarted.nodeName r.usage = .ok claims')
    (hinit : getRequestByAnnotation r.decode r.restarted claims' r.pod r.answers' true =
      .done (.ok (dataRequests dev, none))) (hno : dev ∉ requests) : ¬ r.Recovers := by
  intro h
  obtain ⟨requests', hinit', hsame⟩ := h _ _ _ _ hcycle hmapping husage
  rw [hinit] at hinit'
  cases hinit'
  have hdev := hsame dev
  rw [lookup_eq_none.mpr hno, dataRequests, lookup_singleton_eq] at hdev
  cases hdev

/-- A mount path with a colon makes the device unreadable in the ConfigMap. -/
theorem not_alwaysRecovers : ¬ AlwaysRecovers := by
  intro h
  refine Restart.not_recovers (dataRequests "sda") dataPlacement (dataEnv "/mnt:a")
    (Finmap.singleton "data.default" ⟨"sda:/mnt:a", 0, "n"⟩) "sda:/mnt:a" ?_ ?_ ?_ ?_ ?_
    (h (dataRestart "/mnt:a") (dataRestart_steady _)) <;> decide +kernel

/-- The conditions on claims that keep their disks are needed as well. One that is recorded on another
disk is found there after the restart; one on a disk that is not in the device table asks for nothing
in the cycle. -/
theorem recovers_needs_kept :
    (∃ r : Restart, r.Steady ∧ r.Known ∧ r.PlainPaths ∧ ¬ r.Recovers) ∧
      ∃ r : Restart, r.Steady ∧ r.Recorded ∧ r.PlainPaths ∧ ¬ r.Recovers := by
  refine ⟨⟨keptRestart "sda", keptRestart_steady _, ?_, plainPaths_mnt rfl, ?_⟩,
    keptRestart "sdb", keptRestart_steady _, ?_, plainPaths_mnt rfl, ?_⟩
  · intro v _ key dev hk
    obtain ⟨-, rfl⟩ := keptRestart_keeps hk
    exact .inl (by decide +kernel)
  · refine Restart.not_recovers (dataRequests "sda")
      (Finmap.singleton "data.default" ⟨"sda", 10, true⟩) (keptRestart "sda").env
      (Finmap.singleton "data.default" ⟨"sdb", 0, "n"⟩) "sdb" ?_ ?_ ?_ ?_ ?_ <;> decide +kernel
  · intro v _ key dev hk
    obtain ⟨rfl, rfl⟩ := keptRestart_keeps hk
    decide +kernel
  · refine Restart.not_recovers ∅ (Finmap.singleton "data.default" ⟨"sdb", 10, true⟩)
      (keptRestart "sdb").env (Finmap.singleton "data.default" ⟨"sdb", 0, "n"⟩) "sdb" ?_ ?_ ?_ ?_ ?_
      <;> decide +kernel

theorem recovered_data :
    getRequestByAnnotation (dataRestart "/mnt").decode (dataRestart "/mnt").ps
        (dataRestart "/mnt").claims (dataRestart "/mnt").pod (dataRestart "/mnt").answers false =
      .done (.ok (dataRequests "sda", some dataPlacement)) ∧
    ∃ requests', getRequestByAnnotation (dataRestart "/mnt").decode (dataRestart "/mnt").restarted
        (Finmap.singleton "data.default" ⟨"sda", 0, "n"⟩) (dataRestart "/mnt").pod
        (dataRestart "/mnt").answers' true = .done (.ok (requests', none)) ∧
      SameRequests (dataRequests "sda") requests' := by
  have hcycle : getRequestByAnnotation (dataRestart "/mnt").decode (dataRestart "/mnt").ps
      (dataRestart "/mnt").claims (dataRestart "/mnt").pod (dataRestart "/mnt").answers false =
        .done (.ok (dataRequests "sda", some dataPlacement)) := by decide +kernel
  have hnone : ∀ key dev v, ¬ Keeps (dataRestart "/mnt").claims (dataRestart "/mnt").answers
      (dataRestart "/mnt").pod.ns key dev v := by
    rintro key dev v ⟨-, -, hdev⟩
    simp [dataRestart] at hdev
  exact ⟨hcycle, recovered (dataRestart "/mnt") (dataRestart_steady _)
    (fun v _ key dev h => absurd h (hnone key dev v)) (fun v _ key dev h => absurd h (hnone key dev v))
    (plainPaths_mnt rfl) _ _ (dataEnv "/mnt") _ hcycle (by decide +kernel) (by decide +kernel)⟩

end IOIsolation.Sched.BlockIo
