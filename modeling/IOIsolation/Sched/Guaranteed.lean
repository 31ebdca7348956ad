import IOIsolation.Sched.Admission
import IOIsolation.Sched.EventHandler

/-!
# Sched.Guaranteed

The guaranteed bandwidth of every device in the caches, seen as one table: by handler, node and
device. Each call of a handler is described by what it does to this table, whatever else it
changes.

* `handleAddPod_cached`     — a reservation takes the pod's demand from every device.
* `handleRemovePod_cached`  — a release gives the demand of the pod's entry back.
* `updateNodeIOStatus_cached` — a status update leaves a device alone or installs what it reports.
-/

namespace IOIsolation.Sched

open Lib Finmap Outcome Dict Option

abbrev Bandwidth : Type := ℚ × ℚ × ℚ

def IOPoolStatus.bandwidth (p : IOPoolStatus) : Bandwidth := (p.inBps, p.outBps, p.total)

/-- What a demand takes from the guaranteed pool. -/
def taken (d : Demand) : Bandwidth := (d.1, d.2.1, d.1 + d.2.1)

@[simp] theorem taken_zero : taken 0 = 0 := by simp [taken]

@[simp] theorem taken_add (a b : Demand) : taken (a + b) = taken a + taken b := by
  simp only [taken, Prod.fst_add, Prod.snd_add, Prod.mk_add_mk, Prod.mk.injEq, true_and]
  ring

@[simp] theorem taken_neg (a : Demand) : taken (-a) = -taken a := by
  simp only [taken, Prod.fst_neg, Prod.snd_neg, Prod.neg_mk, Prod.mk.injEq, true_and]
  ring

@[simp] theorem taken_sub (a b : Demand) : taken (a - b) = taken a - taken b := by
  rw [sub_eq_add_neg, taken_add, taken_neg, sub_eq_add_neg]

theorem take_bandwidth (p : Pools) (d : Demand) :
    (p.take d).ga.bandwidth = p.ga.bandwidth - taken d := rfl

variable {p p' : Pools} {b c' : Caches} {disks disks' : BlockIo.Disks} {nodeName : String}
  {env env' : BlockIo.Env} {ps ps' : BlockIo.Resource} {hs : List HandleKind} {order : List String}

theorem refund_bandwidth {r : IOResourceRequest} (h : p.refund r = .done p') :
    p'.ga.bandwidth = p.ga.bandwidth + taken (demand r) := by
  unfold Pools.refund at h
  unfold demand
  cases hw : r.workloadType with
  | gaIndex =>
    simp only [hw, bind_eq_done, ofOption_eq_done] at h
    obtain ⟨d, hd, q, hq, h⟩ := h
    cases h
    simp only [hd, hq]
    rfl
  | beIndex =>
    simp only [hw] at h
    cases h
    simp [IOPoolStatus.bandwidth, taken]
  | btIndex | groupIndex => simp only [hw] at h; cases h; simp

/-! ## The table -/

def HandleKind.ioType : HandleKind → IOType
  | blockIo => .diskIo
  | networkIo => .networkIo
  | rdt => .rdt
  | rdtQuantity => .rdtQuantity

def HandleKind.workloadIOType : HandleKind → WorkloadIOType
  | blockIo => .blockIo
  | networkIo => .networkIo
  | rdt => .rdt
  | rdtQuantity => .rdtQuantity

def BlockIo.bandwidthOf (disks : BlockIo.Disks) (dev : String) : Option Bandwidth :=
  (disks.lookup dev).map fun disk => disk.ga.bandwidth

def NetworkIo.bandwidthOf (nics : NetworkIo.NICs) (dev : String) : Option Bandwidth :=
  (nics.lookup dev).map fun nic => nic.ga.bandwidth

/-- The cached guaranteed bandwidth of a device; the handlers for RDT classes have none. -/
def cached (c : Caches) (h : HandleKind) (n dev : String) : Option Bandwidth :=
  match h with
  | .blockIo => (c.blockIo.lookup n).bind fun ps => BlockIo.bandwidthOf ps.info.disksStatus dev
  | .networkIo => (c.networkIo.lookup n).bind fun ps => NetworkIo.bandwidthOf ps.info.nicsStatus dev
  | .rdt => none
  | .rdtQuantity => none

/-- What no call changes of a node's disks: the name in the entry, and which disks there are. -/
def diskShape (c : Caches) (n : String) : Option (String × Finset String) :=
  (c.blockIo.lookup n).map fun ps => (ps.nodeName, ps.info.disksStatus.keys)

/-- What no call changes of a node's network cards. -/
def nicShape (c : Caches) (n : String) : Option (String × String × Finset String) :=
  (c.networkIo.lookup n).map fun ps => (ps.nodeName, ps.info.masterNic, ps.info.nicsStatus.keys)

def devices (c : Caches) (h : HandleKind) (n : String) : Finset String :=
  match h with
  | .blockIo => ((diskShape c n).map Prod.snd).getD ∅
  | .networkIo => ((nicShape c n).map fun x => x.2.2).getD ∅
  | .rdt => ∅
  | .rdtQuantity => ∅

variable {c : Caches} {h : HandleKind} {n : String} {rs reqs : List IOResourceRequest}
  {s s' : SchedState} {a : BlockIo.MappingAnswers} {lm : LockModel} {pod : Pod}
  {request : RawRequest} {r : Except String Unit} {client : Option BlockIo.RemoveAnswers}

theorem mem_devices {dev : String} {b : Bandwidth} (hc : cached c h n dev = some b) :
    dev ∈ devices c h n := by
  cases h with
  | blockIo =>
    obtain ⟨ps, hps, hb⟩ := bind_eq_some_iff.mp hc
    obtain ⟨disk, hd, -⟩ := map_eq_some_iff.mp hb
    simp [devices, diskShape, hps, mem_keys, mem_of_lookup_eq_some hd]
  | networkIo =>
    obtain ⟨ps, hps, hb⟩ := bind_eq_some_iff.mp hc
    obtain ⟨nic, hd, -⟩ := map_eq_some_iff.mp hb
    simp [devices, nicShape, hps, mem_keys, mem_of_lookup_eq_some hd]
  | rdt | rdtQuantity => cases hc

structure SameShape (c c' : Caches) : Prop where
  disk : ∀ n, diskShape c' n = diskShape c n
  nic : ∀ n, nicShape c' n = nicShape c n

theorem SameShape.devices (hs : SameShape c c') : devices c' h n = devices c h n := by
  cases h <;> simp [Sched.devices, hs.disk, hs.nic]

theorem SameShape.refl (c : Caches) : SameShape c c := ⟨fun _ => rfl, fun _ => rfl⟩

theorem SameShape.trans {a : Caches} (h₁ : SameShape a b) (h₂ : SameShape b c) : SameShape a c :=
  ⟨fun n => (h₂.disk n).trans (h₁.disk n), fun n => (h₂.nic n).trans (h₁.nic n)⟩

structure Named (c : Caches) : Prop where
  disk : ∀ n x, diskShape c n = some x → x.1 = n
  nic : ∀ n x, nicShape c n = some x → x.1 = n

theorem Named.of_sameShape (h : Named c) (hs : SameShape c c') : Named c' :=
  ⟨fun n x hx => h.disk n x (hs.disk n ▸ hx), fun n x hx => h.nic n x (hs.nic n ▸ hx)⟩

/-- The handlers can release the requests on node `n`: disks are registered, and network requests
are for the master card. -/
structure Releasable (c : Caches) (n : String) (rs : List IOResourceRequest) : Prop where
  disk : ∀ x, diskShape c n = some x → ∀ v ∈ rs, v.ioType = .diskIo →
    (∃ dev ∈ x.2, devName v = some dev) ∧ Chargeable v
  nic : ∀ x, nicShape c n = some x → ∀ v ∈ rs, v.ioType = .networkIo →
    devName v = some x.2.1 ∧ x.2.1 ∈ x.2.2 ∧ Schedulable v

theorem Releasable.of_sameShape (h : Releasable c n rs) (hs : SameShape c c') :
    Releasable c' n rs :=
  ⟨fun x hx => h.disk x (hs.disk n ▸ hx), fun x hx => h.nic x (hs.nic n ▸ hx)⟩

theorem Releasable.append {as bs : List IOResourceRequest} (ha : Releasable c n as)
    (hb : Releasable c n bs) : Releasable c n (as ++ bs) := by
  constructor
  · intro x hx v hv
    rcases List.mem_append.mp hv with hv | hv
    · exact ha.disk x hx v hv
    · exact hb.disk x hx v hv
  · intro x hx v hv
    rcases List.mem_append.mp hv with hv | hv
    · exact ha.nic x hx v hv
    · exact hb.nic x hx v hv

theorem releasable_nil (c : Caches) (n : String) : Releasable c n [] :=
  ⟨fun _ _ _ hv => absurd hv List.not_mem_nil, fun _ _ _ hv => absurd hv List.not_mem_nil⟩

/-! ## The loops -/

theorem BlockIo.bandwidthOf_takeAll (f : String → Demand) (disks : BlockIo.Disks) (dev : String) :
    bandwidthOf (takeAll f disks) dev = (bandwidthOf disks dev).map (· - taken (f dev)) := by
  unfold bandwidthOf
  rw [lookup_takeAll, map_map, map_map]
  rfl

theorem BlockIo.refundAll_bandwidth (h : refundAll nodeName rs disks = .done (disks', .ok ())) :
    disks'.keys = disks.keys ∧ ∀ dev, bandwidthOf disks' dev =
      (bandwidthOf disks dev).map (· + taken (podDemand .diskIo dev rs)) := by
  induction rs generalizing disks with
  | nil => cases h; simp
  | cons v vs ih =>
    unfold refundAll at h
    by_cases ht : v.ioType = .diskIo
    · rw [if_neg (not_not.mpr ht)] at h
      simp only [bind_eq_done, ofOption_eq_done] at h
      obtain ⟨d, hd, h⟩ := h
      have hname : devName v = some d.devName := by simp [devName, hd]
      cases hl : disks.lookup d.devName with
      | none => simp [hl] at h
      | some disk =>
        simp only [hl, bind_eq_done] at h
        obtain ⟨pools, hpools, h⟩ := h
        obtain ⟨hkeys, hband⟩ := ih h
        refine ⟨hkeys.trans (keys_insert_of_mem (mem_of_lookup_eq_some hl) _), ?_⟩
        intro dev
        rw [hband dev, podDemand_cons]
        unfold bandwidthOf
        rw [lookup_insert_ite]
        by_cases hdev : dev = d.devName
        · subst hdev
          rw [if_pos rfl, hl, demandOn_self ht hname]
          simp only [map_some, DiskInfo.setPools_toPools, taken_add, some.injEq]
          rw [refund_bandwidth hpools, add_assoc]
        · have hne : devName v ≠ some dev := by
            rw [hname]
            exact fun heq => hdev (some.inj heq).symm
          rw [if_neg hdev, demandOn_of_ne hne, zero_add]
    · rw [if_pos ht] at h
      obtain ⟨hkeys, hband⟩ := ih h
      refine ⟨hkeys, fun dev => ?_⟩
      rw [hband dev, podDemand_cons, demandOn, if_neg fun hc => ht hc.1, zero_add]

theorem NetworkIo.refundAll_bandwidth {masterNic : String} (h : refundAll masterNic rs p = .done p') :
    p'.ga.bandwidth = p.ga.bandwidth + taken (podDemand .networkIo masterNic rs) := by
  induction rs generalizing p with
  | nil => cases h; simp
  | cons v vs ih =>
    unfold refundAll at h
    by_cases ht : v.ioType = .networkIo
    · rw [if_neg (not_not.mpr ht)] at h
      -- the two workload types that are refunded
      have hrefund : (do
          let d ← ofOption v.devRequest
          if masterNic = d.devName then
            let pools ← p.refund v
            refundAll masterNic vs pools
          else refundAll masterNic vs p) = .done p' →
          p'.ga.bandwidth = p.ga.bandwidth + taken (podDemand .networkIo masterNic (v :: vs)) := by
        intro h
        simp only [bind_eq_done, ofOption_eq_done] at h
        obtain ⟨d, hd, h⟩ := h
        have hname : devName v = some d.devName := by simp [devName, hd]
        split_ifs at h with hm
        · simp only [bind_eq_done] at h
          obtain ⟨pools, hpools, h⟩ := h
          rw [ih h, refund_bandwidth hpools, podDemand_cons, demandOn_self ht (hm ▸ hname),
            taken_add, add_assoc]
        · rw [ih h, podDemand_cons, demandOn_of_ne, zero_add]
          rw [hname]
          exact fun heq => hm (some.inj heq).symm
      -- and the two that ask for nothing
      have hskip : demand v = 0 → refundAll masterNic vs p = .done p' →
          p'.ga.bandwidth = p.ga.bandwidth + taken (podDemand .networkIo masterNic (v :: vs)) := by
        intro hzero h
        rw [ih h, podDemand_cons]
        unfold demandOn
        rw [hzero, ite_self, zero_add]
      cases hw : v.workloadType with
      | gaIndex | beIndex => rw [hw] at h; exact hrefund h
      | btIndex | groupIndex => rw [hw] at h; exact hskip (by simp [demand, hw]) h
    · rw [if_pos ht] at h
      rw [ih h, podDemand_cons, demandOn, if_neg fun hc => ht hc.1, zero_add]

/-! ## What no call changes -/

theorem SameShape.insert_disks (hl : c.blockIo.lookup n = some ps) (hname : ps'.nodeName = ps.nodeName)
    (hkeys : ps'.info.disksStatus.keys = ps.info.disksStatus.keys) :
    SameShape c { c with blockIo := c.blockIo.insert n ps' } := by
  refine ⟨fun m => ?_, fun _ => rfl⟩
  simp only [diskShape, lookup_insert_ite]
  split_ifs with hm
  · rw [hm, hl, map_some, map_some, hname, hkeys]
  · rfl

theorem SameShape.insert_nics {ps ps' : NetworkIo.Resource} (hl : c.networkIo.lookup n = some ps)
    (hsame : ps'.nodeName = ps.nodeName ∧ ps'.info.masterNic = ps.info.masterNic ∧
      ps'.info.nicsStatus.keys = ps.info.nicsStatus.keys) :
    SameShape c { c with networkIo := c.networkIo.insert n ps' } := by
  refine ⟨fun _ => rfl, fun m => ?_⟩
  simp only [nicShape, lookup_insert_ite]
  split_ifs with hm
  · rw [hm, hl, map_some, map_some, hsame.1, hsame.2.1, hsame.2.2]
  · rfl

theorem cached_insert_disks (k : HandleKind) (m dev : String) :
    cached { c with blockIo := c.blockIo.insert n ps' } k m dev =
      if m = n ∧ k = .blockIo then BlockIo.bandwidthOf ps'.info.disksStatus dev
      else cached c k m dev := by
  cases k with
  | blockIo => by_cases hm : m = n <;> simp [cached, lookup_insert_ite, hm]
  | networkIo | rdt | rdtQuantity => simp [cached]

theorem cached_insert_nics {ps' : NetworkIo.Resource} (k : HandleKind) (m dev : String) :
    cached { c with networkIo := c.networkIo.insert n ps' } k m dev =
      if m = n ∧ k = .networkIo then NetworkIo.bandwidthOf ps'.info.nicsStatus dev
      else cached c k m dev := by
  cases k with
  | networkIo => by_cases hm : m = n <;> simp [cached, lookup_insert_ite, hm]
  | blockIo | rdt | rdtQuantity => simp [cached]

theorem BlockIo.addPod_frame {rawRequest : Option BlockIo.RequestInfo} {r : AddResult}
    (h : addPod lm ps pod rawRequest a env = .done (ps', env', r)) :
    ps'.nodeName = ps.nodeName ∧ ps'.info.disksStatus.keys = ps.info.disksStatus.keys ∧
      SameButClaims env.ctx env'.ctx := by
  cases rawRequest with
  | none =>
    cases h
    exact ⟨rfl, rfl, rfl⟩
  | some request =>
    simp only [addPod, bind_eq_done] at h
    obtain ⟨⟨disks, r1⟩, hcharge, h⟩ := h
    have hkeys : disks.keys = ps.info.disksStatus.keys := by
      rw [(chargeAll_done hcharge).1, takeAll, keys_mapVals]
    cases r1 with
    | error err =>
      cases h
      exact ⟨rfl, hkeys, rfl⟩
    | ok reqs =>
      split_ifs at h
      · cases h
        exact ⟨rfl, hkeys, rfl⟩
      simp only [bind_eq_done] at h
      obtain ⟨⟨env1, r2⟩, hmap, h⟩ := h
      have hctx := volumeDeviceMapping_frame hmap
      cases r2 <;> cases h <;> exact ⟨rfl, hkeys, hctx⟩

theorem NetworkIo.addPod_frame {ps ps' : NetworkIo.Resource}
    {rawRequest : Option NetworkIo.RequestInfo} {r : AddResult}
    (h : addPod ps rawRequest = .done (ps', r)) :
    ps'.nodeName = ps.nodeName ∧ ps'.info.masterNic = ps.info.masterNic ∧
      ps'.info.nicsStatus.keys = ps.info.nicsStatus.keys := by
  cases rawRequest with
  | none =>
    cases h
    exact ⟨rfl, rfl, rfl⟩
  | some request =>
    obtain ⟨nic, q, hnic, -, -, rfl⟩ | ⟨rfl, -⟩ := addPod_some_cases h
    · exact ⟨rfl, rfl, keys_insert_of_mem (mem_of_lookup_eq_some hnic) _⟩
    · exact ⟨rfl, rfl, rfl⟩

/-- What a call of a handler can change: its cache, and for the two I/O handlers parts of the
context. -/
inductive Writes (s : SchedState) : HandleKind → SchedState → Prop
  | nothing (h : HandleKind) : Writes s h s
  | blockIo (c : Dict String BlockIo.Resource) (env : BlockIo.Env)
      (hshape : SameShape s.caches { s.caches with blockIo := c })
      (hctx : BlockIo.SameButClaims s.env.ctx env.ctx) :
      Writes s .blockIo ⟨{ s.caches with blockIo := c }, env⟩
  | networkIo (c : Dict String NetworkIo.Resource) (held : Bool)
      (hshape : SameShape s.caches { s.caches with networkIo := c }) :
      Writes s .networkIo ⟨{ s.caches with networkIo := c }, { s.env with held := held }⟩
  | rdt (c : Dict String RDT.Resource) : Writes s .rdt { s with caches := { s.caches with rdt := c } }
  | rdtQuantity (c : Dict String RDTQuantity.Resource) :
      Writes s .rdtQuantity { s with caches := { s.caches with rdtQuantity := c } }

theorem Writes.frame (hw : Writes s h s') :
    SameShape s.caches s'.caches ∧ BlockIo.SameButClaims s.env.ctx s'.env.ctx := by
  cases hw with
  | nothing => exact ⟨.refl _, rfl⟩
  | blockIo c env hshape hctx => exact ⟨hshape, hctx⟩
  | networkIo c held hshape => exact ⟨hshape, rfl⟩
  | rdt | rdtQuantity => exact ⟨⟨fun _ => rfl, fun _ => rfl⟩, rfl⟩

theorem handleAddPod_writes {r : AddResult}
    (hadd : handleAddPod lm h pod n request a s = .done (s', r)) : Writes s h s' := by
  cases h with
  | blockIo =>
    rcases handleAddPod_blockIo hadd with ⟨-, rfl, -⟩ | ⟨ps, ps', env', hl, hcall, rfl⟩
    · exact .nothing _
    · obtain ⟨hname, hkeys, hctx⟩ := BlockIo.addPod_frame hcall
      exact .blockIo _ _ (.insert_disks hl hname hkeys) hctx
  | networkIo =>
    rcases handleAddPod_networkIo hadd with ⟨-, rfl, -⟩ | ⟨ps, ps', hl, hcall, rfl⟩
    · exact .nothing _
    · exact .networkIo _ s.env.held (.insert_nics hl (NetworkIo.addPod_frame hcall))
  | rdt =>
    rcases handleAddPod_rdt hadd with ⟨-, rfl, -⟩ | ⟨ps, -, -, rfl⟩
    · exact .nothing _
    · exact .rdt _
  | rdtQuantity =>
    rcases handleAddPod_rdtQuantity hadd with ⟨-, rfl, -⟩ | ⟨ps, ps', -, -, rfl⟩
    · exact .nothing _
    · exact .rdtQuantity _

theorem BlockIo.refundAll_keys (h : refundAll nodeName rs disks = .done (disks', r)) :
    disks'.keys = disks.keys := by
  induction rs generalizing disks with
  | nil => cases h; rfl
  | cons v vs ih =>
    unfold refundAll at h
    split_ifs at h
    · exact ih h
    simp only [bind_eq_done] at h
    obtain ⟨d, -, h⟩ := h
    cases hl : disks.lookup d.devName with
    | none => simp only [hl] at h; cases h; rfl
    | some disk =>
      simp only [hl, bind_eq_done] at h
      obtain ⟨pools, -, h⟩ := h
      exact (ih h).trans (keys_insert_of_mem (mem_of_lookup_eq_some hl) _)

theorem BlockIo.removePod_frame (h : removePod lm ps pod client env = .done (ps', env', r)) :
    ps'.nodeName = ps.nodeName ∧ ps'.info.disksStatus.keys = ps.info.disksStatus.keys ∧
      SameButClaims env.ctx env'.ctx := by
  obtain ⟨hframe, ⟨-, rfl, -⟩ | ⟨l, e, disks, -, -, hrefund, rfl⟩⟩ := removePod_cases h
  · exact ⟨rfl, rfl, hframe⟩
  · exact ⟨rfl, refundAll_keys hrefund, hframe⟩

theorem NetworkIo.removePod_frame {ps ps' : NetworkIo.Resource} {ctx : ResourceIOContext}
    {held held' : Bool} (h : removePod lm ps pod ctx held = .done (ps', held', r)) :
    ps'.nodeName = ps.nodeName ∧ ps'.info.masterNic = ps.info.masterNic ∧
      ps'.info.nicsStatus.keys = ps.info.nicsStatus.keys := by
  obtain ⟨-, rfl, -⟩ | ⟨nic, l, e, pools, hnic, -, -, -, rfl⟩ := removePod_cases h
  · exact ⟨rfl, rfl, rfl⟩
  · exact ⟨rfl, rfl, keys_insert_of_mem (mem_of_lookup_eq_some hnic) _⟩

theorem handleRemovePod_writes (hrem : handleRemovePod lm h pod n client order s = .done (s', r)) :
    Writes s h s' := by
  cases h with
  | blockIo =>
    rcases handleRemovePod_blockIo hrem with ⟨-, rfl, -⟩ | ⟨ps, ps', env', hl, hcall, rfl⟩
    · exact .nothing _
    · obtain ⟨hname, hkeys, hctx⟩ := BlockIo.removePod_frame hcall
      exact .blockIo _ _ (.insert_disks hl hname hkeys) hctx
  | networkIo =>
    rcases handleRemovePod_networkIo hrem with ⟨-, rfl, -⟩ | ⟨ps, ps', held', hl, hcall, rfl⟩
    · exact .nothing _
    · exact .networkIo _ _ (.insert_nics hl (NetworkIo.removePod_frame hcall))
  | rdt =>
    rcases (handleRemovePod_rdt hrem).2 with ⟨-, rfl⟩ | ⟨ps, -, rfl⟩
    · exact .nothing _
    · exact .rdt _
  | rdtQuantity =>
    rcases handleRemovePod_rdtQuantity hrem with ⟨-, rfl, -⟩ | ⟨ps, ps', -, -, rfl⟩
    · exact .nothing _
    · exact .rdtQuantity _

theorem removeLoop_frame (h : removeLoop lm pod n client order hs s = .done s') :
    SameShape s.caches s'.caches ∧ BlockIo.SameButClaims s.env.ctx s'.env.ctx := by
  induction hs generalizing s with
  | nil => cases h; exact ⟨.refl _, rfl⟩
  | cons k hs ih =>
    simp only [removeLoop, bind_eq_done] at h
    obtain ⟨⟨s1, r1⟩, hrem, h⟩ := h
    obtain ⟨hshape, hctx⟩ := (handleRemovePod_writes hrem).frame
    obtain ⟨hshape', hctx'⟩ := ih h
    exact ⟨hshape.trans hshape', hctx.trans hctx'⟩

/-! ## The calls -/

/-- The requests of a scheduling cycle, as `AdmitPod` of the handler builds them. -/
def RequestOk : HandleKind → RawRequest → Prop
  | .blockIo, .blockIo r => r.WellFormed
  | .networkIo, .networkIo r => ∀ e ∈ r.entries,
      e.2.ioType = .networkIo ∧ devName e.2 = some e.1 ∧ Schedulable e.2
  | .rdtQuantity, .rdtQuantity r => r.ioType = .rdtQuantity
  | _, _ => True

instance : ∀ h request, Decidable (RequestOk h request)
  | .blockIo, .blockIo r => inferInstanceAs (Decidable r.WellFormed)
  | .networkIo, .networkIo r => inferInstanceAs (Decidable (∀ e ∈ r.entries,
      e.2.ioType = .networkIo ∧ devName e.2 = some e.1 ∧ Schedulable e.2))
  | .rdtQuantity, .rdtQuantity r => inferInstanceAs (Decidable (r.ioType = .rdtQuantity))
  | .blockIo, .nil | .blockIo, .networkIo _ | .blockIo, .rdt _ | .blockIo, .rdtQuantity _
  | .networkIo, .nil | .networkIo, .blockIo _ | .networkIo, .rdt _ | .networkIo, .rdtQuantity _
  | .rdt, _ | .rdtQuantity, .nil | .rdtQuantity, .blockIo _ | .rdtQuantity, .networkIo _
  | .rdtQuantity, .rdt _ => isTrue trivial

/-- The request that the cycle has for the handler, if it has one, is well-formed. -/
def cycleOk (cyc : CycleData) (h : HandleKind) : Bool :=
  match cyc.stateData h with
  | .ok request => decide (RequestOk h request)
  | .error _ => true

theorem requestOk_of_cycleOk {cyc : CycleData} (hok : cycleOk cyc h = true)
    (hdata : cyc.stateData h = .ok request) : RequestOk h request := by
  rw [cycleOk, hdata] at hok
  exact of_decide_eq_true hok

/-- On node `n` the requests are taken from every device, and nothing else changes. -/
structure Reserves (n : String) (reqs : List IOResourceRequest) (s s' : SchedState) : Prop where
  cached : ∀ k m dev, cached s'.caches k m dev =
    if m = n then (cached s.caches k m dev).map (· - taken (podDemand k.ioType dev reqs))
    else cached s.caches k m dev
  shape : SameShape s.caches s'.caches
  ctx : BlockIo.SameButClaims s.env.ctx s'.env.ctx

theorem Reserves.of_own (htype : ∀ r ∈ reqs, r.ioType = h.ioType)
    (hframe : SameShape s.caches s'.caches ∧ BlockIo.SameButClaims s.env.ctx s'.env.ctx)
    (hown : ∀ k m dev, Sched.cached s'.caches k m dev = if m = n ∧ k = h then
        (Sched.cached s.caches k m dev).map (· - taken (podDemand k.ioType dev reqs))
      else Sched.cached s.caches k m dev) : Reserves n reqs s s' := by
  refine ⟨fun k m dev => ?_, hframe.1, hframe.2⟩
  rw [hown]
  by_cases hk : k = h
  · simp [hk]
  have hzero : podDemand k.ioType dev reqs = 0 := by
    refine podDemand_of_ioType_ne fun r hr hrt => ?_
    rw [htype r hr] at hrt
    cases k <;> cases h <;> first | exact hk rfl | cases hrt
  simp [hk, hzero]

theorem blockIo_addPod_cached (hreq : RequestOk .blockIo request)
    (h : handleAddPod lm .blockIo pod n request a s = .done (s', .added reqs)) :
    Reserves n reqs s s' ∧ Releasable s.caches n reqs := by
  rcases handleAddPod_blockIo h with ⟨-, -, hfailed⟩ | ⟨ps, ps', env', hl, hadd, rfl⟩
  · cases hfailed
  cases request with
  | blockIo r =>
    obtain ⟨rfl, hmem, rfl, hctx⟩ := BlockIo.addPod_added hadd
    have hwf : r.WellFormed := hreq
    have htype : ∀ x ∈ r.resourceRequest.entries.map (fun e => e.2.ioRequest),
        x.ioType = .diskIo := by
      intro x hx
      obtain ⟨e, he, rfl⟩ := List.mem_map.mp hx
      exact (hwf e he).1
    refine ⟨.of_own (h := .blockIo) htype (handleAddPod_writes h).frame fun k m dev => ?_, ?_, ?_⟩
    · rw [cached_insert_disks]
      split_ifs with hm
      · obtain ⟨rfl, rfl⟩ := hm
        simp only [cached, hl, bind_some, BlockIo.Resource.setDisks_disksStatus,
          BlockIo.bandwidthOf_takeAll, hwf.entriesDemand_eq]
        rfl
      · rfl
    · intro x hx v hv _
      obtain ⟨e, he, rfl⟩ := List.mem_map.mp hv
      rw [diskShape, hl, map_some, some.injEq] at hx
      subst hx
      exact ⟨⟨e.1, mem_keys.mpr (hmem e he), (hwf e he).2.1⟩, (hwf e he).2.2.chargeable⟩
    · intro x _ v hv ht
      rw [htype v hv] at ht
      cases ht
  | nil | networkIo | rdt | rdtQuantity => simp [RawRequest.asBlockIo, BlockIo.addPod] at hadd

theorem NetworkIo.bandwidthOf_insert {nics : NetworkIo.NICs} {master : String}
    {nic : NetworkIo.NICInfo} (hn : nics.lookup master = some nic) {pools : Pools} (b : Bandwidth)
    (hb : pools.ga.bandwidth = nic.ga.bandwidth + b) (dev : String) :
    bandwidthOf (nics.insert master (nic.setPools pools)) dev =
      (bandwidthOf nics dev).map (· + if dev = master then b else 0) := by
  unfold bandwidthOf
  by_cases hdev : dev = master
  · subst hdev
    simp [hn, hb]
  · simp [hdev, Function.comp_def]

theorem networkIo_addPod_cached (hreq : RequestOk .networkIo request)
    (h : handleAddPod lm .networkIo pod n request a s = .done (s', .added reqs)) :
    Reserves n reqs s s' ∧ Releasable s.caches n reqs := by
  rcases handleAddPod_networkIo h with ⟨-, -, hfailed⟩ | ⟨ps, ps', hl, hadd, rfl⟩
  · cases hfailed
  cases request with
  | networkIo r =>
    obtain ⟨nic, x, hnic, hx, rfl, rfl⟩ := NetworkIo.addPod_added hadd
    obtain ⟨hxt, hxd, hxs⟩ : x.ioType = .networkIo ∧ devName x = some ps.info.masterNic ∧
        Schedulable x := hreq _ (AList.mem_lookup_iff.mp hx)
    have htype : ∀ v ∈ [x], v.ioType = .networkIo := by
      intro v hv
      rw [List.mem_singleton.mp hv, hxt]
    have hmem := mem_of_lookup_eq_some hnic
    refine ⟨.of_own (h := .networkIo) htype (handleAddPod_writes h).frame fun k m dev => ?_, ?_, ?_⟩
    · rw [cached_insert_nics]
      split_ifs with hm
      · obtain ⟨rfl, rfl⟩ := hm
        have hdem : podDemand HandleKind.networkIo.ioType dev [x] =
            if dev = ps.info.masterNic then demand x else 0 := by
          rw [podDemand_cons, podDemand_nil, add_zero, demandOn, hxd]
          simp [HandleKind.ioType, hxt, eq_comm]
        simp only [cached, hl, bind_some, NetworkIo.Resource.setNics]
        rw [NetworkIo.bandwidthOf_insert hnic (-taken (demand x))
          (by rw [take_bandwidth, sub_eq_add_neg]), hdem]
        by_cases hdev : dev = ps.info.masterNic <;> simp [hdev, sub_eq_add_neg]
      · rfl
    · intro y _ v hv ht
      rw [htype v hv] at ht
      cases ht
    · intro y hy v hv _
      rw [nicShape, hl, map_some, some.injEq] at hy
      subst hy
      rw [List.mem_singleton.mp hv]
      exact ⟨hxd, mem_keys.mpr hmem, hxs⟩
  | nil | blockIo | rdt | rdtQuantity => simp [RawRequest.asNetworkIo, NetworkIo.addPod] at hadd

theorem reserves_of_no_device (htype : ∀ r ∈ reqs, r.ioType = h.ioType) (hb : h ≠ .blockIo)
    (hn : h ≠ .networkIo) (hblock : s'.caches.blockIo = s.caches.blockIo)
    (hnet : s'.caches.networkIo = s.caches.networkIo)
    (hframe : SameShape s.caches s'.caches ∧ BlockIo.SameButClaims s.env.ctx s'.env.ctx) :
    Reserves n reqs s s' ∧ Releasable s.caches n reqs := by
  refine ⟨.of_own (h := h) htype hframe fun k m dev => ?_, ?_, ?_⟩
  · split_ifs with hk
    · obtain ⟨-, rfl⟩ := hk
      cases k <;> first | exact absurd rfl hb | exact absurd rfl hn | rfl
    · cases k <;> simp only [cached, hblock, hnet]
  · intro x _ v hv ht
    rw [htype v hv] at ht
    cases h <;> first | exact absurd rfl hb | cases ht
  · intro x _ v hv ht
    rw [htype v hv] at ht
    cases h <;> first | exact absurd rfl hn | cases ht

/-- A handler that takes a well-formed request takes it from its devices, and can give it back. -/
theorem handleAddPod_cached (hreq : RequestOk h request)
    (hadd : handleAddPod lm h pod n request a s = .done (s', .added reqs)) :
    Reserves n reqs s s' ∧ Releasable s.caches n reqs := by
  cases h with
  | blockIo => exact blockIo_addPod_cached hreq hadd
  | networkIo => exact networkIo_addPod_cached hreq hadd
  | rdt =>
    rcases handleAddPod_rdt hadd with ⟨-, -, hfailed⟩ | ⟨ps, -, hadded, rfl⟩
    · cases hfailed
    cases hadded
    exact reserves_of_no_device (h := .rdt) (by simp [RDT.marker, HandleKind.ioType])
      (by decide) (by decide) rfl rfl (handleAddPod_writes hadd).frame
  | rdtQuantity =>
    rcases handleAddPod_rdtQuantity hadd with ⟨-, -, hfailed⟩ | ⟨ps, ps', -, hq, rfl⟩
    · cases hfailed
    cases request with
    | rdtQuantity r =>
      obtain rfl := RDTQuantity.addPod_added hq
      have hr : r.ioType = .rdtQuantity := hreq
      exact reserves_of_no_device (h := .rdtQuantity) (by simp [hr, HandleKind.ioType])
        (by decide) (by decide) rfl rfl (handleAddPod_writes hadd).frame
    | nil | blockIo | networkIo | rdt => simp [RawRequest.asRdtQuantity, RDTQuantity.addPod] at hq

/-! ## Reservation whatever its result -/

/-- `Reserve` over the handlers keeps nodes, devices and lists, and collects requests that can be
released again. -/
theorem reserveLoop_frame {cyc : CycleData} {r : Except String (List IOResourceRequest)}
    (hreq : ∀ h ∈ hs, ∀ request, cyc.stateData h = .ok request → RequestOk h request)
    (hrel : Releasable s.caches n reqs) (h : reserveLoop lm pod n cyc hs reqs s = .done (s', r)) :
    SameShape s.caches s'.caches ∧ BlockIo.SameButClaims s.env.ctx s'.env.ctx ∧
      ∀ reqs', r = .ok reqs' → Releasable s.caches n reqs' := by
  induction hs generalizing reqs s with
  | nil =>
    cases h
    exact ⟨.refl _, rfl, fun reqs' hr => by cases hr; exact hrel⟩
  | cons k hs ih =>
    unfold reserveLoop at h
    cases hdata : cyc.stateData k with
    | error err =>
      simp only [hdata] at h
      cases h
      exact ⟨.refl _, rfl, fun reqs' hr => by cases hr⟩
    | ok request =>
      simp only [hdata, bind_eq_done] at h
      obtain ⟨⟨s1, r1⟩, hadd, h⟩ := h
      obtain ⟨hshape, hctx⟩ := (handleAddPod_writes hadd).frame
      have hrest : ∀ h ∈ hs, ∀ request, cyc.stateData h = .ok request → RequestOk h request :=
        fun h hh => hreq h (List.mem_cons_of_mem _ hh)
      -- the rest of the loop starts from caches of the same shape
      have hgo : ∀ reqs₁, Releasable s.caches n reqs₁ →
          reserveLoop lm pod n cyc hs reqs₁ s1 = .done (s', r) →
          SameShape s.caches s'.caches ∧ BlockIo.SameButClaims s.env.ctx s'.env.ctx ∧
            ∀ reqs', r = .ok reqs' → Releasable s.caches n reqs' := by
        intro reqs₁ hrel₁ h
        obtain ⟨hshape', hctx', hres⟩ := ih hrest (hrel₁.of_sameShape hshape) h
        refine ⟨hshape.trans hshape', hctx.trans hctx', fun reqs' hr => ?_⟩
        exact (hres reqs' hr).of_sameShape ⟨fun m => (hshape.disk m).symm, fun m => (hshape.nic m).symm⟩
      cases r1 with
      | mismatch err =>
        cases h
        exact ⟨hshape, hctx, fun reqs' hr => by cases hr⟩
      | failed err =>
        split_ifs at h
        · cases h
          exact ⟨hshape, hctx, fun reqs' hr => by cases hr⟩
        · exact hgo reqs hrel h
      | added reqs' =>
        have hwf := hreq k List.mem_cons_self request hdata
        exact hgo (reqs ++ reqs') (hrel.append (handleAddPod_cached hwf hadd).2) h

/-! ## Release -/

/-- The handler `h` gives the requests back to its devices on node `n`, and nothing else
changes. -/
structure Releases (h : HandleKind) (n : String) (reqs : List IOResourceRequest)
    (s s' : SchedState) : Prop where
  cached : ∀ k m dev, cached s'.caches k m dev =
    if m = n ∧ k = h then (cached s.caches k m dev).map (· + taken (podDemand k.ioType dev reqs))
    else cached s.caches k m dev
  shape : SameShape s.caches s'.caches
  ctx : BlockIo.SameButClaims s.env.ctx s'.env.ctx

section release

variable {l : PodList}
  {e : PodRequest}

section

variable (hname : Named s.caches) (hl : s.env.ctx.reservedpod.lookup n = some l)
  (he : l.podList.lookup pod.uid = some e) (hrel : Releasable s.caches n e.request)
include hname hl he hrel

theorem blockIo_removePod_cached
    (h : handleRemovePod lm .blockIo pod n client order s = .done (s', r)) :
    Releases .blockIo n e.request s s' := by
  rcases handleRemovePod_blockIo h with ⟨hc, rfl, -⟩ | ⟨ps, ps', env', hc, hrem, rfl⟩
  · refine ⟨fun k m dev => ?_, .refl _, rfl⟩
    split_ifs with hk
    · obtain ⟨rfl, rfl⟩ := hk
      simp [cached, hc]
    · rfl
  have hps : ps.nodeName = n := hname.disk n _ (by rw [diskShape, hc, map_some])
  have hcan : ∀ v ∈ e.request, BlockIo.CanRefund ps.info.disksStatus v := by
    intro v hv ht
    obtain ⟨⟨dev, hdev, hd⟩, hch⟩ := hrel.disk _ (by rw [diskShape, hc, map_some]) v hv ht
    obtain ⟨d, hd', rfl⟩ := map_eq_some_iff.mp hd
    exact ⟨⟨d, hd', mem_keys.mp hdev⟩, hch⟩
  have hl' : s.env.ctx.reservedpod.lookup ps.nodeName = some l := hps ▸ hl
  obtain rfl := BlockIo.removePod_done hl' he hrem hcan
  obtain ⟨l', e', disks, hl'', he', hrefund, rfl, hctx⟩ := BlockIo.removePod_ok hrem
  obtain rfl := mem_unique hl' hl''
  obtain rfl := mem_unique he he'
  have hband := (BlockIo.refundAll_bandwidth hrefund).2
  refine ⟨fun k m dev => ?_, (handleRemovePod_writes h).frame.1, hctx⟩
  rw [cached_insert_disks]
  split_ifs with hm
  · obtain ⟨rfl, rfl⟩ := hm
    simp only [cached, hc, bind_some, BlockIo.Resource.setDisks_disksStatus, hband,
      HandleKind.ioType]
  · rfl

theorem networkIo_removePod_cached
    (h : handleRemovePod lm .networkIo pod n client order s = .done (s', r)) :
    Releases .networkIo n e.request s s' := by
  rcases handleRemovePod_networkIo h with ⟨hc, rfl, -⟩ | ⟨ps, ps', held', hc, hrem, rfl⟩
  · refine ⟨fun k m dev => ?_, .refl _, rfl⟩
    split_ifs with hk
    · obtain ⟨rfl, rfl⟩ := hk
      simp [cached, hc]
    · rfl
  have hps : ps.nodeName = n := hname.nic n _ (by rw [nicShape, hc, map_some])
  have hnet := hrel.nic _ (by rw [nicShape, hc, map_some])
  -- the pod asks for the master card only
  have hmaster : ∀ dev, dev ≠ ps.info.masterNic → podDemand .networkIo dev e.request = 0 := by
    intro dev hdev
    refine podDemand_eq_zero fun v hv ht hd => hdev ?_
    rw [(hnet v hv ht).1, some.injEq] at hd
    exact hd.symm
  cases hnic : ps.info.nicsStatus.lookup ps.info.masterNic with
  | none =>
    -- without a master card the pod has no network request
    have hnone : ∀ dev, podDemand .networkIo dev e.request = 0 := by
      intro dev
      refine podDemand_eq_zero fun v hv ht _ => ?_
      exact lookup_eq_none.mp hnic (mem_keys.mp (hnet v hv ht).2.1)
    obtain ⟨-, rfl, -⟩ | ⟨nic, _, _, _, hnic', -⟩ := NetworkIo.removePod_cases hrem
    · rw [insert_lookup hc]
      refine ⟨fun k m dev => ?_, .refl _, rfl⟩
      split_ifs with hk
      · obtain ⟨rfl, rfl⟩ := hk
        simp [hnone, HandleKind.ioType]
      · rfl
    · rw [hnic] at hnic'
      cases hnic'
  | some nic =>
    rw [← hps] at hl
    obtain ⟨-, -, habs⟩ | ⟨nic', l', e', pools, hnic', hl', he', hpools, rfl⟩ :=
      NetworkIo.removePod_cases hrem
    · exact absurd (mem_of_lookup_eq_some he) (habs nic l hnic hl)
    obtain rfl := mem_unique hnic hnic'
    obtain rfl := mem_unique hl hl'
    obtain rfl := mem_unique he he'
    refine ⟨fun k m dev => ?_, (handleRemovePod_writes h).frame.1, rfl⟩
    rw [cached_insert_nics]
    split_ifs with hm
    · obtain ⟨rfl, rfl⟩ := hm
      simp only [cached, hc, bind_some, NetworkIo.Resource.setNics, HandleKind.ioType,
        NetworkIo.bandwidthOf_insert hnic _ (NetworkIo.refundAll_bandwidth hpools)]
      by_cases hdev : dev = ps.info.masterNic
      · subst hdev
        rw [if_pos rfl]
      · rw [if_neg hdev, hmaster dev hdev, taken_zero]
    · rfl

theorem handleRemovePod_cached (hrem : handleRemovePod lm h pod n client order s = .done (s', r)) :
    Releases h n e.request s s' := by
  have hrdt : (h = .rdt ∨ h = .rdtQuantity) → s'.caches.blockIo = s.caches.blockIo →
      s'.caches.networkIo = s.caches.networkIo → s'.env = s.env →
      Releases h n e.request s s' := by
    intro hh hblock hnet henv
    refine ⟨fun k m dev => ?_, ⟨fun m => ?_, fun m => ?_⟩, henv ▸ rfl⟩
    · cases k with
      | blockIo => rcases hh with rfl | rfl <;> simp [cached, hblock]
      | networkIo => rcases hh with rfl | rfl <;> simp [cached, hnet]
      | rdt | rdtQuantity => simp [cached]
    · rw [diskShape, hblock, diskShape]
    · rw [nicShape, hnet, nicShape]
  cases h with
  | blockIo => exact blockIo_removePod_cached hname hl he hrel hrem
  | networkIo => exact networkIo_removePod_cached hname hl he hrel hrem
  | rdt =>
    rcases (handleRemovePod_rdt hrem).2 with ⟨-, rfl⟩ | ⟨ps, -, rfl⟩
    · exact hrdt (.inl rfl) rfl rfl rfl
    · exact hrdt (.inl rfl) rfl rfl rfl
  | rdtQuantity =>
    rcases handleRemovePod_rdtQuantity hrem with ⟨-, rfl, -⟩ | ⟨ps, ps', -, -, rfl⟩
    · exact hrdt (.inr rfl) rfl rfl rfl
    · exact hrdt (.inr rfl) rfl rfl rfl

end

/-- The loop over the handlers gives back what the reserved pod took from all their devices. -/
theorem removeLoop_cached (hnodup : hs.Nodup) (hname : Named s.caches)
    (hl : s.env.ctx.reservedpod.lookup n = some l) (he : l.podList.lookup pod.uid = some e)
    (hrel : Releasable s.caches n e.request)
    (h : removeLoop lm pod n client order hs s = .done s') :
    (∀ k m dev, cached s'.caches k m dev = if m = n ∧ k ∈ hs then
        (cached s.caches k m dev).map (· + taken (podDemand k.ioType dev e.request))
      else cached s.caches k m dev) ∧
      SameShape s.caches s'.caches ∧ BlockIo.SameButClaims s.env.ctx s'.env.ctx := by
  induction hs generalizing s with
  | nil =>
    cases h
    exact ⟨fun k m dev => by simp, .refl _, rfl⟩
  | cons k₀ hs ih =>
    simp only [removeLoop, bind_eq_done] at h
    obtain ⟨⟨s1, r1⟩, hrem, h⟩ := h
    obtain ⟨hnot, hnodup'⟩ := List.nodup_cons.mp hnodup
    have hone := handleRemovePod_cached hname hl he hrel hrem
    have hl1 : s1.env.ctx.reservedpod.lookup n = some l := by
      rw [hone.ctx.reservedpod]
      exact hl
    obtain ⟨hcached, hshape, hctx⟩ := ih hnodup' (hname.of_sameShape hone.shape) hl1
      (hrel.of_sameShape hone.shape) h
    refine ⟨fun k m dev => ?_, hone.shape.trans hshape, hone.ctx.trans hctx⟩
    rw [hcached, hone.cached]
    by_cases hm : m = n
    · by_cases hk : k = k₀
      · subst hk
        simp [hm, hnot]
      · simp [hm, hk]
    · simp [hm]

end release

/-! ## Status updates -/

/-- The guaranteed bandwidth a status reports for a device of handler `k`; a negative value is a
placeholder for none. -/
def reported (k : HandleKind) (st : NodeIOStatusStatus) (dev : String) : Option Bandwidth :=
  match st.allocatableBandwidth.lookup k.workloadIOType with
  | none => none
  | some bw =>
    if bw = ∅ then none else (calculateStatus bw dev).map fun pools => pools.1.bandwidth

/-- On node `n` every device keeps its bandwidth or gets the one the status reports. -/
structure Overwrites (n : String) (st : NodeIOStatusStatus) (c c' : Caches) : Prop where
  cached : ∀ k m dev, cached c' k m dev = cached c k m dev ∨
    m = n ∧ (cached c k m dev).isSome = true ∧ ∃ b, reported k st dev = some b ∧
      Sched.cached c' k m dev = some b
  shape : SameShape c c'

theorem Overwrites.refl (n : String) (st : NodeIOStatusStatus) (c : Caches) :
    Overwrites n st c c :=
  ⟨fun _ _ _ => .inl rfl, .refl c⟩

theorem Overwrites.trans {st : NodeIOStatusStatus} {a : Caches} (h₁ : Overwrites n st a b)
    (h₂ : Overwrites n st b c) : Overwrites n st a c := by
  refine ⟨fun k m dev => ?_, h₁.shape.trans h₂.shape⟩
  rcases h₂.cached k m dev with heq | ⟨hm, hsome, x, hx, hc⟩
  · rw [heq]
    exact h₁.cached k m dev
  refine .inr ⟨hm, ?_, x, hx, hc⟩
  rcases h₁.cached k m dev with heq | ⟨-, hsome', -⟩
  · rw [← heq]
    exact hsome
  · exact hsome'

/-- What the loop of `UpdateCacheNodeStatus` does to the devices of a handler, whatever the
handler keeps besides their pools. -/
theorem applyStatus_devices {V : Type} (get : V → Pools) (set : V → Pools → V)
    (hset : ∀ v p, get (set v p) = p) (bw : Dict String (Dict WorkloadQoSType IOStatus))
    (devices : Dict String V) (dev : String) :
    let view (d : Dict String V) := (d.lookup dev).map fun v => (get v).ga.bandwidth
    let devices' := mapVals (fun dev v => set v (applyStatus bw dev (get v))) devices
    view devices' = view devices ∨ (view devices).isSome = true ∧ ∃ b,
      (calculateStatus bw dev).map (fun pools => pools.1.bandwidth) = some b ∧
      view devices' = some b := by
  intro view devices'
  simp only [view, devices', lookup_mapVals, map_map]
  cases devices.lookup dev with
  | none => exact .inl rfl
  | some v =>
    simp only [map_some, Function.comp_apply, hset, applyStatus]
    cases calculateStatus bw dev with
    | none => exact .inl rfl
    | some pools => exact .inr ⟨rfl, _, rfl, rfl⟩

theorem BlockIo.updateCacheNodeStatus_cases (ps : BlockIo.Resource) (ctx : ResourceIOContext)
    (st : NodeIOStatusStatus) :
    updateCacheNodeStatus ps ctx st = ps ∨ ∃ bw, st.allocatableBandwidth.lookup .blockIo = some bw ∧
      bw ≠ ∅ ∧ updateCacheNodeStatus ps ctx st = ps.setDisks (mapVals (fun dev disk =>
        disk.setPools (applyStatus bw dev disk.toPools)) ps.info.disksStatus) := by
  unfold updateCacheNodeStatus
  split
  · rename_i bw v hbw _
    split_ifs with hc
    · exact .inr ⟨bw, hbw, hc.1, rfl⟩
    · exact .inl rfl
  · exact .inl rfl

theorem NetworkIo.updateCacheNodeStatus_cases (ps : NetworkIo.Resource) (ctx : ResourceIOContext)
    (st : NodeIOStatusStatus) :
    updateCacheNodeStatus ps ctx st = ps ∨ ∃ bw, st.allocatableBandwidth.lookup .networkIo = some bw ∧
      bw ≠ ∅ ∧ updateCacheNodeStatus ps ctx st = ps.setNics (mapVals (fun dev nic =>
        nic.setPools (applyStatus bw dev nic.toPools)) ps.info.nicsStatus) := by
  unfold updateCacheNodeStatus
  split
  · rename_i bw v hbw _
    split_ifs with hc
    · exact .inr ⟨bw, hbw, hc.1, rfl⟩
    · exact .inl rfl
  · exact .inl rfl

theorem applyStatus_overwrites (h : HandleKind) (n : String) (ctx : ResourceIOContext)
    (st : NodeIOStatusStatus) (order : List String) (c : Caches) :
    Overwrites n st c (c.applyStatus h n ctx st order) := by
  cases h with
  | blockIo =>
    simp only [Caches.applyStatus, adjust]
    split
    · rename_i ps hl
      obtain heq | ⟨bw, hbw, hne, heq⟩ := BlockIo.updateCacheNodeStatus_cases ps ctx st
      · rw [heq, insert_lookup hl]
        exact .refl n st c
      rw [heq]
      refine ⟨fun k m dev => ?_, .insert_disks hl rfl (keys_mapVals _ _)⟩
      rw [cached_insert_disks]
      split_ifs with hm
      · obtain ⟨rfl, rfl⟩ := hm
        simp only [cached, hl, bind_some, true_and, reported, HandleKind.workloadIOType, hbw,
          if_neg hne]
        exact applyStatus_devices BlockIo.DiskInfo.toPools BlockIo.DiskInfo.setPools
          (fun _ _ => rfl) bw _ dev
      · exact .inl rfl
    · exact .refl n st c
  | networkIo =>
    simp only [Caches.applyStatus, adjust]
    split
    · rename_i ps hl
      obtain heq | ⟨bw, hbw, hne, heq⟩ := NetworkIo.updateCacheNodeStatus_cases ps ctx st
      · rw [heq, insert_lookup hl]
        exact .refl n st c
      rw [heq]
      refine ⟨fun k m dev => ?_, .insert_nics hl ⟨rfl, rfl, keys_mapVals _ _⟩⟩
      rw [cached_insert_nics]
      split_ifs with hm
      · obtain ⟨rfl, rfl⟩ := hm
        simp only [cached, hl, bind_some, true_and, reported, HandleKind.workloadIOType, hbw,
          if_neg hne]
        exact applyStatus_devices NetworkIo.NICInfo.toPools NetworkIo.NICInfo.setPools
          (fun _ _ => rfl) bw _ dev
      · exact .inl rfl
    · exact .refl n st c
  | rdt | rdtQuantity =>
    exact ⟨fun k _ _ => by cases k <;> exact .inl rfl, fun _ => rfl, fun _ => rfl⟩

/-- The test of `UpdateNodeIOStatus`: the status changed its hash, kept its number of I/O types,
and is of the generation of the current list. -/
def StatusApplies (hash : NodeIOStatusStatus → Nat) (old new : NodeIOStatus)
    (ctx : ResourceIOContext) : Prop :=
  ∃ rp ∈ ctx.reservedpod.lookup new.spec.nodeName,
    hash old.status ≠ hash new.status ∧
    old.status.allocatableBandwidth.keys.card = new.status.allocatableBandwidth.keys.card ∧
    new.status.observedGeneration = rp.generation

instance (hash : NodeIOStatusStatus → Nat) (old new : NodeIOStatus) (ctx : ResourceIOContext) :
    Decidable (StatusApplies hash old new ctx) := by
  unfold StatusApplies; infer_instance

theorem updateNodeIOStatus_cached (hash : NodeIOStatusStatus → Nat) (handles : List HandleKind)
    (old new : NodeIOStatus) (order : List String) (s : SchedState) :
    let s' := updateNodeIOStatus hash handles old new order s
    s'.env = s.env ∧ (s' = s ∨ StatusApplies hash old new s.env.ctx ∧
      Overwrites new.spec.nodeName new.status s.caches s'.caches) := by
  intro s'
  simp only [s']
  unfold updateNodeIOStatus
  split
  · exact ⟨rfl, .inl rfl⟩
  rename_i rp hrp
  split_ifs with hc
  · refine ⟨rfl, .inr ⟨⟨rp, ResourceIOContext.getReservedPods_ok.mp hrp, hc⟩, ?_⟩⟩
    -- one handler after the other
    have hfold : ∀ (hs : List HandleKind) (c : Caches),
        Overwrites new.spec.nodeName new.status c (hs.foldl (fun c h =>
          c.applyStatus h new.spec.nodeName s.env.ctx new.status order) c) := by
      intro hs
      induction hs with
      | nil => exact fun c => .refl _ _ c
      | cons h hs ih =>
        intro c
        exact (applyStatus_overwrites h _ _ _ _ c).trans (ih _)
    exact hfold handles s.caches
  · exact ⟨rfl, .inl rfl⟩

end IOIsolation.Sched
