import IOIsolation.Sched.Pools
import IOIsolation.Sched.Context
import Mathlib.Data.List.AList

/-!
# Sched.NetworkIo

The network I/O handler. It keeps pools for every network card of a node but only ever charges
the master card.
-/

namespace IOIsolation.Sched.NetworkIo

open Lib

structure NICInfo extends Pools where
  defaultSpeed : ℚ
  deriving DecidableEq

def NICInfo.setPools (nic : NICInfo) (pools : Pools) : NICInfo := { nic with toPools := pools }

@[simp] theorem NICInfo.setPools_toPools (nic : NICInfo) (pools : Pools) :
    (nic.setPools pools).toPools = pools := rfl
@[simp] theorem NICInfo.setPools_setPools (nic : NICInfo) (p q : Pools) :
    (nic.setPools p).setPools q = nic.setPools q := rfl

/-- What every best-effort pod keeps on the card. -/
def NICInfo.beMin (nic : NICInfo) : IOPoolStatus :=
  { IOPoolStatus.zero with
    inBps := nic.defaultSpeed
    outBps := nic.defaultSpeed
    total := nic.defaultSpeed * 2 }

abbrev NICs : Type := Dict String NICInfo

structure NodeInfo where
  nicsStatus : NICs
  masterNic : String
  deriving DecidableEq

structure Resource where
  nodeName : String
  info : NodeInfo
  deriving DecidableEq

def Resource.setNics (ps : Resource) (nics : NICs) : Resource :=
  { ps with info := { ps.info with nicsStatus := nics } }

abbrev RequestInfo : Type := AList fun _ : String => IOResourceRequest

/-! ## Reservation and release -/

def noMasterNic (ps : Resource) : String :=
  s!"node {ps.nodeName} doesn't contain master nic info: {ps.info.masterNic}"

/-- `AddPod` for a request of network I/O type (`none` is any other type). -/
def addPod [Rounding] (ps : Resource) (rawRequest : Option RequestInfo) : Outcome
    (Resource × AddResult) :=
  match rawRequest with
  | none =>
    .done (ps, .mismatch "unable to convert state into NetworkIO's pod request format")
  | some request =>
    match ps.info.nicsStatus.lookup ps.info.masterNic with
    | none => .done (ps, .failed (noMasterNic ps))
    | some nic =>
      match request.lookup ps.info.masterNic with
      | none =>
        .done (ps, .failed (s!"networkIO: device {ps.info.masterNic}'s request not found in pod " ++
          "network io request"))
      | some ioreq => do
        let pools ← nic.toPools.charge ioreq
        return (ps.setNics (ps.info.nicsStatus.insert ps.info.masterNic (nic.setPools pools)),
          .added [ioreq])

/-- The loop of `RemovePod`: requests for other cards than the master are skipped. -/
def refundAll [Rounding] (masterNic : String) : List IOResourceRequest → Pools → Outcome Pools
  | [], pools => .done pools
  | v :: vs, pools =>
    if v.ioType ≠ .networkIo then refundAll masterNic vs pools
    else
      match v.workloadType with
      | .gaIndex | .beIndex => do
        let d ← Outcome.ofOption v.devRequest
        if masterNic = d.devName then
          let pools ← pools.refund v
          refundAll masterNic vs pools
        else refundAll masterNic vs pools
      | _ => refundAll masterNic vs pools

/-- `RemovePod` between its `Lock` and the deferred `Unlock`; `nic` is the master card. -/
def removeLocked [Rounding] (ps : Resource) (nic : NICInfo) (pod : Pod) (ctx : ResourceIOContext) :
    Outcome (Resource × Except String Unit) :=
  match ctx.getReservedPods ps.nodeName with
  | .error err => .done (ps, .error err)
  | .ok podreq =>
    match podreq.podList.lookup pod.uid with
    | none => .done (ps, .error s!"pod doesn't exist in reserved pod cache: {pod.name}")
    | some pl => do
      let pools ← refundAll ps.info.masterNic pl.request nic.toPools
      return (ps.setNics (ps.info.nicsStatus.insert ps.info.masterNic (nic.setPools pools)),
        .ok ())

def removePod [Rounding] (lm : LockModel) (ps : Resource) (pod : Pod) (ctx : ResourceIOContext)
    (held : Bool) : Outcome (Resource × Bool × Except String Unit) :=
  match ps.info.nicsStatus.lookup ps.info.masterNic with
  | none => .done (ps, held, .error (noMasterNic ps))
  | some nic => do
    let held ← lm.lock held
    let (ps, r) ← removeLocked ps nic pod ctx
    let held ← lm.unlock held
    return (ps, held, r)

/-! ## The handler's cache -/

/-- `CanAdmitPod` on the cards of a node: the loop over the requested cards. -/
def admitAll (nodeName : String) (nics : NICs) :
    List (Sigma fun _ : String => IOResourceRequest) → Outcome (Except String Unit)
  | [] => .done (.ok ())
  | ⟨dev, request⟩ :: rest =>
    match nics.lookup dev with
    | none =>
      .done (.error s!"device {dev} on Node {nodeName} is not registed: NetworkIOHandle")
    | some nic => do
      match ← admitDevice "NetworkIOHandle" nodeName nic.toPools nic.beMin request with
      | .error err => return .error err
      | .ok () => admitAll nodeName nics rest

def canAdmitPod (cache : Dict String Resource) (nodeName : String)
    (rawRequest : Option RequestInfo) : Outcome (Except String Unit) :=
  match rawRequest with
  | none =>
    .done (.error "unable to convert state into networkIO's pod request format")
  | some requests =>
    match cache.lookup nodeName with
    | none => .done (.error s!"node {nodeName} not registered in cache")
    | some r => admitAll nodeName r.info.nicsStatus requests.entries

/-- `InitNodeStatus` on the cards of a node, given its reserved pods. -/
def initNics (rc : ResourceConfigSpec) (pods : Dict String PodRequest) (nics : NICs) : NICs :=
  Dict.mapVals (fun dev nic =>
    match rc.devices.lookup dev with
    | some info => nic.setPools (initDevice .networkIo rc.bePool dev info pods nic.toPools)
    | none => nic) nics

/-- `InitNodeStatus`. Without a reserved-pod list the first configured and registered card
dereferences nil. -/
def initNodeStatus (ps : Resource) (ctx : ResourceIOContext) (rc : ResourceConfigSpec) :
    Outcome Resource :=
  match ctx.getReservedPods ps.nodeName with
  | .ok pl => .done (ps.setNics (initNics rc pl.podList ps.info.nicsStatus))
  | .error _ =>
    if Disjoint rc.devices.keys ps.info.nicsStatus.keys then .done ps else .panic

/-- `AddCacheNodeInfo`; `masterNic` is the default device the loop sees last. -/
def addCacheNodeInfo (nodeName : String) (rc : ResourceConfigSpec) (masterNic : String) :
    Resource :=
  { nodeName := nodeName
    info := {
      masterNic := masterNic
      nicsStatus := Dict.mapVals (fun _ info => {
        ga := .zero
        be := beShare rc.bePool info
        defaultSpeed := info.defaultIn }) rc.devices } }

/-- `UpdateCacheNodeStatus`: only the generation of the current list may overwrite the pools. -/
def updateCacheNodeStatus (ps : Resource) (ctx : ResourceIOContext) (st : NodeIOStatusStatus) :
    Resource :=
  match st.allocatableBandwidth.lookup .networkIo, ctx.getReservedPods ps.nodeName with
  | some bw, .ok v =>
    if bw ≠ ∅ ∧ st.observedGeneration = v.generation then
      ps.setNics (Dict.mapVals (fun dev nic =>
        nic.setPools (applyStatus bw dev nic.toPools)) ps.info.nicsStatus)
    else ps
  | _, _ => ps

/-! ## What the calls do -/

variable {ps ps' : Resource}

theorem addPod_some_cases {r : RequestInfo} {res : AddResult}
    (h : addPod ps (some r) = .done (ps', res)) :
    (∃ nic q, ps.info.nicsStatus.lookup ps.info.masterNic = some nic ∧
        r.lookup ps.info.masterNic = some q ∧ res = .added [q] ∧
        ps' = ps.setNics (ps.info.nicsStatus.insert ps.info.masterNic
          (nic.setPools (nic.toPools.take (demand q))))) ∨
      ps' = ps ∧ (∃ err, res = .failed err) ∧
        ¬ (ps.info.masterNic ∈ ps.info.nicsStatus ∧ ∃ q, r.lookup ps.info.masterNic = some q) := by
  unfold addPod at h
  cases hn : ps.info.nicsStatus.lookup ps.info.masterNic with
  | none =>
    simp only [hn] at h
    cases h
    exact .inr ⟨rfl, ⟨_, rfl⟩, fun h => Finmap.lookup_eq_none.mp hn h.1⟩
  | some nic =>
    cases hr : r.lookup ps.info.masterNic with
    | none =>
      simp only [hn, hr] at h
      cases h
      exact .inr ⟨rfl, ⟨_, rfl⟩, fun ⟨_, q, hq⟩ => by cases hq⟩
    | some q =>
      simp only [hn, hr, Outcome.bind_eq_done] at h
      obtain ⟨pools, hpools, h⟩ := h
      cases h
      exact .inl ⟨nic, q, rfl, rfl, rfl, by rw [charge_done hpools]⟩

theorem addPod_added {request : RequestInfo} {reqs : List IOResourceRequest}
    (h : addPod ps (some request) = .done (ps', .added reqs)) :
    ∃ nic r, ps.info.nicsStatus.lookup ps.info.masterNic = some nic ∧
      request.lookup ps.info.masterNic = some r ∧ reqs = [r] ∧
      ps' = ps.setNics (ps.info.nicsStatus.insert ps.info.masterNic
        (nic.setPools (nic.toPools.take (demand r)))) := by
  obtain ⟨nic, r, hnic, hr, hres, hps⟩ | ⟨-, ⟨err, hres⟩, -⟩ := addPod_some_cases h
  · cases hres
    exact ⟨nic, r, hnic, hr, rfl, hps⟩
  · cases hres

theorem refundAll_of_wellFormed {masterNic : String} {rs : List IOResourceRequest}
    (hwf : WellFormed .networkIo rs) {p : Pools}
    (hnum : (podDemand .networkIo masterNic rs).2.2 ≤ p.be.num) :
    refundAll masterNic rs p = .done (p.take (-podDemand .networkIo masterNic rs)) := by
  induction rs generalizing p with
  | nil => simp [refundAll]
  | cons v vs ih =>
    by_cases ht : v.ioType = .networkIo
    · have hsch := hwf.schedulable v List.mem_cons_self ht
      obtain ⟨d, hd, hw⟩ : ∃ d, v.devRequest = some d ∧
          (v.workloadType = .gaIndex ∨ v.workloadType = .beIndex) := by
        rcases hsch.cases with ⟨d, q, hw, hd, -⟩ | ⟨d, hw, hd⟩
        · exact ⟨d, hd, .inl hw⟩
        · exact ⟨d, hd, .inr hw⟩
      have hname : devName v = some d.devName := by simp [devName, hd]
      by_cases hm : masterNic = d.devName
      · subst hm
        have hrest := hwf.podDemand_tail ht hname
        have hself : podDemand .networkIo d.devName (v :: vs) = demand v := by
          rw [podDemand_cons, hrest, demandOn_self ht hname, add_zero]
        rw [hself] at hnum ⊢
        have hstep : refundAll d.devName (v :: vs) p =
            refundAll d.devName vs (p.take (-demand v)) := by
          have hpools := refund_of_schedulable hsch hnum
          rcases hw with hw | hw <;> simp [refundAll, ht, hw, hd, hpools]
        have hnum' : (podDemand .networkIo d.devName vs).2.2 ≤ (p.take (-demand v)).be.num := by
          rw [hrest]; simpa [Pools.take] using hnum
        rw [hstep, ih hwf.tail hnum', hrest]
        simp
      · have hzero : podDemand .networkIo masterNic (v :: vs) =
            podDemand .networkIo masterNic vs := by
          rw [podDemand_cons, demandOn_of_ne (by rw [hname]; simpa [eq_comm] using hm), zero_add]
        have hstep : refundAll masterNic (v :: vs) p = refundAll masterNic vs p := by
          rcases hw with hw | hw <;> simp [refundAll, ht, hw, hd, hm]
        rw [hzero] at hnum ⊢
        rw [hstep]
        exact ih hwf.tail hnum
    · have hzero : podDemand .networkIo masterNic (v :: vs) =
          podDemand .networkIo masterNic vs := by
        simp [podDemand_cons, demandOn, ht]
      rw [hzero] at hnum ⊢
      rw [refundAll, if_pos ht]
      exact ih hwf.tail hnum

/-- Removing a pod changes the master card only, by the refund of its entry in the list. -/
theorem removePod_cases {lm : LockModel} {pod : Pod} {ctx : ResourceIOContext} {held held' : Bool}
    {r : Except String Unit} (h : removePod lm ps pod ctx held = .done (ps', held', r)) :
    ((∃ err, r = .error err) ∧ ps' = ps ∧
        ∀ nic l, ps.info.nicsStatus.lookup ps.info.masterNic = some nic →
          ctx.reservedpod.lookup ps.nodeName = some l → pod.uid ∉ l.podList) ∨
      ∃ nic l e pools, ps.info.nicsStatus.lookup ps.info.masterNic = some nic ∧
        ctx.reservedpod.lookup ps.nodeName = some l ∧ l.podList.lookup pod.uid = some e ∧
        refundAll ps.info.masterNic e.request nic.toPools = .done pools ∧
        ps' = ps.setNics (ps.info.nicsStatus.insert ps.info.masterNic (nic.setPools pools)) := by
  unfold removePod at h
  cases hn : ps.info.nicsStatus.lookup ps.info.masterNic with
  | none =>
    simp only [hn] at h
    cases h
    exact .inl ⟨⟨_, rfl⟩, rfl, fun _ _ hn' => by cases hn'⟩
  | some nic =>
    simp only [hn, Outcome.bind_eq_done] at h
    obtain ⟨held1, -, ⟨ps1, r1⟩, hbody, held2, -, h⟩ := h
    cases h
    unfold removeLocked at hbody
    cases hl : ctx.getReservedPods ps.nodeName with
    | error err =>
      simp only [hl] at hbody
      cases hbody
      refine .inl ⟨⟨err, rfl⟩, rfl, fun _ l _ hl' => ?_⟩
      rw [ResourceIOContext.getReservedPods_ok.mpr hl'] at hl
      cases hl
    | ok l =>
      have hlist := ResourceIOContext.getReservedPods_ok.mp hl
      cases he : l.podList.lookup pod.uid with
      | none =>
        simp only [hl, he] at hbody
        cases hbody
        refine .inl ⟨⟨_, rfl⟩, rfl, fun _ l' _ hl' => ?_⟩
        obtain rfl := Option.mem_unique hlist hl'
        exact Finmap.lookup_eq_none.mp he
      | some e =>
        simp only [hl, he, Outcome.bind_eq_done] at hbody
        obtain ⟨pools, hpools, hbody⟩ := hbody
        cases hbody
        exact .inr ⟨nic, l, e, pools, rfl, hlist, he, hpools, rfl⟩

end IOIsolation.Sched.NetworkIo
