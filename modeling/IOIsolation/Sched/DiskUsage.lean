import IOIsolation.Sched.ClaimEvents
import IOIsolation.Sched.ClaimRecords

/-!
# Sched.DiskUsage

The used space of a disk against the volume claims the API server knows. The space of a claim is
counted when the event of the bound claim arrives and given back when the claim is lost or deleted; a
restart counts it again from the ConfigMaps and the list of claims.

* `boundUsage` — what should be counted: the requests of the bound claims mapped to the disk.
* `usage_exact` — the count is exact in every run whose events meet `Tracked`.
* `not_alwaysExact` — deleting a mapped claim that was never bound gives back space that nobody took.
-/

namespace IOIsolation.Sched

open Lib Finmap Dict Option

namespace BlockIo

/-! ## What should be counted -/

abbrev ApiClaims : Type := Dict String PersistentVolumeClaim

def boundStorage (api : ApiClaims) (key : String) : Int :=
  match api.lookup key with
  | some claim => if claim.phase = .bound then claim.requestedStorage.getD 0 else 0
  | none => 0

/-- What an entry of the claim map adds to a disk. -/
def boundShare (api : ApiClaims) (node dev key : String) (info : StorageInfo) : Int :=
  if info.nodeName = node ∧ info.devID = dev then boundStorage api key else 0

/-- The requests of the bound claims that are mapped to the disk. -/
def boundUsage (claims : Dict String StorageInfo) (api : ApiClaims) (node dev : String) : Int :=
  Dict.total (boundShare api node dev) claims

variable {api : ApiClaims}

theorem boundShare_of_zero {key : String} (h : boundStorage api key = 0) (node dev : String)
    (info : Option StorageInfo) : info.elim 0 (boundShare api node dev key) = 0 := by
  cases info with
  | none => rfl
  | some info => simp [boundShare, h]

theorem boundUsage_nonneg
    (h : ∀ key claim, api.lookup key = some claim → 0 ≤ claim.requestedStorage.getD 0)
    (claims : Dict String StorageInfo) (node dev : String) :
    0 ≤ boundUsage claims api node dev := by
  refine total_nonneg fun key info _ => ?_
  have hbound : 0 ≤ boundStorage api key := by
    unfold boundStorage
    cases hl : api.lookup key with
    | none => exact le_rfl
    | some claim =>
      dsimp only
      split_ifs
      · exact h key claim hl
      · exact le_rfl
  unfold boundShare
  split_ifs
  · exact hbound
  · exact le_rfl

/-- Every disk counts what the bound claims mapped to it ask for. -/
def Exact (cache : Dict String Resource) (claims : Dict String StorageInfo) (api : ApiClaims) : Prop :=
  ∀ node dev disk, diskOf cache node dev = some disk →
    disk.requestedDiskSpace = boundUsage claims api node dev

variable {claims claims' : Dict String StorageInfo}

theorem boundUsage_places {pvcs : Dict String PVCInfo} {n : String}
    (h : Places pvcs n claims claims')
    (hfresh : ∀ key i, pvcs.lookup key = some i → i.reuse = false → boundStorage api key = 0)
    (node dev : String) : boundUsage claims' api node dev = boundUsage claims api node dev := by
  refine total_eq_of_amounts fun key => ?_
  rcases h key with h | ⟨info, -, i, hi, hre, -⟩
  · rw [h]
  · have hzero := hfresh key i hi hre
    rw [boundShare_of_zero hzero, boundShare_of_zero hzero]

theorem boundUsage_update {api' : ApiClaims} (key : String)
    (hclaims : ∀ k, k ≠ key → claims'.lookup k = claims.lookup k)
    (hapi : ∀ k, k ≠ key → api'.lookup k = api.lookup k) (node dev : String) :
    boundUsage claims' api' node dev = boundUsage claims api node dev +
      ((claims'.lookup key).elim 0 (boundShare api' node dev key) -
        (claims.lookup key).elim 0 (boundShare api node dev key)) := by
  refine total_update key fun k hk => ?_
  have hstorage : boundStorage api' k = boundStorage api k := by
    rw [boundStorage, boundStorage, hapi k hk]
  rw [hclaims k hk]
  cases claims.lookup k with
  | none => rfl
  | some info => simp only [elim_some, boundShare, hstorage]

/-! ## The list of claims -/

def WellKeyed (api : ApiClaims) : Prop :=
  ∀ key claim, api.lookup key = some claim → claimKey claim.name claim.ns = key

theorem WellKeyed.insert (h : WellKeyed api) (claim : PersistentVolumeClaim) :
    WellKeyed (api.insert (claimKey claim.name claim.ns) claim) := by
  intro key c hc
  rw [lookup_insert_ite] at hc
  split_ifs at hc with hkey
  · cases hc
    exact hkey.symm
  · exact h key c hc

def countedRequest (node : String) (claim : PersistentVolumeClaim) : Option Int :=
  if claim.selectedNode = some node ∧ claim.phase = .bound ∧
      claim.storageProvisioner = some ioiProvisioner then claim.requestedStorage
  else none

/-- The list of all claims, in the order of their keys in `order`. -/
def listClaims (api : ApiClaims) (order : List String) : List PersistentVolumeClaim :=
  order.filterMap api.lookup

theorem lookup_foldl_claims (hkeyed : WellKeyed api) (count : PersistentVolumeClaim → Option Int)
    {f : Dict String Int → PersistentVolumeClaim → Dict String Int}
    (hf : ∀ m claim x, (f m claim).lookup x =
      if x = claimKey claim.name claim.ns then (count claim).or (m.lookup x) else m.lookup x)
    (key : String) (order : List String) (start : Dict String Int) :
    ((listClaims api order).foldl f start).lookup key =
      (if key ∈ order then (api.lookup key).bind count else none).or (start.lookup key) := by
  induction order generalizing start with
  | nil => simp [listClaims]
  | cons k ks ih =>
    cases hk : api.lookup k with
    | none =>
      have hskip : listClaims api (k :: ks) = listClaims api ks := by simp [listClaims, hk]
      rw [hskip, ih start]
      by_cases hkey : key = k
      · subst hkey
        simp [hk]
      · simp [hkey]
    | some claim =>
      have hcons : listClaims api (k :: ks) = claim :: listClaims api ks := by simp [listClaims, hk]
      rw [hcons, List.foldl_cons, ih, hf, hkeyed k claim hk]
      by_cases hkey : key = k
      · subst hkey
        simp only [hk, bind_some, List.mem_cons, true_or, if_true]
        cases count claim <;> split_ifs <;> simp
      · simp [hkey]

theorem lookup_storageRequests (hkeyed : WellKeyed api) {node : String} {order : List String}
    (horder : ∀ key ∈ api, key ∈ order) {requests : Dict String Int}
    (h : getBoundPVCsStorageRequest node (.ok (listClaims api order)) = .ok requests) (key : String) :
    requests.lookup key = (api.lookup key).bind (countedRequest node) := by
  unfold getBoundPVCsStorageRequest at h
  split_ifs at h with hnode
  rw [Except.ok.injEq] at h
  rw [← h]
  refine (lookup_foldl_claims hkeyed (countedRequest node) (fun m claim x => ?_) key order ∅).trans ?_
  · unfold countedRequest
    split_ifs with hcond hx hx
    · cases claim.requestedStorage <;> simp [lookup_insert_ite, hx]
    · cases claim.requestedStorage <;> simp [hx]
    · simp
    · rfl
  · rw [lookup_empty, or_none]
    split_ifs with hmem
    · rfl
    · rw [lookup_eq_none.mpr fun hin => hmem (horder key hin), bind_none]

/-! ## A restart -/

/-- What a restarted scheduler reads for one node: its configuration, the parsed disk sizes, the order
of the loop over the devices, and the answer to the ConfigMap call. -/
structure NodeRestart where
  name : String
  config : ResourceConfigSpec
  size : String → Int
  order : List String
  getFail : Option String

/-- `AddCacheNodeInfo` for a node that a restarted scheduler finds; a failing one leaves the node out
of the cache. -/
def restartNode [QuantityParser] (items : List PersistentVolumeClaim) (s : Dict String Resource × Env)
    (n : NodeRestart) : Dict String Resource × Env :=
  match buildNode n.name n.config n.size n.order ⟨.ok items, n.getFail⟩ s.2 with
  | .ok (ps, env) => (s.1.insert n.name ps, env)
  | .error _ => s

def restart [QuantityParser] (items : List PersistentVolumeClaim) (nodes : List NodeRestart) (env : Env) :
    Dict String Resource × Env :=
  nodes.foldl (restartNode items)
    (∅, { env with ctx := { env.ctx with claimDevMap := ∅ } })

/-- Every bound claim in the ConfigMap of a node was bound there by the provisioner, for a stated
amount of storage. -/
def RecordsBound (cms : ConfigMaps) (api : ApiClaims) : Prop :=
  ∀ node key claim, (recordedText cms node key).isSome → key ≠ deviceInUse →
    api.lookup key = some claim → claim.phase = .bound →
    claim.selectedNode = some node ∧ claim.storageProvisioner = some ioiProvisioner ∧
      claim.requestedStorage.isSome

section Restart

variable {cms : ConfigMaps} {order : List String} {node : String}

/-- What holds while the nodes are built one after the other: an entry of the claim map is that of
the ConfigMap of its node, and a node in the cache has all claims of its ConfigMap in the map and
counts those that are bound. -/
structure Rebuilt (cms : ConfigMaps) (api : ApiClaims) (s : Dict String Resource × Env) : Prop where
  cms_eq : s.2.cms = cms
  named : Named s.1
  entries : ∀ key info, s.2.ctx.claimDevMap.lookup key = some info →
    key ≠ deviceInUse ∧ (recordedText cms info.nodeName key).map deviceOf = some info.devID
  mapped : ∀ node ps key, s.1.lookup node = some ps → key ≠ deviceInUse →
    (recordedText cms node key).isSome → key ∈ s.2.ctx.claimDevMap
  counted : ∀ node dev disk, diskOf s.1 node dev = some disk → ∃ claims : Dict String StorageInfo,
    disk.requestedDiskSpace = usedSpace claims node dev ∧
    ∀ key, (claims.lookup key).elim 0 (fun info =>
        if info.nodeName = node ∧ info.devID = dev then info.requestedStorage else 0) =
      if key ≠ deviceInUse ∧ (recordedText cms node key).map deviceOf = some dev then
        boundStorage api key
      else 0

variable {s : Dict String Resource × Env}

theorem getDeviceUsage_amount (hkeyed : WellKeyed api) (horder : ∀ key ∈ api, key ∈ order)
    (hrec : RecordsBound cms api) {getFail : Option String}
    (h : getDeviceUsage cms node ⟨.ok (listClaims api order), getFail⟩ = .ok claims)
    (dev key : String) :
    (claims.lookup key).elim 0 (fun info =>
        if info.nodeName = node ∧ info.devID = dev then info.requestedStorage else 0) =
      if key ≠ deviceInUse ∧ (recordedText cms node key).map deviceOf = some dev then
        boundStorage api key
      else 0 := by
  obtain ⟨requests, hreq, hlookup⟩ := getDeviceUsage_lookup h
  rw [hlookup]
  cases htext : recordedText cms node key with
  | none => simp
  | some raw =>
    by_cases hkey : key = deviceInUse
    · simp [hkey]
    have hcount : (requests.lookup key).getD 0 = boundStorage api key := by
      rw [lookup_storageRequests hkeyed horder hreq]
      unfold boundStorage
      cases hc : api.lookup key with
      | none => rfl
      | some claim =>
        simp only [bind_some, countedRequest]
        by_cases hbound : claim.phase = .bound
        · obtain ⟨hsel, hprov, -⟩ := hrec node key claim (by rw [htext]; rfl) hkey hc hbound
          rw [if_pos ⟨hsel, hbound, hprov⟩, if_pos hbound]
        · rw [if_neg fun h => hbound h.2.1, if_neg hbound]
          rfl
    simp [hkey, hcount]

theorem getDeviceUsage_node {a : UsageAnswers} (h : getDeviceUsage cms node a = .ok claims)
    {key : String} {info : StorageInfo} (hinfo : claims.lookup key = some info) :
    key ≠ deviceInUse ∧ info.nodeName = node := by
  obtain ⟨requests, -, hlookup⟩ := getDeviceUsage_lookup h
  rw [hlookup] at hinfo
  split_ifs at hinfo with hkey
  obtain ⟨raw, -, rfl⟩ := map_eq_some_iff.mp hinfo
  exact ⟨hkey, rfl⟩

theorem restartNode_rebuilt [QuantityParser] (hkeyed : WellKeyed api) (horder : ∀ key ∈ api, key ∈ order)
    (hrec : RecordsBound cms api) (hs : Rebuilt cms api s) (n : NodeRestart) :
    Rebuilt cms api (restartNode (listClaims api order) s n) := by
  unfold restartNode
  cases hbuild : buildNode n.name n.config n.size n.order
      ⟨.ok (listClaims api order), n.getFail⟩ s.2 with
  | error err => exact hs
  | ok p =>
    unfold buildNode at hbuild
    rw [hs.cms_eq] at hbuild
    cases husage : getDeviceUsage cms n.name ⟨.ok (listClaims api order), n.getFail⟩ with
    | error err => simp [husage] at hbuild
    | ok claims =>
      simp only [husage, Except.ok.injEq] at hbuild
      obtain ⟨rfl, rfl⟩ := hbuild
      refine ⟨rfl, hs.named.insert rfl, ?_, ?_, ?_⟩
      · intro key info hinfo
        rw [lookup_union_ite] at hinfo
        split_ifs at hinfo with hmem
        · obtain ⟨hkey, hnode⟩ := getDeviceUsage_node husage hinfo
          have hdev := getDeviceUsage_device husage hkey
          rw [hinfo, map_some] at hdev
          rw [hnode]
          exact ⟨hkey, hdev.symm⟩
        · exact hs.entries key info hinfo
      · intro node ps' key hps' hkey htext
        rw [mem_union]
        rw [lookup_insert_ite] at hps'
        split_ifs at hps' with hnode
        · have hdev := getDeviceUsage_device husage hkey
          rw [hnode] at htext
          obtain ⟨raw, hraw⟩ := isSome_iff_exists.mp htext
          rw [hraw, map_some] at hdev
          obtain ⟨info, hinfo, -⟩ := map_eq_some_iff.mp hdev
          exact .inl (mem_of_lookup_eq_some hinfo)
        · exact .inr (hs.mapped node ps' key hps' hkey htext)
      · intro node dev disk hdisk
        rw [diskOf_insert] at hdisk
        split_ifs at hdisk with hnode
        · refine ⟨claims, ?_, fun key => ?_⟩
          · rw [addCacheNodeInfo, lookup_mapVals] at hdisk
            obtain ⟨info, hinfo, rfl⟩ := map_eq_some_iff.mp hdisk
            rw [hnode]
            simp [lookup_mapVals, hinfo]
          · rw [hnode]
            exact getDeviceUsage_amount hkeyed horder hrec husage dev key
        · exact hs.counted node dev disk hdisk

theorem restart_rebuilt [QuantityParser] (hkeyed : WellKeyed api)
    (horder : ∀ key ∈ api, key ∈ order) {env : Env}
    (hrec : RecordsBound env.cms api) (nodes : List NodeRestart) :
    Rebuilt env.cms api (restart (listClaims api order) nodes env) := by
  have hloop : ∀ (nodes : List NodeRestart) (s : Dict String Resource × Env),
      Rebuilt env.cms api s →
      Rebuilt env.cms api (nodes.foldl (restartNode (listClaims api order)) s) := by
    intro nodes
    induction nodes with
    | nil => exact fun s hs => hs
    | cons n nodes ih => exact fun s hs => ih _ (restartNode_rebuilt hkeyed horder hrec hs n)
  refine hloop nodes _ ⟨rfl, ?_, ?_, ?_, ?_⟩
  · intro node ps hps
    cases hps
  · intro key info hinfo
    cases hinfo
  · intro node ps key hps
    cases hps
  · intro node dev disk hdisk
    cases hdisk

theorem Rebuilt.exact (h : Rebuilt cms api s) (hrec : RecordsBound cms api) :
    Exact s.1 s.2.ctx.claimDevMap api := by
  intro node dev disk hdisk
  obtain ⟨claims, hcount, hamounts⟩ := h.counted node dev disk hdisk
  obtain ⟨ps, hps, -⟩ := bind_eq_some_iff.mp hdisk
  rw [hcount]
  refine total_eq_of_amounts fun key => ?_
  rw [hamounts key]
  by_cases hzero : boundStorage api key = 0
  · rw [boundShare_of_zero hzero, hzero, ite_self]
  -- a bound claim is in the ConfigMap of one node only
  obtain ⟨claim, hclaim, hbound⟩ : ∃ claim, api.lookup key = some claim ∧ claim.phase = .bound := by
    unfold boundStorage at hzero
    cases hc : api.lookup key with
    | none => simp [hc] at hzero
    | some claim =>
      refine ⟨claim, rfl, ?_⟩
      by_contra hne
      simp [hc, hne] at hzero
  cases hl : s.2.ctx.claimDevMap.lookup key with
  | none =>
    rw [elim_none, if_neg]
    rintro ⟨hkey, htext⟩
    refine lookup_eq_none.mp hl (h.mapped node ps key hps hkey ?_)
    rw [← isSome_map, htext]
    rfl
  | some info =>
    obtain ⟨hkey, htext⟩ := h.entries key info hl
    have honly : ∀ m, (recordedText cms m key).isSome → claim.selectedNode = some m :=
      fun m hm => (hrec m key claim hm hkey hclaim hbound).1
    have hinfo := honly info.nodeName (by rw [← isSome_map, htext]; rfl)
    rw [elim_some, boundShare]
    by_cases hnode : info.nodeName = node
    · rw [← hnode, htext]
      simp [hkey]
    have hnot : ¬ (key ≠ deviceInUse ∧ (recordedText cms node key).map deviceOf = some dev) := by
      rintro ⟨-, hdev⟩
      have hother := honly node (by rw [← isSome_map, hdev]; rfl)
      rw [hinfo, some.injEq] at hother
      exact hnode hother
    rw [if_neg hnot, if_neg fun hc => hnode hc.1]

end Restart

end BlockIo

/-! ## Runs -/

namespace DiskUsage

open BlockIo

structure State where
  sched : SchedState
  api : ApiClaims

inductive Event where
  | reserve (node : String) (pod : Pod) (request : RequestInfo) (a : MappingAnswers)
  | create (claim : PersistentVolumeClaim)
  | phase (new : PersistentVolumeClaim) (a : ClaimAnswers)
  | delete (key : String) (a : ClaimAnswers)
  | restart (nodes : List NodeRestart) (order : List String)

/-- The `AddPod` of a pod, an event of a claim that the API server sees and the scheduler handles, or
a restart. Claims are created unbound, become bound and may be lost then. -/
def step [QuantityParser] (handles : List HandleKind) (s : State) : Event → Option State
  | .reserve node pod request a => do
    let (sched, _) ← (handleAddPod .ignored .blockIo pod node (.blockIo request) a s.sched).toOption
    return { s with sched := sched }
  | .create claim =>
    let key := claimKey claim.name claim.ns
    if key ∈ s.api ∨ claim.phase = .bound then none
    else some { s with api := s.api.insert key claim }
  | .phase new a => do
    let key := claimKey new.name new.ns
    let old ← s.api.lookup key
    if old.phase ≠ .bound ∧ new.phase = .bound ∨ old.phase = .bound ∧ new.phase = .lost then
      let sched ← (onUpdatePVC .ignored handles (some old) (some new) a s.sched).toOption
      return { sched := sched, api := s.api.insert key new }
    else none
  | .delete key a => do
    let claim ← s.api.lookup key
    let sched ← (deletePVC .ignored handles (some claim) a s.sched).toOption
    return { sched := sched, api := s.api.erase key }
  | .restart nodes order =>
    let (cache, env) := BlockIo.restart (listClaims s.api order) nodes s.sched.env
    some { s with sched := { caches := { s.sched.caches with blockIo := cache }, env := env } }

def Counts (s : State) : Prop :=
  Exact s.sched.caches.blockIo s.sched.env.ctx.claimDevMap s.api

structure Start (s : State) : Prop where
  named : BlockIo.Named s.sched.caches.blockIo
  keyed : WellKeyed s.api

/-- The event of the claim finds the disk of the claim map: the claim names the node, the provisioner
and an amount of storage, and the ConfigMap of the node can be read and has the disk. -/
def Readable (env : Env) (a : ClaimAnswers) (claim : PersistentVolumeClaim) (info : StorageInfo) :
    Prop :=
  claim.selectedNode = some info.nodeName ∧ claim.storageProvisioner = some ioiProvisioner ∧
    (∃ q, claim.requestedStorage = some q ∧ 0 ≤ q) ∧ info.devID ≠ "" ∧
    ∃ data text path, getVolumeDeviceMap env.cms info.nodeName a.getFail = .found data ∧
      data.lookup (claimKey claim.name claim.ns) = some text ∧ text.splitOn ":" = [info.devID, path]

/-- What the events need: `AddPod` maps no bound claim, the events of mapped claims find their disks, a
lost claim still asks for what it was bound with, the map remembers of a deleted claim what was
counted for it, and the ConfigMaps know the bound claims of a restart. A loop over the list of claims
visits all of them. -/
def Tracked (s : State) : Event → Prop
  | .reserve _ _ request _ => ∀ key i, request.pvcToDevice.lookup key = some i → i.reuse = false →
      ∀ claim, s.api.lookup key = some claim → claim.phase ≠ .bound
  | .create _ => True
  | .phase new a => ∀ info,
      s.sched.env.ctx.claimDevMap.lookup (claimKey new.name new.ns) = some info →
      Readable s.sched.env a new info ∧
        ∀ old, s.api.lookup (claimKey new.name new.ns) = some old → old.phase = .bound →
          new.requestedStorage = old.requestedStorage
  | .delete key _ => ∀ info, s.sched.env.ctx.claimDevMap.lookup key = some info →
      info.requestedStorage = boundStorage s.api key
  | .restart _ order => RecordsBound s.sched.env.cms s.api ∧ ∀ key ∈ s.api, key ∈ order

section Events

variable {handles : List HandleKind} {s : State} {a : ClaimAnswers}
  {claim new old : PersistentVolumeClaim} {info : StorageInfo} {key : String} {sched : SchedState}
  {api' api : ApiClaims}

/-- The `UpdatePVC` for a mapped claim, together with the change of the claim, keeps the counts. -/
theorem updatePVC_counts (hb : .blockIo ∈ handles) (hs : Counts s) {q : Int} {add : Bool}
    (hinfo : s.sched.env.ctx.claimDevMap.lookup (claimKey claim.name claim.ns) = some info)
    (hapi : ∀ k, k ≠ claimKey claim.name claim.ns → api'.lookup k = s.api.lookup k)
    (hchange : boundStorage api' (claimKey claim.name claim.ns) =
      boundStorage s.api (claimKey claim.name claim.ns) + if add then q else -1 * q)
    (hdrop : add = false → boundStorage api' (claimKey claim.name claim.ns) = 0) :
    Counts ⟨updatePVCAll handles claim info.nodeName info.devID q add a s.sched, api'⟩ := by
  intro node dev disk' hdisk'
  rw [updatePVCAll_diskOf hb] at hdisk'
  have hclaims : ∀ k, k ≠ claimKey claim.name claim.ns →
      (updatePVCAll handles claim info.nodeName info.devID q add a s.sched).env.ctx.claimDevMap.lookup
        k = s.sched.env.ctx.claimDevMap.lookup k := by
    intro k hk
    rw [updatePVCAll_claims hb]
    split_ifs
    · rw [lookup_erase_ite, if_neg hk]
    · rfl
  rw [boundUsage_update (claimKey claim.name claim.ns) hclaims hapi]
  -- the claim adds the same whether it is dropped or not
  have hafter : ((updatePVCAll handles claim info.nodeName info.devID q add a
      s.sched).env.ctx.claimDevMap.lookup (claimKey claim.name claim.ns)).elim 0
        (boundShare api' node dev (claimKey claim.name claim.ns)) =
      boundShare api' node dev (claimKey claim.name claim.ns) info := by
    cases add with
    | true => rw [updatePVCAll_claims hb, if_neg fun h => Bool.noConfusion h.1, hinfo, elim_some]
    | false =>
      rw [boundShare_of_zero (hdrop rfl), boundShare, hdrop rfl, ite_self]
  rw [hafter, hinfo, elim_some]
  unfold boundShare
  by_cases hnd : node = info.nodeName ∧ dev = info.devID
  · obtain ⟨disk, hdisk, rfl⟩ : ∃ disk, diskOf s.sched.caches.blockIo info.nodeName info.devID =
        some disk ∧ addSpace (if add then q else -1 * q) disk = disk' := by
      rw [if_pos hnd] at hdisk'
      exact map_eq_some_iff.mp hdisk'
    have hcount := hs info.nodeName info.devID disk hdisk
    rw [← hnd.1, ← hnd.2] at hcount
    have hyes : info.nodeName = node ∧ info.devID = dev := ⟨hnd.1.symm, hnd.2.symm⟩
    rw [if_pos hyes, if_pos hyes, hchange, ← hcount]
    simp [addSpace]
  · rw [if_neg hnd] at hdisk'
    have hno : ¬ (info.nodeName = node ∧ info.devID = dev) := fun h => hnd ⟨h.1.symm, h.2.symm⟩
    rw [if_neg hno, if_neg hno, sub_zero, add_zero]
    exact hs node dev disk' hdisk'

theorem counts_of_unmapped (hs : Counts s) (hno : s.sched.env.ctx.claimDevMap.lookup key = none)
    (hapi : ∀ k, k ≠ key → api'.lookup k = s.api.lookup k) : Counts { s with api := api' } := by
  intro node dev disk hdisk
  rw [boundUsage_update key (fun _ _ => rfl) hapi]
  rw [hno, elim_none, elim_none, sub_zero, add_zero]
  exact hs node dev disk hdisk

theorem boundDevice_readable
    (hinfo : s.sched.env.ctx.claimDevMap.lookup (claimKey claim.name claim.ns) = some info)
    (h : Readable s.sched.env a claim info) :
    ∃ q, claim.requestedStorage = some q ∧ 0 ≤ q ∧
      boundDevice claim info.nodeName a.getFail s.sched.env = .ok (info.devID, q) := by
  obtain ⟨-, -, ⟨q, hq, hnonneg⟩, -, data, text, path, hget, htext, hsplit⟩ := h
  refine ⟨q, hq, hnonneg, ?_⟩
  simp only [boundDevice, ResourceIOContext.getStorageInfo, hinfo, hq, hget, htext, hsplit]

theorem boundDevice_unmapped (node : String) (getFail : Option String) {env : Env}
    (hno : env.ctx.claimDevMap.lookup (claimKey claim.name claim.ns) = none) :
    ∃ err, boundDevice claim node getFail env = .error err := by
  simp only [boundDevice, ResourceIOContext.getStorageInfo, hno]
  exact ⟨_, rfl⟩

theorem onUpdatePVC_unmapped
    (hno : s.sched.env.ctx.claimDevMap.lookup (claimKey new.name new.ns) = none)
    (h : onUpdatePVC .ignored handles (some old) (some new) a s.sched = .done sched) :
    sched = s.sched := by
  have hbound : ∀ node add, updateBound .ignored handles new node add a s.sched = .done s.sched := by
    intro node add
    obtain ⟨err, herr⟩ := boundDevice_unmapped node a.getFail hno
    rw [updateBound_ignored, herr]
  unfold onUpdatePVC at h
  dsimp only at h
  split at h
  · split_ifs at h
    · cases h; rfl
    · rw [hbound] at h; cases h; rfl
    · rw [hbound] at h; cases h; rfl
    · cases h; rfl
  · cases h; rfl

theorem onUpdatePVC_readable (handles : List HandleKind)
    (hinfo : s.sched.env.ctx.claimDevMap.lookup (claimKey new.name new.ns) = some info)
    (hread : Readable s.sched.env a new info)
    (hphase : old.phase ≠ .bound ∧ new.phase = .bound ∨ old.phase = .bound ∧ new.phase = .lost) :
    ∃ q, new.requestedStorage = some q ∧
      onUpdatePVC .ignored handles (some old) (some new) a s.sched =
        .done (updatePVCAll handles new info.nodeName info.devID q (new.phase = .bound) a
          s.sched) := by
  obtain ⟨q, hq, hnonneg, hdev⟩ := boundDevice_readable hinfo hread
  obtain ⟨hnode, hprov, -, hne, -⟩ := hread
  have hbound : ∀ add, updateBound .ignored handles new info.nodeName add a s.sched =
      .done (updatePVCAll handles new info.nodeName info.devID q add a s.sched) := by
    intro add
    rw [updateBound_ignored, hdev]
    dsimp only
    rw [if_pos ⟨hne, hnonneg⟩]
  refine ⟨q, hq, ?_⟩
  simp only [onUpdatePVC, hnode, hprov, ne_eq, not_true_eq_false, if_false]
  rcases hphase with ⟨hold, hnew⟩ | ⟨hold, hnew⟩
  · rw [if_pos ⟨hold, hnew⟩, hbound, hnew]
    simp
  have hnot : ¬ (¬ old.phase = .bound ∧ new.phase = .bound) := fun h => h.1 hold
  rw [if_neg hnot, if_pos ⟨hold, hnew⟩, hbound, hnew]
  simp

theorem boundStorage_insert_self (claim : PersistentVolumeClaim) :
    boundStorage (api.insert key claim) key =
      if claim.phase = .bound then claim.requestedStorage.getD 0 else 0 := by
  rw [boundStorage, lookup_insert]

theorem lookup_insert_other (claim : PersistentVolumeClaim) (k : String) (hk : k ≠ key) :
    (api.insert key claim).lookup k = api.lookup k := by
  rw [lookup_insert_ite, if_neg hk]

theorem phase_counts (hb : .blockIo ∈ handles) (hs : Counts s) (htracked : Tracked s (.phase new a))
    (hold : s.api.lookup (claimKey new.name new.ns) = some old)
    (hphase : old.phase ≠ .bound ∧ new.phase = .bound ∨ old.phase = .bound ∧ new.phase = .lost)
    (h : onUpdatePVC .ignored handles (some old) (some new) a s.sched = .done sched) :
    Counts ⟨sched, s.api.insert (claimKey new.name new.ns) new⟩ := by
  cases hinfo : s.sched.env.ctx.claimDevMap.lookup (claimKey new.name new.ns) with
  | none =>
    rw [onUpdatePVC_unmapped hinfo h]
    exact counts_of_unmapped hs hinfo (lookup_insert_other new)
  | some info =>
    obtain ⟨hread, hsame⟩ := htracked info hinfo
    obtain ⟨q, hq, hup⟩ := onUpdatePVC_readable handles hinfo hread hphase
    rw [hup, Outcome.done.injEq] at h
    rw [← h]
    have hbefore : boundStorage s.api (claimKey new.name new.ns) =
        if old.phase = .bound then old.requestedStorage.getD 0 else 0 := by
      rw [boundStorage, hold]
    refine updatePVC_counts hb hs hinfo (lookup_insert_other new) ?_ fun hlost => ?_
    · rw [boundStorage_insert_self, hbefore]
      rcases hphase with ⟨hold', hnew⟩ | ⟨hold', hnew⟩
      · simp [hold', hnew, hq]
      · rw [hsame old hold hold'] at hq
        simp [hold', hnew, hq]
    · rw [boundStorage_insert_self, if_neg (of_decide_eq_false hlost)]

theorem delete_counts (hb : .blockIo ∈ handles) (hs : Counts s) (hkeyed : WellKeyed s.api)
    (htracked : Tracked s (.delete key a)) (hclaim : s.api.lookup key = some claim)
    (h : deletePVC .ignored handles (some claim) a s.sched = .done sched) :
    Counts ⟨sched, s.api.erase key⟩ := by
  have hkey := hkeyed key claim hclaim
  have hother : ∀ k, k ≠ key → (s.api.erase key).lookup k = s.api.lookup k := fun k hk => by
    rw [lookup_erase_ite, if_neg hk]
  have hgone : boundStorage (s.api.erase key) key = 0 := by
    rw [boundStorage, lookup_erase_ite, if_pos rfl]
  rw [deletePVC_ignored, Outcome.done.injEq, hkey] at h
  cases hinfo : s.sched.env.ctx.claimDevMap.lookup key with
  | none =>
    simp only [hinfo] at h
    rw [← h]
    exact counts_of_unmapped hs hinfo hother
  | some info =>
    simp only [hinfo] at h
    rw [← h]
    subst hkey
    refine updatePVC_counts hb hs hinfo hother ?_ fun _ => hgone
    rw [hgone, htracked info hinfo, if_neg Bool.false_ne_true]
    ring

end Events

structure Sound (s : State) : Prop where
  named : BlockIo.Named s.sched.caches.blockIo
  keyed : WellKeyed s.api
  counts : Counts s

variable {handles : List HandleKind}

theorem isUpdate_named {a : ClaimAnswers} {s s' : SchedState} (h : IsUpdate handles a s s')
    (hnamed : BlockIo.Named s.caches.blockIo) : BlockIo.Named s'.caches.blockIo := by
  rcases h with rfl | ⟨pvc, node, dev, q, add, rfl⟩
  · exact hnamed
  · exact updatePVCAll_named _ _ _ _ _ hnamed

theorem step_sound [QuantityParser] (hb : .blockIo ∈ handles) {s s' : State} {e : Event}
    (h : step handles s e = some s') (htracked : Tracked s e) (hs : Sound s) : Sound s' := by
  cases e with
  | reserve node pod request a =>
    simp only [step, bind_eq_bind, bind_eq_some_iff, Outcome.toOption_eq_some] at h
    obtain ⟨⟨sched, r⟩, hadd, h⟩ := h
    cases h
    obtain ⟨hnamed, hspace, hplaces⟩ := handleAddPod_places hs.named hadd
    refine ⟨hnamed, hs.keyed, fun n dev disk' hdisk' => ?_⟩
    have hmap := hspace n dev
    rw [hdisk', map_some] at hmap
    obtain ⟨disk, hdisk, heq⟩ := map_eq_some_iff.mp hmap.symm
    have hfresh : ∀ key i, request.pvcToDevice.lookup key = some i → i.reuse = false →
        boundStorage s.api key = 0 := by
      intro key i hi hre
      unfold boundStorage
      cases hc : s.api.lookup key with
      | none => rfl
      | some claim => exact if_neg (htracked key i hi hre claim hc)
    rw [boundUsage_places hplaces hfresh, ← hs.counts n dev disk hdisk]
    exact (congrArg Prod.snd heq).symm
  | create claim =>
    simp only [step] at h
    split_ifs at h with hnew
    cases h
    rw [not_or] at hnew
    refine ⟨hs.named, hs.keyed.insert claim, fun n dev disk hdisk => ?_⟩
    rw [boundUsage_update (claimKey claim.name claim.ns) (fun _ _ => rfl) (lookup_insert_other claim)]
    have hbefore : boundStorage s.api (claimKey claim.name claim.ns) = 0 := by
      rw [boundStorage, lookup_eq_none.mpr hnew.1]
    have hafter : boundStorage (s.api.insert (claimKey claim.name claim.ns) claim)
        (claimKey claim.name claim.ns) = 0 := by
      rw [boundStorage_insert_self, if_neg hnew.2]
    rw [boundShare_of_zero hbefore, boundShare_of_zero hafter, sub_zero, add_zero]
    exact hs.counts n dev disk hdisk
  | phase new a =>
    simp only [step, bind_eq_bind, bind_eq_some_iff] at h
    obtain ⟨old, hold, h⟩ := h
    split_ifs at h with hphase
    simp only [bind_eq_some_iff, Outcome.toOption_eq_some] at h
    obtain ⟨sched, hup, h⟩ := h
    cases h
    exact ⟨isUpdate_named (onUpdatePVC_isUpdate hup) hs.named, hs.keyed.insert new,
      phase_counts hb hs.counts htracked hold hphase hup⟩
  | delete key a =>
    simp only [step, bind_eq_bind, bind_eq_some_iff, Outcome.toOption_eq_some] at h
    obtain ⟨claim, hclaim, sched, hdel, h⟩ := h
    cases h
    refine ⟨isUpdate_named (deletePVC_isUpdate hdel) hs.named, fun k c hc => ?_,
      delete_counts hb hs.counts hs.keyed htracked hclaim hdel⟩
    rw [lookup_erase_ite] at hc
    split_ifs at hc
    exact hs.keyed k c hc
  | restart nodes order =>
    cases h
    have hrebuilt := restart_rebuilt hs.keyed htracked.2 htracked.1 nodes
    exact ⟨hrebuilt.named, hs.keyed, hrebuilt.exact htracked.1⟩

/-- The used space of every disk is the storage of the bound claims mapped to it, in every run whose
events are tracked. -/
theorem usage_exact [QuantityParser] {handles : List HandleKind} (hb : .blockIo ∈ handles) {s s' : State}
    {es : List Event} (hstart : Start s) (hcounts : Counts s)
    (htracked : Along (step handles) Tracked s es) (hrun : run (step handles) s es = some s') :
    Counts s' ∧
      ((∀ key claim, s'.api.lookup key = some claim → 0 ≤ claim.requestedStorage.getD 0) →
        ∀ node dev disk, diskOf s'.sched.caches.blockIo node dev = some disk →
          0 ≤ disk.requestedDiskSpace) := by
  have hend : Sound s' := run_invariant (I := Sound) (C := Tracked)
    (fun s e s' h hc hs => step_sound hb h hc hs) ⟨hstart.named, hstart.keyed, hcounts⟩ htracked hrun
  refine ⟨hend.counts, fun hnonneg node dev disk hdisk => ?_⟩
  rw [hend.counts node dev disk hdisk]
  exact boundUsage_nonneg hnonneg _ node dev

/-! A node with one disk and a claim on it that is bound, or not yet. -/

def dataClaim (phase : ClaimPhase) : PersistentVolumeClaim :=
  { name := "data", ns := "default", phase := phase, storageClassName := some "ioi",
    selectedNode := some "n", storageProvisioner := some ioiProvisioner, requestedStorage := some 10 }

attribute [local instance] sampleParser

/-- `used` is counted on the disk, and `claims` are mapped to it. -/
def dataState (used : Int) (claims : Dict String StorageInfo) (phase : ClaimPhase) : State :=
  { sched := {
      caches := {
        blockIo := Finmap.singleton "n"
          (addCacheNodeInfo "n" sdaConfig (Finmap.singleton "sda" used) (fun _ => 1000) "sda")
        networkIo := ∅, rdt := ∅, rdtQuantity := ∅ }
      env := { sdaEnv with
        ctx := { sdaEnv.ctx with claimDevMap := claims }
        cms := Finmap.singleton "n" (Finmap.singleton "data.default" "sda:/mnt") } }
    api := Finmap.singleton "data.default" (dataClaim phase) }

theorem dataState_start (used : Int) (claims : Dict String StorageInfo) (phase : ClaimPhase) :
    Start (dataState used claims phase) where
  named := by
    intro node ps hps
    obtain ⟨rfl, rfl⟩ := eq_of_lookup_singleton hps
    rfl
  keyed := by
    intro key claim hclaim
    obtain ⟨rfl, rfl⟩ := eq_of_lookup_singleton hclaim
    rfl

theorem dataState_counts {used : Int} {claims : Dict String StorageInfo} {phase : ClaimPhase}
    (h : used = boundUsage claims (Finmap.singleton "data.default" (dataClaim phase)) "n" "sda") :
    Counts (dataState used claims phase) := by
  intro node dev disk hdisk
  obtain ⟨ps, hps, hlook⟩ := bind_eq_some_iff.mp hdisk
  obtain ⟨rfl, rfl⟩ := eq_of_lookup_singleton hps
  simp only [addCacheNodeInfo, lookup_mapVals, map_eq_some_iff] at hlook
  obtain ⟨info, hinfo, rfl⟩ := hlook
  obtain ⟨rfl, rfl⟩ := eq_of_lookup_singleton hinfo
  exact h

def ListsAll (s : State) : Event → Prop
  | .restart _ order => ∀ key ∈ s.api, key ∈ order
  | _ => True

/-- The same for events of any kind. -/
def AlwaysExact [QuantityParser] : Prop :=
  ∀ handles s s' es, .blockIo ∈ handles → Start s → Counts s → Along (step handles) ListsAll s es →
    run (step handles) s es = some s' → Counts s'

/-- `AddPod` maps the claim, which is deleted before it is bound. -/
def deletePending : List Event :=
  [.reserve "n" { sdaPod "a" with volumes := [⟨"v", some "data", false⟩] }
    { resourceRequest := ∅, pvcToDevice := Finmap.singleton "data.default" ⟨"sda", 10, false⟩ }
    { provisioner := fun _ => ⟨.ok (dataClaim .pending), .ok ioiProvisioner⟩, getFail := none,
      writeFail := none },
   .delete "data.default" ⟨none, none, none⟩]

/-- The disk then counts less than nothing. -/
theorem not_alwaysExact : ¬ AlwaysExact := by
  intro h
  obtain ⟨s', hrun, ⟨disk, hdisk, hcount⟩, husage⟩ :
      ∃ s ∈ run (step [.blockIo]) (dataState 0 ∅ .pending) deletePending,
        (∃ disk ∈ diskOf s.sched.caches.blockIo "n" "sda", disk.requestedDiskSpace = -10) ∧
          boundUsage s.sched.env.ctx.claimDevMap s.api "n" "sda" = 0 := by
    decide +kernel
  have hall : Along (step [.blockIo]) ListsAll (dataState 0 ∅ .pending) deletePending := by
    refine along_of_invariant (I := fun _ => True) (C := fun _ e => ∀ s, ListsAll s e)
      (fun _ _ _ _ _ _ => trivial) (fun s e he _ => he s) trivial (along_of_forall _ ?_)
    intro e he s
    simp only [deletePending, List.mem_cons, List.not_mem_nil, or_false] at he
    rcases he with rfl | rfl <;> trivial
  have hexact := h [.blockIo] _ s' _ (List.mem_singleton.mpr rfl) (dataState_start 0 ∅ .pending)
    (dataState_counts (by decide +kernel)) hall hrun "n" "sda" disk hdisk
  rw [hcount, husage] at hexact
  exact absurd hexact (by decide)

def restartDelete : List Event :=
  [.restart [⟨"n", sdaConfig, fun _ => 1000, ["sda"], none⟩] ["data.default"],
   .delete "data.default" ⟨none, none, none⟩]

theorem usage_exact_restart :
    ∃ s', run (step [.blockIo])
        (dataState 10 (Finmap.singleton "data.default" ⟨"sda", 10, "n"⟩) .bound) restartDelete =
          some s' ∧ Counts s' := by
  refine (isSome_iff_exists.mp (by decide +kernel)).imp fun s' hrun => ⟨hrun, (usage_exact
    (List.mem_singleton.mpr rfl) (dataState_start _ _ _) (dataState_counts (by decide +kernel)) ?_
    hrun).1⟩
  obtain ⟨s₁, hs₁, hmap, hstorage⟩ : ∃ s ∈ run (step [.blockIo])
      (dataState 10 (Finmap.singleton "data.default" ⟨"sda", 10, "n"⟩) .bound)
        (restartDelete.take 1),
      s.sched.env.ctx.claimDevMap.lookup "data.default" = some ⟨"sda", 10, "n"⟩ ∧
        boundStorage s.api "data.default" = 10 := by
    decide +kernel
  obtain ⟨s₁', hstep, hnil⟩ := run_cons_some hs₁
  cases hnil
  refine (along_cons hstep).mpr ⟨⟨?_, ?_⟩, ?_, ?_⟩
  · intro node key claim htext _ hclaim hbound
    obtain ⟨rfl, rfl⟩ := eq_of_lookup_singleton hclaim
    obtain ⟨text, htext⟩ := isSome_iff_exists.mp htext
    obtain ⟨data, hdata, -⟩ := bind_eq_some_iff.mp htext
    obtain ⟨rfl, -⟩ := eq_of_lookup_singleton hdata
    exact ⟨rfl, rfl, rfl⟩
  · intro key hkey
    exact List.mem_singleton.mpr ((mem_singleton _ _ _).mp hkey)
  · intro info hinfo
    rw [hmap, some.injEq] at hinfo
    rw [← hinfo, hstorage]
  · cases step [.blockIo] s₁ _ with
    | none | some => trivial

end DiskUsage
end IOIsolation.Sched
