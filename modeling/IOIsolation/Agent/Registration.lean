import IOIsolation.Agent.ReservedPods
import IOIsolation.Lib.Run
import Mathlib.Data.Finset.SDiff
import Mathlib.Order.SymmDiff

/-!
# Agent.Registration

How the disk and the network engine of the node agent register pods with the service. Container
runtime (NRI) events and pod lists each leave operation bits in the entry of a pod; `registerPod`
acts on the bits both sides have set, clears them, and drops the entry when the pod is stopped. The
two engines share the scheme; the network engine asks for more before it acts on an entry.

* `registerPod_lookup` — the loop over the table handles each entry by itself.
* `takeList_lookup` — what a pod list does to the entry of a pod before the loop.
-/

namespace IOIsolation.Agent

open Lib Finmap Finset

/-! ## Entries and groups -/

inductive Operation where
  | stopPod
  | runPod
  | stopContainer
  deriving DecidableEq

/-- A set of operations, as the code keeps them in the bits of an `int`. -/
abbrev Operations : Type := Finset Operation

inductive Kind where
  | disk
  | net
  deriving DecidableEq

/-- An entry of `podRegInfos`. Only the network engine uses `ns` and `group`. -/
structure PodRegInfo where
  cgroupPath : String
  ns : String
  nriOperation : Operations
  crOperation : Operations
  devIds : List String
  group : String
  deriving DecidableEq

/-- The entry has all `RegisterPod` asks for. -/
def PodRegInfo.Ready : Kind → PodRegInfo → Prop
  | .disk, r => r.cgroupPath ≠ "" ∧ r.devIds ≠ []
  | .net, r => r.group ≠ "" ∧ r.ns ≠ "" ∧ r.cgroupPath ≠ "" ∧ r.devIds ≠ []

instance : ∀ (k : Kind) (r : PodRegInfo), Decidable (r.Ready k)
  | .disk, _ => inferInstanceAs (Decidable (_ ∧ _))
  | .net, _ => inferInstanceAs (Decidable (_ ∧ _))

structure WorkloadGroup where
  requestPods : Dict String Workload
  limitPods : Dict String Workload
  rawRequest : Dict String Workload
  rawLimit : Dict String Workload
  actualPods : Dict String Workload
  podsLimitSet : Dict String Workload
  podName : Dict String String
  deriving DecidableEq

/-- The groups of a device; there is none for `groupIndex`. -/
abbrev WorkloadGroups : Type := WorkloadType → WorkloadGroup

inductive AppInfo where
  | disk (cgroupPath : String) (devMajorMinors : List String)
  | net (group netNs cgroupPath : String) (nodeIps : List String)
  deriving DecidableEq

inductive Call where
  | register (podId : String) (app : AppInfo)
  | unregister (podId : String)
  deriving DecidableEq

/-- The part of an engine that deals with pods; `calls` are the commands of the last event. -/
structure PodEngine where
  nsWhitelist : Finset String
  wgDevices : Dict String WorkloadGroups
  podRegInfos : Dict String PodRegInfo
  majorMinors : Dict String String
  nodeIps : List String
  calls : List Call

/-! ## `RegisterPod` -/

def appInfo : Kind → PodEngine → PodRegInfo → AppInfo
  | .disk, e, r => .disk r.cgroupPath (r.devIds.map fun disk => (e.majorMinors.lookup disk).getD "")
  | .net, e, r => .net r.group r.ns r.cgroupPath e.nodeIps

/-- A stopped pod leaves the tables of its groups. -/
def WorkloadGroup.clear (podId : String) (wg : WorkloadGroup) : WorkloadGroup :=
  { wg with
    requestPods := wg.requestPods.erase podId
    limitPods := wg.limitPods.erase podId
    rawRequest := wg.rawRequest.erase podId
    rawLimit := wg.rawLimit.erase podId
    podsLimitSet := wg.podsLimitSet.erase podId }

def PodRegInfo.operation (r : PodRegInfo) : Operations := r.nriOperation ∩ r.crOperation

/-- The entry with the operations cleared that are carried out. -/
def PodRegInfo.settled (r : PodRegInfo) : PodRegInfo :=
  { r with
    crOperation := symmDiff r.operation r.crOperation
    nriOperation := symmDiff r.operation r.nriOperation }

/-- The operations of an entry are carried out. Only the disk engine clears the groups of a
stopped pod. -/
def carryOut (k : Kind) (e : PodEngine) (podId : String) (r : PodRegInfo) : PodEngine :=
  { e with
    podRegInfos :=
      if .stopPod ∈ r.operation then e.podRegInfos.erase podId
      else e.podRegInfos.insert podId r.settled
    wgDevices :=
      if .stopPod ∈ r.operation ∧ k = .disk then
        Dict.mapVals (fun _ wgs t => (wgs t).clear podId) e.wgDevices
      else e.wgDevices
    calls := e.calls ++
      ((if .runPod ∈ r.operation then [.register podId (appInfo k e r)] else []) ++
        (if .stopPod ∈ r.operation then [.unregister podId] else [])) }

def registerOne (k : Kind) (e : PodEngine) (podId : String) : PodEngine :=
  match e.podRegInfos.lookup podId with
  | none => e
  | some r => if r.Ready k ∧ r.operation ≠ ∅ then carryOut k e podId r else e

/-- `RegisterPod`; `order` is the order in which the map hands out its entries. -/
def registerPod (k : Kind) (order : List String) (e : PodEngine) : Option PodEngine :=
  if order.Nodup ∧ order.toFinset = e.podRegInfos.keys then some (order.foldl (registerOne k) e)
  else none

/-! ## The handlers -/

/-- What a runtime event says of its pod; `netNamespace` are types and paths. -/
structure NriInfo where
  operation : Operation
  ns : String
  netNamespace : List (String × String)
  cgroupPath : String
  deriving DecidableEq

def podPrefix : String := "/sys/fs/cgroup"

/-- The last network namespace; the disk engine does not look for one. -/
def netNs (k : Kind) (info : NriInfo) : String :=
  match k with
  | .disk => ""
  | .net => info.netNamespace.foldl (fun found ns => if ns.1 = "network" then ns.2 else found) ""

def nriEntry (k : Kind) (info : NriInfo) : Option PodRegInfo → PodRegInfo
  | none =>
    { cgroupPath := podPrefix ++ info.cgroupPath
      ns := netNs k info
      nriOperation := {info.operation}
      crOperation := ∅
      devIds := []
      group := "" }
  | some r =>
    { r with
      cgroupPath := podPrefix ++ info.cgroupPath
      ns := if netNs k info ≠ "" then netNs k info else r.ns
      nriOperation := r.nriOperation ∪ {info.operation} }

/-- `ProcessNriData` of the one pod an event is about. The disk engine goes through its entries
also after the event of a white-listed pod. -/
def processNriData (k : Kind) (podId : String) (info : NriInfo) (order : List String)
    (e : PodEngine) : Option PodEngine :=
  if info.ns ∈ e.nsWhitelist then
    match k with
    | .disk => registerPod .disk order e
    | .net => some e
  else
    registerPod k order { e with
      podRegInfos := e.podRegInfos.insert podId (nriEntry k info (e.podRegInfos.lookup podId)) }

/-- A pod list in the order its maps are gone through: devices, and pods by uid. -/
abbrev PodEventList : Type := AList fun _ : String => AList fun _ : String => PodRunInfo

structure ListedPod where
  dev : String
  podId : String
  info : PodRunInfo
  deriving DecidableEq

def PodEventList.pods (l : PodEventList) : List ListedPod :=
  l.entries.flatMap fun d => d.2.entries.map fun p => ⟨d.1, p.1, p.2⟩

def PodEventList.listed (l : PodEventList) (dev podId : String) : Option PodRunInfo :=
  (l.lookup dev).bind fun pods => pods.lookup podId

def groupName : WorkloadType → String
  | .gaIndex => "0"
  | .btIndex => "1"
  | .beIndex => "2"
  | .groupIndex => "3"

/-- The entry of a pod that a list has on a device; such events carry no operation. -/
def crEntry (k : Kind) (p : ListedPod) : Option PodRegInfo → PodRegInfo
  | none =>
    { cgroupPath := ""
      ns := ""
      nriOperation := ∅
      crOperation := ∅
      devIds := [p.dev]
      group := if k = .net then groupName p.info.workloadType else "" }
  | some r =>
    { r with
      devIds := r.devIds ++ [p.dev]
      group := if k = .net then groupName p.info.workloadType else r.group }

/-- The tables of the group of a listed pod; the network engine keeps no raw tables. -/
def WorkloadGroup.enter (k : Kind) (p : ListedPod) (wg : WorkloadGroup) : WorkloadGroup :=
  { wg with
    requestPods := wg.requestPods.insert p.podId p.info.request
    limitPods := wg.limitPods.insert p.podId p.info.limit
    rawRequest := if k = .disk then wg.rawRequest.insert p.podId p.info.rawRequest else wg.rawRequest
    rawLimit := if k = .disk then wg.rawLimit.insert p.podId p.info.rawLimit else wg.rawLimit
    podName := wg.podName.insert p.podId p.info.podName }

/-- The pod is taken in: its device is profiled and it has a name. -/
def Taken (e : PodEngine) (p : ListedPod) : Prop := p.dev ∈ e.wgDevices ∧ p.info.podName ≠ ""

instance (e : PodEngine) (p : ListedPod) : Decidable (Taken e p) :=
  inferInstanceAs (Decidable (_ ∧ _))

def crPod (k : Kind) (e : PodEngine) (p : ListedPod) : PodEngine :=
  if Taken e p then
    { e with
      wgDevices := Dict.adjust p.dev (fun wgs t =>
        if t = p.info.workloadType then (wgs t).enter k p else wgs t) e.wgDevices
      podRegInfos := e.podRegInfos.insert p.podId (crEntry k p (e.podRegInfos.lookup p.podId)) }
  else e

/-- The pods of a list that are taken in. -/
def visited (e : PodEngine) (l : PodEventList) : Finset String :=
  ((l.pods.filter fun p => Taken e p).map ListedPod.podId).toFinset

def keepPods {V : Type} (pods : Finset String) (m : Dict String V) : Dict String V :=
  Dict.filterMapVals (fun podId v => if podId ∈ pods then some v else none) m

def deleteOutdatePod (pods : Finset String) (wg : WorkloadGroup) : WorkloadGroup :=
  { wg with
    requestPods := keepPods pods wg.requestPods
    limitPods := keepPods pods wg.limitPods
    rawRequest := keepPods pods wg.rawRequest
    rawLimit := keepPods pods wg.rawLimit
    actualPods := keepPods pods wg.actualPods
    podsLimitSet := keepPods pods wg.podsLimitSet }

/-- A pod is to run if the list has it and to stop otherwise. -/
def markOperation (pods : Finset String) (podId : String) (r : PodRegInfo) : PodRegInfo :=
  { r with crOperation := r.crOperation ∪ {if podId ∈ pods then .runPod else .stopPod} }

def takeList (k : Kind) (l : PodEventList) (e : PodEngine) : PodEngine :=
  let pods := visited e l
  let e := l.pods.foldl (crPod k) e
  { e with
    wgDevices := Dict.mapVals (fun _ wgs t => deleteOutdatePod pods (wgs t)) e.wgDevices
    podRegInfos := Dict.mapVals (markOperation pods) e.podRegInfos }

/-- An index out of range ends the agent. -/
def Typed (e : PodEngine) (l : PodEventList) : Prop :=
  ∀ p ∈ l.pods, Taken e p → p.info.workloadType ≠ .groupIndex

instance (e : PodEngine) (l : PodEventList) : Decidable (Typed e l) :=
  inferInstanceAs (Decidable (∀ p ∈ l.pods, _))

def processCrData (k : Kind) (l : PodEventList) (order : List String) (e : PodEngine) :
    Option PodEngine :=
  if Typed e l then registerPod k order (takeList k l e) else none

/-! ## What `registerPod` does to an entry -/

section Register

variable {k : Kind} {e e' : PodEngine}

/-- What is left of an entry; nothing if the pod is stopped. -/
def PodRegInfo.settle (k : Kind) (r : PodRegInfo) : Option PodRegInfo :=
  if r.Ready k ∧ r.operation ≠ ∅ then
    if .stopPod ∈ r.operation then none else some r.settled
  else some r

variable {podId : String} {r : PodRegInfo} {order : List String}

theorem registerOne_none (h : e.podRegInfos.lookup podId = none) : registerOne k e podId = e := by
  rw [registerOne, h]

theorem registerOne_some (h : e.podRegInfos.lookup podId = some r) :
    registerOne k e podId =
      if r.Ready k ∧ r.operation ≠ ∅ then carryOut k e podId r else e := by
  rw [registerOne, h]

theorem registerOne_lookup (k : Kind) (e : PodEngine) (podId x : String) :
    (registerOne k e podId).podRegInfos.lookup x =
      if x = podId then (e.podRegInfos.lookup x).bind (PodRegInfo.settle k)
      else e.podRegInfos.lookup x := by
  cases h : e.podRegInfos.lookup podId with
  | none =>
    rw [registerOne_none h]
    split_ifs with hx
    · rw [hx, h, Option.bind_none]
    · rfl
  | some r =>
    have hself : x = podId → e.podRegInfos.lookup x = some r := fun hx => hx ▸ h
    rw [registerOne_some h]
    by_cases hact : r.Ready k ∧ r.operation ≠ ∅
    · rw [if_pos hact, carryOut]
      by_cases hstop : .stopPod ∈ r.operation
      · rw [if_pos hstop, Dict.lookup_erase_ite]
        split_ifs with hx <;> simp [hself, hx, PodRegInfo.settle, hact, hstop]
      · rw [if_neg hstop, Dict.lookup_insert_ite]
        split_ifs with hx <;> simp [hself, hx, PodRegInfo.settle, hact, hstop]
    · split_ifs with hx <;> simp [hself, hx, PodRegInfo.settle, hact]

/-- By induction on the entries that are left; each is met once. -/
theorem foldl_registerOne_lookup : ∀ {order : List String} {e : PodEngine}, order.Nodup →
    ∀ x, (order.foldl (registerOne k) e).podRegInfos.lookup x =
      if x ∈ order then (e.podRegInfos.lookup x).bind (PodRegInfo.settle k)
      else e.podRegInfos.lookup x := by
  intro order
  induction order with
  | nil => intro e _ x; simp
  | cons podId rest ih =>
    intro e hnodup x
    obtain ⟨hnot, hrest⟩ := List.nodup_cons.mp hnodup
    rw [List.foldl_cons, ih hrest, registerOne_lookup]
    by_cases hx : x = podId
    · subst hx
      rw [if_neg hnot, if_pos rfl, if_pos List.mem_cons_self]
    · simp only [List.mem_cons, hx, if_false, false_or]

theorem registerPod_lookup (h : registerPod k order e = some e') (x : String) :
    e'.podRegInfos.lookup x = (e.podRegInfos.lookup x).bind (PodRegInfo.settle k) := by
  unfold registerPod at h
  split_ifs at h with horder
  cases h
  rw [foldl_registerOne_lookup horder.1]
  split_ifs with hx
  · rfl
  have hnone : e.podRegInfos.lookup x = none := by
    rw [lookup_eq_none, ← mem_keys, ← horder.2, List.mem_toFinset]
    exact hx
  rw [hnone, Option.bind_none]

/-- A command is sent for an entry that has all it needs, on an operation both sides have set. -/
def Sent (k : Kind) (e : PodEngine) (podId : String) (c : Call) : Prop :=
  ∃ r, e.podRegInfos.lookup podId = some r ∧ r.Ready k ∧
    (.runPod ∈ r.operation ∧ c = .register podId (appInfo k e r) ∨
      .stopPod ∈ r.operation ∧ c = .unregister podId)

variable {c : Call} {r' : PodRegInfo}

theorem registerOne_calls (h : c ∈ (registerOne k e podId).calls) :
    c ∈ e.calls ∨ Sent k e podId c := by
  cases hr : e.podRegInfos.lookup podId with
  | none => rw [registerOne_none hr] at h; exact .inl h
  | some r =>
    rw [registerOne_some hr] at h
    by_cases hact : r.Ready k ∧ r.operation ≠ ∅
    · rw [if_pos hact] at h
      rcases List.mem_append.mp h with h | h
      · exact .inl h
      refine .inr ⟨r, hr, hact.1, ?_⟩
      rcases List.mem_append.mp h with h | h
      · by_cases hrun : .runPod ∈ r.operation
        · rw [if_pos hrun, List.mem_singleton] at h
          exact .inl ⟨hrun, h⟩
        · rw [if_neg hrun] at h; cases h
      · by_cases hstop : .stopPod ∈ r.operation
        · rw [if_pos hstop, List.mem_singleton] at h
          exact .inr ⟨hstop, h⟩
        · rw [if_neg hstop] at h; cases h
    · rw [if_neg hact] at h
      exact .inl h

theorem registerOne_frame (k : Kind) (e : PodEngine) (podId : String) :
    (registerOne k e podId).nsWhitelist = e.nsWhitelist ∧
      (registerOne k e podId).majorMinors = e.majorMinors ∧
      (registerOne k e podId).nodeIps = e.nodeIps ∧
      (registerOne k e podId).wgDevices.keys = e.wgDevices.keys := by
  cases hr : e.podRegInfos.lookup podId with
  | none => rw [registerOne_none hr]; exact ⟨rfl, rfl, rfl, rfl⟩
  | some r =>
    rw [registerOne_some hr]
    by_cases hact : r.Ready k ∧ r.operation ≠ ∅
    · rw [if_pos hact, carryOut]
      refine ⟨rfl, rfl, rfl, ?_⟩
      dsimp only
      split_ifs
      · exact Dict.keys_mapVals _ _
      · rfl
    · rw [if_neg hact]
      exact ⟨rfl, rfl, rfl, rfl⟩

theorem foldl_registerOne_frame (order : List String) :
    ∀ (e : PodEngine), (order.foldl (registerOne k) e).nsWhitelist = e.nsWhitelist ∧
      (order.foldl (registerOne k) e).majorMinors = e.majorMinors ∧
      (order.foldl (registerOne k) e).nodeIps = e.nodeIps ∧
      (order.foldl (registerOne k) e).wgDevices.keys = e.wgDevices.keys := by
  induction order with
  | nil => intro e; exact ⟨rfl, rfl, rfl, rfl⟩
  | cons podId rest ih =>
    intro e
    obtain ⟨h₁, h₂, h₃, h₄⟩ := ih (registerOne k e podId)
    obtain ⟨g₁, g₂, g₃, g₄⟩ := registerOne_frame k e podId
    exact ⟨h₁.trans g₁, h₂.trans g₂, h₃.trans g₃, h₄.trans g₄⟩

theorem appInfo_congr (hm : e'.majorMinors = e.majorMinors) (hn : e'.nodeIps = e.nodeIps) :
    appInfo k e' r = appInfo k e r := by
  cases k with
  | disk => simp only [appInfo, hm]
  | net => simp only [appInfo, hn]

theorem foldl_registerOne_calls : ∀ {order : List String} {e : PodEngine} {c : Call}, order.Nodup →
    c ∈ (order.foldl (registerOne k) e).calls →
    c ∈ e.calls ∨ ∃ podId ∈ order, Sent k e podId c := by
  intro order
  induction order with
  | nil => intro e c _ h; exact .inl h
  | cons podId rest ih =>
    intro e c hnodup h
    obtain ⟨hnot, hrest⟩ := List.nodup_cons.mp hnodup
    rcases ih hrest h with h | ⟨x, hx, r, hr, hready, hop⟩
    · exact (registerOne_calls h).imp_right fun hs => ⟨podId, List.mem_cons_self, hs⟩
    obtain ⟨-, hm, hn, -⟩ := registerOne_frame k e podId
    have hne : x ≠ podId := fun heq => hnot (heq ▸ hx)
    rw [registerOne_lookup, if_neg hne] at hr
    rw [appInfo_congr hm hn] at hop
    exact .inr ⟨x, List.mem_cons_of_mem _ hx, r, hr, hready, hop⟩

theorem registerPod_calls (h : registerPod k order e = some e') (hc : c ∈ e'.calls) :
    c ∈ e.calls ∨ ∃ podId, Sent k e podId c := by
  unfold registerPod at h
  split_ifs at h with horder
  cases h
  exact (foldl_registerOne_calls horder.1 hc).imp_right fun ⟨x, _, hs⟩ => ⟨x, hs⟩

theorem registerPod_frame (h : registerPod k order e = some e') :
    e'.nsWhitelist = e.nsWhitelist ∧ e'.wgDevices.keys = e.wgDevices.keys := by
  unfold registerPod at h
  split_ifs at h with horder
  cases h
  obtain ⟨h₁, -, -, h₄⟩ := foldl_registerOne_frame (k := k) order e
  exact ⟨h₁, h₄⟩

theorem PodRegInfo.settle_some (h : r.settle k = some r') :
    r'.nriOperation ⊆ r.nriOperation ∧ r'.crOperation ⊆ r.crOperation ∧
      r'.cgroupPath = r.cgroupPath ∧ r'.ns = r.ns ∧ r'.devIds = r.devIds ∧ r'.group = r.group ∧
      (.stopPod ∈ r.nriOperation → .stopPod ∈ r'.nriOperation) ∧
      (.stopPod ∈ r.crOperation → .stopPod ∈ r'.crOperation) := by
  unfold settle at h
  split_ifs at h with hact hstop
  · cases h
    have hnri : r.settled.nriOperation = r.nriOperation \ r.operation :=
      symmDiff_of_le inter_subset_left
    have hcr : r.settled.crOperation = r.crOperation \ r.operation :=
      symmDiff_of_le inter_subset_right
    rw [hnri, hcr]
    exact ⟨sdiff_subset, sdiff_subset, rfl, rfl, rfl, rfl, fun hmem => mem_sdiff.mpr ⟨hmem, hstop⟩,
      fun hmem => mem_sdiff.mpr ⟨hmem, hstop⟩⟩
  · cases h
    exact ⟨Finset.Subset.refl _, Finset.Subset.refl _, rfl, rfl, rfl, rfl, id, id⟩

theorem PodRegInfo.not_stopped_of_settle (h : r.settle k = some r') (hready : r.Ready k) :
    ¬ (.stopPod ∈ r.nriOperation ∧ .stopPod ∈ r.crOperation) := by
  rintro ⟨hnri, hcr⟩
  have hop : .stopPod ∈ r.operation := mem_inter.mpr ⟨hnri, hcr⟩
  rw [settle, if_pos ⟨hready, ne_empty_of_mem hop⟩, if_pos hop] at h
  cases h

end Register

/-! ## What a list does to an entry -/

section List

variable {k : Kind} {e : PodEngine}

/-- The entry of a pod nothing is known of. -/
def PodRegInfo.blank : PodRegInfo := ⟨"", "", ∅, ∅, [], ""⟩

theorem crPod_frame (k : Kind) (e : PodEngine) (p : ListedPod) :
    (crPod k e p).nsWhitelist = e.nsWhitelist ∧ (crPod k e p).calls = e.calls ∧
      (crPod k e p).wgDevices.keys = e.wgDevices.keys := by
  unfold crPod
  split_ifs with h
  · exact ⟨rfl, rfl, Dict.keys_adjust _ _ _⟩
  · exact ⟨rfl, rfl, rfl⟩

theorem taken_congr {e' : PodEngine} (h : e'.wgDevices.keys = e.wgDevices.keys) (p : ListedPod) :
    Taken e' p ↔ Taken e p := by
  unfold Taken
  rw [← mem_keys, h, mem_keys]

theorem foldl_crPod_frame (pods : List ListedPod) :
    ∀ (e : PodEngine), (pods.foldl (crPod k) e).nsWhitelist = e.nsWhitelist ∧
      (pods.foldl (crPod k) e).calls = e.calls ∧
      (pods.foldl (crPod k) e).wgDevices.keys = e.wgDevices.keys := by
  induction pods with
  | nil => intro e; exact ⟨rfl, rfl, rfl⟩
  | cons p rest ih =>
    intro e
    obtain ⟨h₁, h₂, h₃⟩ := ih (crPod k e p)
    obtain ⟨g₁, g₂, g₃⟩ := crPod_frame k e p
    exact ⟨h₁.trans g₁, h₂.trans g₂, h₃.trans g₃⟩

def entriesOf (e : PodEngine) (podId : String) (pods : List ListedPod) : List ListedPod :=
  pods.filter fun p => Taken e p ∧ p.podId = podId

theorem foldl_crPod_lookup (podId : String) : ∀ (pods : List ListedPod) (e : PodEngine),
    (pods.foldl (crPod k) e).podRegInfos.lookup podId =
      (entriesOf e podId pods).foldl (fun r p => some (crEntry k p r))
        (e.podRegInfos.lookup podId) := by
  intro pods
  induction pods with
  | nil => intro e; rfl
  | cons p rest ih =>
    intro e
    have hsame : entriesOf (crPod k e p) podId rest = entriesOf e podId rest := by
      refine List.filter_congr fun q _ => ?_
      rw [decide_eq_decide, taken_congr (crPod_frame k e p).2.2]
    rw [List.foldl_cons, ih, hsame]
    by_cases hp : Taken e p ∧ p.podId = podId
    · have hcons : entriesOf e podId (p :: rest) = p :: entriesOf e podId rest :=
        List.filter_cons_of_pos (by simpa using hp)
      rw [hcons, List.foldl_cons, crPod, if_pos hp.1]
      rw [← hp.2, lookup_insert]
    have hcons : entriesOf e podId (p :: rest) = entriesOf e podId rest :=
      List.filter_cons_of_neg (by simpa using hp)
    rw [hcons, crPod]
    split_ifs with ht
    · rw [lookup_insert_of_ne _ fun heq => hp ⟨ht, heq.symm⟩]
    · rfl

theorem foldl_crEntry {qs : List ListedPod} : ∀ {r : Option PodRegInfo}, qs ≠ [] →
    ∃ r', qs.foldl (fun r p => some (crEntry k p r)) r = some r' ∧
      r'.devIds = (r.getD .blank).devIds ++ qs.map ListedPod.dev ∧
      r'.cgroupPath = (r.getD .blank).cgroupPath ∧ r'.ns = (r.getD .blank).ns ∧
      r'.nriOperation = (r.getD .blank).nriOperation ∧
      r'.crOperation = (r.getD .blank).crOperation ∧ (k = .net → r'.group ≠ "") := by
  induction qs with
  | nil => intro r h; exact absurd rfl h
  | cons p rest ih =>
    intro r _
    have hone : (crEntry k p r).devIds = (r.getD .blank).devIds ++ [p.dev] ∧
        (crEntry k p r).cgroupPath = (r.getD .blank).cgroupPath ∧
        (crEntry k p r).ns = (r.getD .blank).ns ∧
        (crEntry k p r).nriOperation = (r.getD .blank).nriOperation ∧
        (crEntry k p r).crOperation = (r.getD .blank).crOperation ∧
        (k = .net → (crEntry k p r).group ≠ "") := by
      have hname : groupName p.info.workloadType ≠ "" := by
        cases p.info.workloadType <;> decide
      cases r with
      | none | some => exact ⟨rfl, rfl, rfl, rfl, rfl, fun hk => by simpa [crEntry, hk] using hname⟩
    obtain ⟨h₁, h₂, h₃, h₄, h₅, h₆⟩ := hone
    cases rest with
    | nil => exact ⟨_, rfl, h₁, h₂, h₃, h₄, h₅, h₆⟩
    | cons q rest =>
      obtain ⟨r', hr', g₁, g₂, g₃, g₄, g₅, g₆⟩ := ih (r := some (crEntry k p r)) (by simp)
      simp only [Option.getD_some] at g₁ g₂ g₃ g₄ g₅
      refine ⟨r', hr', ?_, g₂.trans h₂, g₃.trans h₃, g₄.trans h₄, g₅.trans h₅, g₆⟩
      rw [g₁, h₁, List.append_assoc]
      rfl

theorem mem_visited {l : PodEventList} {podId : String} :
    podId ∈ visited e l ↔ entriesOf e podId l.pods ≠ [] := by
  simp only [visited, entriesOf, List.mem_toFinset, List.mem_map, List.mem_filter, ne_eq,
    List.filter_eq_nil_iff, decide_eq_true_eq, not_forall, not_not]
  constructor
  · rintro ⟨p, ⟨hp, ht⟩, rfl⟩
    exact ⟨p, hp, ht, rfl⟩
  · rintro ⟨p, hp, ht, rfl⟩
    exact ⟨p, ⟨hp, ht⟩, rfl⟩

/-- The entry of a pod before `RegisterPod`: a pod of the list has more devices and is to run, any
other entry is to stop. -/
theorem takeList_lookup (k : Kind) (l : PodEventList) (e : PodEngine) (podId : String) :
    (podId ∉ visited e l → (takeList k l e).podRegInfos.lookup podId =
      (e.podRegInfos.lookup podId).map fun r =>
        { r with crOperation := r.crOperation ∪ {.stopPod} }) ∧
    (podId ∈ visited e l → ∃ r, (takeList k l e).podRegInfos.lookup podId = some r ∧
      r.devIds = ((e.podRegInfos.lookup podId).getD .blank).devIds ++
        (entriesOf e podId l.pods).map ListedPod.dev ∧
      r.cgroupPath = ((e.podRegInfos.lookup podId).getD .blank).cgroupPath ∧
      r.ns = ((e.podRegInfos.lookup podId).getD .blank).ns ∧
      r.nriOperation = ((e.podRegInfos.lookup podId).getD .blank).nriOperation ∧
      r.crOperation = ((e.podRegInfos.lookup podId).getD .blank).crOperation ∪ {.runPod} ∧
      (k = .net → r.group ≠ "")) := by
  simp only [takeList, Dict.lookup_mapVals, foldl_crPod_lookup]
  constructor
  · intro h
    rw [mem_visited, not_not] at h
    rw [h, List.foldl_nil]
    refine Option.map_congr fun r _ => ?_
    have hnot : podId ∉ visited e l := by rw [mem_visited, not_not]; exact h
    simp [markOperation, hnot]
  · intro h
    obtain ⟨r, hr, h₁, h₂, h₃, h₄, h₅, h₆⟩ := foldl_crEntry (k := k)
      (r := e.podRegInfos.lookup podId) (mem_visited.mp h)
    rw [hr]
    refine ⟨markOperation (visited e l) podId r, rfl, h₁, h₂, h₃, h₄, ?_, h₆⟩
    simp [markOperation, h, h₅]

theorem takeList_frame (k : Kind) (l : PodEventList) (e : PodEngine) :
    (takeList k l e).nsWhitelist = e.nsWhitelist ∧ (takeList k l e).calls = e.calls ∧
      (takeList k l e).wgDevices.keys = e.wgDevices.keys := by
  obtain ⟨h₁, h₂, h₃⟩ := foldl_crPod_frame (k := k) l.pods e
  exact ⟨h₁, h₂, (Dict.keys_mapVals _ _).trans h₃⟩

theorem nriEntry_eq (k : Kind) (info : NriInfo) (r : Option PodRegInfo) :
    (nriEntry k info r).cgroupPath = podPrefix ++ info.cgroupPath ∧
      (nriEntry k info r).ns =
        (if netNs k info ≠ "" then netNs k info else (r.getD .blank).ns) ∧
      (nriEntry k info r).nriOperation = (r.getD .blank).nriOperation ∪ {info.operation} ∧
      (nriEntry k info r).crOperation = (r.getD .blank).crOperation ∧
      (nriEntry k info r).devIds = (r.getD .blank).devIds ∧
      (nriEntry k info r).group = (r.getD .blank).group := by
  cases r with
  | none =>
    refine ⟨rfl, ?_, ?_, rfl, rfl, rfl⟩
    · by_cases h : netNs k info = "" <;> simp [nriEntry, PodRegInfo.blank, h]
    · exact (empty_union _).symm
  | some r => exact ⟨rfl, rfl, rfl, rfl, rfl, rfl⟩

end List

end IOIsolation.Agent
