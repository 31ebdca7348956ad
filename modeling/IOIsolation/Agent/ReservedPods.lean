import IOIsolation.Types
import IOIsolation.Lib.Outcome

/-!
# Agent.ReservedPods

How the node agent takes in a pod list. `processPodsFromAggregator` enters the requests a list
carries in the table `CrPodRequest`, looks up the pods that are listed without requests there, and
builds one event for each engine. An engine that handles its event observes the generation of the
list, and reports it with every status from then on.

* `processPodsFromAggregator_table` — a list leaves every known pod known, and makes exactly the
  pods known whose requests it carries.
-/

namespace IOIsolation.Agent

open Lib Outcome

/-! ## Events for the engines -/

structure Workload where
  inBps : ℚ
  outBps : ℚ
  inIops : ℚ
  outIops : ℚ
  deriving DecidableEq

structure PodRunInfo where
  request : Workload
  limit : Workload
  rawRequest : Workload
  rawLimit : Workload
  workloadType : WorkloadType
  podName : String
  deriving DecidableEq

inductive Engine where
  | disk
  | net
  | rdt
  | rdtQuantity
  deriving DecidableEq

abbrev PodEvents : Type := Dict String (Dict String PodRunInfo)

structure PodData where
  engine : Engine
  generation : Int
  podEvents : PodEvents
  deriving DecidableEq

def workload (q : Quantity) : Workload := ⟨q.inbps, q.outbps, q.iniops, q.outiops⟩

/-- Best effort stays best effort; otherwise a request that equals its limit is guaranteed. -/
def classify (wlType : WorkloadType) (request limit : Workload) : WorkloadType :=
  if wlType ≠ .beIndex then if request = limit then .gaIndex else .btIndex
  else .beIndex

def setPod (dev uid : String) (info : PodRunInfo) (events : PodEvents) : PodEvents :=
  events.insert dev (((events.lookup dev).getD ∅).insert uid info)

/-- The events collected so far; there is never one for the RDT engine. -/
structure Updates where
  disk : PodEvents
  net : PodEvents
  rdtQuantity : PodEvents
  deriving DecidableEq

/-- One request of a pod; a missing device or quantity is a nil dereference. -/
def processRequest (uid podName : String) (u : Updates) (r : IOResourceRequest) :
    Outcome Updates := do
  let dev ← .ofOption r.devRequest
  let request ← .ofOption dev.request
  let limit ← .ofOption dev.limit
  let rawRequest ← .ofOption dev.rawRequest
  let rawLimit ← .ofOption dev.rawLimit
  let info : PodRunInfo :=
    { request := workload request
      limit := workload limit
      rawRequest := workload rawRequest
      rawLimit := workload rawLimit
      workloadType := classify r.workloadType (workload request) (workload limit)
      podName := podName }
  match r.ioType with
  | .diskIo => return { u with disk := setPod dev.devName uid info u.disk }
  | .networkIo => return { u with net := setPod dev.devName uid info u.net }
  | .rdtQuantity =>
    let info := { info with workloadType := .gaIndex }
    return { u with rdtQuantity := setPod dev.devName uid info u.rdtQuantity }
  | _ => return u

/-! ## The table -/

/-- The requests of a pod as the table keeps them: at least one. -/
structure Details where
  podRequest : PodRequest
  nonempty : podRequest.request ≠ []
  deriving DecidableEq

abbrev Table : Type := Dict String Details

/-- What a list says about a pod, if it says anything. -/
def details : Option PodRequest → Option Details
  | some r => if h : r.request ≠ [] then some ⟨r, h⟩ else none
  | none => none

/-- One pod of the list: its requests are entered, or looked up. -/
def processPod (uid : String) (podRequest : Option PodRequest) (table : Table) (u : Updates) :
    Outcome (Table × Updates) :=
  let table := match details podRequest with
    | some d => table.insert uid d
    | none => table
  match table.lookup uid with
  | some d => do
    let u ← d.podRequest.request.foldlM (processRequest uid d.podRequest.podName) u
    return (table, u)
  | none => .done (table, u)

/-- The loop over the pods, in the order the map hands them out. -/
def processPods : List (Σ _ : String, Option PodRequest) → Table → Updates →
    Outcome (Table × Updates)
  | [], table, u => .done (table, u)
  | ⟨uid, podRequest⟩ :: rest, table, u => do
    let (table, u) ← processPod uid podRequest table u
    processPods rest table u

/-- `ProcessPodsFromAggregator`; `resPods` is the pod map in the order of the loop. -/
def processPodsFromAggregator (generation : Int) (resPods : AList fun _ : String => Option PodRequest)
    (table : Table) : Outcome (Table × List PodData) := do
  let (table, u) ← processPods resPods.entries table ⟨∅, ∅, ∅⟩
  return (table,
    [⟨.disk, generation, u.disk⟩, ⟨.net, generation, u.net⟩, ⟨.rdt, generation, ∅⟩,
      ⟨.rdtQuantity, generation, u.rdtQuantity⟩])

/-! ## The agent -/

structure AgentState where
  name : String
  crPodRequest : Table
  podInfoChan : List PodData
  /-- The generation each engine observed last, if it handled a list already. -/
  observed : Dict Engine Int
  deriving DecidableEq

/-- A list is processed and its four events go to the engines. -/
def AgentState.receive (a : AgentState) (generation : Int)
    (resPods : AList fun _ : String => Option PodRequest) : Outcome AgentState := do
  let (table, events) ← processPodsFromAggregator generation resPods a.crPodRequest
  return { a with crPodRequest := table, podInfoChan := a.podInfoChan ++ events }

/-- The server side of `UpdateReservedPods`. -/
def AgentState.updateReservedPods (a : AgentState) (nodeName : String) (generation : Int)
    (resPods : AList fun _ : String => Option PodRequest) :
    Outcome (AgentState × Except String Unit) :=
  if nodeName ≠ a.name then
    .done (a, .error s!"the node name: {nodeName} in request is not consistent with the one in AgentServer")
  else do
    let a ← a.receive generation resPods
    return (a, .ok ())

/-- An engine handles its event, here the `i`-th of those that wait. -/
def AgentState.observe (a : AgentState) (i : Nat) : Option AgentState :=
  match a.podInfoChan[i]? with
  | some d => some { a with
      podInfoChan := a.podInfoChan.eraseIdx i
      observed := a.observed.insert d.engine d.generation }
  | none => none

/-! ## What a list does to the table -/

def Describes (podList : Dict String (Option PodRequest)) (uid : String) : Prop :=
  ((podList.lookup uid).bind details).isSome = true

instance (podList : Dict String (Option PodRequest)) (uid : String) :
    Decidable (Describes podList uid) :=
  inferInstanceAs (Decidable (_ = true))

variable {uid : String} {table table' : Table}

theorem Describes.mem_keys {podList : Dict String (Option PodRequest)} (h : Describes podList uid) :
    uid ∈ podList.keys := by
  rw [Finmap.mem_keys, ← Finmap.lookup_isSome]
  unfold Describes at h
  cases hl : podList.lookup uid with
  | none => simp [hl] at h
  | some r => rfl

theorem processPod_done {podRequest : Option PodRequest} {u u' : Updates}
    (h : processPod uid podRequest table u = .done (table', u')) :
    table' = (details podRequest).elim table (table.insert uid) ∧
      ((∃ d, table'.lookup uid = some d ∧
          d.podRequest.request.foldlM (processRequest uid d.podRequest.podName) u = .done u') ∨
        table'.lookup uid = none ∧ u' = u) := by
  unfold processPod at h
  revert h
  cases details podRequest
  all_goals
    intro h
    dsimp only at h
    split at h
    · rename_i d hd
      simp only [bind_eq_done, pure_eq, done.injEq, Prod.mk.injEq] at h
      obtain ⟨v, hv, rfl, rfl⟩ := h
      exact ⟨rfl, .inl ⟨d, hd, hv⟩⟩
    · rename_i hd
      cases h
      exact ⟨rfl, .inr ⟨hd, rfl⟩⟩

theorem processPod_lookup {podRequest : Option PodRequest} {u u' : Updates}
    (h : processPod uid podRequest table u = .done (table', u')) (x : String) :
    table'.lookup x =
      if x = uid then (details podRequest).or (table.lookup x) else table.lookup x := by
  rw [(processPod_done h).1]
  cases details podRequest with
  | none => simp
  | some d => simp [Dict.lookup_insert_ite]

/-- By induction on the pods that are left; no pod is listed twice. -/
theorem processPods_lookup {entries : List (Σ _ : String, Option PodRequest)} :
    ∀ {table table' : Table} {u u' : Updates}, entries.NodupKeys →
      processPods entries table u = .done (table', u') →
      ∀ x, table'.lookup x = ((entries.dlookup x).bind details).or (table.lookup x) := by
  induction entries with
  | nil =>
    intro table table' u u' _ h x
    cases h
    simp
  | cons e rest ih =>
    intro table table' u u' hnodup h x
    obtain ⟨uid, podRequest⟩ := e
    simp only [processPods, bind_eq_done] at h
    obtain ⟨⟨t, v⟩, hpod, hrest⟩ := h
    obtain ⟨hfirst, hnodup⟩ := List.nodupKeys_cons.mp hnodup
    rw [ih hnodup hrest, processPod_lookup hpod]
    by_cases hx : x = uid
    · subst hx
      rw [List.dlookup_eq_none.mpr hfirst, List.dlookup_cons_eq]
      simp
    · rw [List.dlookup_cons_ne _ _ hx, if_neg hx]

theorem processPodsFromAggregator_table {generation : Int}
    {resPods : AList fun _ : String => Option PodRequest} {events : List PodData}
    (h : processPodsFromAggregator generation resPods table = .done (table', events)) :
    (∀ x, x ∈ table' ↔ x ∈ table ∨ Describes resPods.toFinmap x) ∧
      ∀ d ∈ events, d.generation = generation := by
  simp only [processPodsFromAggregator, bind_eq_done, pure_eq, done.injEq, Prod.mk.injEq] at h
  obtain ⟨⟨t, u⟩, hpods, rfl, rfl⟩ := h
  refine ⟨fun x => ?_, by simp⟩
  rw [← Finmap.lookup_isSome, ← Finmap.lookup_isSome, processPods_lookup resPods.nodupKeys hpods,
    Option.isSome_or, Bool.or_eq_true, or_comm]
  rfl

namespace AgentState

variable {a a' : AgentState} {generation : Int}
  {resPods : AList fun _ : String => Option PodRequest}

theorem receive_done (h : a.receive generation resPods = .done a') :
    a'.name = a.name ∧ a'.observed = a.observed ∧
      (∀ x, x ∈ a'.crPodRequest ↔ x ∈ a.crPodRequest ∨ Describes resPods.toFinmap x) ∧
      ∀ d ∈ a'.podInfoChan, d ∈ a.podInfoChan ∨ d.generation = generation := by
  simp only [receive, bind_eq_done, pure_eq, done.injEq] at h
  obtain ⟨⟨table, events⟩, hp, rfl⟩ := h
  obtain ⟨htable, hgen⟩ := processPodsFromAggregator_table hp
  refine ⟨rfl, rfl, htable, fun d hd => ?_⟩
  rcases List.mem_append.mp hd with hd | hd
  · exact .inl hd
  · exact .inr (hgen d hd)

theorem updateReservedPods_ok {nodeName : String}
    (h : a.updateReservedPods nodeName generation resPods = .done (a', .ok ())) :
    a.receive generation resPods = .done a' := by
  unfold updateReservedPods at h
  split_ifs at h with hname
  · cases h
  simp only [bind_eq_done, pure_eq, done.injEq, Prod.mk.injEq] at h
  obtain ⟨b, hb, rfl, -⟩ := h
  exact hb

theorem observe_some {i : Nat} (h : a.observe i = some a') :
    ∃ d ∈ a.podInfoChan, a' = { a with
      podInfoChan := a.podInfoChan.eraseIdx i
      observed := a.observed.insert d.engine d.generation } := by
  unfold observe at h
  split at h
  · rename_i d hd
    cases h
    exact ⟨d, List.mem_of_getElem? hd, rfl⟩
  · cases h

end AgentState

end IOIsolation.Agent
