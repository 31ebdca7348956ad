import IOIsolation.Aggr.PodList
import IOIsolation.Agent.DiskPods

/-!
# Aggr.PodListComplete

Builder and consumer of pod lists together. A list is complete if it names the pods of the spec, no
more and no less, and the disk engine of the agent that receives it visits each of these pods that it
has an entry for: the entries it does not visit it marks as stopped.

* `processPods_takes` — which pods the event for the disk engine has, and on which disks.
* `complete_iff`      — which answers of the API server make a list complete.
-/

namespace IOIsolation
namespace Agent

open Lib Outcome Dict

/-! ## The event for the disk engine -/

def Takes (events : PodEvents) (dev uid : String) : Prop :=
  ∃ info, (events.lookup dev).bind (·.lookup uid) = some info ∧ info.podName ≠ ""

def OnDisk (dev : String) (r : IOResourceRequest) : Prop :=
  r.ioType = .diskIo ∧ r.devRequest.map (·.devName) = some dev

instance (dev : String) (r : IOResourceRequest) : Decidable (OnDisk dev r) :=
  inferInstanceAs (Decidable (_ ∧ _))

/-- What is known of a pod has its name and a request for the disk. -/
def KnownOn (dev : String) (d : Option Details) : Prop :=
  ∃ det ∈ d, det.podRequest.podName ≠ "" ∧ ∃ r ∈ det.podRequest.request, OnDisk dev r

variable {uid podName : String} {u u' : Updates} {r : IOResourceRequest} {info : PodRunInfo}
  {table table' : Table}

theorem takes_setPod {events : PodEvents} {dev : String} (d x : String) :
    Takes (setPod dev uid info events) d x ↔
      if d = dev ∧ x = uid then info.podName ≠ "" else Takes events d x := by
  unfold Takes setPod
  by_cases hd : d = dev
  · subst hd
    by_cases hx : x = uid
    · subst hx
      simp
    · cases events.lookup d <;> simp [hx]
  · simp [hd]

theorem processRequest_takes (h : processRequest uid podName u r = .done u') (d x : String) :
    Takes u'.disk d x ↔ if x = uid ∧ OnDisk d r then podName ≠ "" else Takes u.disk d x := by
  simp only [processRequest, bind_eq_done, ofOption_eq_done] at h
  obtain ⟨dev, hdev, request, -, limit, -, rawRequest, -, rawLimit, -, h⟩ := h
  cases ht : r.ioType <;> rw [ht] at h <;> cases h
  case diskIo =>
    rw [takes_setPod]
    simp only [OnDisk, ht, hdev, Option.map_some, Option.some.injEq, true_and, and_comm, eq_comm]
  all_goals simp [OnDisk, ht]

theorem processRequests_takes {requests : List IOResourceRequest}
    (h : requests.foldlM (processRequest uid podName) u = .done u') (d x : String) :
    Takes u'.disk d x ↔
      if x = uid ∧ ∃ r ∈ requests, OnDisk d r then podName ≠ "" else Takes u.disk d x := by
  induction requests generalizing u with
  | nil =>
    cases h
    simp
  | cons r rest ih =>
    obtain ⟨v, hr, hrest⟩ := bind_eq_done.mp h
    rw [ih hrest, processRequest_takes hr]
    by_cases hx : x = uid <;> by_cases hd : OnDisk d r <;> simp [hx, hd]

theorem processPod_takes {podRequest : Option PodRequest}
    (h : processPod uid podRequest table u = .done (table', u'))
    (hnew : ∀ d, ¬ Takes u.disk d uid) (d x : String) :
    Takes u'.disk d x ↔ Takes u.disk d x ∨ x = uid ∧ KnownOn d (table'.lookup x) := by
  rcases (processPod_done h).2 with ⟨det, hdet, hrequests⟩ | ⟨hnone, rfl⟩
  · rw [processRequests_takes hrequests]
    by_cases hx : x = uid
    · subst hx
      simp only [hdet, KnownOn, Option.mem_some_iff, exists_eq_left', hnew d, true_and, false_or]
      split_ifs with hon <;> simp [hon]
    · simp [hx]
  · have hunknown : ¬ (x = uid ∧ KnownOn d (table'.lookup x)) := by
      rintro ⟨rfl, det, hdet, -⟩
      rw [hnone] at hdet
      cases hdet
    rw [or_iff_left hunknown]

/-- The event has the listed pods on the disks of what the agent knows of them in the end. By induction
on the pods that are left; no pod is listed twice. -/
theorem processPods_takes {entries : List (Σ _ : String, Option PodRequest)} :
    ∀ {table table' : Table} {u u' : Updates}, entries.NodupKeys →
      processPods entries table u = .done (table', u') →
      (∀ x ∈ entries.keys, ∀ d, ¬ Takes u.disk d x) →
      ∀ d x, Takes u'.disk d x ↔
        Takes u.disk d x ∨ x ∈ entries.keys ∧ KnownOn d (table'.lookup x) := by
  induction entries with
  | nil =>
    intro table table' u u' _ h _
    cases h
    simp
  | cons e rest ih =>
    intro table table' u u' hnodup h hnew d x
    obtain ⟨uid, podRequest⟩ := e
    simp only [processPods, bind_eq_done] at h
    obtain ⟨⟨t, v⟩, hpod, hrest⟩ := h
    obtain ⟨hfirst, hothers⟩ := List.nodupKeys_cons.mp hnodup
    rw [List.keys_cons, List.forall_mem_cons] at hnew
    have hv := processPod_takes hpod hnew.1
    have hnew' : ∀ x ∈ rest.keys, ∀ d, ¬ Takes v.disk d x := by
      intro x hx d hd
      rcases (hv d x).mp hd with hd | ⟨rfl, -⟩
      · exact hnew.2 x hx d hd
      · exact hfirst hx
    rw [ih hothers hrest hnew', hv, List.keys_cons, List.mem_cons]
    by_cases hx : x = uid
    · subst hx
      rw [processPods_lookup hothers hrest, List.dlookup_eq_none.mpr hfirst]
      simp [hfirst]
    · simp [hx]

end Agent

namespace Aggr

open Lib
open Agent (Table PodEngine PodEventList processPodsFromAggregator visited details Details KnownOn Takes)

/-- The agent processes the list, and its disk engine gets the event in some order of the maps. -/
def Received (l : ReservedPodList) (table : Table) (event : PodEventList) : Prop :=
  ∃ (resPods : AList fun _ : String => Option PodRequest) (table' : Table)
    (events : List Agent.PodData) (data : Agent.PodData), resPods.toFinmap = l.podList ∧
    processPodsFromAggregator l.generation resPods table = .done (table', events) ∧
    data ∈ events ∧ data.engine = .disk ∧
    ∀ dev uid, event.listed dev uid = (data.podEvents.lookup dev).bind (·.lookup uid)

/-- The list names exactly the pods of the spec, and the disk engine marks none of them as stopped:
it visits all of them that it has an entry for. -/
structure Complete (l : ReservedPodList) (pods : Dict String PodName) (e : PodEngine)
    (event : PodEventList) : Prop where
  exact : l.podList.keys = pods.keys
  kept : ∀ uid ∈ pods, uid ∈ e.podRegInfos → uid ∈ visited e event

theorem Received.mem_visited {l : ReservedPodList} {table : Table} {event : PodEventList}
    (h : Received l table event) (e : PodEngine) (uid : String) :
    uid ∈ visited e event ↔ uid ∈ l.podList ∧ ∃ dev ∈ e.wgDevices,
      KnownOn dev (((l.podList.lookup uid).bind details).or (table.lookup uid)) := by
  obtain ⟨resPods, table', events, data, hl, hproc, hdata, hdisk, hevent⟩ := h
  simp only [processPodsFromAggregator, Outcome.bind_eq_done, Outcome.pure_eq, Outcome.done.injEq,
    Prod.mk.injEq] at hproc
  obtain ⟨⟨t, u⟩, hpods, rfl, rfl⟩ := hproc
  have htable := Agent.processPods_lookup resPods.nodupKeys hpods
  have htakes := Agent.processPods_takes resPods.nodupKeys hpods (by simp [Takes])
  have hpodEvents : data.podEvents = u.disk := by
    simp only [List.mem_cons, List.not_mem_nil, or_false] at hdata
    rcases hdata with rfl | rfl | rfl | rfl <;> first | rfl | cases hdisk
  have hvisited : uid ∈ visited e event ↔ ∃ dev ∈ e.wgDevices, Takes u.disk dev uid := by
    simp only [visited, List.mem_toFinset, List.mem_map, List.mem_filter, decide_eq_true_eq, Takes,
      ← hpodEvents, ← hevent]
    constructor
    · rintro ⟨⟨dev, podId, info⟩, ⟨hp, hdev, hname⟩, rfl⟩
      exact ⟨dev, hdev, info, Agent.mem_pods.mp hp, hname⟩
    · rintro ⟨dev, hdev, info, hp, hname⟩
      exact ⟨⟨dev, uid, info⟩, ⟨Agent.mem_pods.mpr hp, hdev, hname⟩, rfl⟩
  have hnone : ∀ dev, ¬ Takes ∅ dev uid := by simp [Takes]
  simp only [hvisited, htakes, hnone, false_or, ← hl, Finmap.lookup_toFinmap, Finmap.mem_toFinmap,
    htable]
  constructor
  · rintro ⟨dev, hdev, hlisted, hknown⟩
    exact ⟨hlisted, dev, hdev, hknown⟩
  · rintro ⟨hlisted, dev, hdev, hknown⟩
    exact ⟨dev, hdev, hlisted, hknown⟩

section Readable

variable (unmarshal : String → Option AllocatedIOList)

/-- The `Get` finds the pod, and its annotation, if it has one, can be read. -/
def Readable (answer : Except String Pod) : Prop :=
  ∃ p, answer = .ok p ∧ ∀ v, p.annotations.lookup allocatedIOAnno = some v → unmarshal v ≠ none

theorem podEntry_ne_none {answer : Except String Pod} :
    podEntry unmarshal answer ≠ none ↔ Readable unmarshal answer := by
  cases answer with
  | error message => simp [podEntry, Readable]
  | ok p =>
    cases hanno : p.annotations.lookup allocatedIOAnno with
    | none => simp [podEntry, Readable, hanno]
    | some v =>
      cases hv : unmarshal v with
      | none | some => simp [podEntry, Readable, hanno, hv]

/-- What the agent knows of a pod of the spec: what the annotation of a new pod says, or else what the
agent has already. -/
def knownOf (get : String → PodName → Except String Pod) (added : Dict String PodName) (table : Table)
    (uid : String) : Option Details :=
  ((added.lookup uid).bind fun v => (podEntry unmarshal (get uid v)).bind details).or
    (table.lookup uid)

/-- A list is complete exactly if every new pod of the spec could be looked up (the `Get` succeeds, and
the annotation is absent or readable), and every pod of the spec that the disk engine has an entry for
is known with a request for a disk of the engine. -/
theorem complete_iff (get : String → PodName → Except String Pod) (gen : Int)
    (pods added : Dict String PodName) {table : Table} {e : PodEngine} {event : PodEventList}
    (h : Received (getPodList unmarshal get gen pods added) table event) :
    Complete (getPodList unmarshal get gen pods added) pods e event ↔
      (∀ uid ∈ pods, ∀ v, added.lookup uid = some v → Readable unmarshal (get uid v)) ∧
        ∀ uid ∈ pods, uid ∈ e.podRegInfos →
          ∃ dev ∈ e.wgDevices, KnownOn dev (knownOf unmarshal get added table uid) := by
  have hmem : ∀ uid, uid ∈ (getPodList unmarshal get gen pods added).podList ↔
      uid ∈ pods ∧ ∀ v, added.lookup uid = some v → Readable unmarshal (get uid v) := by
    intro uid
    rw [← Finmap.lookup_isSome, getPodList, Dict.lookup_filterMapVals, ← Finmap.lookup_isSome]
    cases pods.lookup uid with
    | none => simp
    | some name =>
      cases hv : added.lookup uid with
      | none => simp
      | some v => simp [← podEntry_ne_none, Option.isSome_iff_ne_none]
  have hknown : ∀ uid ∈ pods, ((getPodList unmarshal get gen pods added).podList.lookup uid).bind
      details = (added.lookup uid).bind fun v => (podEntry unmarshal (get uid v)).bind details := by
    intro uid huid
    obtain ⟨name, hname⟩ := Finmap.mem_iff.mp huid
    rw [getPodList, Dict.lookup_filterMapVals, hname]
    cases added.lookup uid <;> rfl
  constructor
  · rintro ⟨hexact, hkept⟩
    refine ⟨fun uid huid => ((hmem uid).mp ?_).2, fun uid huid hreg => ?_⟩
    · exact Finmap.mem_keys.mp (hexact ▸ Finmap.mem_keys.mpr huid)
    · have hdev := ((h.mem_visited e uid).mp (hkept uid huid hreg)).2
      rwa [hknown uid huid] at hdev
  · rintro ⟨hread, hdisk⟩
    have hall : ∀ uid, uid ∈ (getPodList unmarshal get gen pods added).podList ↔ uid ∈ pods :=
      fun uid => (hmem uid).trans (and_iff_left_of_imp fun huid => hread uid huid)
    refine ⟨Finset.ext fun uid => ?_, fun uid huid hreg => ?_⟩
    · rw [Finmap.mem_keys, Finmap.mem_keys, hall]
    · refine (h.mem_visited e uid).mpr ⟨(hall uid).mpr huid, ?_⟩
      rw [hknown uid huid]
      exact hdisk uid huid hreg

end Readable

def sdaPods : Dict String PodName := Finmap.singleton "uid" ⟨"pod", "default"⟩

def sdaAnnotation : AllocatedIOList :=
  AList.singleton .diskIo (AList.singleton "sda"
    ⟨.gaIndex, ⟨1, 2, 0, 0⟩, ⟨1, 2, 0, 0⟩, ⟨1, 2, 0, 0⟩, ⟨1, 2, 0, 0⟩⟩)

def getAnnotated (_ : String) (v : PodName) : Except String Pod :=
  .ok ⟨"uid", v.name, v.ns, "node", Finmap.singleton allocatedIOAnno "", []⟩

def sdaInfo : Agent.PodRunInfo :=
  ⟨⟨1, 2, 0, 0⟩, ⟨1, 2, 0, 0⟩, ⟨1, 2, 0, 0⟩, ⟨1, 2, 0, 0⟩, .gaIndex, "pod"⟩

/-- A new pod with an annotation, which the engine has heard of from the container runtime. -/
theorem complete_annotated :
    Complete (getPodList (fun _ => some sdaAnnotation) getAnnotated 1 sdaPods sdaPods) sdaPods
      { PodEngine.fresh ∅ ["sda"] ∅ [] with podRegInfos := Finmap.singleton "uid" .blank }
      (AList.singleton "sda" (AList.singleton "uid" sdaInfo)) := by
  have hreceived : Received (getPodList (fun _ => some sdaAnnotation) getAnnotated 1 sdaPods sdaPods)
      ∅ (AList.singleton "sda" (AList.singleton "uid" sdaInfo)) :=
    ⟨AList.singleton "uid" (some (formatPodRequest "pod" "default" sdaAnnotation)), _, _,
      ⟨.disk, 1, Finmap.singleton "sda" (Finmap.singleton "uid" sdaInfo)⟩, by decide +kernel, rfl,
      by decide +kernel, rfl, fun dev uid => by
        by_cases h : dev = "sda"
        · subst h
          rfl
        · simp [PodEventList.listed, Finmap.singleton, AList.lookup, AList.singleton,
            List.dlookup_cons_ne, h]⟩
  refine (complete_iff _ getAnnotated 1 sdaPods sdaPods hreceived).mpr ⟨?_, ?_⟩
  · exact fun uid _ v _ => ⟨_, rfl, fun _ _ h => by cases h⟩
  · intro uid huid _
    obtain rfl : uid = "uid" := by simpa [sdaPods] using huid
    exact ⟨"sda", List.mem_cons_self, _, rfl, by decide, _, List.mem_cons_self, by decide⟩

/-- The `Get` of a reserved pod fails once: the list that is built then does not name the pod. -/
theorem not_alwaysComplete :
    ¬ ∀ (unmarshal : String → Option AllocatedIOList)
        (get : String → PodName → Except String Pod) (gen : Int) (pods added : Dict String PodName)
        (table : Table) (e : PodEngine) (event : PodEventList),
        Received (getPodList unmarshal get gen pods added) table event →
        Complete (getPodList unmarshal get gen pods added) pods e event := by
  intro h
  have hexact := (h (fun _ => none) (fun _ _ => .error "connection refused") 1
    (Finmap.singleton "uid" ⟨"pod", "default"⟩) (Finmap.singleton "uid" ⟨"pod", "default"⟩) ∅
    (.fresh ∅ [] ∅ []) ∅
    ⟨∅, ∅, _, ⟨.disk, 1, ∅⟩, by decide +kernel, rfl, List.mem_cons_self, rfl, fun _ _ => rfl⟩).exact
  exact absurd hexact (by decide +kernel)

end Aggr
end IOIsolation
