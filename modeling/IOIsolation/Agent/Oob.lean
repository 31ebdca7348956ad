import IOIsolation.Agent.Registration
import IOIsolation.Lib.Path

/-!
# Agent.Oob

The out-of-band server of the agent, for nodes without NRI: it watches the cgroup directories of
pods and containers, keeps the pods that the kubelet lists, and tells the agent when a pod runs or
stops. The notification channel is never full here.

A pod's directory is named after its uid, with underscores for the dashes.

* `parsePodId_podSlice` — the id read from a pod's directory.
* `start_reported_iff`  — when a start leaves a run notification as the pod's last one.
* `refresh_released_iff`, `removal_released_iff` — when a pod that is gone is out of the cache.
* `timely_iff`          — the same over all events.
-/

namespace IOIsolation.Agent.Oob

open Lib Finmap Lib.Path List Option

/-! ## Names of directories -/

/-- `strings.ReplaceAll` of one character by another. -/
def replaceChar (old new : Char) (s : String) : String :=
  String.ofList (s.toList.map fun c => if c = old then new else c)

/-- `strings.ReplaceAll` of a text by nothing; the number counts characters of a match to skip. -/
def cutText (text : List Char) : ℕ → List Char → List Char
  | _, [] => []
  | k + 1, _ :: cs => cutText text k cs
  | 0, c :: cs =>
    if text.isPrefixOf (c :: cs) then cutText text (text.length - 1) cs
    else c :: cutText text 0 cs

def between (basename : String) (pattern : String × String) : Option String :=
  if pattern.1.toList.isPrefixOf basename.toList && pattern.2.toList.isSuffixOf basename.toList then
    some (String.ofList ((basename.toList.drop pattern.1.toList.length).take
      (basename.toList.length - pattern.1.toList.length - pattern.2.toList.length)))
  else none

def parseId (what : String) (patterns : List (String × String)) (basename : String) :
    Except String String :=
  match patterns.findSome? (between basename) with
  | some id => .ok id
  | none => .error ("fail to parse " ++ what ++ " id: " ++ basename)

def parsePodId (basename : String) : Except String String :=
  parseId "pod" [("kubepods-besteffort-pod", ".slice"), ("kubepods-burstable-pod", ".slice"),
    ("kubepods-pod", ".slice")] basename

def parseContainerId (basename : String) : Except String String :=
  parseId "container" [("docker-", ".scope"), ("cri-containerd-", ".scope")] basename

inductive QosClass where
  | guaranteed
  | burstable
  | bestEffort
  deriving DecidableEq

/-- What systemd makes of the dashes of a uid. -/
def escape (uid : String) : String := replaceChar '-' '_' uid

def podSlice (qos : QosClass) (uid : String) : String :=
  match qos with
  | .guaranteed => "kubepods-pod" ++ escape uid ++ ".slice"
  | .burstable => "kubepods-burstable-pod" ++ escape uid ++ ".slice"
  | .bestEffort => "kubepods-besteffort-pod" ++ escape uid ++ ".slice"

theorem between_append (pre id suf : String) :
    between (pre ++ id ++ suf) (pre, suf) = some id := by
  have hlist : (pre ++ id ++ suf).toList = pre.toList ++ (id.toList ++ suf.toList) := by simp
  have hlen : (pre.toList ++ (id.toList ++ suf.toList)).length - pre.toList.length -
      suf.toList.length = id.toList.length := by
    simp only [length_append]
    omega
  unfold between
  rw [hlist, hlen, drop_left, take_left, String.ofList_toList]
  have hsuf : suf.toList.isSuffixOf (pre.toList ++ (id.toList ++ suf.toList)) = true := by
    rw [← append_assoc, isSuffixOf_iff_suffix]
    exact suffix_append _ _
  have hpre : pre.toList.isPrefixOf (pre.toList ++ (id.toList ++ suf.toList)) = true := by
    rw [ isPrefixOf_iff_prefix]
    exact prefix_append _ _
  rw [hpre, hsuf]
  rfl

theorem between_other {pre other : String} {rest : String}
    (h : other.toList.isPrefixOf (pre.toList ++ rest.toList) = false) (suf : String) :
    between (pre ++ rest) (other, suf) = none := by
  unfold between
  rw [String.toList_append, h]
  rfl

theorem parsePodId_podSlice (qos : QosClass) (uid : String) :
    parsePodId (podSlice qos uid) = .ok (escape uid) := by
  unfold parsePodId parseId podSlice
  cases qos with
  | guaranteed =>
    have h₁ : between ("kubepods-pod" ++ escape uid ++ ".slice")
        ("kubepods-besteffort-pod", ".slice") = none := by
      rw [String.append_assoc]
      exact between_other rfl ".slice"
    have h₂ : between ("kubepods-pod" ++ escape uid ++ ".slice")
        ("kubepods-burstable-pod", ".slice") = none := by
      rw [String.append_assoc]
      exact between_other rfl ".slice"
    simp only [findSome?_cons, h₁, h₂, between_append]
  | burstable =>
    have h₁ : between ("kubepods-burstable-pod" ++ escape uid ++ ".slice")
        ("kubepods-besteffort-pod", ".slice") = none := by
      rw [String.append_assoc]
      exact between_other rfl ".slice"
    simp only [findSome?_cons, h₁, between_append]
  | bestEffort => simp only [findSome?_cons, between_append]

/-! ## The server -/

structure Pod where
  uid : String
  ns : String
  deriving DecidableEq

structure ContainerEvent where
  podId : String
  containerId : String
  cgroupPath : String
  deriving DecidableEq

structure OobServer where
  pods : Dict String Pod
  sentPodsCache : Finset String
  deriving DecidableEq

structure Notification where
  podId : String
  info : NriInfo
  deriving DecidableEq

/-- The bits of the operations, as they are printed. -/
def opText : Operation → String
  | .stopPod => "1"
  | .runPod => "2"
  | .stopContainer => "4"

def podCacheId (newPodId : String) (op : Operation) : String := newPodId ++ " " ++ opText op

def newPodId (podId : String) : String := replaceChar '_' '-' podId

/-- The notification about a pod. The network namespace of a stop is a nil entry, which the engines
skip. -/
def podData (container : ContainerEvent) (netns : String) (op : Operation) (pod : Pod) :
    Notification :=
  let cgroupPath := String.ofList (cutText "/opt/ioi/cgroup".toList 0 container.cgroupPath.toList)
  { podId := newPodId container.podId
    info :=
      { operation := op
        ns := pod.ns
        netNamespace := if op = .runPod then [("network", netns)] else []
        cgroupPath := dir (dir cgroupPath) } }

/-- The entry of a run is made before the pod is looked up, and a stop deletes the entry of a
stop. -/
def analysisOOBData (o : OobServer) (container : ContainerEvent) (netns : String) (op : Operation) :
    OobServer × Option Notification :=
  let id := newPodId container.podId
  if op = .runPod ∧ podCacheId id op ∈ o.sentPodsCache then (o, none)
  else
    let sent := if op = .runPod then insert (podCacheId id op) o.sentPodsCache
      else o.sentPodsCache.erase (podCacheId id op)
    ({ o with sentPodsCache := sent }, (o.pods.lookup id).map (podData container netns op))

/-- Pods are only added. -/
def addPods (items : List Pod) (pods : Dict String Pod) : Dict String Pod :=
  items.foldl (fun pods p => pods.insert p.uid p) pods

/-- `none` is an error of the kubelet. -/
def getAllPods (o : OobServer) : Option (List Pod) → OobServer
  | some items => { o with pods := addPods items o.pods }
  | none => o

def containerEvent (name : String) : Option ContainerEvent :=
  match parseContainerId (base name), parsePodId (base (dir name)) with
  | .ok containerId, .ok podId => some ⟨podId, containerId, name⟩
  | _, _ => none

def taskIdEvent (name : String) : Option ContainerEvent :=
  match parseContainerId (base (dir name)), parsePodId (base (dir (dir name))) with
  | .ok containerId, .ok podId => some ⟨podId, containerId, name⟩
  | _, _ => none

/-- A container that `FindCgroupInfoInPod` finds in a pod's directory when the server starts. -/
def foundEvent (path file : String) : Option ContainerEvent :=
  match parseContainerId (base file), parsePodId (base path) with
  | .ok containerId, .ok podId => some ⟨podId, containerId, path⟩
  | _, _ => none

/-! ## Runs -/

/-- The events, in the order in which they are handled: directories of pods and containers appear
and go, a container gets its tasks, and the kubelet is asked for its pods. -/
inductive Event where
  | podCreated (name : String) (answer : Option (List Pod))
  | podRemoved (name : String)
  | containerCreated (name : String)
  | containerRemoved (name : String)
  | taskIdDone (name : String) (netns : String)
  | found (path file : String) (netns : String)
  | refresh (answer : Option (List Pod))
  deriving DecidableEq

/-- The server and what has been seen so far: the notifications, the directories of pods that are
gone, the uids of the kubelet's last answer, and the known pods with a start and no stop since. -/
structure State where
  server : OobServer
  sent : List Notification
  gone : Finset String
  listed : Finset String
  started : Finset String
  deriving DecidableEq

def begin : State := ⟨⟨∅, ∅⟩, [], ∅, ∅, ∅⟩

def uids (items : List Pod) : Finset String := (items.map Pod.uid).toFinset

def refreshed (s : State) (answer : Option (List Pod)) : State :=
  { s with
    server := getAllPods s.server answer
    listed := match answer with
      | some items => uids items
      | none => s.listed }

def notified (s : State) (ev : ContainerEvent) (netns : String) (op : Operation) : State :=
  let r := analysisOOBData s.server ev netns op
  { s with server := r.1, sent := s.sent ++ r.2.toList }

def startOf (s : State) (ev : ContainerEvent) (netns : String) : State :=
  let s' := notified s ev netns .runPod
  if newPodId ev.podId ∈ s.server.pods then
    { s' with started := insert (newPodId ev.podId) s.started }
  else s'

def stopOf (s : State) (ev : ContainerEvent) : State :=
  { notified s ev "" .stopPod with started := s.started.erase (newPodId ev.podId) }

/-- Names that cannot be parsed make no container event. -/
def ifParsed (s : State) (ev : Option ContainerEvent) (f : ContainerEvent → State) : State :=
  match ev with
  | some ev => f ev
  | none => s

def step (s : State) : Event → Option State
  | .podCreated name answer => some (refreshed { s with gone := s.gone.erase (base name) } answer)
  | .podRemoved name =>
    -- A name that cannot be parsed is sent on as the empty id.
    let id := match parsePodId (base name) with
      | .ok id => id
      | .error _ => ""
    some { s with
      server := { s.server with pods := s.server.pods.erase id }
      gone := insert (base name) s.gone }
  | .containerCreated _ => some s
  | .containerRemoved name => some (ifParsed s (containerEvent name) (stopOf s))
  | .taskIdDone name netns => some (ifParsed s (taskIdEvent name) fun ev => startOf s ev netns)
  | .found path file netns => some (ifParsed s (foundEvent path file) fun ev => startOf s ev netns)
  | .refresh answer => some (refreshed s answer)

/-! ## What the agent is told -/

def lastOp (sent : List Notification) (pod : String) : Option Operation :=
  ((sent.filter fun n => n.podId = pod).getLast?).map fun n => n.info.operation

/-- A pod with a start and no stop since was last reported as running. -/
def Reported (s : State) : Prop := ∀ pod ∈ s.started, lastOp s.sent pod = some .runPod

/-- A pod whose directory is gone and which the kubelet no longer lists is not in the cache. -/
def Released (s : State) : Prop :=
  ∀ qos pod, podSlice qos pod ∈ s.gone → pod ∉ s.listed → pod ∉ s.server.pods

def Timely (s : State) : Prop := Reported s ∧ Released s

/-- A start of a known pod is the first one, or comes after a run notification. -/
def GoodStart (s : State) (ev : ContainerEvent) : Prop :=
  newPodId ev.podId ∈ s.server.pods →
    podCacheId (newPodId ev.podId) .runPod ∉ s.server.sentPodsCache ∨
      lastOp s.sent (newPodId ev.podId) = some .runPod

/-- The kubelet lists every pod of the cache whose directory is gone. -/
def GoodAnswer (s : State) (gone : Finset String) (answer : Option (List Pod)) : Prop :=
  ∀ items, answer = some items → ∀ qos pod, podSlice qos pod ∈ gone → pod ∈ s.server.pods →
    pod ∈ uids items

/-- What an event has to be. A pod whose directory goes after the kubelet has stopped listing it has
a uid without dashes. -/
def Good (s : State) : Event → Prop
  | .podCreated name answer => GoodAnswer s (s.gone.erase (base name)) answer
  | .podRemoved name => ∀ qos pod, base name = podSlice qos pod → pod ∈ s.server.pods →
      pod ∉ s.listed → escape pod = pod
  | .containerCreated _ => True
  | .containerRemoved _ => True
  | .taskIdDone name _ => ∀ ev, taskIdEvent name = some ev → GoodStart s ev
  | .found path file _ => ∀ ev, foundEvent path file = some ev → GoodStart s ev
  | .refresh answer => GoodAnswer s s.gone answer

variable {pod netns : String} {ev : ContainerEvent} {op : Operation} {s s' : State}

theorem lastOp_append_other {sent : List Notification} {n : Option Notification}
    (h : ∀ m, n = some m → m.podId ≠ pod) : lastOp (sent ++ n.toList) pod = lastOp sent pod := by
  cases n with
  | none => rw [toList_none, append_nil]
  | some m => simp [lastOp, filter_append, h m rfl]

variable {n : Notification}

theorem lastOp_append_self (sent : List Notification) (h : n.podId = pod) :
    lastOp (sent ++ [n]) pod = some n.info.operation := by
  simp [lastOp, filter_append, h]

theorem podId_of_analysis {o : OobServer} (h : (analysisOOBData o ev netns op).2 = some n) :
    n.podId = newPodId ev.podId := by
  unfold analysisOOBData at h
  dsimp only at h
  split_ifs at h
  all_goals
    obtain ⟨pod, -, rfl⟩ := map_eq_some_iff.mp h
    rfl

theorem pods_analysis (o : OobServer) (ev : ContainerEvent) (netns : String) (op : Operation) :
    (analysisOOBData o ev netns op).1.pods = o.pods := by
  unfold analysisOOBData
  dsimp only
  split_ifs <;> rfl

theorem lastOp_notified_other (h : pod ≠ newPodId ev.podId) :
    lastOp (notified s ev netns op).sent pod = lastOp s.sent pod := by
  refine lastOp_append_other fun m hm => ?_
  rw [podId_of_analysis hm]
  exact h.symm

theorem lastOp_notified_again (h : podCacheId (newPodId ev.podId) .runPod ∈ s.server.sentPodsCache) :
    lastOp (notified s ev netns .runPod).sent pod = lastOp s.sent pod := by
  unfold notified analysisOOBData
  simp [h]

theorem lastOp_notified_new (hnew : podCacheId (newPodId ev.podId) .runPod ∉ s.server.sentPodsCache)
    (hpod : newPodId ev.podId ∈ s.server.pods) :
    lastOp (notified s ev netns .runPod).sent (newPodId ev.podId) = some .runPod := by
  obtain ⟨pod, hlookup⟩ := mem_iff.mp hpod
  have hsent : (notified s ev netns .runPod).sent = s.sent ++ [podData ev netns .runPod pod] := by
    unfold notified analysisOOBData
    simp [hnew, hlookup]
  rw [hsent]
  exact lastOp_append_self s.sent rfl

theorem lastOp_notified_unknown (h : newPodId ev.podId ∉ s.server.pods) :
    lastOp (notified s ev netns op).sent pod = lastOp s.sent pod := by
  have hnone : (analysisOOBData s.server ev netns op).2 = none := by
    unfold analysisOOBData
    dsimp only
    rw [lookup_eq_none.mpr h]
    split_ifs <;> rfl
  unfold notified
  dsimp only
  rw [hnone, toList_none, append_nil]

/-! ## One event -/

theorem released_congr (hgone : s'.gone = s.gone) (hlisted : s'.listed = s.listed)
    (hpods : s'.server.pods = s.server.pods) : Released s' ↔ Released s := by
  unfold Released
  rw [hgone, hlisted, hpods]

theorem released_startOf : Released (startOf s ev netns) ↔ Released s := by
  refine released_congr ?_ ?_ ?_
  · unfold startOf; dsimp only; split_ifs <;> rfl
  · unfold startOf; dsimp only; split_ifs <;> rfl
  · unfold startOf
    split_ifs <;> exact pods_analysis _ _ _ _

theorem start_reported_iff (h : Reported s) : Reported (startOf s ev netns) ↔ GoodStart s ev := by
  unfold startOf GoodStart
  by_cases hpod : newPodId ev.podId ∈ s.server.pods
  · simp only [hpod, if_true, forall_const]
    constructor
    · intro hs
      by_cases hold : podCacheId (newPodId ev.podId) .runPod ∈ s.server.sentPodsCache
      · have hlast := hs (newPodId ev.podId) (Finset.mem_insert_self _ _)
        exact .inr ((lastOp_notified_again hold).symm.trans hlast)
      · exact .inl hold
    · intro hgood pod hmem
      by_cases hself : pod = newPodId ev.podId
      · subst hself
        by_cases hold : podCacheId (newPodId ev.podId) .runPod ∈ s.server.sentPodsCache
        · exact (lastOp_notified_again hold).trans (hgood.resolve_left (not_not_intro hold))
        · exact lastOp_notified_new hold hpod
      · exact (lastOp_notified_other hself).trans
          (h pod (Finset.mem_of_mem_insert_of_ne hmem hself))
  · -- The pod is not known: nothing is sent, and nothing is asked of the server.
    simp only [hpod, if_false, false_imp_iff, iff_true]
    intro pod hmem
    exact (lastOp_notified_unknown hpod).trans (h pod hmem)

theorem stop_reported (h : Reported s) : Reported (stopOf s ev) := by
  intro pod hmem
  obtain ⟨hne, hmem⟩ := Finset.mem_erase.mp hmem
  exact (lastOp_notified_other hne).trans (h pod hmem)

theorem released_stopOf : Released (stopOf s ev) ↔ Released s :=
  released_congr rfl rfl (pods_analysis _ _ _ _)

theorem mem_addPods {items : List Pod} {pods : Dict String Pod} :
    pod ∈ addPods items pods ↔ pod ∈ uids items ∨ pod ∈ pods := by
  induction items generalizing pods with
  | nil => simp [addPods, uids]
  | cons p items ih =>
    have hcons : addPods (p :: items) pods = addPods items (pods.insert p.uid p) := rfl
    rw [hcons, ih, mem_insert]
    simp only [uids, map_cons, toFinset_cons, Finset.mem_insert]
    tauto

theorem refresh_released_iff {answer : Option (List Pod)} {gone : Finset String}
    (hsub : gone ⊆ s.gone) (h : Released s) :
    Released (refreshed { s with gone := gone } answer) ↔ GoodAnswer s gone answer := by
  cases answer with
  | none =>
    refine iff_of_true (fun qos pod hgone hlisted => ?_) fun items h => by cases h
    exact h qos pod (hsub hgone) hlisted
  | some items =>
    simp only [Released, refreshed, getAllPods, GoodAnswer, some.injEq, forall_eq', mem_addPods]
    refine forall_congr' fun qos => forall_congr' fun pod => forall_congr' fun _ => ?_
    tauto

theorem removal_released_iff {name : String} (hstep : step s (.podRemoved name) = some s')
    (h : Released s) : Released s' ↔ Good s (.podRemoved name) := by
  obtain rfl := some.inj hstep
  simp only [Released, Good, mem_erase, Finset.mem_insert]
  constructor
  · intro hs qos pod hname hpod hlisted
    rw [hname, parsePodId_podSlice] at hs
    by_contra hne
    exact hs qos pod (.inl rfl) hlisted ⟨Ne.symm hne, hpod⟩
  · rintro hgood qos pod (hname | hgone) hlisted ⟨hne, hpod⟩
    · rw [← hname, parsePodId_podSlice] at hne
      exact hne (hgood qos pod hname.symm hpod hlisted).symm
    · exact h qos pod hgone hlisted hpod

theorem start_timely_iff (ev : Option ContainerEvent) (netns : String) (h : Timely s) :
    Timely (ifParsed s ev fun ev => startOf s ev netns) ↔ ∀ e, ev = some e → GoodStart s e := by
  cases ev with
  | none => exact iff_of_true h fun e he => by cases he
  | some ev =>
    simp only [ifParsed, Timely, released_startOf, start_reported_iff h.1, some.injEq, forall_eq']
    exact and_iff_left h.2

theorem stop_timely (ev : Option ContainerEvent) (h : Timely s) :
    Timely (ifParsed s ev (stopOf s)) := by
  cases ev with
  | none => exact h
  | some ev => exact ⟨stop_reported h.1, released_stopOf.mpr h.2⟩

theorem step_timely_iff {e : Event} (hstep : step s e = some s') (h : Timely s) :
    Timely s' ↔ Good s e := by
  cases e with
  | podCreated name answer =>
    obtain rfl := some.inj hstep
    exact (and_iff_right h.1).trans (refresh_released_iff (Finset.erase_subset _ _) h.2)
  | podRemoved name =>
    have hrep : Reported s' := by
      obtain rfl := some.inj hstep
      exact h.1
    exact (and_iff_right hrep).trans (removal_released_iff hstep h.2)
  | containerCreated name =>
    obtain rfl := some.inj hstep
    exact iff_of_true h trivial
  | containerRemoved name =>
    obtain rfl := some.inj hstep
    exact iff_of_true (stop_timely _ h) trivial
  | taskIdDone name netns | found path file netns =>
    obtain rfl := some.inj hstep
    exact start_timely_iff _ netns h
  | refresh answer =>
    obtain rfl := some.inj hstep
    exact (and_iff_right h.1).trans (refresh_released_iff (Finset.Subset.refl _) h.2)

theorem step_isSome (s : State) (e : Event) : step s e ≠ none := by
  cases e <;> exact some_ne_none _

/-! ## Whole runs -/

def AlwaysTimely : Prop := ∀ es s, run step begin es = some s → Timely s

/-- The agent and the cache are up to date after each event exactly if each event is good: no pod is
started again after a stop, and none before the kubelet lists it; no pod with a dash in its uid is
still in the cache when its directory goes after the kubelet has stopped listing it; and no pod is
listed beyond its directory. -/
theorem timely_iff (es : List Event) :
    (∀ pre s, pre <+: es → run step begin pre = some s → Timely s) ↔ Along step Good begin es := by
  refine always_iff_along (I := fun _ => True) (fun s e s' hstep _ h => step_timely_iff hstep h)
    (fun _ _ _ _ _ _ _ => trivial) (fun s e hnone _ => absurd hnone (step_isSome s e)) trivial ?_
  constructor
  · intro pod h
    cases h
  · intro qos pod h
    cases h

def webSlice : String := "/kubepods.slice/kubepods-pod1_2.slice"

def webScope : String := webSlice ++ "/docker-c.scope"

/-- A pod that the kubelet lists from the beginning; its container starts, stops and starts again. -/
def restart : List Event :=
  [.podCreated webSlice (some [⟨"1-2", "default"⟩]),
    .taskIdDone (webScope ++ "/cgroup.procs") "/var/run/netns/a",
    .containerRemoved webScope,
    .taskIdDone (webScope ++ "/cgroup.procs") "/var/run/netns/b"]

theorem not_alwaysTimely : ¬ AlwaysTimely := by
  intro h
  obtain ⟨s, hs, hstarted, hlast⟩ : ∃ s ∈ run step begin restart,
      "1-2" ∈ s.started ∧ lastOp s.sent "1-2" ≠ some .runPod := by
    decide +kernel
  exact hlast ((h restart s hs).1 "1-2" hstarted)

end IOIsolation.Agent.Oob
