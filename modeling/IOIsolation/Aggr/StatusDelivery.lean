import IOIsolation.Lib.Run
import IOIsolation.Lib.DedupQueue
import IOIsolation.Aggr.NodeStatus

/-!
# Aggr.StatusDelivery

The way of the cached statuses of all nodes to their custom resources. A report that
`UpdateNodeIOStatus` accepts is merged into the cached status of its node, at once (`direct`) or by
`SendNodeStatustoQueue`, which collects the nodes until its timer ticks and queues their names as
one text. The worker of `StartWorkQueue` takes a text and goes through its nodes: it reads the
resource, copies the cached status into it and writes it back. A read or a write that fails is
logged and the node is passed over; no error comes back, so the text is never queued again.

* `delivered_of_covered` — if a call fails only for a node that is up to date or waits to be written
  once more, then whenever nothing waits, the resource of every reported node has its cached status.
* `not_alwaysDelivered`  — one failed write, and the resource stays behind.
-/

namespace IOIsolation.Aggr.StatusDelivery

open Lib Finmap DedupQueue List

/-! ## Items -/

def joinNodes (nodes : List String) : String :=
  String.ofList ([';'].intercalate (nodes.map String.toList))

def splitNodes (nodesRaw : String) : List String :=
  (nodesRaw.toList.splitOn ';').map String.ofList

/-- The name of a Kubernetes object does not contain the separator. -/
def Plain (node : String) : Prop := ';' ∉ node.toList

instance (node : String) : Decidable (Plain node) := inferInstanceAs (Decidable (¬ _))

theorem splitNodes_joinNodes {nodes : List String} (hne : nodes ≠ [])
    (hplain : ∀ node ∈ nodes, Plain node) : splitNodes (joinNodes nodes) = nodes := by
  have hparts : ∀ l ∈ nodes.map String.toList, ';' ∉ l := by
    intro l hl
    obtain ⟨node, hnode, rfl⟩ := mem_map.mp hl
    exact hplain node hnode
  have hsplit := splitOn_intercalate ';' hparts (by simpa using hne)
  simp [splitNodes, joinNodes, hsplit, Function.comp_def]

variable {node : String} {old : NodeIOStatusStatus}

theorem splitNodes_plain (h : Plain node) : splitNodes node = [node] := by
  have hjoin : joinNodes [node] = node := by simp [joinNodes]
  have hsplit := splitNodes_joinNodes (cons_ne_nil node []) (by simpa using h)
  rwa [hjoin] at hsplit

/-! ## The aggregator -/

/-- The worker of `StartWorkQueue`, inside `updateNodeIOStatus`. -/
inductive Worker where
  | idle
  | next (rest : List String)
  /-- The resource of `node` was read, and `status` was copied into it. -/
  | write (node : String) (status : NodeIOStatusStatus) (rest : List String)
  deriving DecidableEq

def Worker.rest : Worker → List String
  | .idle => []
  | .next rest => rest
  | .write _ _ rest => rest

def Worker.written (node : String) : Worker → Option NodeIOStatusStatus
  | .write n status _ => if n = node then some status else none
  | _ => none

structure State where
  isLeader : Bool
  /-- The nodes of `nodeInfo4Agent`, with the generations of their pod lists. -/
  latestGeneration : Dict String Int
  nodeInfo4Sched : Dict String NodeIOStatusStatus
  nodeStatusCh : List UpdateNodeIOStatusRequest
  updatedNode : List String
  queue : DedupQueue String
  worker : Worker
  /-- The status subresource of the `NodeIOStatus` of each node. -/
  server : Dict String NodeIOStatusStatus
  reported : List String

inductive Event where
  | report (req : UpdateNodeIOStatusRequest)
  | receive
  | tick
  | take
  | get (answered : Bool)
  /-- The worker writes a resource; a write that is done while its answer is lost counts as done. -/
  | update (written : Bool)
  | finish
  | setLeader (isLeader : Bool)
  | stamp (node : String) (generation : Int)

def chanDepth : Nat := 32

/-- `UpdateNodeIOStatus`. The pod list that a report of an old generation makes the aggregator send
again is not a status item. -/
def updateNodeIOStatus (direct : Bool) (req : UpdateNodeIOStatusRequest) (s : State) :
    Except String State :=
  let node := req.nodeName
  let observed := req.observedGeneration
  if s.isLeader = false then .error "aggregator is not leader"
  else
    match s.latestGeneration.lookup node, s.nodeInfo4Sched.lookup node with
    | none, _ => .error s!"node {node} not registed in aggregator cache for node agent"
    | some _, none => .error s!"node {node} not registed in aggregator cache for scheduler"
    | some latest, some status =>
      if observed < latest then
        .error s!"generation inconsistent: reserved generation: {observed}, reserved pod generation {latest}"
      else if direct then
        .ok { s with
          nodeInfo4Sched := s.nodeInfo4Sched.insert node (updateNodeIOStatusCache req status)
          queue := s.queue.add node
          reported := node :: s.reported }
      -- the call waits a second for room in the channel
      else if s.nodeStatusCh.length < chanDepth then
        .ok { s with
          nodeStatusCh := s.nodeStatusCh ++ [req]
          reported := node :: s.reported }
      else .error "io status update has not been sent to scheduler"

def State.goOn (rest : List String) (s : State) : State := { s with worker := .next rest }

def step (direct : Bool) (s : State) : Event → Option State
  | .report req =>
    match updateNodeIOStatus direct req s with
    | .ok s' => some s'
    | .error _ => some s
  | .receive =>
    match s.nodeStatusCh with
    | req :: rest =>
      match s.nodeInfo4Sched.lookup req.nodeName with
      | some status =>
        some { s with
          nodeStatusCh := rest
          nodeInfo4Sched :=
            s.nodeInfo4Sched.insert req.nodeName (updateNodeIOStatusCache req status)
          updatedNode := s.updatedNode ++ [req.nodeName] }
      | none => none
    | [] => none
  | .tick =>
    if s.updatedNode = [] then some s
    else some { s with queue := s.queue.add (joinNodes s.updatedNode), updatedNode := [] }
  | .take =>
    match s.queue.get with
    | some (item, queue) => some { s with queue := queue, worker := .next (splitNodes item) }
    | none => none
  | .get answered =>
    match s.worker with
    | .next (node :: rest) =>
      if answered = true ∧ node ∈ s.server then
        match s.nodeInfo4Sched.lookup node with
        | some status => some { s with worker := .write node status rest }
        | none => none
      else some (s.goOn rest)
    | _ => none
  | .update written =>
    match s.worker with
    | .write node status rest =>
      if written then some ({ s with server := s.server.insert node status }.goOn rest)
      else some (s.goOn rest)
    | _ => none
  | .finish =>
    match s.worker with
    -- the error is always nil, so the item is forgotten
    | .next [] => some { s with worker := .idle, queue := s.queue.done }
    | _ => none
  | .setLeader isLeader => some { s with isLeader := isLeader }
  | .stamp node generation =>
    some { s with latestGeneration := s.latestGeneration.insert node generation }

/-! ## Delivery -/

def State.Quiet (s : State) : Prop :=
  s.queue.Idle ∧ s.nodeStatusCh = [] ∧ s.updatedNode = []

/-- The resource of the node has its cached status. -/
def State.UpToDate (s : State) (node : String) : Prop :=
  s.server.lookup node = s.nodeInfo4Sched.lookup node

structure Start (s : State) : Prop where
  plain : ∀ node ∈ s.nodeInfo4Sched, Plain node
  nodeStatusCh : s.nodeStatusCh = []
  updatedNode : s.updatedNode = []
  queue : s.queue = .empty
  worker : s.worker = .idle
  reported : s.reported = []

/-- In every quiet state the resource of every reported node has its cached status. -/
def AlwaysDelivered : Prop :=
  ∀ (direct : Bool) (s t : State) (es : List Event), Start s → run (step direct) s es = some t →
    t.Quiet → ∀ node ∈ t.reported, t.UpToDate node

/-- The node will still be handled: its report waits in the channel or for a tick, or it is in a
waiting item or in the rest of the item of the worker. -/
def State.Awaits (s : State) (node : String) : Prop :=
  (∃ req ∈ s.nodeStatusCh, req.nodeName = node) ∨ node ∈ s.updatedNode ∨
    (∃ item ∈ s.queue.waiting, node ∈ splitNodes item) ∨ node ∈ s.worker.rest

/-- A call fails only for a node that is up to date or will be handled once more. -/
def Covered (s : State) : Event → Prop
  | .get answered =>
    match s.worker with
    | .next (node :: rest) =>
      (answered = true ∧ node ∈ s.server) ∨ s.UpToDate node ∨ (s.goOn rest).Awaits node
    | _ => True
  | .update written =>
    match s.worker with
    | .write node _ rest => written = true ∨ s.UpToDate node ∨ (s.goOn rest).Awaits node
    | _ => True
  | _ => True

instance (s : State) : Decidable s.Quiet := inferInstanceAs (Decidable (_ ∧ _))

instance (s : State) (node : String) : Decidable (s.UpToDate node) :=
  inferInstanceAs (Decidable (_ = _))

instance (s : State) (node : String) : Decidable (s.Awaits node) :=
  inferInstanceAs (Decidable (_ ∨ _))

instance (s : State) : ∀ e, Decidable (Covered s e)
  | .get answered =>
    match h : s.worker with
    | .next (node :: rest) =>
      decidable_of_iff ((answered = true ∧ node ∈ s.server) ∨ s.UpToDate node ∨
        (s.goOn rest).Awaits node) (by simp [Covered, h])
    | .next [] => .isTrue (by simp [Covered, h])
    | .idle => .isTrue (by simp [Covered, h])
    | .write _ _ _ => .isTrue (by simp [Covered, h])
  | .update written =>
    match h : s.worker with
    | .write node _ rest =>
      decidable_of_iff (written = true ∨ s.UpToDate node ∨ (s.goOn rest).Awaits node)
        (by simp [Covered, h])
    | .next _ => .isTrue (by simp [Covered, h])
    | .idle => .isTrue (by simp [Covered, h])
  | .report _ | .receive | .tick | .take | .finish | .setLeader _ | .stamp _ _ => .isTrue trivial

/-! ## The invariant -/

/-- What the resource has once the write of the worker is done. -/
def State.upcoming (s : State) (node : String) : Option NodeIOStatusStatus :=
  (s.worker.written node).or (s.server.lookup node)

/-- The node will still be handled, or nothing is left to do for it. -/
def State.Due (s : State) (node : String) : Prop :=
  s.Awaits node ∨ s.upcoming node = s.nodeInfo4Sched.lookup node

theorem upcoming_goOn (s : State) (rest : List String) (node : String) :
    (s.goOn rest).upcoming node = s.server.lookup node := rfl

theorem upcoming_of_written {s : State} (h : s.worker.written node = none) :
    s.upcoming node = s.server.lookup node := by
  simp [State.upcoming, h]

structure Inv (s : State) : Prop where
  plain : ∀ node ∈ s.nodeInfo4Sched, Plain node
  channel : ∀ req ∈ s.nodeStatusCh, req.nodeName ∈ s.nodeInfo4Sched
  updated : ∀ node ∈ s.updatedNode, node ∈ s.nodeInfo4Sched
  worker : s.queue.processing = none → s.worker = .idle
  due : ∀ node ∈ s.reported, s.Due node

theorem inv_of_start {s : State} (h : Start s) : Inv s where
  plain := h.plain
  channel := by simp [h.nodeStatusCh]
  updated := by simp [h.updatedNode]
  worker := fun _ => h.worker
  due := by simp [h.reported]

variable {direct : Bool} {s s' : State}

theorem upToDate_of_due (hq : s.Quiet) (hidle : s.worker = .idle) (h : s.Due node) :
    s.UpToDate node := by
  obtain ⟨hqueue, hch, hup⟩ := hq
  rcases h with h | h
  · simp [State.Awaits, hch, hup, waiting_eq_nil_of_idle hqueue, hidle, Worker.rest] at h
  · simpa [State.upcoming, hidle, Worker.written, State.UpToDate] using h

theorem State.Due.mono (h : s.Due node)
    (hcache : s'.nodeInfo4Sched.lookup node = s.nodeInfo4Sched.lookup node)
    (hupcoming : s'.upcoming node = s.upcoming node) (hawaits : s.Awaits node → s'.Awaits node) :
    s'.Due node := by
  refine h.imp hawaits fun h => ?_
  rw [hcache, hupcoming, h]

variable {status : NodeIOStatusStatus} {req : UpdateNodeIOStatusRequest}

theorem mem_cache_insert {cache : Dict String NodeIOStatusStatus} {key : String}
    (hold : cache.lookup key = some old) : node ∈ cache.insert key status ↔ node ∈ cache := by
  rw [mem_insert]
  constructor
  · rintro (rfl | h)
    · exact mem_of_lookup_eq_some hold
    · exact h
  · exact .inr

theorem inv_direct (hold : s.nodeInfo4Sched.lookup node = some old) (hI : Inv s) :
    Inv { s with
      nodeInfo4Sched := s.nodeInfo4Sched.insert node status
      queue := s.queue.add node
      reported := node :: s.reported } where
  plain := fun n hn => hI.plain n ((mem_cache_insert hold).mp hn)
  channel := fun req hreq => (mem_cache_insert hold).mpr (hI.channel req hreq)
  updated := fun n hn => (mem_cache_insert hold).mpr (hI.updated n hn)
  worker := fun h => hI.worker (processing_add_eq_none.mp h)
  due := by
    intro n hn
    have hplain : Plain node := hI.plain node (mem_of_lookup_eq_some hold)
    by_cases heq : n = node
    · subst heq
      exact .inl (.inr (.inr (.inl ⟨n, mem_waiting_add.mpr (.inl rfl),
        by simp [splitNodes_plain hplain]⟩)))
    have hold := hI.due n ((mem_cons.mp hn).resolve_left heq)
    refine hold.mono (lookup_insert_of_ne _ heq) rfl ?_
    rintro (h | h | ⟨item, hitem, h⟩ | h)
    · exact .inl h
    · exact .inr (.inl h)
    · exact .inr (.inr (.inl ⟨item, mem_waiting_add.mpr (.inr hitem), h⟩))
    · exact .inr (.inr (.inr h))

theorem inv_send (hold : s.nodeInfo4Sched.lookup req.nodeName = some old) (hI : Inv s) :
    Inv { s with
      nodeStatusCh := s.nodeStatusCh ++ [req]
      reported := req.nodeName :: s.reported } where
  __ := hI
  channel := by
    intro r hr
    rcases mem_append.mp hr with hr | hr
    · exact hI.channel r hr
    · rw [mem_singleton.mp hr]
      exact mem_of_lookup_eq_some hold
  due := by
    intro n hn
    rcases mem_cons.mp hn with rfl | hn
    · exact .inl (.inl ⟨req, by simp, rfl⟩)
    refine (hI.due n hn).mono rfl rfl ?_
    rintro (⟨r, hr, h⟩ | h)
    · exact .inl ⟨r, mem_append_left _ hr, h⟩
    · exact .inr h

theorem inv_report (hI : Inv s) (h : updateNodeIOStatus direct req s = .ok s') : Inv s' := by
  simp only [updateNodeIOStatus] at h
  rw [if_neg (fun hl => by simp [hl] at h)] at h
  split at h
  · cases h
  · cases h
  rename_i latest status hlatest hstatus
  split_ifs at h
  · cases h
    exact inv_direct hstatus hI
  · cases h
    exact inv_send hstatus hI

theorem inv_receive (hI : Inv s) (h : step direct s .receive = some s') : Inv s' := by
  simp only [step] at h
  split at h
  · rename_i req rest hch
    split at h
    · rename_i status hstatus
      cases h
      have hreq : req.nodeName ∈ s.nodeInfo4Sched := mem_of_lookup_eq_some hstatus
      refine ⟨?_, ?_, ?_, hI.worker, ?_⟩
      · exact fun n hn => hI.plain n ((mem_cache_insert hstatus).mp hn)
      · intro r hr
        refine (mem_cache_insert hstatus).mpr (hI.channel r ?_)
        rw [hch]
        exact mem_cons_of_mem _ hr
      · intro n hn
        refine (mem_cache_insert hstatus).mpr ?_
        rcases mem_append.mp hn with hn | hn
        · exact hI.updated n hn
        · rw [mem_singleton.mp hn]
          exact hreq
      · intro n hn
        by_cases heq : n = req.nodeName
        · -- the merged node waits for the next tick
          exact .inl (.inr (.inl (by simp [heq])))
        refine (hI.due n hn).mono (lookup_insert_of_ne _ heq) rfl ?_
        rintro (⟨r, hr, h⟩ | h | h)
        · rw [hch] at hr
          rcases mem_cons.mp hr with rfl | hr
          · exact absurd h.symm heq
          · exact .inl ⟨r, hr, h⟩
        · exact .inr (.inl (mem_append_left _ h))
        · exact .inr (.inr h)
    · cases h
  · cases h

/-- The collected nodes become one item, which splits into them again. -/
theorem inv_tick (hI : Inv s) (h : step direct s .tick = some s') : Inv s' := by
  simp only [step] at h
  split_ifs at h with hnil
  · cases h
    exact hI
  cases h
  have hsplit : splitNodes (joinNodes s.updatedNode) = s.updatedNode :=
    splitNodes_joinNodes hnil fun n hn => hI.plain n (hI.updated n hn)
  refine ⟨hI.plain, hI.channel, by simp, fun h => hI.worker (processing_add_eq_none.mp h), ?_⟩
  intro n hn
  refine (hI.due n hn).mono rfl rfl ?_
  rintro (h | h | ⟨item, hitem, h⟩ | h)
  · exact .inl h
  · exact .inr (.inr (.inl ⟨_, mem_waiting_add.mpr (.inl rfl), by rwa [hsplit]⟩))
  · exact .inr (.inr (.inl ⟨item, mem_waiting_add.mpr (.inr hitem), h⟩))
  · exact .inr (.inr (.inr h))

theorem inv_take (hI : Inv s) (h : step direct s .take = some s') : Inv s' := by
  simp only [step] at h
  split at h
  · rename_i item queue hget
    cases h
    obtain ⟨hnone, -, hsome⟩ := get_cases hget
    have hidle : s.worker = .idle := hI.worker hnone
    refine ⟨hI.plain, hI.channel, hI.updated, fun h => ?_, ?_⟩
    · rw [hsome] at h
      cases h
    intro n hn
    refine (hI.due n hn).mono rfl (by simp [State.upcoming, hidle, Worker.written]) ?_
    rintro (h | h | ⟨i, hi, h⟩ | h)
    · exact .inl h
    · exact .inr (.inl h)
    · rcases (mem_waiting_get hget).mp hi with rfl | hi
      · exact .inr (.inr (.inr h))
      · exact .inr (.inr (.inl ⟨i, hi, h⟩))
    · simp [hidle, Worker.rest] at h
  · cases h

variable {rest : List String}

theorem awaits_goOn {n : String} (hne : n ≠ node)
    (hrest : s.worker.rest ⊆ node :: rest) (h : s.Awaits n) : (s.goOn rest).Awaits n := by
  rcases h with h | h | h | h
  · exact .inl h
  · exact .inr (.inl h)
  · exact .inr (.inr (.inl h))
  · exact .inr (.inr (.inr ((mem_cons.mp (hrest h)).resolve_left hne)))

theorem inv_passOver (hI : Inv s) (hbusy : s.worker ≠ .idle)
    (hrest : s.worker.rest ⊆ node :: rest) (hwritten : ∀ n, n ≠ node → s.worker.written n = none)
    (hcovered : s.UpToDate node ∨ (s.goOn rest).Awaits node) : Inv (s.goOn rest) := by
  refine ⟨hI.plain, hI.channel, hI.updated, fun h => absurd (hI.worker h) hbusy, ?_⟩
  intro n hn
  by_cases heq : n = node
  · subst heq
    exact hcovered.symm
  · refine (hI.due n hn).mono rfl ?_ (awaits_goOn heq hrest)
    rw [upcoming_goOn, upcoming_of_written (hwritten n heq)]

theorem inv_get {answered : Bool} (hI : Inv s) (hc : Covered s (.get answered))
    (h : step direct s (.get answered) = some s') : Inv s' := by
  simp only [step] at h
  split at h
  · rename_i node rest hw
    have hbusy : s.worker ≠ .idle := by simp [hw]
    split_ifs at h with hok
    · split at h
      · rename_i status hstatus
        cases h
        refine ⟨hI.plain, hI.channel, hI.updated, fun h => absurd (hI.worker h) hbusy, ?_⟩
        intro n hn
        by_cases heq : n = node
        · subst heq
          exact .inr (by simp [State.upcoming, Worker.written, hstatus])
        · refine (hI.due n hn).mono rfl ?_ (awaits_goOn heq (by simp [hw, Worker.rest]))
          simp [State.upcoming, Worker.written, hw, Ne.symm heq]
      · cases h
    · cases h
      simp only [Covered, hw] at hc
      exact inv_passOver hI hbusy (by simp [hw, Worker.rest]) (by simp [hw, Worker.written])
        (hc.resolve_left hok)
  · cases h

theorem inv_update {written : Bool} (hI : Inv s) (hc : Covered s (.update written))
    (h : step direct s (.update written) = some s') : Inv s' := by
  simp only [step] at h
  split at h
  · rename_i node status rest hw
    have hbusy : s.worker ≠ .idle := by simp [hw]
    have hrest : s.worker.rest ⊆ node :: rest := by simp [hw, Worker.rest]
    have hother : ∀ n, n ≠ node → s.worker.written n = none := fun n hne => by
      simp [hw, Worker.written, Ne.symm hne]
    split_ifs at h with hok
    · cases h
      refine ⟨hI.plain, hI.channel, hI.updated, fun h => absurd (hI.worker h) hbusy, ?_⟩
      intro n hn
      by_cases heq : n = node
      · subst heq
        refine (hI.due n hn).mono rfl (by simp [State.upcoming, Worker.written, State.goOn, hw]) ?_
        rintro (h | h | h | h)
        · exact .inl h
        · exact .inr (.inl h)
        · exact .inr (.inr (.inl h))
        · exact .inr (.inr (.inr (by simpa [hw, Worker.rest, State.goOn] using h)))
      · refine (hI.due n hn).mono rfl ?_ (awaits_goOn heq hrest)
        rw [upcoming_goOn, upcoming_of_written (hother n heq)]
        exact lookup_insert_of_ne _ heq
    · cases h
      simp only [Covered, hw] at hc
      exact inv_passOver hI hbusy hrest hother (hc.resolve_left hok)
  · cases h

theorem inv_finish (hI : Inv s) (h : step direct s .finish = some s') : Inv s' := by
  simp only [step] at h
  split at h
  · rename_i hw
    cases h
    refine ⟨hI.plain, hI.channel, hI.updated, fun _ => rfl, ?_⟩
    intro n hn
    refine (hI.due n hn).mono rfl (by simp [State.upcoming, hw, Worker.written]) ?_
    rintro (h | h | ⟨item, hitem, h⟩ | h)
    · exact .inl h
    · exact .inr (.inl h)
    · exact .inr (.inr (.inl ⟨item, mem_waiting_done.mpr hitem, h⟩))
    · simp [hw, Worker.rest] at h
  · cases h

theorem step_inv (s : State) (e : Event) (s' : State) (h : step direct s e = some s')
    (hc : Covered s e) (hI : Inv s) : Inv s' := by
  cases e with
  | report req =>
    simp only [step] at h
    split at h
    · rename_i t ht
      cases h
      exact inv_report hI ht
    · cases h
      exact hI
  | receive => exact inv_receive hI h
  | tick => exact inv_tick hI h
  | take => exact inv_take hI h
  | get answered => exact inv_get hI hc h
  | update written => exact inv_update hI hc h
  | finish => exact inv_finish hI h
  | setLeader | stamp =>
    cases h
    exact { hI with }

/-- In a run in which a call fails only for a node that is up to date or will be handled once more,
every quiet state has the cached statuses of all reported nodes in their resources. -/
theorem delivered_of_covered {t : State} {es : List Event} (hs : Start s)
    (hcovered : Along (step direct) Covered s es) (hrun : run (step direct) s es = some t)
    (hq : t.Quiet) : ∀ node ∈ t.reported, t.UpToDate node := by
  have hI : Inv t := run_invariant step_inv (inv_of_start hs) hcovered hrun
  intro node hnode
  exact upToDate_of_due hq (hI.worker hq.1.2) (hI.due node hnode)

/-! ## A failed write -/

def start : State where
  isLeader := true
  latestGeneration := Finmap.singleton "worker-1" 0
  nodeInfo4Sched := Finmap.singleton "worker-1" ⟨0, ∅⟩
  nodeStatusCh := []
  updatedNode := []
  queue := .empty
  worker := .idle
  server := Finmap.singleton "worker-1" ⟨0, ∅⟩
  reported := []

theorem start_start : Start start := ⟨by decide +kernel, rfl, rfl, rfl, rfl, rfl⟩

/-- A report is merged, its node is queued, and the worker has read the resource of the node. -/
def reportAndRead (generation : Int) : List Event :=
  [.report ⟨"worker-1", generation, []⟩, .receive, .tick, .take, .get true]

/-- A second report comes before the failed write, so that the node is written again. -/
def retried : List Event :=
  reportAndRead 1 ++ [Event.report ⟨"worker-1", 2, []⟩, .update false, .finish, .receive, .tick,
    .take, .get true, .update true, .finish]

theorem delivered_of_covered_retry :
    ∃ t, run (step false) start retried = some t ∧ t.reported = ["worker-1", "worker-1"] ∧
      t.UpToDate "worker-1" := by
  obtain ⟨t, ht, hreported, hquiet⟩ : ∃ t ∈ run (step false) start retried,
      t.reported = ["worker-1", "worker-1"] ∧ t.Quiet := by decide +kernel
  refine ⟨t, ht, hreported, ?_⟩
  exact delivered_of_covered start_start (by decide +kernel) ht hquiet "worker-1"
    (by simp [hreported])

/-- The only write of the status fails; nothing waits afterwards, and the resource has the old
status. -/
theorem not_alwaysDelivered : ¬ AlwaysDelivered := by
  intro h
  obtain ⟨t, ht, hreported, hquiet, hstale⟩ : ∃ t ∈ run (step false) start
      (reportAndRead 1 ++ [.update false, .finish]),
      "worker-1" ∈ t.reported ∧ t.Quiet ∧ ¬ t.UpToDate "worker-1" := by decide +kernel
  exact hstale (h false start t _ start_start ht hquiet "worker-1" hreported)

end IOIsolation.Aggr.StatusDelivery
