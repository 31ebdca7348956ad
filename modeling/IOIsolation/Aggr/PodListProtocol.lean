import IOIsolation.Lib.Run
import IOIsolation.Lib.WorkQueue
import IOIsolation.Aggr.PodList

/-!
# Aggr.PodListProtocol

The way of a pod list from the spec of a node to its agent. One goroutine of the aggregator takes
the specs from a channel, caches their pods, raises the latest generation and queues a list that
carries the requests of the new pods only. The queue worker drops a list of an older generation
and sends the others to the agent; a call that fails is queued again. The agent can also ask for
the list, and a report with an old generation makes the aggregator queue the whole list again.

The goroutine takes no lock and the calls of the agent do, so the steps of both interleave; a call
that timed out can still reach the agent later.

* `detailed_of_detailsKept` — if every list is built while the agent knows the pods that it lists
  without requests (or is just being told), the agent always knows the pods of the generation it
  reports.
* `not_alwaysDetailed`      — without that it does not: a list that is overtaken in the queue is
  dropped with the requests only it carries.
-/

namespace IOIsolation.Aggr.PodListProtocol

open Lib
open Agent (AgentState Describes Engine)

structure Setting where
  node : String
  unmarshal : String → Option AllocatedIOList

/-- Where `SendReservedPodtoQueue` is: it has cached the pods of a spec, or also its generation. -/
inductive Sender where
  | idle
  | cached (spec : NodeIOStatusSpec) (added : Dict String PodName)
  | stamped (spec : NodeIOStatusSpec) (added : Dict String PodName)
  deriving DecidableEq

/-- The call of the agent that holds the mutex of the aggregator. -/
inductive Handler where
  | free
  | stale
  | resync (reservedPods : Dict String PodName)
  | getReservedPods (generation : Int)
  deriving DecidableEq

inductive Rpc where
  | idle
  | sent
  | delivered
  deriving DecidableEq

structure State where
  /-- Every spec the node has had, the newest first. -/
  specs : List NodeIOStatusSpec
  reservedPodCh : List NodeIOStatusSpec
  sender : Sender
  info : NodeInfo4Agent
  isLeader : Bool
  queue : WorkQueue UpdateReservedPodsRequest
  rpc : Rpc
  /-- Lists whose call has failed, but which may still reach the agent. -/
  late : List UpdateReservedPodsRequest
  handler : Handler
  /-- Answers to `GetReservedPods` on their way. -/
  responses : List ReservedPodList
  agent : AgentState
  deriving DecidableEq

/-- The answers of the API server to the `Get`s of one list. -/
abbrev PodAnswers : Type := String → PodName → Except String Pod

abbrev PodOrder : Type := AList fun _ : String => Option PodRequest

inductive Event where
  /-- A new spec; `seen` if the informer hands it out before the next one replaces it. -/
  | update (spec : NodeIOStatusSpec) (seen : Bool)
  | receive
  | stamp
  | send (get : PodAnswers)
  | take
  | check
  | deliver (order : PodOrder)
  | finish (err : Option String)
  | expire (i : Nat)
  | deliverLate (i : Nat) (order : PodOrder)
  | report (observedGeneration : Int)
  | reread
  | resync (get : PodAnswers)
  | getReservedPods
  | answer (get : PodAnswers)
  | respond (i : Nat) (order : PodOrder)
  | observe (i : Nat)
  | setLeader (isLeader : Bool)
  | connect

def State.addSpec (s : State) (spec : NodeIOStatusSpec) (seen : Bool) : State :=
  { s with
    specs := spec :: s.specs
    reservedPodCh := if seen then s.reservedPodCh ++ [spec] else s.reservedPodCh }

variable (S : Setting)

def step (s : State) : Event → Option State
  | .update spec seen =>
    if spec.nodeName = S.node ∧ ∀ x ∈ s.specs, x.generation < spec.generation then
      some (s.addSpec spec seen)
    else none
  | .receive =>
    match s.sender, s.reservedPodCh with
    | .idle, spec :: rest =>
      some { s with
        reservedPodCh := rest
        sender := .cached spec (addedPods s.info.pods spec.reservedPods)
        info := { s.info with reservedPod := reservedPodsOf spec } }
    | _, _ => none
  | .stamp =>
    match s.sender with
    | .cached spec added =>
      some { s with
        sender := .stamped spec added
        info := { s.info with latestGeneration := spec.generation } }
    | _ => none
  | .send get =>
    match s.sender with
    | .stamped spec added =>
      if s.isLeader then
        let podList := getPodList S.unmarshal get spec.generation spec.reservedPods added
        some { s with sender := .idle, queue := s.queue.add ⟨spec.nodeName, podList⟩ }
      else some { s with sender := .idle }
    | _ => none
  | .take =>
    match s.queue.get with
    | some (_, q) => some { s with queue := q }
    | none => none
  -- `updatePodList` up to the call
  | .check =>
    match s.queue.processing, s.rpc with
    | some pl, .idle =>
      if pl.reservedPods.generation < s.info.latestGeneration then
        some { s with queue := s.queue.done }
      else if s.info.client then some { s with rpc := .sent }
      else some { s with queue := s.queue.done }
    | _, _ => none
  | .deliver order =>
    match s.queue.processing, s.rpc with
    | some pl, .sent =>
      if order.toFinmap = pl.reservedPods.podList then
        match s.agent.updateReservedPods pl.nodeName pl.reservedPods.generation order with
        | .done (agent, .ok ()) => some { s with agent := agent, rpc := .delivered }
        | _ => none
      else none
    | _, _ => none
  | .finish err =>
    match s.queue.processing, s.rpc, err with
    | some _, .delivered, none => some { s with queue := s.queue.done, rpc := .idle }
    | some pl, .delivered, some _ =>
      some { s with queue := s.queue.done.addRateLimited pl, rpc := .idle }
    | some pl, .sent, some _ =>
      some { s with
        queue := s.queue.done.addRateLimited pl, rpc := .idle, late := s.late ++ [pl] }
    | _, _, _ => none
  | .expire i =>
    match s.queue.expire i with
    | some q => some { s with queue := q }
    | none => none
  | .deliverLate i order =>
    match s.late[i]? with
    | some pl =>
      if order.toFinmap = pl.reservedPods.podList then
        match s.agent.updateReservedPods pl.nodeName pl.reservedPods.generation order with
        | .done (agent, .ok ()) => some { s with agent := agent, late := s.late.eraseIdx i }
        | _ => none
      else none
    | none => none
  -- the branch of `UpdateNodeIOStatus` for an old generation
  | .report observedGeneration =>
    match s.handler with
    | .free =>
      if s.isLeader ∧ observedGeneration < s.info.latestGeneration ∧ s.info.client ∧
          s.info.reservedPod ≠ none then
        some { s with handler := .stale }
      else some s
    | _ => none
  | .reread =>
    match s.handler with
    | .stale => some { s with handler := .resync s.info.pods }
    | _ => none
  | .resync get =>
    match s.handler with
    | .resync reservedPods =>
      let podList :=
        getPodList S.unmarshal get s.info.latestGeneration reservedPods reservedPods
      some { s with handler := .free, queue := s.queue.add ⟨S.node, podList⟩ }
    | _ => none
  | .getReservedPods =>
    match s.handler with
    | .free =>
      if s.isLeader then some { s with handler := .getReservedPods s.info.latestGeneration }
      else some s
    | _ => none
  | .answer get =>
    match s.handler with
    | .getReservedPods generation =>
      let existingPods := s.info.pods
      let podList := getPodList S.unmarshal get generation existingPods existingPods
      some { s with handler := .free, responses := s.responses ++ [podList] }
    | _ => none
  | .respond i order =>
    match s.responses[i]? with
    | some l =>
      if order.toFinmap = l.podList then
        match s.agent.receive l.generation order with
        | .done agent => some { s with agent := agent, responses := s.responses.eraseIdx i }
        | _ => none
      else none
    | none => none
  | .observe i =>
    match s.agent.observe i with
    | some agent => some { s with agent := agent }
    | none => none
  | .setLeader isLeader =>
    if s.handler = .free then some { s with isLeader := isLeader } else none
  | .connect =>
    if s.handler = .free then some { s with info := { s.info with client := true } } else none

/-- The agent knows every pod that the spec of the generation lists. -/
def KnowsAll (s : State) (generation : Int) : Prop :=
  ∀ spec ∈ s.specs, spec.generation = generation → ∀ uid ∈ spec.reservedPods.keys,
    uid ∈ s.agent.crPodRequest

/-- An engine that has handled a pod list of a generation, and reports it, knows its pods. -/
def Detailed (s : State) : Prop :=
  ∀ k generation, s.agent.observed.lookup k = some generation → KnowsAll s generation

/-- The aggregator has just registered the node and put its spec into the channel. -/
structure Start (s : State) : Prop where
  name : s.agent.name = S.node
  spec : ∃ spec, s.specs = [spec] ∧ s.reservedPodCh = [spec] ∧ spec.nodeName = S.node ∧
    s.info.latestGeneration ≤ spec.generation
  sender : s.sender = .idle
  queue : s.queue = .empty
  rpc : s.rpc = .idle
  late : s.late = []
  handler : s.handler = .free
  responses : s.responses = []
  events : s.agent.podInfoChan = []
  observed : s.agent.observed = ∅

/-- In every run, the agent knows the pods of the generation it reports. -/
def AlwaysDetailed : Prop :=
  ∀ (S : Setting) (s t : State) (es : List Event), Start S s → run (step S) s es = some t →
    Detailed t

/-! ## The condition -/

def State.inFlight (s : State) : Option ReservedPodList :=
  match s.rpc with
  | .sent => s.queue.processing.map (·.reservedPods)
  | _ => none

/-- The requests of the pod are on their way in a list of an older generation. -/
def State.OnTheWay (s : State) (generation : Int) (uid : String) : Prop :=
  ∃ l ∈ s.inFlight, l.generation < generation ∧ Describes l.podList uid

instance (s : State) (generation : Int) (uid : String) :
    Decidable (s.OnTheWay generation uid) :=
  inferInstanceAs (Decidable (∃ l ∈ s.inFlight, _))

/-- The `Get` that is made for the pod finds it, with requests in its annotation. -/
def Told (get : PodAnswers) (pods added : Dict String PodName) (uid : String) : Prop :=
  uid ∈ pods ∧ ∃ v ∈ added.lookup uid, Found S.unmarshal (get uid v)

instance (get : PodAnswers) (pods added : Dict String PodName) (uid : String) :
    Decidable (Told S get pods added uid) :=
  inferInstanceAs (Decidable (_ ∧ _))

/-- Every pod of the spec of the generation is in the list that is built with its requests, or
known to the agent, or meets `other`. -/
def Complete (get : PodAnswers) (generation : Int) (pods added : Dict String PodName)
    (other : String → Prop) (s : State) : Prop :=
  ∀ spec ∈ s.specs, spec.generation = generation → ∀ uid ∈ spec.reservedPods.keys,
    (Told S get pods added uid ∨ other uid) ∨ uid ∈ s.agent.crPodRequest

instance (get : PodAnswers) (generation : Int) (pods added : Dict String PodName)
    (other : String → Prop) [DecidablePred other] (s : State) :
    Decidable (Complete S get generation pods added other s) :=
  inferInstanceAs (Decidable (∀ spec ∈ s.specs, _ → _))

/-- When the list for a new spec is built, every pod it leaves without requests is known to the
agent, or on its way. -/
def SendKept (get : PodAnswers) (s : State) : Sender → Bool → Prop
  | .stamped spec added, true =>
    Complete S get spec.generation spec.reservedPods added (s.OnTheWay spec.generation) s
  | _, _ => True

instance (get : PodAnswers) (s : State) : ∀ snd leader, Decidable (SendKept S get s snd leader)
  | .stamped _ _, true => inferInstanceAs (Decidable (Complete S get _ _ _ _ s))
  | .stamped _ _, false | .cached _ _, _ | .idle, _ => inferInstanceAs (Decidable True)

/-- When another list is built, every pod it leaves without requests is known to the agent. -/
def AnswerKept (get : PodAnswers) (s : State) : Handler → Prop
  | .resync pods => Complete S get s.info.latestGeneration pods pods (fun _ => False) s
  | .getReservedPods generation =>
    Complete S get generation s.info.pods s.info.pods (fun _ => False) s
  | _ => True

instance (get : PodAnswers) (s : State) : ∀ h, Decidable (AnswerKept S get s h)
  | .resync _ => inferInstanceAs (Decidable (Complete S get _ _ _ (fun _ => False) s))
  | .getReservedPods _ => inferInstanceAs (Decidable (Complete S get _ _ _ (fun _ => False) s))
  | .free | .stale => inferInstanceAs (Decidable True)

/-- The requests of a pod are not lost: every list is built when the agent knows the pods that are
without requests in it, or they are on their way, and a call that fails before it reached the
agent has not been overtaken by a newer spec, unless the agent knows the pods of its list. -/
def DetailsKept (s : State) : Event → Prop
  | .send get => SendKept S get s s.sender s.isLeader
  | .resync get | .answer get => AnswerKept S get s s.handler
  | .finish (some _) => ∀ l ∈ s.inFlight, l.generation = s.info.latestGeneration ∨
      ∀ uid ∈ l.podList.keys, Describes l.podList uid → uid ∈ s.agent.crPodRequest
  | _ => True

instance (s : State) : ∀ e, Decidable (DetailsKept S s e)
  | .send get => inferInstanceAs (Decidable (SendKept S get s s.sender s.isLeader))
  | .resync get | .answer get => inferInstanceAs (Decidable (AnswerKept S get s s.handler))
  | .finish (some _) => inferInstanceAs (Decidable (∀ l ∈ s.inFlight, _))
  | .finish none | .update _ _ | .receive | .stamp | .take | .check | .deliver _ | .expire _
  | .deliverLate _ _ | .report _ | .reread | .getReservedPods | .respond _ _ | .observe _
  | .setLeader _ | .connect => inferInstanceAs (Decidable True)

/-! ## Generations that are safe to report -/

variable {S} {s s' : State}

def Issued (s : State) (generation : Int) : Prop := ∃ x ∈ s.specs, generation ≤ x.generation

/-- Once the agent knows the pods with `D`, it knows all of the generation. -/
def Safe (s : State) (generation : Int) (D : String → Prop) : Prop :=
  Issued s generation ∧ ∀ spec ∈ s.specs, spec.generation = generation →
    ∀ uid ∈ spec.reservedPods.keys, D uid ∨ uid ∈ s.agent.crPodRequest

/-- A newer spec may have come, and the agent may have got to know pods. -/
structure Grows (s s' : State) : Prop where
  specs : s'.specs = s.specs ∨
    ∃ spec, s'.specs = spec :: s.specs ∧ ∀ x ∈ s.specs, x.generation < spec.generation
  table : ∀ uid ∈ s.agent.crPodRequest, uid ∈ s'.agent.crPodRequest

theorem Grows.mem_specs (h : Grows s s') {x : NodeIOStatusSpec} (hx : x ∈ s.specs) :
    x ∈ s'.specs := by
  rcases h.specs with hs | ⟨spec, hs, -⟩
  · exact hs ▸ hx
  · exact hs ▸ List.mem_cons_of_mem _ hx

variable {generation : Int} {pl : UpdateReservedPodsRequest} {agent : AgentState} {order : PodOrder}
  {i : Nat} {get : PodAnswers}

theorem Issued.grows (h : Issued s generation) (hg : Grows s s') : Issued s' generation := by
  obtain ⟨x, hx, hle⟩ := h
  exact ⟨x, hg.mem_specs hx, hle⟩

variable {D D' : String → Prop} {l : ReservedPodList} {q : WorkQueue UpdateReservedPodsRequest}
  {rpc : Rpc}

/-- A new spec has a newer generation, so it adds nothing to know for this one. -/
theorem Safe.grows (h : Safe s generation D) (hg : Grows s s')
    (hD : ∀ uid, D uid → D' uid ∨ uid ∈ s'.agent.crPodRequest) : Safe s' generation D' := by
  obtain ⟨hissued, hknown⟩ := h
  refine ⟨hissued.grows hg, fun spec hspec hgen uid huid => ?_⟩
  have hold : spec ∈ s.specs := by
    rcases hg.specs with hs | ⟨new, hs, hnew⟩
    · exact hs ▸ hspec
    rw [hs] at hspec
    rcases List.mem_cons.mp hspec with rfl | hspec
    · obtain ⟨x, hx, hle⟩ := hissued
      have := hnew x hx
      omega
    · exact hspec
  rcases hknown spec hold hgen uid huid with h | h
  · exact hD uid h
  · exact .inr (hg.table uid h)

theorem Safe.imp (h : Safe s generation D) (hD : ∀ uid, D uid → D' uid) : Safe s generation D' :=
  h.grows ⟨.inl rfl, fun _ h => h⟩ fun uid hu => .inl (hD uid hu)

theorem Safe.knowsAll (h : Safe s generation fun _ => False) : KnowsAll s generation := by
  intro spec hspec hgen uid huid
  exact (h.2 spec hspec hgen uid huid).resolve_left id

/-! ## The invariant -/

/-- The specs the sender has not given a generation yet, in the order it will. -/
def State.incoming (s : State) : List NodeIOStatusSpec :=
  match s.sender with
  | .cached spec _ => spec :: s.reservedPodCh
  | _ => s.reservedPodCh

/-- Generations only rise. -/
structure Ordered (s : State) : Prop where
  latest : Issued s s.info.latestGeneration
  handler : ∀ generation, s.handler = .getReservedPods generation → Issued s generation
  incoming : ∀ spec ∈ s.incoming,
    s.info.latestGeneration ≤ spec.generation ∧ Issued s spec.generation
  sorted : s.incoming.Pairwise (·.generation ≤ ·.generation)
  stamped : ∀ spec added, s.sender = .stamped spec added →
    spec.generation = s.info.latestGeneration

/-- What the agent has handled, or may still get outside the queue, is safe. -/
structure AgentSafe (s : State) : Prop where
  late : ∀ pl ∈ s.late,
    Safe s pl.reservedPods.generation (Describes pl.reservedPods.podList)
  responses : ∀ l ∈ s.responses, Safe s l.generation (Describes l.podList)
  events : ∀ d ∈ s.agent.podInfoChan, Safe s d.generation fun _ => False
  observed : ∀ k generation, s.agent.observed.lookup k = some generation →
    Safe s generation fun _ => False

/-- A list in the queue is safe once the call that is on its way has reached the agent. -/
def QueuedSafe (s : State) (pl : UpdateReservedPodsRequest) : Prop :=
  pl.reservedPods.generation ≤ s.info.latestGeneration ∧
    Safe s pl.reservedPods.generation fun uid =>
      Describes pl.reservedPods.podList uid ∨ s.OnTheWay pl.reservedPods.generation uid

structure QueueSafe (s : State) : Prop where
  queued : ∀ pl ∈ s.queue.items, QueuedSafe s pl
  sent : s.rpc ≠ .idle → ∀ pl, s.queue.processing = some pl →
    Safe s pl.reservedPods.generation (Describes pl.reservedPods.podList)
  idle : s.queue.processing = none → s.rpc = .idle

structure Inv (s : State) : Prop where
  ordered : Ordered s
  agent : AgentSafe s
  queue : QueueSafe s

theorem AgentSafe.grows (h : AgentSafe s) (hg : Grows s s') (hlate : s'.late = s.late)
    (hresponses : s'.responses = s.responses)
    (hevents : s'.agent.podInfoChan = s.agent.podInfoChan)
    (hobserved : s'.agent.observed = s.agent.observed) : AgentSafe s' where
  late pl hpl := (h.late pl (hlate ▸ hpl)).grows hg fun _ => .inl
  responses l hl := (h.responses l (hresponses ▸ hl)).grows hg fun _ => .inl
  events d hd := (h.events d (hevents ▸ hd)).grows hg fun _ => .inl
  observed k g hk := (h.observed k g (hobserved ▸ hk)).grows hg fun _ => .inl

theorem QueuedSafe.grows (h : QueuedSafe s pl) (hg : Grows s s')
    (hlatest : s.info.latestGeneration ≤ s'.info.latestGeneration)
    (hway : ∀ generation uid, generation ≤ s.info.latestGeneration → s.OnTheWay generation uid →
        s'.OnTheWay generation uid ∨ uid ∈ s'.agent.crPodRequest) : QueuedSafe s' pl := by
  refine ⟨h.1.trans hlatest, h.2.grows hg fun uid hD => ?_⟩
  rcases hD with hD | hD
  · exact .inl (.inl hD)
  · exact (hway _ uid h.1 hD).imp_left .inr

/-- A list that reaches the agent makes its own generation safe, and leaves the others so. -/
theorem receive_grows (hr : s.agent.receive generation order = .done agent) :
    Grows s { s with agent := agent } :=
  ⟨.inl rfl, fun uid huid => ((AgentState.receive_done hr).2.2.1 uid).mpr (.inl huid)⟩

theorem AgentSafe.receive (h : AgentSafe s) (hl : Safe s l.generation (Describes l.podList))
    (horder : order.toFinmap = l.podList) (hr : s.agent.receive l.generation order = .done agent) :
    AgentSafe { s with agent := agent } := by
  have hg := receive_grows hr
  obtain ⟨-, hobserved, htable, hevents⟩ := AgentState.receive_done hr
  refine ⟨fun pl hpl => (h.late pl hpl).grows hg fun _ => .inl,
    fun r hr => (h.responses r hr).grows hg fun _ => .inl, fun d hd => ?_, fun k g hk => ?_⟩
  · rcases hevents d hd with hd | hd
    · exact (h.events d hd).grows hg fun _ => .inl
    rw [hd]
    refine hl.grows hg fun uid hD => .inr ((htable uid).mpr (.inr ?_))
    rw [horder]
    exact hD
  · exact (h.observed k g (hobserved ▸ hk)).grows hg fun _ => .inl

theorem AgentSafe.observe (h : AgentSafe s) (ho : s.agent.observe i = some agent) :
    AgentSafe { s with agent := agent } := by
  obtain ⟨d, hd, rfl⟩ := AgentState.observe_some ho
  refine ⟨h.late, h.responses, fun x hx => h.events x (List.mem_of_mem_eraseIdx hx), ?_⟩
  intro k g hk
  simp only [Dict.lookup_insert_ite] at hk
  split_ifs at hk with heq
  · cases hk
    exact h.events d hd
  · exact h.observed k g hk

/-! ## The specs and the sender -/

theorem addSpec_incoming (spec : NodeIOStatusSpec) (seen : Bool) :
    (s.addSpec spec seen).incoming = s.incoming ∨
      (s.addSpec spec seen).incoming = s.incoming ++ [spec] := by
  unfold State.incoming
  cases seen with
  | false => exact .inl rfl
  | true => cases hsender : s.sender <;> simp [State.addSpec, hsender]

theorem inv_update {spec : NodeIOStatusSpec} {seen : Bool} (hi : Inv s)
    (hs : step S s (.update spec seen) = some s') : Inv s' := by
  simp only [step] at hs
  split_ifs at hs with hguard
  cases hs
  have hnew := hguard.2
  have hg : Grows s (s.addSpec spec seen) := ⟨.inr ⟨spec, rfl, hnew⟩, fun _ h => h⟩
  have hbelow : ∀ g, Issued s g → g < spec.generation := by
    rintro g ⟨x, hx, hle⟩
    exact hle.trans_lt (hnew x hx)
  have hspec : s.info.latestGeneration ≤ spec.generation ∧
      Issued (s.addSpec spec seen) spec.generation :=
    ⟨(hbelow _ hi.ordered.latest).le, spec, List.mem_cons_self, le_rfl⟩
  have hold : ∀ x ∈ s.incoming, s.info.latestGeneration ≤ x.generation ∧
      Issued (s.addSpec spec seen) x.generation :=
    fun x hx => ⟨(hi.ordered.incoming x hx).1, (hi.ordered.incoming x hx).2.grows hg⟩
  refine ⟨⟨hi.ordered.latest.grows hg, fun g h => (hi.ordered.handler g h).grows hg, ?_, ?_,
    hi.ordered.stamped⟩, hi.agent.grows hg rfl rfl rfl rfl, ?_, ?_, hi.queue.idle⟩
  · rcases addSpec_incoming (s := s) spec seen with h | h
    · exact h ▸ hold
    intro x hx
    rcases List.mem_append.mp (h ▸ hx) with hx | hx
    · exact hold x hx
    · exact List.mem_singleton.mp hx ▸ hspec
  · rcases addSpec_incoming (s := s) spec seen with h | h
    · exact h ▸ hi.ordered.sorted
    refine h ▸ List.pairwise_append.mpr ⟨hi.ordered.sorted, List.pairwise_singleton _ _, ?_⟩
    intro x hx y hy
    rw [List.mem_singleton.mp hy]
    exact (hbelow _ (hi.ordered.incoming x hx).2).le
  · exact fun pl hpl => (hi.queue.queued pl hpl).grows hg le_rfl fun _ _ _ => .inl
  · exact fun hrpc pl hpl => (hi.queue.sent hrpc pl hpl).grows hg fun _ => .inl

theorem inv_receive (hi : Inv s) (hs : step S s .receive = some s') : Inv s' := by
  simp only [step] at hs
  split at hs
  · rename_i spec rest hsender hch
    cases hs
    have hincoming : s.incoming = spec :: rest := by simp [State.incoming, hsender, hch]
    refine ⟨⟨hi.ordered.latest, hi.ordered.handler, ?_, ?_, by simp⟩,
      { hi.agent with }, { hi.queue with }⟩
    · exact fun x hx => hi.ordered.incoming x (hincoming ▸ hx)
    · have hsorted := hi.ordered.sorted
      rw [hincoming] at hsorted
      exact hsorted
  · cases hs

theorem inv_stamp (hi : Inv s) (hs : step S s .stamp = some s') : Inv s' := by
  simp only [step] at hs
  split at hs
  · rename_i spec added hsender
    cases hs
    have hincoming : s.incoming = spec :: s.reservedPodCh := by simp [State.incoming, hsender]
    have hspec := hi.ordered.incoming spec (hincoming ▸ List.mem_cons_self)
    have hsorted := List.pairwise_cons.mp (hincoming ▸ hi.ordered.sorted)
    have hg : Grows s { s with
        sender := .stamped spec added
        info := { s.info with latestGeneration := spec.generation } } :=
      ⟨.inl rfl, fun _ h => h⟩
    refine ⟨⟨hspec.2, hi.ordered.handler, ?_, hsorted.2, ?_⟩, { hi.agent with },
      ?_, hi.queue.sent, hi.queue.idle⟩
    · intro x hx
      exact ⟨hsorted.1 x hx, (hi.ordered.incoming x (hincoming ▸ List.mem_cons_of_mem _ hx)).2⟩
    · rintro spec' added' h
      cases h
      rfl
    · exact fun pl hpl => (hi.queue.queued pl hpl).grows hg hspec.1 fun _ _ _ => .inl
  · cases hs

theorem Complete.safe {pods added : Dict String PodName} {other : String → Prop}
    (h : Complete S get generation pods added other s) (hissued : Issued s generation) :
    Safe s generation fun uid =>
      Describes (getPodList S.unmarshal get generation pods added).podList uid ∨ other uid := by
  refine ⟨hissued, fun spec hspec hgen uid huid => ?_⟩
  refine (h spec hspec hgen uid huid).imp_left (Or.imp_left ?_)
  rintro ⟨hmem, v, hv, hfound⟩
  exact (describes_getPodList _ _ _ _ _ _).mpr ⟨hmem, v, hv, hfound⟩

theorem QueueSafe.add (h : QueueSafe s) (hpl : QueuedSafe s pl)
    (hs : s' = { s with queue := s.queue.add pl, sender := s'.sender, handler := s'.handler }) :
    QueueSafe s' := by
  rw [hs]
  refine ⟨fun x hx => ?_, h.sent, h.idle⟩
  rcases WorkQueue.mem_items_add.mp hx with rfl | hx
  · exact hpl
  · exact h.queued x hx

theorem inv_send (hi : Inv s) (hc : DetailsKept S s (.send get))
    (hs : step S s (.send get) = some s') : Inv s' := by
  simp only [step] at hs
  split at hs
  · rename_i spec added hsender
    have hincoming : s.incoming = s.reservedPodCh := by simp [State.incoming, hsender]
    have hlatest := hi.ordered.stamped spec added hsender
    have hordered : ∀ x ∈ s.reservedPodCh,
        s.info.latestGeneration ≤ x.generation ∧ Issued s x.generation :=
      fun x hx => hi.ordered.incoming x (hincoming ▸ hx)
    have hsorted : s.reservedPodCh.Pairwise (·.generation ≤ ·.generation) :=
      hincoming ▸ hi.ordered.sorted
    have hagent := hi.agent
    split_ifs at hs with hleader
    · cases hs
      simp only [DetailsKept, hsender, hleader, SendKept] at hc
      have hsafe := hc.safe (hlatest ▸ hi.ordered.latest)
      exact ⟨⟨hi.ordered.latest, hi.ordered.handler, hordered, hsorted, by simp⟩, { hagent with },
        hi.queue.add ⟨hlatest.le, hsafe⟩ rfl⟩
    · cases hs
      exact ⟨⟨hi.ordered.latest, hi.ordered.handler, hordered, hsorted, by simp⟩,
        { hagent with }, { hi.queue with }⟩
  · cases hs

/-! ## The worker -/

theorem inFlight_eq_some :
    s.inFlight = some l ↔ s.rpc = .sent ∧ ∃ pl, s.queue.processing = some pl ∧
      pl.reservedPods = l := by
  unfold State.inFlight
  cases s.rpc <;> simp

theorem QueuedSafe.safe (h : QueuedSafe s pl) (hrpc : s.rpc ≠ .sent) :
    Safe s pl.reservedPods.generation (Describes pl.reservedPods.podList) := by
  refine h.2.imp fun uid => ?_
  rintro (hD | ⟨l, hl, -⟩)
  · exact hD
  · exact absurd (inFlight_eq_some.mp hl).1 hrpc

theorem Inv.of_queue (hi : Inv s) (h : QueueSafe { s with queue := q, rpc := rpc }) :
    Inv { s with queue := q, rpc := rpc } :=
  ⟨{ hi.ordered with }, { hi.agent with }, h⟩

theorem QueueSafe.of_items (h : QueueSafe s) (hrpc : s.rpc ≠ .sent)
    (hitems : ∀ pl ∈ q.items, pl ∈ s.queue.items) (hidle : q.processing = none → rpc = .idle) :
    QueueSafe { s with queue := q, rpc := rpc } := by
  have hsafe : ∀ pl ∈ q.items,
      Safe s pl.reservedPods.generation (Describes pl.reservedPods.podList) :=
    fun pl hpl => (h.queued pl (hitems pl hpl)).safe hrpc
  refine ⟨fun pl hpl => ⟨(h.queued pl (hitems pl hpl)).1, ?_⟩, fun _ pl hpl => ?_, hidle⟩
  · exact (hsafe pl hpl).imp fun _ => .inl
  · exact hsafe pl (WorkQueue.mem_items.mpr (.inl hpl))

theorem inv_take (hi : Inv s) (hs : step S s .take = some s') : Inv s' := by
  simp only [step] at hs
  split at hs
  · rename_i pl q hget
    cases hs
    have hrpc : s.rpc = .idle := hi.queue.idle (WorkQueue.get_cases hget).1
    refine hi.of_queue (hi.queue.of_items (by simp [hrpc]) ?_ fun _ => hrpc)
    exact fun x hx => (WorkQueue.mem_items_get hget).mp hx
  · cases hs

theorem inv_check (hi : Inv s) (hs : step S s .check = some s') : Inv s' := by
  simp only [step] at hs
  split at hs
  · rename_i pl hpl hrpc
    have hdone : Inv { s with queue := s.queue.done, rpc := s.rpc } :=
      hi.of_queue (hi.queue.of_items (by simp [hrpc]) (fun _ => WorkQueue.mem_items_of_done)
        fun _ => hrpc)
    split_ifs at hs with hold hclient
    · cases hs
      exact hdone
    · cases hs
      exact hi.of_queue (q := s.queue)
        (hi.queue.of_items (by simp [hrpc]) (fun _ h => h) (by simp [hpl]))
    · cases hs
      exact hdone
  · cases hs

theorem inv_finish {err : Option String} (hi : Inv s) (hc : DetailsKept S s (.finish err))
    (hs : step S s (.finish err) = some s') : Inv s' := by
  simp only [step] at hs
  split at hs
  · rename_i pl hpl hrpc
    cases hs
    exact hi.of_queue (hi.queue.of_items (by simp [hrpc]) (fun _ => WorkQueue.mem_items_of_done)
      fun _ => rfl)
  · rename_i pl e hpl hrpc
    cases hs
    exact hi.of_queue (hi.queue.of_items (by simp [hrpc])
      (fun _ => (WorkQueue.mem_items_retry hpl).mp) fun _ => rfl)
  · rename_i pl e hpl hrpc
    cases hs
    have hflight : s.inFlight = some pl.reservedPods := inFlight_eq_some.mpr ⟨hrpc, pl, hpl, rfl⟩
    have hsent := hi.queue.sent (by simp [hrpc]) pl hpl
    refine ⟨{ hi.ordered with }, { hi.agent with late := ?_ },
      fun x hx => ?_, fun h => absurd rfl h, fun _ => rfl⟩
    · intro x hx
      rcases List.mem_append.mp hx with hx | hx
      · exact hi.agent.late x hx
      · exact List.mem_singleton.mp hx ▸ hsent
    · -- what the failed call was to bring is known already, or no list counted on it
      refine (hi.queue.queued x ((WorkQueue.mem_items_retry hpl).mp hx)).grows
        ⟨.inl rfl, fun _ h => h⟩ le_rfl ?_
      rintro g uid hg ⟨l, hl, hlt, hD⟩
      obtain rfl : pl.reservedPods = l := Option.some.inj (hflight.symm.trans hl)
      rcases hc _ hflight with heq | hknown
      · omega
      · exact .inr (hknown uid (Agent.Describes.mem_keys hD) hD)
  · cases hs

theorem inv_expire (hi : Inv s) (hs : step S s (.expire i) = some s') : Inv s' := by
  simp only [step] at hs
  split at hs
  · rename_i q hq
    cases hs
    have hproc := WorkQueue.expire_processing hq
    have hflight : State.inFlight { s with queue := q } = s.inFlight := by
      simp [State.inFlight, hproc]
    refine hi.of_queue ⟨fun pl hpl => ?_, fun hrpc pl hpl => ?_, fun h => ?_⟩
    · refine (hi.queue.queued pl ((WorkQueue.mem_items_expire hq).mp hpl)).grows
        ⟨.inl rfl, fun _ h => h⟩ le_rfl fun g uid _ hway => .inl ?_
      unfold State.OnTheWay at hway ⊢
      rw [← hflight] at hway
      exact hway
    · exact hi.queue.sent hrpc pl (hproc ▸ hpl)
    · exact hi.queue.idle (hproc ▸ h)
  · cases hs

/-! ## The agent -/

theorem Inv.of_agent (hi : Inv s) (hg : Grows s { s with agent := agent })
    (ha : AgentSafe { s with agent := agent }) : Inv { s with agent := agent } := by
  refine ⟨{ hi.ordered with }, ha, fun pl hpl => ?_, fun hrpc pl hpl => ?_, hi.queue.idle⟩
  · exact (hi.queue.queued pl hpl).grows hg le_rfl fun _ _ _ => .inl
  · exact (hi.queue.sent hrpc pl hpl).grows hg fun _ => .inl

theorem inv_deliver (hi : Inv s) (hs : step S s (.deliver order) = some s') : Inv s' := by
  simp only [step] at hs
  split at hs
  · rename_i pl hpl hrpc
    split_ifs at hs with horder
    split at hs
    · rename_i agent hu
      cases hs
      have hr := AgentState.updateReservedPods_ok hu
      have hg := receive_grows hr
      have htable := (AgentState.receive_done hr).2.2.1
      have hsent := hi.queue.sent (by simp [hrpc]) pl hpl
      have hagent := hi.agent.receive hsent horder hr
      have hflight : s.inFlight = some pl.reservedPods :=
        inFlight_eq_some.mpr ⟨hrpc, pl, hpl, rfl⟩
      refine ⟨{ hi.ordered with }, { hagent with },
        fun x hx => ?_, fun _ x hx => ?_, fun h => ?_⟩
      · -- the lists that counted on the call find its pods in the table
        refine (hi.queue.queued x hx).grows ⟨hg.specs, hg.table⟩ le_rfl ?_
        rintro g uid - ⟨l, hl, -, hD⟩
        obtain rfl : pl.reservedPods = l := Option.some.inj (hflight.symm.trans hl)
        exact .inr ((htable uid).mpr (.inr (horder ▸ hD)))
      · obtain rfl : pl = x := Option.some.inj (hpl.symm.trans hx)
        exact hsent.grows ⟨hg.specs, hg.table⟩ fun _ => .inl
      · exact absurd (hpl.symm.trans h) (by simp)
    · cases hs
  · cases hs

theorem Inv.subset (hi : Inv s) {late : List UpdateReservedPodsRequest}
    {responses : List ReservedPodList} (hl : late ⊆ s.late) (hr : responses ⊆ s.responses) :
    Inv { s with late := late, responses := responses } :=
  ⟨{ hi.ordered with },
    ⟨fun x hx => hi.agent.late x (hl hx), fun x hx => hi.agent.responses x (hr hx),
      hi.agent.events, hi.agent.observed⟩,
    { hi.queue with }⟩

theorem inv_deliverLate (hi : Inv s) (hs : step S s (.deliverLate i order) = some s') : Inv s' := by
  simp only [step] at hs
  split at hs
  · rename_i pl hpl
    split_ifs at hs with horder
    split at hs
    · rename_i agent hu
      cases hs
      have hr := AgentState.updateReservedPods_ok hu
      exact (hi.of_agent (receive_grows hr) (hi.agent.receive
        (hi.agent.late pl (List.mem_of_getElem? hpl)) horder hr)).subset
        List.eraseIdx_subset (List.Subset.refl _)
    · cases hs
  · cases hs

theorem inv_respond (hi : Inv s) (hs : step S s (.respond i order) = some s') : Inv s' := by
  simp only [step] at hs
  split at hs
  · rename_i l hl
    split_ifs at hs with horder
    split at hs
    · rename_i agent hr
      cases hs
      exact (hi.of_agent (receive_grows hr) (hi.agent.receive
        (hi.agent.responses l (List.mem_of_getElem? hl)) horder hr)).subset
        (List.Subset.refl _) List.eraseIdx_subset
    · cases hs
  · cases hs

theorem inv_observe (hi : Inv s) (hs : step S s (.observe i) = some s') : Inv s' := by
  simp only [step] at hs
  split at hs
  · rename_i agent ho
    cases hs
    obtain ⟨d, -, heq⟩ := AgentState.observe_some ho
    have hg : Grows s { s with agent := agent } := ⟨.inl rfl, fun uid h => by rw [heq]; exact h⟩
    exact hi.of_agent hg (hi.agent.observe ho)
  · cases hs

/-! ## The calls of the agent -/

theorem Inv.of_handler (hi : Inv s) {handler : Handler} {isLeader client : Bool}
    (h : ∀ generation, handler = .getReservedPods generation → Issued s generation) :
    Inv { s with
      handler := handler, isLeader := isLeader, info := { s.info with client := client } } :=
  ⟨{ hi.ordered with handler := h }, { hi.agent with }, { hi.queue with }⟩

theorem inv_resync (hi : Inv s) (hc : DetailsKept S s (.resync get))
    (hs : step S s (.resync get) = some s') : Inv s' := by
  simp only [step] at hs
  split at hs
  · rename_i pods hhandler
    cases hs
    simp only [DetailsKept, hhandler, AnswerKept] at hc
    have hsafe := (hc.safe hi.ordered.latest).imp fun uid hD => hD.resolve_right id
    exact ⟨{ hi.ordered with handler := by simp }, { hi.agent with },
      hi.queue.add ⟨le_rfl, hsafe.imp fun _ => .inl⟩ rfl⟩
  · cases hs

theorem inv_answer (hi : Inv s) (hc : DetailsKept S s (.answer get))
    (hs : step S s (.answer get) = some s') : Inv s' := by
  simp only [step] at hs
  split at hs
  · rename_i generation hhandler
    cases hs
    simp only [DetailsKept, hhandler, AnswerKept] at hc
    have hsafe := (hc.safe (hi.ordered.handler generation hhandler)).imp
      fun uid hD => hD.resolve_right id
    refine ⟨{ hi.ordered with handler := by simp }, { hi.agent with responses := ?_ },
      { hi.queue with }⟩
    intro l hl
    rcases List.mem_append.mp hl with hl | hl
    · exact hi.agent.responses l hl
    · obtain rfl := List.mem_singleton.mp hl
      exact hsafe
  · cases hs

/-! ## Runs -/

theorem inv_step (s : State) (e : Event) (s' : State) (hs : step S s e = some s')
    (hc : DetailsKept S s e) (hi : Inv s) : Inv s' := by
  cases e with
  | update spec seen => exact inv_update hi hs
  | receive => exact inv_receive hi hs
  | stamp => exact inv_stamp hi hs
  | send get => exact inv_send hi hc hs
  | take => exact inv_take hi hs
  | check => exact inv_check hi hs
  | deliver order => exact inv_deliver hi hs
  | finish err => exact inv_finish hi hc hs
  | expire i => exact inv_expire hi hs
  | deliverLate i order => exact inv_deliverLate hi hs
  | report observedGeneration =>
    simp only [step] at hs
    split at hs
    · split_ifs at hs
      · cases hs
        exact hi.of_handler (by simp)
      · cases hs
        exact hi
    · cases hs
  | reread =>
    simp only [step] at hs
    split at hs
    · cases hs
      exact hi.of_handler (by simp)
    · cases hs
  | resync get => exact inv_resync hi hc hs
  | getReservedPods =>
    simp only [step] at hs
    split at hs
    · split_ifs at hs
      · cases hs
        refine hi.of_handler fun generation h => ?_
        cases h
        exact hi.ordered.latest
      · cases hs
        exact hi
    · cases hs
  | answer get => exact inv_answer hi hc hs
  | respond i order => exact inv_respond hi hs
  | observe i => exact inv_observe hi hs
  | setLeader | connect =>
    simp only [step] at hs
    split_ifs at hs
    cases hs
    exact hi.of_handler hi.ordered.handler

theorem Start.inv (h : Start S s) : Inv s := by
  obtain ⟨spec, hspecs, hch, -, hle⟩ := h.spec
  have hissued : ∀ g ≤ spec.generation, Issued s g :=
    fun g hg => ⟨spec, by rw [hspecs]; exact List.mem_singleton_self _, hg⟩
  have hincoming : s.incoming = [spec] := by simp [State.incoming, h.sender, hch]
  have hitems : s.queue.items = [] := by rw [h.queue]; rfl
  refine ⟨⟨hissued _ hle, by simp [h.handler], ?_, ?_, by simp [h.sender]⟩,
    ⟨by simp [h.late], by simp [h.responses], by simp [h.events], by simp [h.observed]⟩,
    by simp [hitems], by simp [h.rpc], fun _ => h.rpc⟩
  · intro x hx
    rw [hincoming] at hx
    obtain rfl := List.mem_singleton.mp hx
    exact ⟨hle, hissued _ le_rfl⟩
  · rw [hincoming]
    exact List.pairwise_singleton _ _

/-- In every run in which no details are lost, the agent knows every pod of the generation it
reports. -/
theorem detailed_of_detailsKept (S : Setting) {s t : State} {es : List Event}
    (hstart : Start S s) (hkept : Along (step S) (DetailsKept S) s es)
    (hrun : run (step S) s es = some t) : Detailed t := by
  have hi : Inv t := run_invariant inv_step hstart.inv hkept hrun
  exact fun k generation hk => (hi.agent.observed k generation hk).knowsAll

/-! ## An overtaken list

Two specs come in a row: the first lists a pod `a`, the second also a pod `b`. -/

def setting : Setting :=
  { node := "n"
    unmarshal := fun _ => some (AList.singleton .diskIo (AList.singleton "sda"
      { qos := .gaIndex
        request := ⟨30, 20, 0, 0⟩
        limit := ⟨30, 20, 0, 0⟩
        rawRequest := ⟨30, 20, 0, 0⟩
        rawLimit := ⟨30, 20, 0, 0⟩ })) }

def specOf (generation : Int) (uids : List String) : NodeIOStatusSpec :=
  { nodeName := "n"
    generation := generation
    reservedPods := uids.foldl (fun m uid => m.insert uid ⟨uid, "default"⟩) ∅ }

def start : State :=
  { specs := [specOf 0 []]
    reservedPodCh := [specOf 0 []]
    sender := .idle
    info := ⟨some ∅, 0, true⟩
    isLeader := true
    queue := .empty
    rpc := .idle
    late := []
    handler := .free
    responses := []
    agent := ⟨"n", ∅, [], ∅⟩ }

theorem start_start : Start setting start :=
  ⟨rfl, ⟨specOf 0 [], rfl, rfl, rfl, le_rfl⟩, rfl, rfl, rfl, rfl, rfl, rfl, rfl, rfl⟩

def found : PodAnswers := fun id v =>
  .ok { uid := id, name := v.name, ns := v.ns, nodeName := "n"
        annotations := Finmap.singleton allocatedIOAnno "io", volumes := [] }

def entry (uid : String) : PodRequest :=
  formatPodRequest uid "default" ((setting.unmarshal "io").getD ∅)

def sendNext : List Event := [.receive, .stamp, .send found]

def sync (order : PodOrder) : List Event :=
  [.take, .check, .deliver order, .finish none, .observe 0, .observe 0, .observe 0, .observe 0]

def both : PodOrder := (AList.singleton "b" (some (entry "b"))).insert "a" none

/-- Both specs are handled before the worker gets to the list of the first. -/
def overtaken : List Event :=
  [Event.update (specOf 1 ["a"]) true, .update (specOf 2 ["a", "b"]) true] ++
    sendNext ++ sendNext ++ sendNext ++ [Event.take, .check, .take, .check] ++ sync both

theorem not_alwaysDetailed : ¬ AlwaysDetailed := by
  intro h
  obtain ⟨t, ht, hdisk, hspec, ha⟩ : ∃ t ∈ run (step setting) start overtaken,
      t.agent.observed.lookup .disk = some 2 ∧ specOf 2 ["a", "b"] ∈ t.specs ∧
        "a" ∉ t.agent.crPodRequest := by
    decide +kernel
  refine ha (h setting start t overtaken start_start ht .disk 2 hdisk _ hspec rfl "a" ?_)
  decide +kernel

/-- Each list reaches the agent before the next spec is handled. -/
def inTurn : List Event :=
  sendNext ++ sync ∅ ++ [Event.update (specOf 1 ["a"]) true] ++ sendNext ++
    sync (AList.singleton "a" (some (entry "a"))) ++ [Event.update (specOf 2 ["a", "b"]) true] ++
    sendNext ++ sync both

theorem detailed_of_detailsKept_inTurn :
    ∃ t, run (step setting) start inTurn = some t ∧ t.agent.observed.lookup .disk = some 2 ∧
      KnowsAll t 2 := by
  have hkept : Along (step setting) (DetailsKept setting) start inTurn := by decide +kernel
  exact exists_run (by decide +kernel) fun t ht hdisk =>
    detailed_of_detailsKept setting start_start hkept ht .disk 2 hdisk

end IOIsolation.Aggr.PodListProtocol
