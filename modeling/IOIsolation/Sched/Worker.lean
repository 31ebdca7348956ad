import IOIsolation.Sched.Context

/-!
# Sched.Worker

The worker behind the queue of the shared context, and the part of the API server it writes: it
takes one item after the other, writes the annotation of the item's pod and the spec of the
node's `NodeIOStatus`, and queues the item again when a call fails.

`updateContext` reads the last written generation before it takes the mutex, so one item is
three steps: `take`, `read` and `process`.

* `updateContext_cases` — an item is skipped, fails without writing the spec, or writes it.
* `Moves`               — what one step of the worker can do, with `workerStep_moves`.
-/

namespace IOIsolation.Sched

open Lib Finmap WorkQueue Option ResourceIOContext

/-! ## The annotation -/

def noQuantity : Quantity := ⟨0, 0, 0, 0⟩

/-- Requests and limits keep their two bandwidths only. -/
def bandwidths : Option Quantity → Quantity
  | some q => { noQuantity with inbps := q.inbps, outbps := q.outbps }
  | none => noQuantity

def deviceAllocatedIo (w : WorkloadType) (d : DeviceRequirement) : DeviceAllocatedIo :=
  { qos := w
    request := bandwidths d.request
    limit := bandwidths d.limit
    rawRequest := d.rawRequest.getD noQuantity
    rawLimit := d.rawLimit.getD noQuantity }

def allocateRequest (podReq : AllocatedIo) (r : IOResourceRequest) : AllocatedIo :=
  match r.devRequest with
  | none => podReq
  | some d =>
    podReq.insert r.ioType
      (((podReq.lookup r.ioType).getD ∅).insert d.devName (deviceAllocatedIo r.workloadType d))

/-- `PodRequest2String`, over the JSON encoding of the map. -/
def podRequest2String (marshal : AllocatedIo → String) (req : PodRequest) : Except String String :=
  if req.request = [] then .error "the device requirement is empty"
  else .ok (marshal (req.request.foldl allocateRequest ∅))

/-! ## The API server -/

/-- The pods, the specs of the `NodeIOStatus` resources by node, and the history of the
generations written to them. -/
structure Cluster where
  pods : Dict PodName Pod
  specs : Dict String NodeIOStatusSpec
  writes : List (String × Int)
  deriving DecidableEq

inductive ApiError where
  | notFound
  | failed (err : String)
  deriving DecidableEq

def ApiError.text : ApiError → String
  | notFound => "not found"
  | failed err => err

/-- Which calls of one `updateContext` fail for a reason other than a missing object. A call that
fails changes nothing. -/
structure ApiFailures where
  getPod : Option String
  patchPod : Option String
  getStatus : Option String
  patchStatus : Option String
  deriving DecidableEq

def podKey (pod : Pod) : PodName := ⟨pod.name, pod.ns⟩

/-- `Get` of a pod and `Patch` to the result of `change`: what the two functions that write an
annotation share. -/
def patchPod (f : ApiFailures) (pod : Pod) (change : Pod → Pod) (pods : Dict PodName Pod) :
    Except ApiError (Dict PodName Pod) :=
  if pod.name = "" ∨ pod.ns = "" then .error (.failed "pod info is unset")
  else
    match f.getPod, pods.lookup (podKey pod) with
    | some e, _ => .error (.failed e)
    | none, none => .error .notFound
    | none, some p =>
      match f.patchPod with
      | some e => .error (.failed s!"failed to patch the pod: {e}")
      | none => .ok (pods.insert (podKey pod) (change p))

def addOrUpdateAnnoOnPod (f : ApiFailures) (pod : Pod) (value : String)
    (pods : Dict PodName Pod) : Except ApiError (Dict PodName Pod) :=
  patchPod f pod (fun p => { p with annotations := p.annotations.insert allocatedIOAnno value })
    pods

/-- `DeleteAnnoOnPod` patches the pod to the queued object without the annotation, not to the
current object without it. -/
def deleteAnnoOnPod (f : ApiFailures) (pod : Pod) (pods : Dict PodName Pod) :
    Except ApiError (Dict PodName Pod) :=
  patchPod f pod (fun _ => { pod with annotations := pod.annotations.erase allocatedIOAnno }) pods

def updateNodeIOStatusSpec (f : ApiFailures) (name : String) (obj : NodeIOStatusSpec)
    (api : Cluster) : Except ApiError Cluster :=
  match f.getStatus, api.specs.lookup name with
  | some e, _ => .error (.failed e)
  | none, none => .error .notFound
  | none, some _ =>
    match f.patchStatus with
    | some e => .error (.failed s!"failed to patch the NodeIOStatus: {e}")
    | none =>
      .ok { api with
        specs := api.specs.insert name obj
        writes := api.writes ++ [(name, obj.generation)] }

/-! ## One item -/

variable (marshal : AllocatedIo → String)

/-- The annotation part of `updateContext`; a pod that is gone has no annotation to delete. -/
def annotate (f : ApiFailures) (item : SyncContext) (pods : Dict PodName Pod) :
    Except String (Dict PodName Pod) :=
  match item.req with
  | some req =>
    match podRequest2String marshal req with
    | .error err => .error err
    | .ok reqBW =>
      match addOrUpdateAnnoOnPod f item.pod reqBW pods with
      | .error err => .error s!"AddOrUpdateAnnoOnPod fails: {err.text}"
      | .ok pods => .ok pods
  | none =>
    match deleteAnnoOnPod f item.pod pods with
    | .error .notFound => .ok pods
    | .error (.failed err) => .error s!"DeleteAnnoOnPod fails: {err}"
    | .ok pods => .ok pods

/-- `updateContext` for an item with a valid spec; `gen` is the generation it read before taking
the mutex. -/
def updateContext (f : ApiFailures) (gen : Int) (spec : NodeIOStatusSpec) (item : SyncContext)
    (c : ResourceIOContext) (api : Cluster) : ResourceIOContext × Cluster × Except String Unit :=
  if spec.generation ≤ gen then (c, api, .ok ())
  else
    match annotate marshal f item api.pods with
    | .error err => (c, api, .error err)
    | .ok pods =>
      let api := { api with pods := pods }
      match updateNodeIOStatusSpec f spec.nodeName spec api with
      | .error err => (c, api, .error err.text)
      | .ok api =>
        ({ c with lastUpdatedGen := c.lastUpdatedGen.insert spec.nodeName spec.generation }, api,
          .ok ())

/-! ## The worker -/

structure WorkerState where
  ctx : ResourceIOContext
  api : Cluster
  /-- What the worker read of `lastUpdatedGen` for the item at hand. -/
  guard : Option Int
  deriving DecidableEq

inductive WorkerEvent where
  | take
  | read
  | process (f : ApiFailures)
  | expire (i : Nat)
  deriving DecidableEq

def SyncContext.target (item : SyncContext) : Option NodeIOStatusSpec :=
  item.spec.filter fun spec => spec.nodeName ≠ ""

def lastGen (c : ResourceIOContext) (node : String) : Int := (c.lastUpdatedGen.lookup node).getD (-1)

def ResourceIOContext.setQueue (c : ResourceIOContext) (q : WorkQueue SyncContext) :
    ResourceIOContext :=
  { c with queue := q }

def workerStep (s : WorkerState) : WorkerEvent → Option WorkerState
  | .take =>
    match s.ctx.queue.get with
    | some (_, q) => some { s with ctx := s.ctx.setQueue q, guard := none }
    | none => none
  | .read =>
    match s.ctx.queue.processing, s.guard with
    | some item, none =>
      match item.target with
      | some spec => some { s with guard := some (lastGen s.ctx spec.nodeName) }
      -- an invalid item is ignored
      | none => some { s with ctx := s.ctx.setQueue s.ctx.queue.done, guard := none }
    | _, _ => none
  | .process f =>
    match s.ctx.queue.processing, s.guard with
    | some item, some gen =>
      match item.target with
      | some spec =>
        let (c, api, r) := updateContext marshal f gen spec item s.ctx s.api
        let q := match r with
          | .ok () => c.queue.done
          | .error _ => c.queue.done.addRateLimited item
        some { ctx := c.setQueue q, api := api, guard := none }
      | none => none
    | _, _ => none
  | .expire i =>
    match s.ctx.queue.expire i with
    | some q => some { s with ctx := s.ctx.setQueue q }
    | none => none

/-! ## What the steps can do -/

variable {f : ApiFailures} {s : WorkerState} {y : SyncContext}

theorem updateNodeIOStatusSpec_ok {name : String} {obj : NodeIOStatusSpec} {api api' : Cluster}
    (h : updateNodeIOStatusSpec f name obj api = .ok api') :
    name ∈ api.specs ∧
      api' = { api with
        specs := api.specs.insert name obj
        writes := api.writes ++ [(name, obj.generation)] } := by
  unfold updateNodeIOStatusSpec at h
  cases hget : f.getStatus with
  | some e => simp [hget] at h
  | none =>
    cases hl : api.specs.lookup name with
    | none => simp [hget, hl] at h
    | some st =>
      cases hp : f.patchStatus with
      | some e => simp [hget, hl, hp] at h
      | none =>
        simp only [hget, hl, hp, Except.ok.injEq] at h
        exact ⟨mem_of_lookup_eq_some hl, h.symm⟩

theorem updateContext_cases (f : ApiFailures) (gen : Int) (spec : NodeIOStatusSpec)
    (item : SyncContext) (c : ResourceIOContext) (api : Cluster) :
    (spec.generation ≤ gen ∧ updateContext marshal f gen spec item c api = (c, api, .ok ())) ∨
    (gen < spec.generation ∧ ∃ pods err,
      (pods = api.pods ∨ annotate marshal f item api.pods = .ok pods) ∧
      updateContext marshal f gen spec item c api = (c, { api with pods := pods }, .error err)) ∨
    (gen < spec.generation ∧ ∃ pods,
      annotate marshal f item api.pods = .ok pods ∧ spec.nodeName ∈ api.specs ∧
      updateContext marshal f gen spec item c api =
        ({ c with lastUpdatedGen := c.lastUpdatedGen.insert spec.nodeName spec.generation },
          { pods := pods
            specs := api.specs.insert spec.nodeName spec
            writes := api.writes ++ [(spec.nodeName, spec.generation)] }, .ok ())) := by
  unfold updateContext
  by_cases hgen : spec.generation ≤ gen
  · exact .inl ⟨hgen, if_pos hgen⟩
  have hlt : gen < spec.generation := by omega
  rw [if_neg hgen]
  cases ha : annotate marshal f item api.pods with
  | error err => exact .inr (.inl ⟨hlt, api.pods, err, .inl rfl, rfl⟩)
  | ok pods =>
    cases hu : updateNodeIOStatusSpec f spec.nodeName spec { api with pods := pods } with
    | error err => exact .inr (.inl ⟨hlt, pods, err.text, .inr rfl, by simp [hu]⟩)
    | ok api' =>
      obtain ⟨hmem, rfl⟩ := updateNodeIOStatusSpec_ok hu
      exact .inr (.inr ⟨hlt, pods, rfl, hmem, by simp [hu]⟩)

/-- The object carries the annotation of the request, or none if there is no request. -/
def Carries (req : Option PodRequest) (obj : Option Pod) : Prop :=
  match req with
  | some r => ∃ p text, obj = some p ∧ podRequest2String marshal r = .ok text ∧
      p.annotations.lookup allocatedIOAnno = some text
  | none => ∀ p, obj = some p → allocatedIOAnno ∉ p.annotations

theorem patchPod_cases {pod : Pod} {change : Pod → Pod} {pods : Dict PodName Pod}
    {r : Except ApiError (Dict PodName Pod)} (h : patchPod f pod change pods = r) :
    (∃ err, r = .error (.failed err)) ∨
      pods.lookup (podKey pod) = none ∧ r = .error .notFound ∨
      ∃ p, r = .ok (pods.insert (podKey pod) (change p)) := by
  unfold patchPod at h
  split at h
  · exact .inl ⟨_, h.symm⟩
  split at h
  · exact .inl ⟨_, h.symm⟩
  · rename_i hl
    exact .inr (.inl ⟨hl, h.symm⟩)
  rename_i p _ hl
  split at h
  · exact .inl ⟨_, h.symm⟩
  · exact .inr (.inr ⟨p, h.symm⟩)

theorem annotate_ok {item : SyncContext} {pods pods' : Dict PodName Pod}
    (h : annotate marshal f item pods = .ok pods') :
    (∀ k, k ≠ podKey item.pod → pods'.lookup k = pods.lookup k) ∧
      Carries marshal item.req (pods'.lookup (podKey item.pod)) := by
  unfold annotate at h
  cases hreq : item.req with
  | some req =>
    rw [hreq] at h
    dsimp only at h
    cases htext : podRequest2String marshal req with
    | error err => rw [htext] at h; cases h
    | ok text =>
      rw [htext] at h
      dsimp only at h
      rcases patchPod_cases (r := addOrUpdateAnnoOnPod f item.pod text pods) rfl with
        ⟨err, hp⟩ | ⟨-, hp⟩ | ⟨p, hp⟩
      · rw [hp] at h; cases h
      · rw [hp] at h; cases h
      rw [hp] at h
      cases h
      refine ⟨fun k hk => lookup_insert_of_ne _ hk, _, text, lookup_insert _, htext, ?_⟩
      exact lookup_insert _
  | none =>
    rw [hreq] at h
    rcases patchPod_cases (r := deleteAnnoOnPod f item.pod pods) rfl with
      ⟨err, hp⟩ | ⟨hl, hp⟩ | ⟨p, hp⟩
    · rw [hp] at h; cases h
    · rw [hp] at h
      cases h
      exact ⟨fun _ _ => rfl, fun p hp => by rw [hl] at hp; cases hp⟩
    rw [hp] at h
    cases h
    refine ⟨fun k hk => lookup_insert_of_ne _ hk, fun q hq => ?_⟩
    rw [lookup_insert, some.injEq] at hq
    subst hq
    exact notMem_erase_self

/-- The moves of the worker, by what becomes of the item at hand. -/
inductive Moves (s : WorkerState) : WorkerEvent → WorkerState → Prop
  | take {x q} : s.ctx.queue.get = some (x, q) →
      Moves s .take { s with ctx := s.ctx.setQueue q, guard := none }
  | ignore {x} : s.ctx.queue.processing = some x → x.target = none → s.guard = none →
      Moves s .read { s with ctx := s.ctx.setQueue s.ctx.queue.done, guard := none }
  | read {x spec} : s.ctx.queue.processing = some x → x.target = some spec → s.guard = none →
      Moves s .read { s with guard := some (lastGen s.ctx spec.nodeName) }
  | skip {x spec gen f} : s.ctx.queue.processing = some x → x.target = some spec →
      s.guard = some gen → spec.generation ≤ gen →
      Moves s (.process f)
        { ctx := s.ctx.setQueue s.ctx.queue.done, api := s.api, guard := none }
  | fail {x spec gen f pods} : s.ctx.queue.processing = some x → x.target = some spec →
      s.guard = some gen → gen < spec.generation →
      (pods = s.api.pods ∨ annotate marshal f x s.api.pods = .ok pods) →
      Moves s (.process f)
        { ctx := s.ctx.setQueue (s.ctx.queue.done.addRateLimited x)
          api := { s.api with pods := pods }
          guard := none }
  | write {x spec gen f pods} : s.ctx.queue.processing = some x → x.target = some spec →
      s.guard = some gen → gen < spec.generation → annotate marshal f x s.api.pods = .ok pods →
      spec.nodeName ∈ s.api.specs →
      Moves s (.process f)
        { ctx := { s.ctx with
            queue := s.ctx.queue.done
            lastUpdatedGen := s.ctx.lastUpdatedGen.insert spec.nodeName spec.generation }
          api := {
            pods := pods
            specs := s.api.specs.insert spec.nodeName spec
            writes := s.api.writes ++ [(spec.nodeName, spec.generation)] }
          guard := none }
  | expire {i q} : s.ctx.queue.expire i = some q →
      Moves s (.expire i) { s with ctx := s.ctx.setQueue q }

theorem workerStep_moves {s' : WorkerState} {e : WorkerEvent} (h : workerStep marshal s e = some s') :
    Moves marshal s e s' := by
  cases e with
  | take =>
    unfold workerStep at h
    cases hq : s.ctx.queue.get with
    | none => simp [hq] at h
    | some xq =>
      simp only [hq, some.injEq] at h
      exact h ▸ .take hq
  | read =>
    unfold workerStep at h
    cases hx : s.ctx.queue.processing with
    | none => simp [hx] at h
    | some x =>
      cases hg : s.guard with
      | some g => simp [hx, hg] at h
      | none =>
        cases ht : x.target with
        | none =>
          simp only [hx, hg, ht, some.injEq] at h
          exact h ▸ .ignore hx ht hg
        | some spec =>
          simp only [hx, hg, ht, some.injEq] at h
          exact h ▸ .read hx ht hg
  | process f =>
    unfold workerStep at h
    cases hx : s.ctx.queue.processing with
    | none => simp [hx] at h
    | some x =>
      cases hg : s.guard with
      | none => simp [hx, hg] at h
      | some gen =>
        cases ht : x.target with
        | none => simp [hx, hg, ht] at h
        | some spec =>
          rcases updateContext_cases marshal f gen spec x s.ctx s.api with
            ⟨hle, hu⟩ | ⟨hlt, pods, err, hp, hu⟩ | ⟨hlt, pods, hp, hmem, hu⟩
          · simp only [hx, hg, ht, hu, some.injEq] at h
            exact h ▸ .skip hx ht hg hle
          · simp only [hx, hg, ht, hu, some.injEq] at h
            exact h ▸ .fail hx ht hg hlt hp
          · simp only [hx, hg, ht, hu, some.injEq] at h
            exact h ▸ .write hx ht hg hlt hp hmem
  | expire i =>
    unfold workerStep at h
    cases hq : s.ctx.queue.expire i with
    | none => simp [hq] at h
    | some q =>
      simp only [hq, some.injEq] at h
      exact h ▸ .expire hq

section

variable (c : ResourceIOContext) (q : WorkQueue SyncContext)
include c q

@[simp] theorem ResourceIOContext.setQueue_queue : (c.setQueue q).queue = q := rfl

end

theorem target_eq_some {x : SyncContext} {spec : NodeIOStatusSpec}
    (h : x.target = some spec) : x.spec = some spec := by
  exact (filter_eq_some_iff.mp h).1

def waiting (s : WorkerState) : List SyncContext :=
  (if s.guard = none then s.ctx.queue.processing.toList else []) ++ s.ctx.queue.pending ++
    s.ctx.queue.delayed

theorem mem_waiting :
    y ∈ waiting s ↔ s.guard = none ∧ s.ctx.queue.processing = some y ∨
      y ∈ s.ctx.queue.pending ∨ y ∈ s.ctx.queue.delayed := by
  unfold waiting
  cases s.guard with
  | none | some => simp

theorem mem_items_of_waiting (h : y ∈ waiting s) : y ∈ s.ctx.queue.items := by
  rw [mem_waiting] at h
  exact mem_items.mpr (h.elim (fun h => .inl h.2) .inr)

theorem mem_waiting_add {x : SyncContext} {c : ResourceIOContext} (hc : c.queue = s.ctx.queue.add x) :
    y ∈ waiting { s with ctx := c } ↔ y = x ∨ y ∈ waiting s := by
  simp only [mem_waiting, hc, add, List.mem_append, List.mem_singleton]
  tauto

namespace Moves

variable {marshal} {s' : WorkerState} {e : WorkerEvent} {x : SyncContext}

section

variable (h : Moves marshal s e s')
include h

theorem reservedpod : s'.ctx.reservedpod = s.ctx.reservedpod := by
  cases h <;> rfl

theorem mem_items (hy : y ∈ s'.ctx.queue.items) : y ∈ s.ctx.queue.items := by
  cases h with
  | take hq => exact (mem_items_get hq).mp hy
  | ignore | skip | write => exact mem_items_of_done hy
  | read => exact hy
  | fail hx => exact (mem_items_retry hx).mp hy
  | expire hq => exact (mem_items_expire hq).mp hy

theorem kept (hy : y ∈ s.ctx.queue.items) (hne : s.ctx.queue.processing ≠ some y) :
    y ∈ s'.ctx.queue.items := by
  have hdone : ∀ {x}, s.ctx.queue.processing = some x → y ∈ s.ctx.queue.done.items := by
    intro x hx
    exact mem_items_done_of_ne hx hy fun h => hne (h ▸ hx)
  cases h with
  | take hq => exact (mem_items_get hq).mpr hy
  | ignore hx | skip hx | write hx => exact hdone hx
  | read => exact hy
  | fail hx => exact (mem_items_retry hx).mpr hy
  | expire hq => exact (mem_items_expire hq).mpr hy

/-- An item that is dropped was ignored, skipped or written. -/
theorem dropped (hy : y ∈ s.ctx.queue.items) (hgone : y ∉ s'.ctx.queue.items) :
    s.ctx.queue.processing = some y ∧ (y.target = none ∨ ∃ f g spec, e = .process f ∧
      s.guard = some g ∧ y.spec = some spec ∧ (spec.generation ≤ g ∨
        s'.api.writes = s.api.writes ++ [(spec.nodeName, spec.generation)] ∧
          annotate marshal f y s.api.pods = .ok s'.api.pods)) := by
  have hproc : s.ctx.queue.processing = some y := by
    by_contra hne
    exact hgone (h.kept hy hne)
  refine ⟨hproc, ?_⟩
  cases h with
  | take hq =>
    rw [(get_cases hq).1] at hproc
    cases hproc
  | ignore hx ht =>
    rw [hproc, some.injEq] at hx
    exact .inl (hx ▸ ht)
  | read => exact absurd hy hgone
  | skip hx ht hg hle =>
    obtain rfl := mem_unique hproc hx
    exact .inr ⟨_, _, _, rfl, hg, target_eq_some ht, .inl hle⟩
  | fail hx => exact absurd ((mem_items_retry hx).mpr hy) hgone
  | write hx ht hg _ ha =>
    obtain rfl := mem_unique hproc hx
    exact .inr ⟨_, _, _, rfl, hg, target_eq_some ht, .inr ⟨rfl, ha⟩⟩
  | expire hq => exact absurd ((mem_items_expire hq).mpr hy) hgone

/-- The pods change only by the annotation of an item that the guard lets pass. -/
theorem pods :
    s'.api.pods = s.api.pods ∨ ∃ f x g spec, e = .process f ∧
      s.ctx.queue.processing = some x ∧ s.guard = some g ∧ x.spec = some spec ∧
      g < spec.generation ∧ annotate marshal f x s.api.pods = .ok s'.api.pods := by
  cases h with
  | fail hx ht hg hlt hp =>
    rcases hp with hp | hp
    · exact .inl hp
    · exact .inr ⟨_, _, _, _, rfl, hx, hg, target_eq_some ht, hlt, hp⟩
  | write hx ht hg hlt hp =>
    exact .inr ⟨_, _, _, _, rfl, hx, hg, target_eq_some ht, hlt, hp⟩
  | take | ignore | read | skip | expire => exact .inl rfl

/-- An item waits because it did before, or because its calls failed after the guard had let it
pass. -/
theorem waits (hy : y ∈ waiting s') :
    y ∈ waiting s ∨ ∃ g spec, s.ctx.queue.processing = some y ∧ s.guard = some g ∧
      y.spec = some spec ∧ g < spec.generation := by
  rw [mem_waiting] at hy ⊢
  cases h with
  | @take x q hq =>
    obtain ⟨-, hpend, hdel, hx⟩ := get_cases hq
    simp only [setQueue_queue, hx, hdel, some.injEq] at hy
    rw [hpend, List.mem_cons]
    rcases hy with ⟨-, rfl⟩ | hy | hy
    · exact .inl (.inr (.inl (.inl rfl)))
    · exact .inl (.inr (.inl (.inr hy)))
    · exact .inl (.inr (.inr hy))
  | ignore | skip | write =>
    rcases hy with ⟨-, hy⟩ | hy
    · cases hy
    · exact .inl (.inr hy)
  | read hx =>
    rcases hy with ⟨hy, -⟩ | hy
    · cases hy
    · exact .inl (.inr hy)
  | @fail x spec gen f pods hx ht hg hlt =>
    simp only [setQueue_queue, addRateLimited, done, List.mem_append, List.mem_singleton] at hy
    rcases hy with ⟨-, hy⟩ | hy | hy | rfl
    · cases hy
    · exact .inl (.inr (.inl hy))
    · exact .inl (.inr (.inr hy))
    · exact .inr ⟨gen, spec, hx, hg, target_eq_some ht, hlt⟩
  | expire hq =>
    simp only [setQueue_queue, expire_processing hq] at hy
    exact .inl (hy.imp id (mem_expire hq).mp)

theorem guards {g : Int} (hx : s'.ctx.queue.processing = some x) (hg : s'.guard = some g) :
    s.ctx.queue.processing = some x ∧ s.guard = some g ∨
      x ∈ waiting s ∧ ∃ spec, x.spec = some spec ∧ g = lastGen s.ctx spec.nodeName := by
  cases h with
  | take | ignore | skip | fail | write => cases hg
  | @read x' spec hx' ht hn =>
    rw [show s.ctx.queue.processing = some x from hx, some.injEq] at hx'
    subst hx'
    cases hg
    exact .inr ⟨mem_waiting.mpr (.inl ⟨hn, hx⟩), spec, target_eq_some ht, rfl⟩
  | expire hq =>
    rw [setQueue_queue, expire_processing hq] at hx
    exact .inl ⟨hx, hg⟩

theorem writes :
    (s'.ctx.lastUpdatedGen = s.ctx.lastUpdatedGen ∧ s'.api.specs = s.api.specs ∧
      s'.api.writes = s.api.writes) ∨
    ∃ x spec g, s.ctx.queue.processing = some x ∧ x.spec = some spec ∧ s.guard = some g ∧
      g < spec.generation ∧ s'.guard = none ∧
      s'.ctx.lastUpdatedGen = s.ctx.lastUpdatedGen.insert spec.nodeName spec.generation ∧
      s'.api.specs = s.api.specs.insert spec.nodeName spec ∧
      s'.api.writes = s.api.writes ++ [(spec.nodeName, spec.generation)] := by
  cases h with
  | write hx ht hg hlt => exact .inr ⟨_, _, _, hx, target_eq_some ht, hg, hlt, rfl, rfl, rfl, rfl⟩
  | take | ignore | read | skip | fail | expire => exact .inl ⟨rfl, rfl, rfl⟩

end

end Moves

end IOIsolation.Sched
