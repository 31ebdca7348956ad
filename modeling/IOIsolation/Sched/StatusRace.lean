import IOIsolation.Sched.Accounting
import IOIsolation.Sched.Guaranteed

/-!
# Sched.StatusRace

Reservations and deletions against status updates. `Reserve` first charges the caches of the
handlers and then enters the pod in the list, which raises the generation; the delete event first
refunds the caches and then takes the pod out. Every section under a lock is one step, so a status
update can come between them. It is matched by the generation only, and overwrites the cached
bandwidth with a value for the list without the half-way call. A `Reserve` that fails half way leaves
behind what it has charged.

* `accurate_of_settled` — if no half-way call has moved bandwidth of a device when a status
  overwrites it, and a handler that fails or ends `Reserve` leaves no charge, the cache is exact
  whenever no call is half way.
* `not_alwaysAccurate`  — without that condition it is not.
-/

namespace IOIsolation.Sched.StatusRace

open Lib Finmap Dict Option

/-- What is fixed in a run: the registered handlers, the hash of statuses, and the guaranteed pool
of every device. -/
structure Setting where
  handles : List HandleKind
  nodup : handles.Nodup
  hash : NodeIOStatusStatus → Nat
  pool : HandleKind → String → String → Bandwidth

/-- A call on its way: `reserve` with the requests collected so far, `delete` of a list entry. -/
inductive Job where
  | reserve (cyc : CycleData) (reqs : List IOResourceRequest)
  | delete (e : PodRequest)

structure Op where
  node : String
  pod : Pod
  job : Job
  /-- The handlers still to be called. -/
  left : List HandleKind

structure State where
  sched : SchedState
  ops : Dict String Op
  /-- Every list a node has had. -/
  history : List (String × PodList)

inductive Event where
  | startReserve (node : String) (pod : Pod) (cyc : CycleData) (order : List HandleKind)
  | startDelete (pod : Pod) (order : List HandleKind)
  | advance (uid : String) (classOrder : List String)
  | status (old new : NodeIOStatus) (classOrder : List String)

def Op.requests (op : Op) : Option (List IOResourceRequest) :=
  match op.job with
  | .reserve _ reqs => some reqs
  | .delete _ => none

/-- A reservation after a handler has returned: `none` if `Reserve` returns an error. -/
def Op.next (op : Op) (cyc : CycleData) (h : HandleKind) (rest : List HandleKind)
    (reqs : List IOResourceRequest) : AddResult → Option Op
  | .mismatch _ => none
  | .failed _ => if cyc.critical h then none else some { op with left := rest }
  | .added reqs' => some { op with job := .reserve cyc (reqs ++ reqs'), left := rest }

/-- The second part of a call: the context `ctx` has the new list of the node. -/
def State.commit (s : State) (uid node : String) (ctx : ResourceIOContext) : State :=
  { sched := { s.sched with env := { s.sched.env with ctx := ctx } }
    ops := s.ops.erase uid
    history := match ctx.reservedpod.lookup node with
      | some l => (node, l) :: s.history
      | none => s.history }

/-- One section of the call `op` for pod `uid`: the next handler, or the list. -/
def advance [Rounding] (s : State) (uid : String) (op : Op) (classOrder : List String) :
    Option State :=
  match op.left, op.job with
  | h :: rest, .reserve cyc reqs =>
    match cyc.stateData h with
    | .error _ => some { s with ops := s.ops.erase uid }
    | .ok request =>
      match handleAddPod .ignored h op.pod op.node request cyc.mapping s.sched with
      | .done (sched, r) =>
        some { s with
          sched := sched
          ops := match op.next cyc h rest reqs r with
            | some op' => s.ops.insert uid op'
            | none => s.ops.erase uid }
      | _ => none
  | h :: rest, .delete e =>
    match handleRemovePod .ignored h op.pod op.node none classOrder s.sched with
    | .done (sched, _) =>
      some { s with
        sched := sched
        ops := s.ops.insert uid { op with job := .delete e, left := rest } }
    | _ => none
  | [], .reserve _ reqs =>
    some (s.commit uid op.node (s.sched.env.ctx.record reqs op.pod op.node))
  | [], .delete _ => some (s.commit uid op.node (s.sched.env.ctx.removePod op.pod op.node).1)

variable (S : Setting)

/-- A reservation is of a new pod, a deletion of a reserved one, and no two calls are for one pod
at a time. Namespaces in the white list and pods without the annotation are passed over. -/
def step [Rounding] (s : State) : Event → Option State
  | .startReserve node pod cyc order =>
    if s.sched.env.ctx.inNamespaceWhiteList pod.ns then some s
    else
      match s.sched.env.ctx.reservedpod.lookup node with
      | none => none
      | some l =>
        if order.Perm S.handles ∧ order.all (cycleOk cyc) ∧ pod.uid ∉ l.podList ∧
            pod.uid ∉ s.ops then
          some { s with ops := s.ops.insert pod.uid ⟨node, pod, .reserve cyc [], order⟩ }
        else none
  | .startDelete pod order =>
    if allocatedIOAnno ∉ pod.annotations then some s
    else
      match s.sched.env.ctx.reservedpod.lookup pod.nodeName with
      | none => none
      | some l =>
        match l.podList.lookup pod.uid with
        | none => none
        | some e =>
          if order.Perm S.handles ∧ pod.uid ∉ s.ops then
            some { s with ops := s.ops.insert pod.uid ⟨pod.nodeName, pod, .delete e, order⟩ }
          else none
  | .advance uid classOrder =>
    match s.ops.lookup uid with
    | none => none
    | some op => advance s uid op classOrder
  | .status old new classOrder =>
    some { s with sched := updateNodeIOStatus S.hash S.handles old new classOrder s.sched }

/-- The cached bandwidth of every device is its pool minus the requests of the reserved pods. -/
def Accurate (s : State) : Prop :=
  ∀ n l, s.sched.env.ctx.reservedpod.lookup n = some l → ∀ k ∈ S.handles, ∀ dev b,
    cached s.sched.caches k n dev = some b →
      b = S.pool k n dev - taken (reserved k.ioType dev l.podList)

/-- What a status reports is right for every list of the node of the observed generation. -/
def StatusCorrect (s : State) : Event → Prop
  | .status _ new _ => ∀ x ∈ s.history, x.1 = new.spec.nodeName →
      x.2.generation = new.status.observedGeneration →
      ∀ k ∈ S.handles, ∀ dev ∈ devices s.sched.caches k x.1, ∀ b ∈ reported k new.status dev,
        b = S.pool k x.1 dev - taken (reserved k.ioType dev x.2.podList)
  | _ => True

/-- No call is half way, the lists can be released again, and the cache is exact. -/
structure Start (s : State) : Prop where
  named : Named s.sched.caches
  no_ops : s.ops = ∅
  history : ∀ n l, s.sched.env.ctx.reservedpod.lookup n = some l → (n, l) ∈ s.history
  releasable : ∀ n l uid e, s.sched.env.ctx.reservedpod.lookup n = some l →
    l.podList.lookup uid = some e → Releasable s.sched.caches n e.request
  accurate : Accurate S s

/-- Whenever no call is half way the cache is exact, in every run with correct statuses. -/
def AlwaysAccurate : Prop :=
  ∀ (S : Setting) (s t : State) (es : List Event), Start S s → run (step S) s es = some t →
    Along (step S) (StatusCorrect S) s es → t.ops = ∅ → Accurate S t

/-! ## The condition -/

/-- What a half-way call has moved on a device: a reservation has taken its requests already, a
deletion has given back those of the handlers called so far. -/
def Op.moved (op : Op) (k : HandleKind) (n dev : String) : Demand :=
  if op.node = n then
    match op.job with
    | .reserve _ reqs => podDemand k.ioType dev reqs
    | .delete e => if k ∈ op.left then 0 else -podDemand k.ioType dev e.request
  else 0

def halfway (k : HandleKind) (n dev : String) (ops : Dict String Op) : Demand :=
  Dict.total (fun _ op => op.moved k n dev) ops

/-- The cached bandwidths have changed as what the half-way calls have moved. -/
def Moves (s s' : State) : Prop :=
  ∀ n ∈ s.sched.env.ctx.reservedpod.keys, ∀ k ∈ S.handles, ∀ dev ∈ devices s.sched.caches k n,
    cached s'.sched.caches k n dev = (cached s.sched.caches k n dev).map
      (· - taken (halfway k n dev s'.ops - halfway k n dev s.ops))

/-- When a status is applied, the half-way calls have moved nothing on any device it overwrites. A
handler from which a reservation gets no requests, because it fails or has none to work on, leaves the
cache as the calls that go on ask: a reservation that goes on has moved nothing more, and one that
ends nothing at all. -/
def Settled [Rounding] (s : State) : Event → Prop
  | .status old new _ => StatusApplies S.hash old new s.sched.env.ctx → ∀ k ∈ S.handles,
      ∀ dev ∈ devices s.sched.caches k new.spec.nodeName,
        reported k new.status dev = none ∨ taken (halfway k new.spec.nodeName dev s.ops) = 0
  | .advance uid classOrder => ∀ op ∈ s.ops.lookup uid, op.left ≠ [] → ∀ reqs ∈ op.requests,
      ∀ s' ∈ step S s (.advance uid classOrder),
        (∀ op' ∈ s'.ops.lookup uid, op'.requests = some reqs) → Moves S s s'
  | _ => True

instance StatusCorrect.decidable (s : State) : ∀ e, Decidable (StatusCorrect S s e)
  | .status _ _ _ => by unfold StatusCorrect; infer_instance
  | .startReserve _ _ _ _ => isTrue trivial
  | .startDelete _ _ => isTrue trivial
  | .advance _ _ => isTrue trivial

instance Moves.decidable (s s' : State) : Decidable (Moves S s s') := by
  unfold Moves; infer_instance

instance Settled.decidable [Rounding] (s : State) : ∀ e, Decidable (Settled S s e)
  | .status _ _ _ => by unfold Settled; infer_instance
  | .startReserve _ _ _ _ => isTrue trivial
  | .startDelete _ _ => isTrue trivial
  | .advance _ _ => by unfold Settled; infer_instance

/-! ## The invariant -/

structure OpOk (sched : SchedState) (uid : String) (op : Op) (l : PodList) : Prop where
  pod : op.pod.uid = uid
  list : sched.env.ctx.reservedpod.lookup op.node = some l
  nodup : op.left.Nodup
  job : match op.job with
    | .reserve cyc reqs => uid ∉ l.podList ∧ Releasable sched.caches op.node reqs ∧
        ∀ h ∈ op.left, cycleOk cyc h = true
    | .delete e => l.podList.lookup uid = some e ∧ op.pod.nodeName = op.node

structure Inv (s : State) : Prop where
  named : Named s.sched.caches
  history : ∀ n l, s.sched.env.ctx.reservedpod.lookup n = some l → (n, l) ∈ s.history
  releasable : ∀ n l uid e, s.sched.env.ctx.reservedpod.lookup n = some l →
    l.podList.lookup uid = some e → Releasable s.sched.caches n e.request
  ops : ∀ uid op, s.ops.lookup uid = some op → ∃ l, OpOk s.sched uid op l
  /-- The cache is exact for the list and the half-way calls together. -/
  balanced : ∀ n l, s.sched.env.ctx.reservedpod.lookup n = some l → ∀ k ∈ S.handles, ∀ dev b,
    cached s.sched.caches k n dev = some b →
      b = S.pool k n dev - taken (reserved k.ioType dev l.podList + halfway k n dev s.ops)

variable {s : State}

theorem start_inv (h : Start S s) : Inv S s where
  named := h.named
  history := h.history
  releasable := h.releasable
  ops := by
    intro uid op hop
    rw [h.no_ops, lookup_empty] at hop
    cases hop
  balanced := by
    intro n l hl k hk dev b hb
    rw [h.accurate n l hl k hk dev b hb, h.no_ops, halfway, total_empty, add_zero]

theorem Inv.accurate (h : Inv S s) (hops : s.ops = ∅) : Accurate S s := by
  intro n l hl k hk dev b hb
  rw [h.balanced n l hl k hk dev b hb, hops, halfway, total_empty, add_zero]

theorem Inv.start (h : Inv S s) {uid : String} {op : Op} (hnew : uid ∉ s.ops)
    (hmoved : ∀ k ∈ S.handles, ∀ n dev, op.moved k n dev = 0) (hok : ∃ l, OpOk s.sched uid op l) :
    Inv S { s with ops := s.ops.insert uid op } where
  __ := h
  ops := by
    intro u op' hop'
    rw [lookup_insert_ite] at hop'
    split_ifs at hop' with hu
    · cases hop'
      exact hu ▸ hok
    · exact h.ops u op' hop'
  balanced := by
    intro n l hl k hk dev b hb
    rw [h.balanced n l hl k hk dev b hb]
    simp only [halfway]
    rw [total_insert hnew, hmoved k hk, zero_add]

section moves

variable {uid : String} {op op' : Op} {sched : SchedState} {l : PodList}

/-- A half-way call stays what it is while the caches keep their shape and the lists do not
change. -/
theorem OpOk.of_same (h : OpOk s.sched uid op l) (hshape : SameShape s.sched.caches sched.caches)
    (hlists : sched.env.ctx.reservedpod = s.sched.env.ctx.reservedpod) : OpOk sched uid op l := by
  refine ⟨h.pod, hlists ▸ h.list, h.nodup, ?_⟩
  have hjob := h.job
  cases hj : op.job with
  | reserve cyc reqs =>
    rw [hj] at hjob
    exact ⟨hjob.1, hjob.2.1.of_sameShape hshape, hjob.2.2⟩
  | delete e =>
    rw [hj] at hjob
    exact hjob

/-- A step that changes the lists in nothing and the cache as the half-way calls. -/
theorem Inv.moves {s' : State} (h : Inv S s) (hmoves : Moves S s s')
    (hshape : SameShape s.sched.caches s'.sched.caches)
    (hlists : s'.sched.env.ctx.reservedpod = s.sched.env.ctx.reservedpod)
    (hhistory : s'.history = s.history)
    (hops : ∀ u o, s'.ops.lookup u = some o → ∃ l, OpOk s'.sched u o l) : Inv S s' where
  named := h.named.of_sameShape hshape
  history := by
    intro n l hl
    rw [hlists] at hl
    rw [hhistory]
    exact h.history n l hl
  releasable := by
    intro n l u e hl he
    rw [hlists] at hl
    exact (h.releasable n l u e hl he).of_sameShape hshape
  ops := hops
  balanced := by
    intro n l hl k hk dev b hb
    rw [hlists] at hl
    have hdev := mem_devices hb
    rw [hshape.devices] at hdev
    rw [hmoves n (Finmap.mem_keys.mpr (mem_of_lookup_eq_some hl)) k hk dev hdev] at hb
    obtain ⟨b₀, hb₀, rfl⟩ := map_eq_some_iff.mp hb
    rw [h.balanced n l hl k hk dev b₀ hb₀]
    simp only [taken_add, taken_sub]
    abel

/-- A handler has returned in the call `op`, which goes on as `op'`, or ends. -/
theorem Inv.ops_next (h : Inv S s) (next : Option Op)
    (hshape : SameShape s.sched.caches sched.caches)
    (hlists : sched.env.ctx.reservedpod = s.sched.env.ctx.reservedpod)
    (hnext : ∀ op' ∈ next, ∃ l, OpOk sched uid op' l) (u : String) (o : Op)
    (ho : (match next with
      | some op' => s.ops.insert uid op'
      | none => s.ops.erase uid).lookup u = some o) : ∃ l, OpOk sched u o l := by
  have hother : s.ops.lookup u = some o → ∃ l, OpOk sched u o l := fun ho =>
    (h.ops u o ho).imp fun _ hok => hok.of_same hshape hlists
  cases next with
  | none =>
    rw [lookup_erase_ite] at ho
    split_ifs at ho
    exact hother ho
  | some op' =>
    rw [lookup_insert_ite] at ho
    split_ifs at ho with hu
    · cases ho
      exact hu ▸ hnext _ rfl
    · exact hother ho

theorem moves_insert (hop : s.ops.lookup uid = some op)
    (hcached : ∀ k m dev, cached sched.caches k m dev = (cached s.sched.caches k m dev).map
      (· - taken (op'.moved k m dev - op.moved k m dev))) :
    Moves S s { s with sched := sched, ops := s.ops.insert uid op' } := by
  intro n _ k _ dev _
  have hdiff : ∀ a b c : Demand, a - b + c - a = c - b := fun a b c => by abel
  simp only [halfway]
  rw [hcached, total_replace hop, hdiff]

/-- The second part of a call enters in the list what the call has moved. -/
theorem Inv.commit (h : Inv S s) (hop : s.ops.lookup uid = some op) {l' : PodList}
    {ctx : ResourceIOContext} (hl : s.sched.env.ctx.reservedpod.lookup op.node = some l)
    (hctx : ∀ n, ctx.reservedpod.lookup n =
      if n = op.node then some l' else s.sched.env.ctx.reservedpod.lookup n)
    (hothers : ∀ u, u ≠ uid → l'.podList.lookup u = l.podList.lookup u)
    (hentry : ∀ e, l'.podList.lookup uid = some e → Releasable s.sched.caches op.node e.request)
    (hres : ∀ k dev, reserved k.ioType dev l'.podList =
      reserved k.ioType dev l.podList + op.moved k op.node dev) :
    Inv S (s.commit uid op.node ctx) where
  named := h.named
  history := by
    intro n l₁ hl₁
    simp only [State.commit, hctx, if_true] at hl₁ ⊢
    split_ifs at hl₁ with hn
    · cases hl₁
      rw [hn]
      exact List.mem_cons_self
    · exact List.mem_cons_of_mem _ (h.history n l₁ hl₁)
  releasable := by
    intro n l₁ u e hl₁ he
    simp only [State.commit, hctx] at hl₁
    split_ifs at hl₁ with hn
    · cases hl₁
      subst hn
      by_cases hu : u = uid
      · subst hu
        exact hentry e he
      · rw [hothers u hu] at he
        exact h.releasable _ l u e hl he
    · exact h.releasable n l₁ u e hl₁ he
  ops := by
    intro u o ho
    rw [State.commit, lookup_erase_ite] at ho
    split_ifs at ho with hu
    obtain ⟨l₁, hok⟩ := h.ops u o ho
    by_cases hn : o.node = op.node
    · -- the other calls on the node see the same entry of their pod
      have hl₁ := hok.list
      rw [hn, hl, Option.some.injEq] at hl₁
      subst hl₁
      refine ⟨l', hok.pod, ?_, hok.nodup, ?_⟩
      · simp only [State.commit, hctx, if_pos hn]
      have hjob := hok.job
      cases hj : o.job with
      | reserve cyc reqs =>
        rw [hj] at hjob
        refine ⟨?_, hjob.2⟩
        rw [← lookup_eq_none, hothers u hu, lookup_eq_none]
        exact hjob.1
      | delete e =>
        rw [hj] at hjob
        exact ⟨(hothers u hu).trans hjob.1, hjob.2⟩
    · refine ⟨l₁, hok.pod, ?_, hok.nodup, hok.job⟩
      simp only [State.commit, hctx, if_neg hn]
      exact hok.list
  balanced := by
    intro n l₁ hl₁ k hk dev b hb
    simp only [State.commit, hctx] at hl₁
    simp only [State.commit, halfway]
    rw [total_erase hop]
    split_ifs at hl₁ with hn
    · cases hl₁
      subst hn
      rw [h.balanced _ l hl k hk dev b hb, hres]
      simp only [halfway, taken_add, taken_sub]
      abel
    · have hzero : op.moved k n dev = 0 := by
        rw [Op.moved, if_neg (Ne.symm hn)]
      rw [h.balanced n l₁ hl₁ k hk dev b hb, hzero, sub_zero, halfway]

end moves

/-! ## The steps -/

section steps

variable {s' : State} {uid : String} {op : Op} {cyc : CycleData} {k : HandleKind}
  {reqs : List IOResourceRequest} {rest : List HandleKind} {sched : SchedState} {e : PodRequest}

theorem advance_added (hok : ∃ l, OpOk s.sched uid op l) (hop : s.ops.lookup uid = some op)
    {reqs' : List IOResourceRequest} {request : RawRequest} (hjob : op.job = .reserve cyc reqs)
    (hleft : op.left = k :: rest) (hreq : cyc.stateData k = .ok request)
    (hadd : handleAddPod .ignored k op.pod op.node request cyc.mapping s.sched =
      .done (sched, .added reqs')) :
    Moves S s { s with
      sched := sched
      ops := s.ops.insert uid { op with job := .reserve cyc (reqs ++ reqs'), left := rest } } ∧
      Releasable sched.caches op.node (reqs ++ reqs') := by
  obtain ⟨l, hok⟩ := hok
  have hj := hok.job
  rw [hjob] at hj
  obtain ⟨-, hrel, hready⟩ := hj
  obtain ⟨hres, hrel'⟩ := handleAddPod_cached
    (requestOk_of_cycleOk (hready k (hleft ▸ List.mem_cons_self)) hreq) hadd
  refine ⟨moves_insert S hop fun k' m dev => ?_, (hrel.append hrel').of_sameShape hres.shape⟩
  rw [hres.cached]
  by_cases hm : m = op.node
  · subst hm
    simp only [Op.moved, hjob, if_true, podDemand_append, add_sub_cancel_left]
  · simp [Op.moved, hm, Ne.symm hm]

variable {classOrder : List String}

section

variable (h : Inv S s) (hop : s.ops.lookup uid = some op)
include h hop

theorem advance_delete {r : Except String Unit} (hjob : op.job = .delete e)
    (hleft : op.left = k :: rest)
    (hrem : handleRemovePod .ignored k op.pod op.node none classOrder s.sched = .done (sched, r)) :
    Inv S { s with
      sched := sched
      ops := s.ops.insert uid { op with job := .delete e, left := rest } } := by
  obtain ⟨l, hok⟩ := h.ops uid op hop
  have hj := hok.job
  rw [hjob] at hj
  obtain ⟨he, hnode⟩ := hj
  have hnodup := hok.nodup
  rw [hleft, List.nodup_cons] at hnodup
  have hrel := handleRemovePod_cached h.named hok.list (hok.pod ▸ he)
    (h.releasable _ l uid e hok.list he) hrem
  refine h.moves S (moves_insert S hop fun k' m dev => ?_) hrel.shape hrel.ctx.reservedpod rfl
    (h.ops_next S (some _) hrel.shape hrel.ctx.reservedpod fun op' hop' => ?_)
  · rw [hrel.cached]
    by_cases hm : m = op.node
    · subst hm
      by_cases hk : k' = k
      · subst hk
        simp [Op.moved, hjob, hleft, hnodup.1]
      · simp [Op.moved, hjob, hleft, hk]
    · simp [Op.moved, hm, Ne.symm hm]
  · cases hop'
    exact ⟨l, hok.pod, hrel.ctx.reservedpod ▸ hok.list, hnodup.2, he, hnode⟩

theorem advance_reserve (hjob : op.job = .reserve cyc reqs) (hleft : op.left = k :: rest)
    (hs : advance s uid op classOrder = some s')
    (hsettled : (∀ op' ∈ s'.ops.lookup uid, op'.requests = some reqs) → Moves S s s') : Inv S s' := by
  obtain ⟨l, hok⟩ := h.ops uid op hop
  have hnodup := hok.nodup
  rw [hleft, List.nodup_cons] at hnodup
  simp only [advance, hleft, hjob] at hs
  cases hreq : cyc.stateData k with
  | error err =>
    simp only [hreq, Option.some.injEq] at hs
    subst hs
    exact h.moves S (hsettled (by simp)) (.refl _) rfl rfl
      (h.ops_next S none (.refl _) rfl (by simp))
  | ok request =>
    simp only [hreq] at hs
    split at hs
    · rename_i sched r hadd
      cases hs
      obtain ⟨hshape, hctx⟩ := (handleAddPod_writes hadd).frame
      have hj := (hok.of_same hshape hctx.reservedpod).job
      rw [hjob] at hj
      obtain ⟨hnew, hrel, hready⟩ := hj
      rw [hleft, List.forall_mem_cons] at hready
      have hnext : ∀ op' ∈ op.next cyc k rest reqs r, ∃ l, OpOk sched uid op' l := by
        intro op' hop'
        refine ⟨l, ?_⟩
        cases r with
        | mismatch err => cases hop'
        | failed err =>
          simp only [Op.next] at hop'
          split_ifs at hop'
          · cases hop'
          obtain rfl := Option.mem_some_iff.mp hop'
          exact ⟨hok.pod, hctx.reservedpod ▸ hok.list, hnodup.2, by
            simp only [hjob]
            exact ⟨hnew, hrel, hready.2⟩⟩
        | added reqs' =>
          cases hop'
          exact ⟨hok.pod, hctx.reservedpod ▸ hok.list, hnodup.2, hnew,
            (advance_added S ⟨l, hok⟩ hop hjob hleft hreq hadd).2, hready.2⟩
      refine h.moves S ?_ hshape hctx.reservedpod rfl (h.ops_next S _ hshape hctx.reservedpod hnext)
      cases r with
      | mismatch err => exact hsettled (by simp [Op.next])
      | failed err =>
        refine hsettled fun op' hop' => ?_
        simp only [Op.next] at hop'
        split_ifs at hop'
        · simp at hop'
        · simp only [lookup_insert, Option.mem_some_iff] at hop'
          rw [← hop', Op.requests]
          simp only [hjob]
      | added reqs' => exact (advance_added S ⟨l, hok⟩ hop hjob hleft hreq hadd).1
    · cases hs

theorem commit_reserve (hjob : op.job = .reserve cyc reqs) :
    Inv S (s.commit uid op.node (s.sched.env.ctx.record reqs op.pod op.node)) := by
  obtain ⟨l, hok⟩ := h.ops uid op hop
  have hj := hok.job
  rw [hjob] at hj
  obtain ⟨hnew, hrel, -⟩ := hj
  have hmoved : ∀ k dev, op.moved k op.node dev = podDemand k.ioType dev reqs := by
    intro k dev
    rw [Op.moved, if_pos rfl, hjob]
  unfold ResourceIOContext.record
  by_cases hreqs : reqs = []
  · -- a pod without requests is not entered
    subst hreqs
    rw [if_pos rfl]
    refine h.commit S hop hok.list (fun n => ?_) (fun _ _ => rfl) (fun e he => ?_)
      (fun k dev => ?_)
    · split_ifs with hn
      · rw [hn, hok.list]
      · rfl
    · exact h.releasable _ l uid e hok.list he
    · rw [hmoved, podDemand_nil, add_zero]
  · rw [if_neg hreqs, ResourceIOContext.addPod_of_lookup hok.list, hok.pod]
    refine h.commit S hop hok.list (fun n => lookup_insert_ite _ _ _ _)
      (fun u hu => lookup_insert_of_ne _ hu) (fun e he => ?_) (fun k dev => ?_)
    · rw [lookup_insert, Option.some.injEq] at he
      subst he
      exact hrel
    · rw [hmoved, reserved, total_insert hnew, add_comm]
      rfl

theorem commit_delete (hjob : op.job = .delete e) (hleft : op.left = []) :
    Inv S (s.commit uid op.node (s.sched.env.ctx.removePod op.pod op.node).1) := by
  obtain ⟨l, hok⟩ := h.ops uid op hop
  have hj := hok.job
  rw [hjob] at hj
  obtain ⟨he, hnode⟩ := hj
  rw [ResourceIOContext.removePod_of_lookup hnode hok.list, hok.pod]
  refine h.commit S hop hok.list (fun n => lookup_insert_ite _ _ _ _)
    (fun u hu => lookup_erase_ne hu) (fun e' he' => ?_) (fun k dev => ?_)
  · rw [lookup_erase] at he'
    cases he'
  · rw [Op.moved, if_pos rfl, hjob, hleft, reserved, total_erase he, sub_eq_add_neg]
    simp [reserved]

theorem advance_inv (hs : advance s uid op classOrder = some s')
    (hsettled : op.left ≠ [] → ∀ reqs ∈ op.requests,
      (∀ op' ∈ s'.ops.lookup uid, op'.requests = some reqs) → Moves S s s') : Inv S s' := by
  cases hleft : op.left with
  | cons k rest =>
    cases hjob : op.job with
    | reserve cyc reqs =>
      refine advance_reserve S h hop hjob hleft hs (hsettled (by simp [hleft]) reqs ?_)
      rw [Op.requests, hjob]
      rfl
    | delete e =>
      simp only [advance, hleft, hjob] at hs
      split at hs
      · rename_i sched r hrem
        cases hs
        exact advance_delete S h hop hjob hleft hrem
      · cases hs
  | nil =>
    simp only [advance, hleft] at hs
    cases hjob : op.job with
    | reserve cyc reqs =>
      simp only [hjob, Option.some.injEq] at hs
      subst hs
      exact commit_reserve S h hop hjob
    | delete e =>
      simp only [hjob, Option.some.injEq] at hs
      subst hs
      exact commit_delete S h hop hjob hleft

end

/-- A correct status keeps the balance when nothing is moved on the devices it overwrites. -/
theorem status_inv {old new : NodeIOStatus} (h : Inv S s)
    (hcorrect : StatusCorrect S s (.status old new classOrder))
    (hsettled : Settled S s (.status old new classOrder)) :
    Inv S { s with
      sched := updateNodeIOStatus S.hash S.handles old new classOrder s.sched } := by
  obtain ⟨henv, hcases⟩ := updateNodeIOStatus_cached S.hash S.handles old new classOrder s.sched
  rcases hcases with hsame | ⟨happ, hover⟩
  · rw [hsame]
    exact h
  have hlists := congrArg (fun env => env.ctx.reservedpod) henv
  refine ⟨h.named.of_sameShape hover.shape, ?_, ?_, ?_, ?_⟩
  · intro n l hl
    rw [hlists] at hl
    exact h.history n l hl
  · intro n l uid e hl he
    rw [hlists] at hl
    exact (h.releasable n l uid e hl he).of_sameShape hover.shape
  · intro uid op hop
    obtain ⟨l, hok⟩ := h.ops uid op hop
    exact ⟨l, hok.of_same hover.shape hlists⟩
  intro n l hl k hk dev b hb
  rw [hlists] at hl
  rcases hover.cached k n dev with heq | ⟨rfl, hsome, b', hrep, hc⟩
  · rw [heq] at hb
    exact h.balanced n l hl k hk dev b hb
  -- the status is for the current list
  obtain rfl := mem_unique hc hb
  obtain ⟨rp, hrp, -, -, hgen⟩ := id happ
  rw [Option.mem_def, hl, Option.some.injEq] at hrp
  subst hrp
  obtain ⟨b₀, hb₀⟩ := isSome_iff_exists.mp hsome
  have hdev := mem_devices hb₀
  have hright := hcorrect (_, l) (h.history _ l hl) rfl hgen.symm k hk dev hdev b' hrep
  rcases hsettled happ k hk dev hdev with hnone | hzero
  · rw [hrep] at hnone
    cases hnone
  · rw [hright, taken_add, hzero, add_zero]

theorem step_inv {e : Event} (hs : step S s e = some s')
    (hc : StatusCorrect S s e ∧ Settled S s e) (h : Inv S s) : Inv S s' := by
  cases e with
  | startReserve node pod cyc order =>
    simp only [step] at hs
    split_ifs at hs with hwl
    · cases hs
      exact h
    cases hl : s.sched.env.ctx.reservedpod.lookup node with
    | none => simp [hl] at hs
    | some l =>
      simp only [hl] at hs
      split_ifs at hs with hcond
      obtain ⟨hperm, hready, hnew, hops⟩ := hcond
      cases hs
      refine h.start S hops (fun k _ n dev => ?_) ⟨l, rfl, hl, ?_, hnew, releasable_nil _ _, ?_⟩
      · simp [Op.moved]
      · exact hperm.nodup_iff.mpr S.nodup
      · exact List.all_eq_true.mp hready
  | startDelete pod order =>
    simp only [step] at hs
    by_cases hanno : allocatedIOAnno ∉ pod.annotations
    · rw [if_pos hanno] at hs
      cases hs
      exact h
    rw [if_neg hanno] at hs
    cases hl : s.sched.env.ctx.reservedpod.lookup pod.nodeName with
    | none => simp [hl] at hs
    | some l =>
      cases he : l.podList.lookup pod.uid with
      | none => simp [hl, he] at hs
      | some e =>
        simp only [hl, he] at hs
        split_ifs at hs with hcond
        obtain ⟨hperm, hops⟩ := hcond
        cases hs
        refine h.start S hops (fun k hk n dev => ?_) ⟨l, rfl, hl, ?_, he, rfl⟩
        · simp [Op.moved, hperm.mem_iff.mpr hk]
        · exact hperm.nodup_iff.mpr S.nodup
  | advance uid classOrder =>
    simp only [step] at hs
    cases hop : s.ops.lookup uid with
    | none => simp [hop] at hs
    | some op =>
      have hset := hc.2 op hop
      simp only [step, hop, Option.mem_def] at hs hset
      exact advance_inv S h hop hs fun hleft reqs hreqs => hset hleft reqs hreqs s' hs
  | status old new classOrder =>
    cases hs
    exact status_inv S h hc.1 hc.2

end steps

theorem Settled.exact [Rounding] {e : Event} (hexact : Unrounded fun _ => step S s e)
    (h : Settled S s e) : @Settled S .exact s e := by
  cases e with
  | advance uid classOrder =>
    intro op hop hleft reqs hreqs s' hs'
    exact h op hop hleft reqs hreqs s' (hexact.trans hs')
  | startReserve | startDelete | status => exact h

open BlockIo (sdaConfig sdaNode sdaEnv sdaPod sdaRequest noAnswers)

def setting : Setting where
  handles := [.blockIo]
  nodup := by decide
  hash := fun st => ((st.allocatableBandwidth.lookup .blockIo).map fun bw => bw.keys.card).getD 0
  pool := fun _ _ _ => (80, 80, 120)

def sdaCaches : Caches :=
  { blockIo := Finmap.singleton "n"
      (sdaNode.setDisks (BlockIo.initDisks sdaConfig ∅ sdaNode.info.disksStatus))
    networkIo := ∅, rdt := ∅, rdtQuantity := ∅ }

def start : State :=
  { sched := ⟨sdaCaches, sdaEnv⟩, ops := ∅, history := [("n", ⟨0, ∅⟩)] }

def cycle : CycleData :=
  { stateData := fun _ => .ok (.blockIo (sdaRequest .gaIndex))
    critical := fun _ => false
    mapping := noAnswers }

def statusOf (gen : Int) (bw : Dict String (Dict WorkloadQoSType IOStatus)) : NodeIOStatus :=
  { spec := ⟨"n", gen, ∅⟩, status := ⟨gen, Finmap.singleton .blockIo bw⟩ }

/-- All of the pool is allocatable. -/
def fullStatus : NodeIOStatus :=
  statusOf 0 (Finmap.singleton "sda" (Finmap.singleton .ga ⟨120, 80, 80, 0⟩))

theorem start_start : Start setting start := by
  refine ⟨⟨?_, ?_⟩, rfl, ?_, ?_, ?_⟩
  · intro n x hx
    obtain ⟨ps, hps, rfl⟩ := map_eq_some_iff.mp hx
    obtain ⟨rfl, rfl⟩ := eq_of_lookup_singleton hps
    rfl
  · intro n x hx
    obtain ⟨ps, hps, rfl⟩ := map_eq_some_iff.mp hx
    exact absurd (mem_of_lookup_eq_some hps) notMem_empty
  · intro n l hl
    obtain ⟨rfl, rfl⟩ := eq_of_lookup_singleton hl
    exact List.mem_singleton_self _
  · intro n l uid e hl he
    obtain ⟨rfl, rfl⟩ := eq_of_lookup_singleton hl
    exact absurd (mem_of_lookup_eq_some he) notMem_empty
  · intro n l hl k hk dev b hb
    obtain ⟨rfl, rfl⟩ := eq_of_lookup_singleton hl
    rw [List.mem_singleton.mp hk] at hb ⊢
    have hdev : dev = "sda" := by
      have hdevs : devices start.sched.caches .blockIo "n" = {"sda"} := by decide +kernel
      have hmem := mem_devices hb
      rwa [hdevs, Finset.mem_singleton] at hmem
    subst hdev
    have hval : cached start.sched.caches .blockIo "n" "sda" = some (80, 80, 120) := by
      decide +kernel
    rw [hval, Option.some.injEq] at hb
    rw [← hb]
    simp [setting, reserved]

/-- The status of generation 0 comes between the two parts of a reservation. -/
def between : List Event :=
  [.startReserve "n" (sdaPod "a") cycle [.blockIo], .advance "a" [],
    .status (statusOf 0 ∅) fullStatus [], .advance "a" []]

/-- What is seen of the disk once no call is half way: what the list reserves and what is
cached. -/
def observe (t : State) : Option (Option Demand × Option Bandwidth) :=
  if t.ops.keys = ∅ then
    some ((t.sched.env.ctx.reservedpod.lookup "n").map fun l => reserved .diskIo "sda" l.podList,
      cached t.sched.caches .blockIo "n" "sda")
  else none

variable {t : State}

theorem observe_eq {d : Demand} {b : Bandwidth} (h : observe t = some (some d, some b)) :
    t.ops.keys = ∅ ∧ (∃ l, t.sched.env.ctx.reservedpod.lookup "n" = some l ∧
      reserved .diskIo "sda" l.podList = d) ∧ cached t.sched.caches .blockIo "n" "sda" = some b := by
  unfold observe at h
  split_ifs at h with hkeys
  simp only [Option.some.injEq, Prod.mk.injEq] at h
  exact ⟨hkeys, map_eq_some_iff.mp h.1, h.2⟩

theorem no_ops_of_keys (h : t.ops.keys = ∅) : t.ops = ∅ := by
  refine Dict.eq_empty fun uid => ?_
  rw [← mem_keys, h]
  exact Finset.notMem_empty uid

/-- The status of generation 0 comes before the reservation, and one of generation 1 after it. -/
def apart : List Event :=
  [.status (statusOf 0 ∅) fullStatus [],
    .startReserve "n" (sdaPod "a") cycle [.blockIo], .advance "a" [], .advance "a" [],
    .status fullStatus (statusOf 1 (Finmap.singleton "sda" (Finmap.singleton .ga ⟨70, 50, 60, 0⟩)))
      []]

end IOIsolation.Sched.StatusRace
