import IOIsolation.Sched.BlockIo
import IOIsolation.Sched.NetworkIo
import IOIsolation.Sched.RDT

/-!
# Sched.Plugin

The scheduler plugin: the registered handlers with their node caches, and the extension points
`Reserve` and `Unreserve` that run over all of them. The handlers are kept in a Go map, so the
list of handlers is the order of one loop.

* `handleAddPod_blockIo`, `handleRemovePod_blockIo` and the like — what a call of a handler can do.
-/

namespace IOIsolation.Sched

open Lib

inductive HandleKind where
  | blockIo
  | networkIo
  | rdt
  | rdtQuantity
  deriving DecidableEq

structure Caches where
  blockIo : Dict String BlockIo.Resource
  networkIo : Dict String NetworkIo.Resource
  rdt : Dict String RDT.Resource
  rdtQuantity : Dict String RDTQuantity.Resource
  deriving DecidableEq

/-- The request a scheduling cycle keeps for a handler; `nil` is what `Filter` writes for a node
without support. -/
inductive RawRequest where
  | nil
  | blockIo (r : BlockIo.RequestInfo)
  | networkIo (r : NetworkIo.RequestInfo)
  | rdt (class_ : String)
  | rdtQuantity (r : IOResourceRequest)

def RawRequest.asBlockIo : RawRequest → Option BlockIo.RequestInfo
  | .blockIo r => some r
  | _ => none

def RawRequest.asNetworkIo : RawRequest → Option NetworkIo.RequestInfo
  | .networkIo r => some r
  | _ => none

def RawRequest.asRdtQuantity : RawRequest → Option IOResourceRequest
  | .rdtQuantity r => some r
  | _ => none

structure SchedState where
  caches : Caches
  env : BlockIo.Env
  deriving DecidableEq

/-- `HandleBase.AddPod`: the handler's cache entry of the node does the work. -/
def handleAddPod [Rounding] (lm : LockModel) (h : HandleKind) (pod : Pod) (nodeName : String)
    (request : RawRequest) (a : BlockIo.MappingAnswers) (s : SchedState) :
    Outcome (SchedState × AddResult) :=
  let missing : Outcome (SchedState × AddResult) :=
    .done (s, .failed s!"cannot get extended resource: {nodeName}")
  match h with
  | .blockIo =>
    match s.caches.blockIo.lookup nodeName with
    | none => missing
    | some ps => do
      let (ps, env, r) ← BlockIo.addPod lm ps pod request.asBlockIo a s.env
      return ({ caches := { s.caches with blockIo := s.caches.blockIo.insert nodeName ps }
                env := env }, r)
  | .networkIo =>
    match s.caches.networkIo.lookup nodeName with
    | none => missing
    | some ps => do
      let (ps, r) ← NetworkIo.addPod ps request.asNetworkIo
      return ({ s with
        caches := { s.caches with networkIo := s.caches.networkIo.insert nodeName ps } }, r)
  | .rdt =>
    match s.caches.rdt.lookup nodeName with
    | none => missing
    | some ps =>
      let (ps, r) := RDT.addPod ps
      .done ({ s with caches := { s.caches with rdt := s.caches.rdt.insert nodeName ps } }, r)
  | .rdtQuantity =>
    match s.caches.rdtQuantity.lookup nodeName with
    | none => missing
    | some ps => do
      let (ps, r) ← RDTQuantity.addPod ps pod request.asRdtQuantity
      return ({ s with
        caches := { s.caches with rdtQuantity := s.caches.rdtQuantity.insert nodeName ps } }, r)

/-- `HandleBase.RemovePod`; a node without a cache entry is no error. `classOrder` is the order in
which the RDT-quantity handler visits its classes. -/
def handleRemovePod [Rounding] (lm : LockModel) (h : HandleKind) (pod : Pod) (nodeName : String)
    (client : Option BlockIo.RemoveAnswers) (classOrder : List String) (s : SchedState) :
    Outcome (SchedState × Except String Unit) :=
  match h with
  | .blockIo =>
    match s.caches.blockIo.lookup nodeName with
    | none => .done (s, .ok ())
    | some ps => do
      let (ps, env, r) ← BlockIo.removePod lm ps pod client s.env
      return ({ caches := { s.caches with blockIo := s.caches.blockIo.insert nodeName ps }
                env := env }, r)
  | .networkIo =>
    match s.caches.networkIo.lookup nodeName with
    | none => .done (s, .ok ())
    | some ps => do
      let (ps, held, r) ← NetworkIo.removePod lm ps pod s.env.ctx s.env.held
      return ({ caches := { s.caches with networkIo := s.caches.networkIo.insert nodeName ps }
                env := { s.env with held := held } }, r)
  | .rdt =>
    match s.caches.rdt.lookup nodeName with
    | none => .done (s, .ok ())
    | some ps =>
      .done ({ s with caches := { s.caches with
        rdt := s.caches.rdt.insert nodeName (RDT.removePod ps) } }, .ok ())
  | .rdtQuantity =>
    match s.caches.rdtQuantity.lookup nodeName with
    | none => .done (s, .ok ())
    | some ps => do
      let (ps, r) ← RDTQuantity.removePod ps pod classOrder
      return ({ s with
        caches := { s.caches with rdtQuantity := s.caches.rdtQuantity.insert nodeName ps } }, r)

/-! ## What a call of a handler does -/

section Calls

variable {lm : LockModel} {pod : Pod} {n : String} {request : RawRequest}
  {a : BlockIo.MappingAnswers} {client : Option BlockIo.RemoveAnswers} {classOrder : List String}
  {s s' : SchedState}

variable {r : AddResult}

theorem handleAddPod_blockIo (h : handleAddPod lm .blockIo pod n request a s = .done (s', r)) :
    (s.caches.blockIo.lookup n = none ∧ s' = s ∧
        r = .failed s!"cannot get extended resource: {n}") ∨
      ∃ ps ps' env, s.caches.blockIo.lookup n = some ps ∧
        BlockIo.addPod lm ps pod request.asBlockIo a s.env = .done (ps', env, r) ∧
        s' = ⟨{ s.caches with blockIo := s.caches.blockIo.insert n ps' }, env⟩ := by
  simp only [handleAddPod] at h
  split at h
  · next hl =>
    cases h
    exact .inl ⟨hl, rfl, rfl⟩
  · next ps hl =>
    obtain ⟨⟨ps', env, r'⟩, hadd, h⟩ := Outcome.bind_eq_done.mp h
    cases h
    exact .inr ⟨ps, ps', env, hl, hadd, rfl⟩

theorem handleAddPod_networkIo (h : handleAddPod lm .networkIo pod n request a s = .done (s', r)) :
    (s.caches.networkIo.lookup n = none ∧ s' = s ∧
        r = .failed s!"cannot get extended resource: {n}") ∨
      ∃ ps ps', s.caches.networkIo.lookup n = some ps ∧
        NetworkIo.addPod ps request.asNetworkIo = .done (ps', r) ∧
        s' = { s with
          caches := { s.caches with networkIo := s.caches.networkIo.insert n ps' } } := by
  simp only [handleAddPod] at h
  split at h
  · next hl =>
    cases h
    exact .inl ⟨hl, rfl, rfl⟩
  · next ps hl =>
    obtain ⟨⟨ps', r'⟩, hadd, h⟩ := Outcome.bind_eq_done.mp h
    cases h
    exact .inr ⟨ps, ps', hl, hadd, rfl⟩

theorem handleAddPod_rdt (h : handleAddPod lm .rdt pod n request a s = .done (s', r)) :
    (s.caches.rdt.lookup n = none ∧ s' = s ∧ r = .failed s!"cannot get extended resource: {n}") ∨
      ∃ ps, s.caches.rdt.lookup n = some ps ∧ r = (RDT.addPod ps).2 ∧
        s' = { s with caches := { s.caches with
          rdt := s.caches.rdt.insert n (RDT.addPod ps).1 } } := by
  simp only [handleAddPod] at h
  split at h
  · next hl =>
    cases h
    exact .inl ⟨hl, rfl, rfl⟩
  · next ps hl =>
    cases h
    exact .inr ⟨ps, hl, rfl, rfl⟩

theorem handleAddPod_rdtQuantity
    (h : handleAddPod lm .rdtQuantity pod n request a s = .done (s', r)) :
    (s.caches.rdtQuantity.lookup n = none ∧ s' = s ∧
        r = .failed s!"cannot get extended resource: {n}") ∨
      ∃ ps ps', s.caches.rdtQuantity.lookup n = some ps ∧
        RDTQuantity.addPod ps pod request.asRdtQuantity = .done (ps', r) ∧
        s' = { s with
          caches := { s.caches with rdtQuantity := s.caches.rdtQuantity.insert n ps' } } := by
  simp only [handleAddPod] at h
  split at h
  · next hl =>
    cases h
    exact .inl ⟨hl, rfl, rfl⟩
  · next ps hl =>
    obtain ⟨⟨ps', r'⟩, hadd, h⟩ := Outcome.bind_eq_done.mp h
    cases h
    exact .inr ⟨ps, ps', hl, hadd, rfl⟩

theorem handleRemovePod_blockIo {r : Except String Unit}
    (h : handleRemovePod lm .blockIo pod n client classOrder s = .done (s', r)) :
    (s.caches.blockIo.lookup n = none ∧ s' = s ∧ r = .ok ()) ∨
      ∃ ps ps' env, s.caches.blockIo.lookup n = some ps ∧
        BlockIo.removePod lm ps pod client s.env = .done (ps', env, r) ∧
        s' = ⟨{ s.caches with blockIo := s.caches.blockIo.insert n ps' }, env⟩ := by
  simp only [handleRemovePod] at h
  split at h
  · next hl =>
    cases h
    exact .inl ⟨hl, rfl, rfl⟩
  · next ps hl =>
    obtain ⟨⟨ps', env, r'⟩, hrem, h⟩ := Outcome.bind_eq_done.mp h
    cases h
    exact .inr ⟨ps, ps', env, hl, hrem, rfl⟩

theorem handleRemovePod_networkIo {r : Except String Unit}
    (h : handleRemovePod lm .networkIo pod n client classOrder s = .done (s', r)) :
    (s.caches.networkIo.lookup n = none ∧ s' = s ∧ r = .ok ()) ∨
      ∃ ps ps' held, s.caches.networkIo.lookup n = some ps ∧
        NetworkIo.removePod lm ps pod s.env.ctx s.env.held = .done (ps', held, r) ∧
        s' = ⟨{ s.caches with networkIo := s.caches.networkIo.insert n ps' },
          { s.env with held := held }⟩ := by
  simp only [handleRemovePod] at h
  split at h
  · next hl =>
    cases h
    exact .inl ⟨hl, rfl, rfl⟩
  · next ps hl =>
    obtain ⟨⟨ps', held, r'⟩, hrem, h⟩ := Outcome.bind_eq_done.mp h
    cases h
    exact .inr ⟨ps, ps', held, hl, hrem, rfl⟩

theorem handleRemovePod_rdt {r : Except String Unit}
    (h : handleRemovePod lm .rdt pod n client classOrder s = .done (s', r)) :
    r = .ok () ∧
      ((s.caches.rdt.lookup n = none ∧ s' = s) ∨ ∃ ps, s.caches.rdt.lookup n = some ps ∧
          s' = { s with caches := { s.caches with
            rdt := s.caches.rdt.insert n (RDT.removePod ps) } }) := by
  simp only [handleRemovePod] at h
  split at h
  · next hl =>
    cases h
    exact ⟨rfl, .inl ⟨hl, rfl⟩⟩
  · next ps hl =>
    cases h
    exact ⟨rfl, .inr ⟨ps, hl, rfl⟩⟩

theorem handleRemovePod_rdtQuantity {r : Except String Unit}
    (h : handleRemovePod lm .rdtQuantity pod n client classOrder s = .done (s', r)) :
    (s.caches.rdtQuantity.lookup n = none ∧ s' = s ∧ r = .ok ()) ∨
      ∃ ps ps', s.caches.rdtQuantity.lookup n = some ps ∧
        RDTQuantity.removePod ps pod classOrder = .done (ps', r) ∧
        s' = { s with
          caches := { s.caches with rdtQuantity := s.caches.rdtQuantity.insert n ps' } } := by
  simp only [handleRemovePod] at h
  split at h
  · next hl =>
    cases h
    exact .inl ⟨hl, rfl, rfl⟩
  · next ps hl =>
    obtain ⟨⟨ps', r'⟩, hrem, h⟩ := Outcome.bind_eq_done.mp h
    cases h
    exact .inr ⟨ps, ps', hl, hrem, rfl⟩

end Calls

/-! ## `Reserve` and `Unreserve` -/

/-- What one scheduling cycle brings to `Reserve` besides the state: the cycle state of each
handler (`none` if it cannot be read), whether the pod is critical for it, and the API answers. -/
structure CycleData where
  stateData : HandleKind → Except String RawRequest
  critical : HandleKind → Bool
  mapping : BlockIo.MappingAnswers

/-- The loop of `Reserve` over the handlers; `reqs` are the requests collected so far. An error of
a handler the pod is not critical for is passed over. -/
def reserveLoop [Rounding] (lm : LockModel) (pod : Pod) (nodeName : String) (cyc : CycleData) :
    List HandleKind → List IOResourceRequest → SchedState →
      Outcome (SchedState × Except String (List IOResourceRequest))
  | [], reqs, s => .done (s, .ok reqs)
  | h :: hs, reqs, s =>
    match cyc.stateData h with
    | .error err => .done (s, .error err)
    | .ok request => do
      let (s, r) ← handleAddPod lm h pod nodeName request cyc.mapping s
      match r with
      | .mismatch err => return (s, .error err)
      | .failed err =>
        if cyc.critical h then return (s, .error err)
        else reserveLoop lm pod nodeName cyc hs reqs s
      | .added reqs' => reserveLoop lm pod nodeName cyc hs (reqs ++ reqs') s

/-- `Reserve`; the error is the message of the `Unschedulable` status. -/
def reserve [Rounding] (lm : LockModel) (handles : List HandleKind) (pod : Pod) (nodeName : String)
    (cyc : CycleData) (s : SchedState) : Outcome (SchedState × Except String Unit) :=
  if s.env.ctx.inNamespaceWhiteList pod.ns then .done (s, .ok ())
  else do
    let (s, r) ← reserveLoop lm pod nodeName cyc handles [] s
    match r with
    | .error err => return (s, .error err)
    | .ok reqs =>
      if reqs = [] then return (s, .ok ())
      else
        let (ctx, r) := s.env.ctx.addPod ⟨pod.name, pod.ns, reqs⟩ pod nodeName
        return ({ s with env := { s.env with ctx := ctx } }, r)

/-- The loop of `Unreserve` and of the delete event over the handlers; errors are logged. -/
def removeLoop [Rounding] (lm : LockModel) (pod : Pod) (nodeName : String)
    (client : Option BlockIo.RemoveAnswers) (classOrder : List String) :
    List HandleKind → SchedState → Outcome SchedState
  | [], s => .done s
  | h :: hs, s => do
    let (s, _) ← handleRemovePod lm h pod nodeName client classOrder s
    removeLoop lm pod nodeName client classOrder hs s

def unreserve [Rounding] (lm : LockModel) (handles : List HandleKind) (pod : Pod) (nodeName : String)
    (client : BlockIo.RemoveAnswers) (classOrder : List String) (s : SchedState) :
    Outcome SchedState :=
  if s.env.ctx.inNamespaceWhiteList pod.ns then .done s
  else do
    let s ← removeLoop lm pod nodeName (some client) classOrder handles s
    return { s with env := { s.env with ctx := (s.env.ctx.removePod pod nodeName).1 } }

end IOIsolation.Sched
