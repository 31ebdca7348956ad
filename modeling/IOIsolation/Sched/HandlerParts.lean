import IOIsolation.Sched.ClaimMapping
import IOIsolation.Sched.Guaranteed

/-!
# Sched.HandlerParts

`Reserve` and `Unreserve` run over all handlers, and each handler works on a part of the state of
its own: its node cache, and for block I/O also the claim-to-device map and the ConfigMaps. The
loops are taken apart here into one call for each handler, with the mutex left out.

* `handleAddPod_answers` — which of its three results a handler gives.
* `reserveLoop_called`, `removeLoop_called` — the loops, handler by handler.
* `reserve_spec` — what `Reserve` leaves, and when the pod gets into the list.
-/

namespace IOIsolation.Sched

open Lib Finmap List Option

/-! ## The part of a handler -/

/-- What handler `h` reads and writes is the same in both states. -/
def Agree : HandleKind → SchedState → SchedState → Prop
  | .blockIo, s, t => s.caches.blockIo = t.caches.blockIo ∧
      s.env.ctx.claimDevMap = t.env.ctx.claimDevMap ∧ s.env.cms = t.env.cms
  | .networkIo, s, t => s.caches.networkIo = t.caches.networkIo
  | .rdt, s, t => s.caches.rdt = t.caches.rdt
  | .rdtQuantity, s, t => s.caches.rdtQuantity = t.caches.rdtQuantity

theorem Agree.refl (h : HandleKind) (s : SchedState) : Agree h s s := by
  cases h <;> simp [Agree]

variable {h : HandleKind} {s t s' : SchedState} {n : String} {pod : Pod} {r res : AddResult}
  {request : RawRequest} {cyc : CycleData} {reqs : List IOResourceRequest} {c : Caches}
  {hs : List HandleKind}

theorem Agree.trans {u : SchedState} (h₁ : Agree h s t) (h₂ : Agree h t u) : Agree h s u := by
  cases h with
  | blockIo => exact ⟨h₁.1.trans h₂.1, h₁.2.1.trans h₂.2.1, h₁.2.2.trans h₂.2.2⟩
  | networkIo | rdt | rdtQuantity => exact Eq.trans h₁ h₂

variable {k : HandleKind} {lm : LockModel} {client : Option BlockIo.RemoveAnswers} {s₀ : SchedState}

/-- A call of one handler leaves the parts of the others alone. -/
theorem Writes.agree (hw : Writes s h s') (hk : k ≠ h) : Agree k s s' := by
  cases hw with
  | nothing => exact .refl k s
  | blockIo => cases k <;> first | exact absurd rfl hk | rfl
  | networkIo | rdt | rdtQuantity =>
    cases k <;> first | exact absurd rfl hk | exact ⟨rfl, rfl, rfl⟩ | rfl

/-! ## What a handler answers -/

section answers

variable (pod : Pod) (n : String) (cyc : CycleData) (c : Caches)

/-- The `AddPod` of the handler takes the request and returns `reqs`. -/
def Accepts : HandleKind → RawRequest → List IOResourceRequest → Prop
  | .blockIo, request, reqs => ∃ ps r, c.blockIo.lookup n = some ps ∧
      request.asBlockIo = some r ∧ ¬ BlockIo.AddFails ps pod r cyc.mapping ∧
      reqs = r.resourceRequest.entries.map fun e => e.2.ioRequest
  | .networkIo, request, reqs => ∃ ps r q, c.networkIo.lookup n = some ps ∧
      request.asNetworkIo = some r ∧ ps.info.masterNic ∈ ps.info.nicsStatus ∧
      r.lookup ps.info.masterNic = some q ∧ reqs = [q]
  | .rdt, _, reqs => n ∈ c.rdt ∧ reqs = [RDT.marker]
  | .rdtQuantity, request, reqs => n ∈ c.rdtQuantity ∧ ∃ r, request.asRdtQuantity = some r ∧ reqs = [r]

/-- The handler knows the node, and the request is of another handler's type. -/
def WrongType : HandleKind → RawRequest → Prop
  | .blockIo, request => n ∈ c.blockIo ∧ request.asBlockIo = none
  | .networkIo, request => n ∈ c.networkIo ∧ request.asNetworkIo = none
  | .rdt, _ => False
  | .rdtQuantity, request => n ∈ c.rdtQuantity ∧ request.asRdtQuantity = none

/-- The loop of `Reserve` returns at the handler. -/
def Aborts (h : HandleKind) : Prop :=
  ∀ request, cyc.stateData h = .ok request → WrongType n c h request ∨
    cyc.critical h = true ∧ ¬ ∃ reqs, Accepts pod n cyc c h request reqs

/-- The loop of `Reserve` calls the handler, with the given request. -/
def Called (order : List HandleKind) (h : HandleKind) (request : RawRequest) : Prop :=
  cyc.stateData h = .ok request ∧ Reaches (fun k => ¬ Aborts pod n cyc c k) (· = h) order

end answers

def AddResult.requests : AddResult → List IOResourceRequest
  | .added reqs => reqs
  | .mismatch _ | .failed _ => []

def AddResult.Ends (critical : Bool) : AddResult → Prop
  | .mismatch _ => True
  | .failed _ => critical = true
  | .added _ => False

theorem accepts_congr (hag : Agree h s t) :
    Accepts pod n cyc s.caches h request reqs ↔ Accepts pod n cyc t.caches h request reqs := by
  cases h with
  | blockIo => simp only [Accepts, hag.1]
  | networkIo => rw [Accepts, Accepts, show s.caches.networkIo = t.caches.networkIo from hag]
  | rdt => rw [Accepts, Accepts, show s.caches.rdt = t.caches.rdt from hag]
  | rdtQuantity =>
    rw [Accepts, Accepts, show s.caches.rdtQuantity = t.caches.rdtQuantity from hag]

theorem wrongType_congr (hag : Agree h s t) :
    WrongType n s.caches h request ↔ WrongType n t.caches h request := by
  cases h with
  | blockIo => simp only [WrongType, hag.1]
  | networkIo => rw [WrongType, WrongType, show s.caches.networkIo = t.caches.networkIo from hag]
  | rdt => exact Iff.rfl
  | rdtQuantity =>
    rw [WrongType, WrongType, show s.caches.rdtQuantity = t.caches.rdtQuantity from hag]

def Answers (pod : Pod) (n : String) (cyc : CycleData) (c : Caches) (h : HandleKind)
    (request : RawRequest) : AddResult → Prop
  | .mismatch _ => WrongType n c h request
  | .failed _ => ¬ WrongType n c h request ∧ ¬ ∃ reqs, Accepts pod n cyc c h request reqs
  | .added reqs => ¬ WrongType n c h request ∧ Accepts pod n cyc c h request reqs

theorem answers_congr (hag : Agree h s t) (hans : Answers pod n cyc s.caches h request r) :
    Answers pod n cyc t.caches h request r := by
  cases r <;> simp only [Answers, accepts_congr hag, wrongType_congr hag] at hans ⊢ <;> exact hans

theorem handleAddPod_answers
    (hadd : handleAddPod .ignored h pod n request cyc.mapping s = .done (s', r)) :
    Answers pod n cyc s.caches h request r := by
  cases h with
  | blockIo =>
    rcases handleAddPod_blockIo hadd with ⟨hl, -, rfl⟩ | ⟨ps, ps', env', hl, hcall, -⟩
    · refine ⟨fun hw => lookup_eq_none.mp hl hw.1, ?_⟩
      rintro ⟨reqs, ps, r, hps, -⟩
      rw [hl] at hps; cases hps
    cases hreq : request.asBlockIo with
    | none =>
      rw [hreq] at hcall
      cases hcall
      exact ⟨mem_of_lookup_eq_some hl, hreq⟩
    | some req =>
      rw [hreq] at hcall
      have hw : ¬ WrongType n s.caches .blockIo request := by
        rintro ⟨-, hnone⟩
        rw [hreq] at hnone; cases hnone
      rcases (BlockIo.addPod_spec hcall).result with ⟨rfl, hok⟩ | ⟨⟨err, rfl⟩, hfail⟩
      · exact ⟨hw, ps, req, hl, hreq, hok, rfl⟩
      refine ⟨hw, ?_⟩
      rintro ⟨reqs, ps', req', hps', hreq', hok, -⟩
      rw [hl, some.injEq] at hps'
      rw [hreq, some.injEq] at hreq'
      subst hps' hreq'
      exact hok hfail
  | networkIo =>
    rcases handleAddPod_networkIo hadd with ⟨hl, -, rfl⟩ | ⟨ps, ps', hl, hcall, -⟩
    · refine ⟨fun hw => lookup_eq_none.mp hl hw.1, ?_⟩
      rintro ⟨reqs, ps, r, q, hps, -⟩
      rw [hl] at hps; cases hps
    cases hreq : request.asNetworkIo with
    | none =>
      rw [hreq] at hcall
      cases hcall
      exact ⟨mem_of_lookup_eq_some hl, hreq⟩
    | some req =>
      rw [hreq] at hcall
      have hw : ¬ WrongType n s.caches .networkIo request := by
        rintro ⟨-, hnone⟩
        rw [hreq] at hnone; cases hnone
      rcases NetworkIo.addPod_some_cases hcall with
        ⟨nic, q, hnic, hq, rfl, -⟩ | ⟨-, ⟨err, rfl⟩, hno⟩
      · exact ⟨hw, ps, req, q, hl, hreq, mem_of_lookup_eq_some hnic, hq, rfl⟩
      refine ⟨hw, ?_⟩
      rintro ⟨reqs, ps', req', q, hps', hreq', hmem, hq, -⟩
      rw [hl, some.injEq] at hps'
      rw [hreq, some.injEq] at hreq'
      subst hps' hreq'
      exact hno ⟨hmem, q, hq⟩
  | rdt =>
    rcases handleAddPod_rdt hadd with ⟨hl, -, rfl⟩ | ⟨ps, hl, rfl, -⟩
    · exact ⟨id, fun ⟨_, hmem, _⟩ => lookup_eq_none.mp hl hmem⟩
    · exact ⟨id, mem_of_lookup_eq_some hl, rfl⟩
  | rdtQuantity =>
    rcases handleAddPod_rdtQuantity hadd with ⟨hl, -, rfl⟩ | ⟨ps, ps', hl, hcall, -⟩
    · exact ⟨fun hw => lookup_eq_none.mp hl hw.1, fun ⟨_, hmem, _⟩ => lookup_eq_none.mp hl hmem⟩
    cases hreq : request.asRdtQuantity with
    | none =>
      rw [hreq] at hcall
      cases hcall
      exact ⟨mem_of_lookup_eq_some hl, hreq⟩
    | some req =>
      rw [hreq] at hcall
      obtain rfl := RDTQuantity.addPod_some_added hcall
      refine ⟨?_, mem_of_lookup_eq_some hl, req, hreq, rfl⟩
      rintro ⟨-, hnone⟩
      rw [hreq] at hnone; cases hnone

/-! ## The loops -/

/-- The handler was called with the request on its part of `s`, and its part of `s'` is what it
left. -/
def Took (pod : Pod) (n : String) (cyc : CycleData) (h : HandleKind) (request : RawRequest)
    (s s' : SchedState) (res : AddResult) : Prop :=
  ∃ u u', Agree h s u ∧
    handleAddPod .ignored h pod n request cyc.mapping u = .done (u', res) ∧ Agree h u' s'

theorem Took.answers (htook : Took pod n cyc h request s s' res) :
    Answers pod n cyc s.caches h request res := by
  obtain ⟨u, u', hag, hadd, -⟩ := htook
  refine answers_congr (s := u) ?_ (handleAddPod_answers hadd)
  cases h with
  | blockIo => exact ⟨hag.1.symm, hag.2.1.symm, hag.2.2.symm⟩
  | networkIo | rdt | rdtQuantity => exact Eq.symm hag

theorem aborts_iff (hdata : cyc.stateData h = .ok request)
    (hans : Answers pod n cyc c h request res) :
    Aborts pod n cyc c h ↔ res.Ends (cyc.critical h) := by
  have hiff : Aborts pod n cyc c h ↔ WrongType n c h request ∨
      cyc.critical h = true ∧ ¬ ∃ reqs, Accepts pod n cyc c h request reqs := by
    refine ⟨fun hab => hab request hdata, fun hab request' hdata' => ?_⟩
    rw [hdata, Except.ok.injEq] at hdata'
    subst hdata'
    exact hab
  rw [hiff]
  cases res with
  | mismatch err => exact iff_true_intro (.inl hans)
  | failed err =>
    exact ⟨fun hab => hab.elim (fun hw => absurd hw hans.1) And.left, fun hc => .inr ⟨hc, hans.2⟩⟩
  | added reqs =>
    refine ⟨?_, False.elim⟩
    rintro (hw | ⟨-, hno⟩)
    · exact hans.1 hw
    · exact hno ⟨reqs, hans.2⟩

theorem called_cons :
    Called pod n cyc c (h :: hs) k request ↔
      cyc.stateData k = .ok request ∧ h = k ∨
        ¬ Aborts pod n cyc c h ∧ Called pod n cyc c hs k request := by
  simp only [Called, Reaches]
  tauto

theorem called_mem (hcall : Called pod n cyc c hs h request) : h ∈ hs := by
  induction hs with
  | nil => exact hcall.2.elim
  | cons k hs ih =>
    rcases called_cons.mp hcall with ⟨-, rfl⟩ | ⟨-, hcall⟩
    · exact mem_cons_self
    · exact mem_cons_of_mem _ (ih hcall)

theorem called_of_mem (hgo : ∀ k ∈ hs, ¬ Aborts pod n cyc c k) (hmem : h ∈ hs)
    (hdata : cyc.stateData h = .ok request) : Called pod n cyc c hs h request := by
  induction hs with
  | nil => cases hmem
  | cons k hs ih =>
    rw [called_cons]
    rcases mem_cons.mp hmem with rfl | hmem
    · exact .inl ⟨hdata, rfl⟩
    · exact .inr ⟨hgo k mem_cons_self, ih (fun k hk => hgo k (mem_cons_of_mem _ hk)) hmem⟩

/-- What the loop of `Reserve` does: it calls the handlers up to the first that aborts, each on
its own part of the state, and collects what they return. -/
structure LoopSpec (pod : Pod) (n : String) (cyc : CycleData) (c : Caches)
    (hs : List HandleKind) (reqs : List IOResourceRequest) (s₀ s s' : SchedState)
    (r : Except String (List IOResourceRequest)) (res : HandleKind → AddResult) : Prop where
  called : ∀ k request, Called pod n cyc c hs k request → Took pod n cyc k request s₀ s' (res k)
  others : ∀ k, (∀ request, ¬ Called pod n cyc c hs k request) → Agree k s s'
  complete : ∀ reqs', r = .ok reqs' → (∀ k ∈ hs, ¬ Aborts pod n cyc c k) ∧
    reqs' = reqs ++ hs.flatMap fun k => (res k).requests
  ended : ∀ err, r = .error err → ∃ k ∈ hs, Aborts pod n cyc c k

theorem LoopSpec.stop {err : String} (hab : Aborts pod n cyc c h)
    (htook : ∀ request, cyc.stateData h = .ok request → Took pod n cyc h request s₀ s' res)
    (hothers : ∀ k, (∀ request, cyc.stateData k = .ok request → k ≠ h) → Agree k s s') :
    LoopSpec pod n cyc c (h :: hs) reqs s₀ s s' (.error err) fun _ => res where
  called k request hcall := by
    rcases called_cons.mp hcall with ⟨hdata, rfl⟩ | ⟨hno, -⟩
    · exact htook request hdata
    · exact absurd hab hno
  others k hno := hothers k fun request hdata heq =>
    hno request (called_cons.mpr (.inl ⟨hdata, heq.symm⟩))
  complete reqs' h := by cases h
  ended err _ := ⟨h, mem_cons_self, hab⟩

theorem reserveLoop_called {r : Except String (List IOResourceRequest)} (hnodup : hs.Nodup)
    (hbase : ∀ k ∈ hs, Agree k s₀ s) (h : reserveLoop .ignored pod n cyc hs reqs s = .done (s', r)) :
    ∃ res, LoopSpec pod n cyc s₀.caches hs reqs s₀ s s' r res := by
  induction hs generalizing reqs s with
  | nil =>
    cases h
    exact ⟨fun _ => .added [], fun _ _ hcall => hcall.2.elim, fun k _ => .refl k _,
      fun reqs' hr => by cases hr; simp, fun err hr => by cases hr⟩
  | cons k hs ih =>
    rw [nodup_cons] at hnodup
    unfold reserveLoop at h
    cases hdata : cyc.stateData k with
    | error err =>
      simp only [hdata] at h
      cases h
      have hno : ∀ request, cyc.stateData k ≠ .ok request := by
        intro request hreq
        rw [hdata] at hreq; cases hreq
      exact ⟨fun _ => .added [], .stop (fun request hreq => absurd hreq (hno request))
        (fun request hreq => absurd hreq (hno request)) fun k' _ => .refl k' _⟩
    | ok request =>
      simp only [hdata, Outcome.bind_eq_done] at h
      obtain ⟨⟨s1, r1⟩, hadd, h⟩ := h
      have htook : ∀ {t}, Agree k s1 t → Took pod n cyc k request s₀ t r1 :=
        fun hag => ⟨s, s1, hbase k mem_cons_self, hadd, hag⟩
      have hab := aborts_iff hdata (htook (.refl k s1)).answers
      have hframe : ∀ k', k' ≠ k → Agree k' s s1 := fun k' hk => (handleAddPod_writes hadd).agree hk
      have hstop : Aborts pod n cyc s₀.caches k → ∀ err,
          LoopSpec pod n cyc s₀.caches (k :: hs) reqs s₀ s s1 (.error err) fun _ => r1 := by
        intro hab err
        refine .stop hab (fun request' hreq' => ?_) fun k' hno => hframe k' ?_
        · rw [hdata, Except.ok.injEq] at hreq'
          subst hreq'
          exact htook (.refl k s1)
        · rintro rfl
          exact hno request hdata rfl
      -- the loop goes on with the rest of the handlers, whose parts are untouched
      have hgo : ¬ Aborts pod n cyc s₀.caches k →
          reserveLoop .ignored pod n cyc hs (reqs ++ r1.requests) s1 = .done (s', r) →
          ∃ res, LoopSpec pod n cyc s₀.caches (k :: hs) reqs s₀ s s' r res := by
        intro hab hrest
        obtain ⟨res, hspec⟩ := ih hnodup.2 (fun k' hk' => (hbase k' (mem_cons_of_mem _ hk')).trans
          (hframe k' fun heq => hnodup.1 (heq ▸ hk'))) hrest
        have hself : ∀ request', ¬ Called pod n cyc s₀.caches hs k request' :=
          fun request' hcall => hnodup.1 (called_mem hcall)
        refine ⟨fun k' => if k' = k then r1 else res k', ?_, ?_, ?_, ?_⟩
        · intro k' request' hcall
          rcases called_cons.mp hcall with ⟨hdata', rfl⟩ | ⟨-, hcall⟩
          · rw [hdata, Except.ok.injEq] at hdata'
            subst hdata'
            rw [if_pos rfl]
            exact htook (hspec.others k hself)
          · have hne : k' ≠ k := fun heq => hself request' (heq ▸ hcall)
            rw [if_neg hne]
            exact hspec.called k' request' hcall
        · intro k' hno
          have hne : k' ≠ k := by
            rintro rfl
            exact hno request (called_cons.mpr (.inl ⟨hdata, rfl⟩))
          exact (hframe k' hne).trans (hspec.others k' fun request' hcall =>
            hno request' (called_cons.mpr (.inr ⟨hab, hcall⟩)))
        · intro reqs' hr
          obtain ⟨hall, rfl⟩ := hspec.complete reqs' hr
          refine ⟨forall_mem_cons.mpr ⟨hab, hall⟩, ?_⟩
          rw [flatMap_cons, if_pos rfl, append_assoc]
          congr 2
          refine flatMap_congr fun k' hk' => ?_
          have hne : k' ≠ k := fun heq => hnodup.1 (heq ▸ hk')
          rw [if_neg hne]
        · intro err hr
          obtain ⟨k', hk', hab'⟩ := hspec.ended err hr
          exact ⟨k', mem_cons_of_mem _ hk', hab'⟩
      cases r1 with
      | mismatch err =>
        cases h
        exact ⟨_, hstop (hab.mpr trivial) err⟩
      | failed err =>
        split_ifs at h with hcrit
        · cases h
          exact ⟨_, hstop (hab.mpr hcrit) err⟩
        · exact hgo (fun hc => hcrit (hab.mp hc)) (by simpa only [AddResult.requests, append_nil] using h)
      | added reqs' => exact hgo hab.mp h

/-- The handler was called to remove the pod on its part of `s`, with the lists of `s`. -/
def Gave (pod : Pod) (n : String) (client : Option BlockIo.RemoveAnswers) (classOrder : List String)
    (h : HandleKind) (s s' : SchedState) : Prop :=
  ∃ u u' r, Agree h s u ∧ u.env.ctx.reservedpod = s.env.ctx.reservedpod ∧
    handleRemovePod .ignored h pod n client classOrder u = .done (u', r) ∧ Agree h u' s'

theorem removeLoop_called {classOrder : List String} (hnodup : hs.Nodup)
    (h : removeLoop .ignored pod n client classOrder hs s = .done s') (k : HandleKind) :
    (k ∈ hs → Gave pod n client classOrder k s s') ∧ (k ∉ hs → Agree k s s') := by
  induction hs generalizing s with
  | nil =>
    cases h
    exact ⟨fun hk => absurd hk not_mem_nil, fun _ => .refl k _⟩
  | cons h' hs ih =>
    rw [nodup_cons] at hnodup
    simp only [removeLoop, Outcome.bind_eq_done] at h
    obtain ⟨⟨s1, r1⟩, hrem, h⟩ := h
    obtain ⟨hin, hout⟩ := ih hnodup.2 h
    have hlists : s1.env.ctx.reservedpod = s.env.ctx.reservedpod :=
      (handleRemovePod_writes hrem).frame.2.reservedpod
    constructor
    · intro hk
      by_cases hkh : k = h'
      · subst hkh
        exact ⟨s, s1, r1, .refl k s, rfl, hrem, hout hnodup.1⟩
      · obtain ⟨u, u', r, hag, hl, hcall, hag'⟩ := hin ((mem_cons.mp hk).resolve_left hkh)
        exact ⟨u, u', r, ((handleRemovePod_writes hrem).agree hkh).trans hag, hl.trans hlists, hcall, hag'⟩
    · intro hk
      rw [mem_cons, not_or] at hk
      exact ((handleRemovePod_writes hrem).agree hk.1).trans (hout hk.2)

/-! ## What `Reserve` leaves -/

theorem accepts_unique {reqs' : List IOResourceRequest} (h₁ : Accepts pod n cyc c h request reqs)
    (h₂ : Accepts pod n cyc c h request reqs') : reqs = reqs' := by
  cases h with
  | blockIo =>
    obtain ⟨-, r, -, hr, -, rfl⟩ := h₁
    obtain ⟨-, r', -, hr', -, rfl⟩ := h₂
    rw [hr, some.injEq] at hr'
    rw [hr']
  | networkIo =>
    obtain ⟨ps, r, q, hps, hr, -, hq, rfl⟩ := h₁
    obtain ⟨ps', r', q', hps', hr', -, hq', rfl⟩ := h₂
    rw [hr, some.injEq] at hr'
    rw [hps, some.injEq] at hps'
    subst hr' hps'
    rw [hq, some.injEq] at hq'
    rw [hq']
  | rdt => rw [h₁.2, h₂.2]
  | rdtQuantity =>
    obtain ⟨-, r, hr, rfl⟩ := h₁
    obtain ⟨-, r', hr', rfl⟩ := h₂
    rw [hr, some.injEq] at hr'
    rw [hr']

theorem accepts_ioType (hok : RequestOk h request) (hacc : Accepts pod n cyc c h request reqs) :
    ∀ r ∈ reqs, r.ioType = h.ioType := by
  cases h with
  | blockIo =>
    obtain ⟨ps, r, -, hr, -, rfl⟩ := hacc
    cases request <;> cases hr
    intro x hx
    obtain ⟨e, he, rfl⟩ := mem_map.mp hx
    have hwf : r.WellFormed := hok
    exact (hwf e he).1
  | networkIo =>
    obtain ⟨ps, r, q, -, hr, -, hq, rfl⟩ := hacc
    cases request <;> cases hr
    intro x hx
    rw [List.mem_singleton.mp hx]
    exact (hok _ (AList.mem_lookup_iff.mp hq)).1
  | rdt =>
    intro x hx
    rw [hacc.2, List.mem_singleton] at hx
    rw [hx]; rfl
  | rdtQuantity =>
    obtain ⟨-, r, hr, rfl⟩ := hacc
    cases request <;> cases hr
    intro x hx
    rw [List.mem_singleton.mp hx]
    exact hok

theorem not_aborts_data (hgo : ¬ Aborts pod n cyc c h) :
    ∃ request, cyc.stateData h = .ok request := by
  by_contra hno
  exact hgo fun request hdata => absurd ⟨request, hdata⟩ hno

section condition

variable (order : List HandleKind) (pod : Pod) (n : String) (cyc : CycleData) (s : SchedState)

/-- `Reserve` enters the pod in the list: no handler ends the loop, some handler has a request to
enter, and the node has a list. -/
def Entered : Prop :=
  (∀ h ∈ order, ¬ Aborts pod n cyc s.caches h) ∧
    (∃ h ∈ order, ∃ request reqs, cyc.stateData h = .ok request ∧
      Accepts pod n cyc s.caches h request reqs ∧ reqs ≠ []) ∧
    n ∈ s.env.ctx.reservedpod

/-- What `Reserve` leaves: each called handler's part as the handler left it, and the pod in the
list if it was entered. -/
structure ReserveSpec (s₁ : SchedState) (res : HandleKind → AddResult) : Prop where
  called : ∀ k request, Called pod n cyc s.caches order k request →
    Took pod n cyc k request s s₁ (res k)
  others : ∀ k, (∀ request, ¬ Called pod n cyc s.caches order k request) → Agree k s s₁
  entered : Entered order pod n cyc s → ∃ l, s.env.ctx.reservedpod.lookup n = some l ∧
    s₁.env.ctx.reservedpod = s.env.ctx.reservedpod.insert n ⟨l.generation + 1,
      l.podList.insert pod.uid ⟨pod.name, pod.ns, order.flatMap fun k => (res k).requests⟩⟩
  skipped : ¬ Entered order pod n cyc s → s₁.env.ctx.reservedpod = s.env.ctx.reservedpod
  whiteList : s₁.env.ctx.nsWhiteList = s.env.ctx.nsWhiteList

end condition

section reserve

variable {order : List HandleKind}
  {s₁ : SchedState}

theorem collected_ne_nil_iff {res : HandleKind → AddResult}
    (hgo : ∀ k ∈ order, ¬ Aborts pod n cyc s.caches k)
    (htook : ∀ k request, Called pod n cyc s.caches order k request →
      Took pod n cyc k request s s₁ (res k)) :
    (order.flatMap fun k => (res k).requests) ≠ [] ↔
      ∃ h ∈ order, ∃ request reqs, cyc.stateData h = .ok request ∧
        Accepts pod n cyc s.caches h request reqs ∧ reqs ≠ [] := by
  rw [ne_eq, flatMap_eq_nil_iff]
  constructor
  · intro hne
    push Not at hne
    obtain ⟨h, hmem, hreq⟩ := hne
    obtain ⟨request, hdata⟩ := not_aborts_data (hgo h hmem)
    have hans := (htook h request (called_of_mem hgo hmem hdata)).answers
    cases hres : res h with
    | mismatch | failed => simp [hres, AddResult.requests] at hreq
    | added reqs =>
      rw [hres] at hans hreq
      exact ⟨h, hmem, request, reqs, hdata, hans.2, hreq⟩
  · rintro ⟨h, hmem, request, reqs, hdata, hacc, hne⟩ hall
    have hnil := hall h hmem
    have hans := (htook h request (called_of_mem hgo hmem hdata)).answers
    have hab := aborts_iff hdata hans
    cases hres : res h with
    | mismatch err => exact hgo h hmem (hab.mpr (by rw [hres]; trivial))
    | failed err =>
      rw [hres] at hans
      exact hans.2 ⟨reqs, hacc⟩
    | added reqs' =>
      rw [hres] at hans hnil
      rw [accepts_unique hacc hans.2] at hne
      exact hne hnil

theorem reserve_spec {r : Except String Unit} (hnodup : order.Nodup)
    (hreq : ∀ h ∈ order, ∀ request, cyc.stateData h = .ok request → RequestOk h request)
    (hns : s.env.ctx.inNamespaceWhiteList pod.ns = false)
    (h : reserve .ignored order pod n cyc s = .done (s₁, r)) :
    ∃ res, ReserveSpec order pod n cyc s s₁ res := by
  simp only [reserve, hns, Bool.false_eq_true, if_false, Outcome.bind_eq_done] at h
  obtain ⟨⟨t, r1⟩, hloop, h⟩ := h
  obtain ⟨res, hspec⟩ := reserveLoop_called hnodup (fun k _ => .refl k s) hloop
  have hframe := (reserveLoop_frame hreq (releasable_nil s.caches n) hloop).2.1
  have hlists : t.env.ctx.reservedpod = s.env.ctx.reservedpod := hframe.reservedpod
  have hwhite : t.env.ctx.nsWhiteList = s.env.ctx.nsWhiteList := by rw [hframe]
  have hnot : (∃ k ∈ order, Aborts pod n cyc s.caches k) → ¬ Entered order pod n cyc s :=
    fun ⟨k, hk, hab⟩ hent => hent.1 k hk hab
  cases r1 with
  | error err =>
    cases h
    exact ⟨res, hspec.called, hspec.others, fun hent => absurd hent (hnot (hspec.ended err rfl)),
      fun _ => hlists, hwhite⟩
  | ok reqs =>
    obtain ⟨hgo, hreqs⟩ := hspec.complete reqs rfl
    rw [nil_append] at hreqs
    have hiff := collected_ne_nil_iff hgo hspec.called
    rw [← hreqs] at hiff
    by_cases hnil : reqs = []
    · simp only [hnil, if_true] at h
      cases h
      exact ⟨res, hspec.called, hspec.others, fun hent => absurd hnil (hiff.mpr hent.2.1),
        fun _ => hlists, hwhite⟩
    simp only [hnil, if_false] at h
    cases hl : s.env.ctx.reservedpod.lookup n with
    | none =>
      have hctx : (t.env.ctx.addPod ⟨pod.name, pod.ns, reqs⟩ pod n).1 = t.env.ctx :=
        ResourceIOContext.addPod_of_none (by rw [hlists]; exact hl)
      rw [hctx] at h
      cases h
      exact ⟨res, hspec.called, hspec.others,
        fun hent => absurd hent.2.2 (lookup_eq_none.mp hl), fun _ => hlists, hwhite⟩
    | some l =>
      rw [ResourceIOContext.addPod_of_lookup (by rw [hlists]; exact hl)] at h
      cases h
      refine ⟨res, ?_, ?_, fun _ => ⟨l, hl, by rw [hlists, hreqs]⟩, fun hno => ?_, hwhite⟩
      · intro k request hcall
        obtain ⟨u, u', hag, hadd, hag'⟩ := hspec.called k request hcall
        exact ⟨u, u', hag, hadd, by cases k <;> exact hag'⟩
      · intro k hno
        have hag := hspec.others k hno
        cases k <;> exact hag
      · exact absurd ⟨hgo, hiff.mp hnil, mem_of_lookup_eq_some hl⟩ hno

end reserve

end IOIsolation.Sched
