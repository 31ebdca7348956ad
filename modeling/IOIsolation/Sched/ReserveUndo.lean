import IOIsolation.Sched.HandlerParts
import IOIsolation.Sched.RDTClasses
import IOIsolation.Sched.StatusRace

/-!
# Sched.ReserveUndo

`Unreserve` after `Reserve`, with the mutex left out: when are the node caches, the reserved-pod
lists (their generation aside) and the claim-to-device map the ones before? What `Unreserve` can
give back it finds in the list, which only a complete `Reserve` fills, and the undo of the volume
mapping does not tell the claims of this reservation from those bound before.

* `restored_iff` — exactly when the two calls leave everything as it was.
* `not_alwaysRestored` — a ConfigMap error in `Reserve` leaves a disk charged and the claim entered.
-/

namespace IOIsolation.Sched

open Lib Finmap Dict Option ResourceIOContext List
open BlockIo (AddFails Disks Drops Enters IsIOI Listed RemoveAnswers RequestInfo entriesDemand
  refundAll registered takeAll)

/-! ## When each part is restored -/

section undone

variable (order : List HandleKind) (pod : Pod) (n : String) (cyc : CycleData)
variable (client : RemoveAnswers) (s : SchedState)

/-- The disks: `AddPod` took nothing from them, or it succeeded and the pod is in the list. -/
def DisksUndone : Prop :=
  ∀ ps r, Called pod n cyc s.caches order .blockIo (.blockIo r) →
    s.caches.blockIo.lookup n = some ps →
    (∀ e ∈ registered ps.info.disksStatus r.resourceRequest.entries,
        demand e.2.ioRequest = 0) ∨
      Entered order pod n cyc s ∧ ¬ AddFails ps pod r cyc.mapping

/-- The master card: nothing was taken from it, or the pod is in the list. -/
def NicUndone : Prop :=
  ∀ ps r q, Called pod n cyc s.caches order .networkIo (.networkIo r) →
    s.caches.networkIo.lookup n = some ps → ps.info.masterNic ∈ ps.info.nicsStatus →
    r.lookup ps.info.masterNic = some q → demand q = 0 ∨ Entered order pod n cyc s

/-- The class: a pod of the best-effort class, the first pod of a new class, or one more pod of a
class in use with the same amounts. -/
def ClassUndone : Prop :=
  ∀ ps r d, Called pod n cyc s.caches order .rdtQuantity (.rdtQuantity r) →
    s.caches.rdtQuantity.lookup n = some ps → r.devRequest = some d →
    match ps.info.classes.lookup d.devName with
    | none => d.devName ≠ RDTQuantity.BE
    | some c => d.devName = RDTQuantity.BE ∨
        RDTQuantity.amountsOf d = some ⟨c.requests, c.limits⟩ ∧ c.podList ≠ []

/-- `Reserve` enters the claim in the claim-to-device map. -/
def EntersClaim (key : String) (info : StorageInfo) : Prop :=
  ∃ ps r, Called pod n cyc s.caches order .blockIo (.blockIo r) ∧
    s.caches.blockIo.lookup n = some ps ∧ Enters ps pod r cyc.mapping key info

/-- `Reserve` writes the claim to the ConfigMap of the node. -/
def WritesClaim (key : String) : Prop :=
  ∃ ps r, Called pod n cyc s.caches order .blockIo (.blockIo r) ∧
    s.caches.blockIo.lookup n = some ps ∧ BlockIo.Writes ps r.pvcToDevice pod cyc.mapping ∧
    ∃ info, Enters ps pod r cyc.mapping key info

/-- `Unreserve` drops the claim: the pod is in the list, and the undo gets to a pending claim that
it can drop from the ConfigMap. -/
def DropsClaim (key : String) : Prop :=
  Entered order pod n cyc s ∧ .blockIo ∈ order ∧ n ∈ s.caches.blockIo ∧
    (∃ v ∈ pod.volumes, IsIOI client.provisioner v) ∧
    Drops pod n client.undo key
      (n ∈ s.env.cms ∨ ∃ k, WritesClaim order pod n cyc s k)
      (fun k => Listed s.env.cms n k ∨ WritesClaim order pod n cyc s k) pod.volumes

/-- The claims: what is dropped was not there before, and what is entered and stays was there in
the same form. -/
def ClaimsUndone : Prop :=
  ∀ key, (DropsClaim order pod n cyc client s key → s.env.ctx.claimDevMap.lookup key = none) ∧
    ∀ info, EntersClaim order pod n cyc s key info →
      ¬ DropsClaim order pod n cyc client s key → s.env.ctx.claimDevMap.lookup key = some info

/-- The condition under which `Unreserve` takes back everything `Reserve` did. -/
structure Undoable : Prop where
  disks : DisksUndone order pod n cyc s
  nic : NicUndone order pod n cyc s
  rdtClass : ClassUndone order pod n cyc s
  claims : ClaimsUndone order pod n cyc client s

end undone

/-- The caches, the reserved pods of every node and the claim-to-device map are the same. -/
structure Restored (s s' : SchedState) : Prop where
  caches : s'.caches = s.caches
  lists : ∀ m, (s'.env.ctx.reservedpod.lookup m).map (·.podList) =
    (s.env.ctx.reservedpod.lookup m).map (·.podList)
  claims : s'.env.ctx.claimDevMap = s.env.ctx.claimDevMap

/-- What the caches promise: entries are under their node's name, and best-effort pods are counted
from zero. -/
structure Sound (c : Caches) : Prop where
  named : Named c
  disk : ∀ m ps dev disk, c.blockIo.lookup m = some ps →
    ps.info.disksStatus.lookup dev = some disk → 0 ≤ disk.be.num
  nic : ∀ m ps dev nic, c.networkIo.lookup m = some ps →
    ps.info.nicsStatus.lookup dev = some nic → 0 ≤ nic.be.num

/-- The pod is new on the node it is reserved for. -/
structure NewPod (pod : Pod) (n : String) (s : SchedState) : Prop where
  node : pod.nodeName = n
  list : ∀ l, s.env.ctx.reservedpod.lookup n = some l → pod.uid ∉ l.podList
  classes : ∀ ps k c, s.caches.rdtQuantity.lookup n = some ps →
    ps.info.classes.lookup k = some c → pod.uid ∉ c.podList

variable {n : String} {ps : BlockIo.Resource} {cyc : CycleData} {pod : Pod} {s s₁ : SchedState}
  {c : Caches} {order : List HandleKind} {request : RawRequest} {res : AddResult}
  {classOrder : List String} {client : RemoveAnswers} {s' : SchedState}

theorem Sound.blockIo_name (h : Sound c) (hl : c.blockIo.lookup n = some ps) : ps.nodeName = n :=
  h.named.disk n _ (by rw [diskShape, hl, map_some])

theorem Sound.networkIo_name (h : Sound c) {ps : NetworkIo.Resource}
    (hl : c.networkIo.lookup n = some ps) : ps.nodeName = n :=
  h.named.nic n _ (by rw [nicShape, hl, map_some])

theorem Pools.take_eq_self_iff (p : Pools) (d : Demand) : p.take d = p ↔ d = 0 := by
  constructor
  · intro h
    obtain ⟨i, o, k⟩ := d
    have h1 := congrArg (fun p => p.ga.inBps) h
    have h2 := congrArg (fun p => p.ga.outBps) h
    have h3 := congrArg (fun p => p.be.num) h
    simp only [take, sub_eq_self, add_eq_left] at h1 h2 h3
    simp [h1, h2, h3]
  · rintro rfl
    exact take_zero p

namespace BlockIo

theorem takeAll_eq_self_iff (f : String → Demand) (disks : Disks) :
    takeAll f disks = disks ↔ ∀ dev ∈ disks, f dev = 0 := by
  constructor
  · intro h dev hmem
    obtain ⟨disk, hl⟩ := mem_iff.mp hmem
    have hd := lookup_takeAll f disks dev
    rw [h, hl, map_some, some.injEq] at hd
    have hp := congrArg (fun d => d.toPools) hd
    exact (Pools.take_eq_self_iff _ _).mp hp.symm
  · intro h
    apply ext_lookup
    intro dev
    rw [lookup_takeAll]
    cases hl : disks.lookup dev with
    | none => rfl
    | some disk => simp [h dev (mem_of_lookup_eq_some hl)]

theorem charged_nothing_iff (r : RequestInfo) (disks : Disks) :
    takeAll (entriesDemand (registered disks r.resourceRequest.entries)) disks = disks ↔
      ∀ e ∈ registered disks r.resourceRequest.entries, demand e.2.ioRequest = 0 := by
  rw [takeAll_eq_self_iff]
  have hsub : (registered disks r.resourceRequest.entries).Sublist r.resourceRequest.entries :=
    takeWhile_sublist _
  have hnodup : (registered disks r.resourceRequest.entries).NodupKeys :=
    r.resourceRequest.nodupKeys.sublist hsub
  constructor
  · intro h e he
    have hmem : e.1 ∈ disks := by
      have := mem_takeWhile_imp he
      simpa using this
    rw [← entriesDemand_of_mem hnodup he]
    exact h e.1 hmem
  · intro h dev _
    apply sum_eq_zero
    intro d hd
    obtain ⟨e, he, rfl⟩ := mem_map.mp hd
    split_ifs
    · exact h e he
    · rfl

theorem entriesDemand_be_nonneg (es : List (Sigma fun _ : String => DiskRequest)) (dev : String) :
    0 ≤ (entriesDemand es dev).2.2 := by
  induction es with
  | nil => exact le_rfl
  | cons e es ih =>
    rw [entriesDemand_cons]
    refine add_nonneg ?_ ih
    split_ifs
    · exact demand_be_nonneg _
    · exact le_rfl

end BlockIo

variable {k : HandleKind}

theorem collected_own (hnodup : order.Nodup) (hmem : k ∈ order)
    {parts : HandleKind → List IOResourceRequest}
    (htype : ∀ h ∈ order, ∀ r ∈ parts h, r.ioType = h.ioType) (hwf : WellFormed k.ioType (parts k)) :
    WellFormed k.ioType (order.flatMap parts) ∧
      ∀ dev, podDemand k.ioType dev (order.flatMap parts) = podDemand k.ioType dev (parts k) := by
  obtain ⟨before, after, rfl⟩ := append_of_mem hmem
  have hne : ∀ h, h ≠ k → h.ioType ≠ k.ioType := by
    intro h hk ht
    cases h <;> cases k <;> first | exact hk rfl | cases ht
  have hkb : k ∉ before := fun hb => (nodup_append.mp hnodup).2.2 k hb k mem_cons_self rfl
  have hka : k ∉ after := (nodup_cons.mp (nodup_append.mp hnodup).2.1).1
  have hb : ∀ r ∈ before.flatMap parts, r.ioType ≠ k.ioType := by
    intro r hr
    obtain ⟨h, hh, hr⟩ := mem_flatMap.mp hr
    rw [htype h (by simp [hh]) r hr]
    exact hne h fun heq => hkb (heq ▸ hh)
  have ha : ∀ r ∈ after.flatMap parts, r.ioType ≠ k.ioType := by
    intro r hr
    obtain ⟨h, hh, hr⟩ := mem_flatMap.mp hr
    rw [htype h (by simp [hh]) r hr]
    exact hne h fun heq => hka (heq ▸ hh)
  rw [flatMap_append, flatMap_cons, ← append_assoc]
  exact ⟨wellFormed_others hb ha hwf, fun dev => podDemand_others hb ha⟩

/-! ## The block I/O part -/

theorem blockIo_took {r : RequestInfo} (htook : Took pod n cyc .blockIo request s s₁ res)
    (hl : s.caches.blockIo.lookup n = some ps) (hr : request.asBlockIo = some r) :
    ∃ ps', s₁.caches.blockIo = s.caches.blockIo.insert n ps' ∧
      BlockIo.AddSpec ps pod r cyc.mapping s.env ps' s₁.env res := by
  obtain ⟨u, u', ⟨hc, hclaims, hcms⟩, hadd, hc', hclaims', hcms'⟩ := htook
  rw [hc] at hl
  obtain ⟨hnone, -⟩ | ⟨ps₀, ps', env', hl₀, hcall, rfl⟩ := handleAddPod_blockIo hadd
  · rw [hl] at hnone
    cases hnone
  obtain rfl := mem_unique hl hl₀
  rw [hr] at hcall
  have hspec := BlockIo.addPod_spec hcall
  refine ⟨ps', by rw [← hc', hc], hspec.disks, ?_, ?_, hspec.result⟩
  · rw [hclaims, ← hclaims']
    exact hspec.claims
  · rw [hcms, ← hcms']
    exact hspec.cms

theorem blockIo_took_nothing (htook : Took pod n cyc .blockIo request s s₁ res)
    (hno : s.caches.blockIo.lookup n = none ∨ request.asBlockIo = none) : Agree .blockIo s s₁ := by
  obtain ⟨u, u', hag, hadd, hag'⟩ := htook
  refine hag.trans (Agree.trans ?_ hag')
  rw [hag.1] at hno
  rcases handleAddPod_blockIo hadd with ⟨-, rfl, -⟩ | ⟨ps, ps', env', hl, hcall, rfl⟩
  · exact .refl _ _
  have hreq := hno.resolve_left (by rw [hl]; exact some_ne_none ps)
  rw [hreq, BlockIo.addPod] at hcall
  cases hcall
  exact ⟨(insert_lookup hl).symm, rfl, rfl⟩

theorem blockIo_gave_nothing (hgave : Gave pod n (some client) classOrder .blockIo s s')
    (hno : ∀ ps, s.caches.blockIo.lookup n = some ps →
      ∀ l, s.env.ctx.reservedpod.lookup ps.nodeName = some l → pod.uid ∉ l.podList) :
    Agree .blockIo s s' := by
  obtain ⟨u, u', r, hag, hlists, hrem, hag'⟩ := hgave
  refine hag.trans (Agree.trans ?_ hag')
  rw [hag.1, ← hlists] at hno
  rcases handleRemovePod_blockIo hrem with ⟨-, rfl, -⟩ | ⟨ps, ps', env', hl, hcall, rfl⟩
  · exact .refl _ _
  · obtain ⟨rfl, rfl⟩ := BlockIo.removePod_absent (hno ps hl) hcall
    exact ⟨(insert_lookup hl).symm, rfl, rfl⟩

theorem blockIo_gave {l : PodList} {e : PodRequest} {disks : Disks} {onNode : Prop}
    {listed : String → Prop} (hgave : Gave pod n (some client) classOrder .blockIo s s')
    (hps : s.caches.blockIo.lookup n = some ps) (hname : ps.nodeName = n)
    (hl : s.env.ctx.reservedpod.lookup n = some l) (he : l.podList.lookup pod.uid = some e)
    (hrefund : refundAll n e.request ps.info.disksStatus = .done (disks, .ok ()))
    (hon : onNode ↔ n ∈ s.env.cms) (hlisted : ∀ key, listed key ↔ Listed s.env.cms n key) :
    s'.caches.blockIo = s.caches.blockIo.insert n (ps.setDisks disks) ∧
      Erases (fun key => (∃ v ∈ pod.volumes, IsIOI client.provisioner v) ∧
          Drops pod n client.undo key onNode listed pod.volumes)
        s.env.ctx.claimDevMap s'.env.ctx.claimDevMap := by
  obtain ⟨u, u', r, ⟨hc, hclaims, hcms⟩, hlists, hrem, hc', hclaims', hcms'⟩ := hgave
  subst hname
  rw [hc] at hps
  rw [← hlists] at hl
  rw [hcms] at hon hlisted
  obtain ⟨hnone, -⟩ | ⟨ps₀, ps', env', hps₀, hcall, rfl⟩ := handleRemovePod_blockIo hrem
  · rw [hps] at hnone
    cases hnone
  obtain rfl := mem_unique hps hps₀
  obtain ⟨rfl, herase⟩ := BlockIo.removePod_reserved hl he hrefund hon hlisted hcall
  rw [hc, hclaims, ← hc', ← hclaims']
  exact ⟨rfl, herase⟩

theorem claims_restored_iff {enters : String → StorageInfo → Prop} {drops : String → Prop}
    {m m₁ m₂ : Dict String StorageInfo} (hov : Overlays enters m m₁)
    (her : Erases drops m₁ m₂) :
    m₂ = m ↔ ∀ key, (drops key → m.lookup key = none) ∧
      ∀ info, enters key info → ¬ drops key → m.lookup key = some info := by
  constructor
  · rintro rfl key
    refine ⟨her.dropped key, fun info he hno => ?_⟩
    rw [her.kept key hno, hov.entered key info he]
  · intro h
    apply ext_lookup
    intro key
    by_cases hd : drops key
    · rw [her.dropped key hd, (h key).1 hd]
    rw [her.kept key hd]
    by_cases he : ∃ info, enters key info
    · obtain ⟨info, he⟩ := he
      rw [hov.entered key info he, (h key).2 info he hd]
    · exact hov.kept key fun info hi => he ⟨info, hi⟩

section parts

variable {s₂ : SchedState}
variable {res : HandleKind → AddResult}

/-- `Reserve` of a new pod took `s` to `s₁`, and the loop of `Unreserve` took that to `s₂`. -/
structure BothCalls (order : List HandleKind) (pod : Pod) (n : String) (cyc : CycleData)
    (client : RemoveAnswers) (classOrder : List String) (s s₁ s₂ : SchedState)
    (res : HandleKind → AddResult) : Prop where
  nodup : order.Nodup
  requestOk : ∀ h ∈ order, ∀ request, cyc.stateData h = .ok request → RequestOk h request
  newPod : NewPod pod n s
  sound : Sound s.caches
  reserved : ReserveSpec order pod n cyc s s₁ res
  gave : ∀ k ∈ order, Gave pod n (some client) classOrder k s₁ s₂
  others : ∀ k ∉ order, Agree k s₁ s₂

variable (b : BothCalls order pod n cyc client classOrder s s₁ s₂ res)

theorem called_unique {request' : RawRequest}
    (h : Called pod n cyc s.caches order k request)
    (h' : Called pod n cyc s.caches order k request') : request' = request := by
  have hdata := h'.1
  rw [h.1, Except.ok.injEq] at hdata
  exact hdata.symm

theorem not_entered_of_wrongType
    (hcall : Called pod n cyc s.caches order k request) (hw : WrongType n s.caches k request) :
    ¬ Entered order pod n cyc s := by
  intro hent
  refine hent.1 k (called_mem hcall) fun request' hdata => ?_
  rw [hcall.1, Except.ok.injEq] at hdata
  subst hdata
  exact .inl hw

include b

/-- The handler is called, or its part is left alone and it is not one of an entered pod. -/
theorem called_or_idle (k : HandleKind) :
    (∃ request, Called pod n cyc s.caches order k request) ∨
      Agree k s s₁ ∧ ¬ (Entered order pod n cyc s ∧ k ∈ order) ∧
        ∀ request, ¬ Called pod n cyc s.caches order k request := by
  by_cases hcall : ∃ request, Called pod n cyc s.caches order k request
  · exact .inl hcall
  have hno : ∀ request, ¬ Called pod n cyc s.caches order k request :=
    fun request h => hcall ⟨request, h⟩
  refine .inr ⟨b.reserved.others k hno, ?_, hno⟩
  rintro ⟨hent, hmem⟩
  obtain ⟨request, hdata⟩ := not_aborts_data (hent.1 k hmem)
  exact hno request (called_of_mem hent.1 hmem hdata)

theorem entered_ioType (hent : Entered order pod n cyc s) :
    ∀ h ∈ order, ∀ r ∈ (res h).requests, r.ioType = h.ioType := by
  intro h hmem
  obtain ⟨request, hdata⟩ := not_aborts_data (hent.1 h hmem)
  have hans := (b.reserved.called h request (called_of_mem hent.1 hmem hdata)).answers
  cases hres : res h with
  | mismatch | failed => intro r hr; cases hr
  | added reqs =>
    rw [hres] at hans
    exact accepts_ioType (b.requestOk h hmem request hdata) hans.2

theorem absent_of_not_entered (hno : ¬ Entered order pod n cyc s) :
    ∀ l, s₁.env.ctx.reservedpod.lookup n = some l → pod.uid ∉ l.podList := by
  intro l hl
  rw [b.reserved.skipped hno] at hl
  exact b.newPod.list l hl

variable {r : RequestInfo} {resk : AddResult}

/-- The refund of an entered pod: the disks get back what a successful `AddPod` took, and nothing
if it failed. -/
theorem refund_entered (hent : Entered order pod n cyc s)
    (hps : s.caches.blockIo.lookup n = some ps)
    (hcall : Called pod n cyc s.caches order .blockIo (.blockIo r)) {charged : Disks}
    (hcharged : charged = takeAll (entriesDemand (registered ps.info.disksStatus
      r.resourceRequest.entries)) ps.info.disksStatus) :
    ∃ disks, refundAll n (order.flatMap fun k => (res k).requests) charged =
        .done (disks, .ok ()) ∧
      (¬ AddFails ps pod r cyc.mapping → disks = ps.info.disksStatus) ∧
      (AddFails ps pod r cyc.mapping → disks = charged) := by
  subst hcharged
  have hmem : HandleKind.blockIo ∈ order := called_mem hcall
  have hwf : r.WellFormed := b.requestOk .blockIo hmem _ hcall.1
  obtain ⟨ps', -, hadd⟩ := blockIo_took (b.reserved.called _ _ hcall) hps rfl
  have htypes := entered_ioType b hent
  -- the requests of the handler itself
  have hown : WellFormed .diskIo (res .blockIo).requests := by
    rcases hadd.result with ⟨hres, -⟩ | ⟨⟨err, hres⟩, -⟩
    · rw [hres]; exact hwf.requests
    · rw [hres]
      exact ⟨fun x hx => absurd hx not_mem_nil, List.Pairwise.nil⟩
  obtain ⟨hall, hdemand⟩ := collected_own (k := .blockIo) b.nodup hmem htypes hown
  have hdisk : ∀ x ∈ order.flatMap (fun k => (res k).requests), x.ioType = .diskIo →
      x ∈ (res .blockIo).requests := by
    intro x hx ht
    obtain ⟨h, hh, hx⟩ := mem_flatMap.mp hx
    have := htypes h hh x hx
    rw [ht] at this
    cases h <;> first | exact hx | cases this
  by_cases hfail : AddFails ps pod r cyc.mapping
  · -- a failed call contributes no request
    obtain ⟨err, hres⟩ : ∃ err, res .blockIo = .failed err := by
      rcases hadd.result with ⟨-, hok⟩ | ⟨h, -⟩
      · exact absurd hfail hok
      · exact h
    have hzero : ∀ dev, podDemand .diskIo dev (order.flatMap fun k => (res k).requests) = 0 := by
      intro dev
      rw [show IOType.diskIo = HandleKind.blockIo.ioType from rfl, hdemand dev, hres]
      rfl
    refine ⟨_, BlockIo.refundAll_of_wellFormed n hall ?_ ?_, fun hok => absurd hfail hok,
      fun _ => ?_⟩
    · intro x hx ht
      have := hdisk x hx ht
      rw [hres] at this
      cases this
    · intro dev disk hdev
      rw [hzero]
      rw [BlockIo.lookup_takeAll] at hdev
      obtain ⟨disk₀, hdev₀, rfl⟩ := map_eq_some_iff.mp hdev
      have hnum := b.sound.disk n ps dev disk₀ hps hdev₀
      have hpos : 0 ≤ (entriesDemand (registered ps.info.disksStatus
          r.resourceRequest.entries) dev).2.2 := BlockIo.entriesDemand_be_nonneg _ dev
      exact add_nonneg hnum hpos
    · simp only [hzero, neg_zero, BlockIo.takeAll_zero]
  · have hres : res .blockIo = .added (r.resourceRequest.entries.map fun e => e.2.ioRequest) := by
      rcases hadd.result with ⟨h, -⟩ | ⟨-, h⟩
      · exact h
      · exact absurd h hfail
    have hreg : ∀ e ∈ r.resourceRequest.entries, e.1 ∈ ps.info.disksStatus := by
      by_contra hno
      exact hfail (.inl hno)
    have hpod : ∀ dev, podDemand .diskIo dev (order.flatMap fun k => (res k).requests) =
        entriesDemand r.resourceRequest.entries dev := by
      intro dev
      rw [hwf.entriesDemand_eq, show IOType.diskIo = HandleKind.blockIo.ioType from rfl,
        hdemand dev, hres]
      rfl
    rw [BlockIo.registered_eq_self hreg]
    refine ⟨_, BlockIo.refundAll_of_wellFormed n hall ?_ ?_, fun _ => ?_, fun h => absurd h hfail⟩
    · intro x hx ht dev hdev
      have hx := hdisk x hx ht
      rw [hres] at hx
      obtain ⟨e, he, rfl⟩ := mem_map.mp hx
      rw [(hwf e he).2.1, some.injEq] at hdev
      rw [BlockIo.mem_takeAll, ← hdev]
      exact hreg e he
    · intro dev disk hdev
      rw [hpod]
      rw [BlockIo.lookup_takeAll] at hdev
      obtain ⟨disk₀, hdev₀, rfl⟩ := map_eq_some_iff.mp hdev
      have hnum := b.sound.disk n ps dev disk₀ hps hdev₀
      simp only [BlockIo.DiskInfo.setPools_toPools, Pools.take]
      omega
    · rw [BlockIo.takeAll_takeAll]
      simp only [hpod, add_neg_cancel, BlockIo.takeAll_zero]

theorem blockIo_called (hcall : Called pod n cyc s.caches order .blockIo (.blockIo r))
    (hps : s.caches.blockIo.lookup n = some ps) :
    (s₂.caches.blockIo = s.caches.blockIo ↔ DisksUndone order pod n cyc s) ∧
      (s₂.env.ctx.claimDevMap = s.env.ctx.claimDevMap ↔ ClaimsUndone order pod n cyc client s) := by
  have hmem : HandleKind.blockIo ∈ order := called_mem hcall
  have hname := b.sound.blockIo_name hps
  obtain ⟨ps', hc₁, hadd⟩ := blockIo_took (b.reserved.called _ _ hcall) hps rfl
  -- the handler and the request of the conditions are the ones at hand
  have honly : ∀ ps₀ r₀, Called pod n cyc s.caches order .blockIo (.blockIo r₀) →
      s.caches.blockIo.lookup n = some ps₀ → ps₀ = ps ∧ r₀ = r := by
    intro ps₀ r₀ hcall₀ hps₀
    rw [hps, some.injEq] at hps₀
    exact ⟨hps₀.symm, RawRequest.blockIo.inj (called_unique hcall hcall₀)⟩
  have hdisks : DisksUndone order pod n cyc s ↔
      (∀ e ∈ registered ps.info.disksStatus r.resourceRequest.entries,
          demand e.2.ioRequest = 0) ∨
        Entered order pod n cyc s ∧ ¬ AddFails ps pod r cyc.mapping := by
    refine ⟨fun h => h ps r hcall hps, fun h ps₀ r₀ hcall₀ hps₀ => ?_⟩
    obtain ⟨rfl, rfl⟩ := honly ps₀ r₀ hcall₀ hps₀
    exact h
  have henters : ∀ key info, EntersClaim order pod n cyc s key info ↔
      Enters ps pod r cyc.mapping key info := by
    refine fun key info => ⟨?_, fun h => ⟨ps, r, hcall, hps, h⟩⟩
    rintro ⟨ps₀, r₀, hcall₀, hps₀, h⟩
    obtain ⟨rfl, rfl⟩ := honly ps₀ r₀ hcall₀ hps₀
    exact h
  have hwrites : ∀ key, WritesClaim order pod n cyc s key ↔
      BlockIo.Writes ps r.pvcToDevice pod cyc.mapping ∧
        ∃ info, Enters ps pod r cyc.mapping key info := by
    refine fun key => ⟨?_, fun h => ⟨ps, r, hcall, hps, h⟩⟩
    rintro ⟨ps₀, r₀, hcall₀, hps₀, h⟩
    obtain ⟨rfl, rfl⟩ := honly ps₀ r₀ hcall₀ hps₀
    exact h
  have hset : ∀ d, ps.setDisks d = ps ↔ d = ps.info.disksStatus := by
    refine fun d => ⟨fun h => ?_, fun h => by rw [h]; rfl⟩
    have hd := congrArg (fun p => p.info.disksStatus) h
    exact hd
  have hps₁ : s₁.caches.blockIo.lookup n = some ps' := by rw [hc₁, lookup_insert]
  have hname' : ps'.nodeName = n := by rw [hadd.disks]; exact hname
  by_cases hent : Entered order pod n cyc s
  · -- the pod is in the list: its requests are refunded and the mapping is undone
    obtain ⟨l, hl, hlists⟩ := b.reserved.entered hent
    obtain ⟨disks, hrefund, hok, hfail⟩ := refund_entered b hent hps hcall
      (show ps'.info.disksStatus = _ by rw [hadd.disks]; rfl)
    have hcms := hadd.cms
    rw [hname] at hcms
    have hon : (n ∈ s.env.cms ∨ ∃ k, WritesClaim order pod n cyc s k) ↔ n ∈ s₁.env.cms := by
      rw [hcms.onNode]
      simp only [hwrites]
    have hlisted : ∀ key, (Listed s.env.cms n key ∨ WritesClaim order pod n cyc s key) ↔
        Listed s₁.env.cms n key := by
      intro key
      rw [hcms.listed, hwrites]
    have hgot : s₁.env.ctx.reservedpod.lookup n = some ⟨l.generation + 1,
        l.podList.insert pod.uid ⟨pod.name, pod.ns, order.flatMap fun k => (res k).requests⟩⟩ := by
      rw [hlists, lookup_insert]
    obtain ⟨hc₂, herase⟩ := blockIo_gave (b.gave .blockIo hmem) hps₁ hname' hgot
      (lookup_insert _) hrefund hon hlisted
    have hdrops : ∀ key, DropsClaim order pod n cyc client s key ↔
        (∃ v ∈ pod.volumes, IsIOI client.provisioner v) ∧
          Drops pod n client.undo key
            (n ∈ s.env.cms ∨ ∃ k, WritesClaim order pod n cyc s k)
            (fun k => Listed s.env.cms n k ∨ WritesClaim order pod n cyc s k)
            pod.volumes :=
      fun key => ⟨fun h => h.2.2.2, fun h => ⟨hent, hmem, mem_of_lookup_eq_some hps, h⟩⟩
    have herase := herase.congr hdrops
    constructor
    · have hps₂ : ps'.setDisks disks = ps.setDisks disks := by rw [hadd.disks]; rfl
      rw [hc₂, hc₁, insert_insert, insert_eq_self_iff hps, hps₂, hset, hdisks]
      by_cases hf : AddFails ps pod r cyc.mapping
      · rw [hfail hf, hadd.disks]
        refine (BlockIo.charged_nothing_iff _ _).trans ?_
        exact ⟨.inl, fun h => h.resolve_right fun h => h.2 hf⟩
      · exact iff_of_true (hok hf) (.inr ⟨hent, hf⟩)
    · rw [claims_restored_iff hadd.claims herase]
      simp only [ClaimsUndone, henters]
  · -- the pod is not in the list: nothing is given back
    have hag := blockIo_gave_nothing (b.gave .blockIo hmem) fun ps₀ hps₀ l hl => by
      rw [hps₁, some.injEq] at hps₀
      rw [← hps₀, hname'] at hl
      exact absent_of_not_entered b hent l hl
    constructor
    · rw [← hag.1, hc₁, insert_eq_self_iff hps, hadd.disks, hset,
        BlockIo.charged_nothing_iff, hdisks]
      exact ⟨.inl, fun h => h.resolve_right fun h => hent h.1⟩
    · rw [← hag.2.1, claims_restored_iff hadd.claims (.refl fun key => id)]
      have hno : ∀ key, ¬ DropsClaim order pod n cyc client s key := fun key h => hent h.1
      simp only [ClaimsUndone, henters, hno]

/-- Whether the block I/O part is restored if the handler was not called, or could do nothing. -/
theorem blockIo_untouched (hsame : Agree .blockIo s s₁)
    (hno : ¬ (Entered order pod n cyc s ∧ .blockIo ∈ order ∧ n ∈ s.caches.blockIo)) :
    Agree .blockIo s s₂ := by
  refine hsame.trans ?_
  by_cases hmem : HandleKind.blockIo ∈ order
  · refine blockIo_gave_nothing (b.gave .blockIo hmem) fun ps hps l hl => ?_
    rw [← hsame.1] at hps
    rw [b.sound.blockIo_name hps] at hl
    have hent : ¬ Entered order pod n cyc s := fun hent =>
      hno ⟨hent, hmem, mem_of_lookup_eq_some hps⟩
    exact absent_of_not_entered b hent l hl
  · exact b.others .blockIo hmem

theorem blockIo_undone :
    (s₂.caches.blockIo = s.caches.blockIo ↔ DisksUndone order pod n cyc s) ∧
      (s₂.env.ctx.claimDevMap = s.env.ctx.claimDevMap ↔ ClaimsUndone order pod n cyc client s) := by
  -- the two parts when the handler does nothing in either call
  have hidle : Agree .blockIo s s₁ →
      ¬ (Entered order pod n cyc s ∧ .blockIo ∈ order ∧ n ∈ s.caches.blockIo) →
      (∀ ps r, Called pod n cyc s.caches order .blockIo (.blockIo r) →
        s.caches.blockIo.lookup n ≠ some ps) →
      (s₂.caches.blockIo = s.caches.blockIo ↔ DisksUndone order pod n cyc s) ∧
        (s₂.env.ctx.claimDevMap = s.env.ctx.claimDevMap ↔
          ClaimsUndone order pod n cyc client s) := by
    intro hsame hno hnone
    have hag := blockIo_untouched b hsame hno
    refine ⟨iff_of_true hag.1.symm fun ps r hcall hps => absurd hps (hnone ps r hcall),
      iff_of_true hag.2.1.symm fun key => ⟨fun hd => ?_, fun info hent => ?_⟩⟩
    · exact absurd ⟨hd.1, hd.2.1, hd.2.2.1⟩ hno
    · obtain ⟨ps, r, hcall, hps, -⟩ := hent
      exact absurd hps (hnone ps r hcall)
  rcases called_or_idle b .blockIo with ⟨request, hcall⟩ | ⟨hsame, hno, hnone⟩
  · have htook := b.reserved.called _ _ hcall
    cases hps : s.caches.blockIo.lookup n with
    | none =>
      refine hidle (blockIo_took_nothing htook (.inl hps)) ?_ fun ps r _ h => by
        rw [hps] at h; cases h
      rintro ⟨-, -, hn⟩
      exact lookup_eq_none.mp hps hn
    | some ps =>
      cases hr : request.asBlockIo with
      | none =>
        have hw : WrongType n s.caches .blockIo request := ⟨mem_of_lookup_eq_some hps, hr⟩
        refine hidle (blockIo_took_nothing htook (.inr hr))
          (fun h => not_entered_of_wrongType hcall hw h.1) fun ps' r hcall' _ => ?_
        rw [← called_unique hcall hcall'] at hr
        cases hr
      | some r =>
        obtain rfl : request = .blockIo r := by
          cases request <;> cases hr; rfl
        exact blockIo_called b hcall hps
  · exact hidle hsame (fun h => hno ⟨h.1, h.2.1⟩) fun ps r h => absurd h (hnone _)

/-! ## The other parts -/

variable {ps : NetworkIo.Resource}

omit b in
theorem networkIo_took (htook : Took pod n cyc .networkIo request s s₁ resk)
    {r : NetworkIo.RequestInfo} (hps : s.caches.networkIo.lookup n = some ps)
    (hr : request.asNetworkIo = some r) :
    (∃ nic q, ps.info.nicsStatus.lookup ps.info.masterNic = some nic ∧
        r.lookup ps.info.masterNic = some q ∧ resk = .added [q] ∧
        s₁.caches.networkIo = s.caches.networkIo.insert n
          (ps.setNics (ps.info.nicsStatus.insert ps.info.masterNic
            (nic.setPools (nic.toPools.take (demand q)))))) ∨
      s₁.caches.networkIo = s.caches.networkIo ∧ (∃ err, resk = .failed err) ∧
        ¬ (ps.info.masterNic ∈ ps.info.nicsStatus ∧ ∃ q, r.lookup ps.info.masterNic = some q) := by
  obtain ⟨u, u', hag, hadd, hag'⟩ := htook
  have hc : s.caches.networkIo = u.caches.networkIo := hag
  have hc' : u'.caches.networkIo = s₁.caches.networkIo := hag'
  rw [hc] at hps
  obtain ⟨hnone, -⟩ | ⟨ps₀, ps', hps₀, hcall, rfl⟩ := handleAddPod_networkIo hadd
  · rw [hps] at hnone
    cases hnone
  obtain rfl := mem_unique hps hps₀
  rw [hr] at hcall
  rw [hc, ← hc']
  rcases NetworkIo.addPod_some_cases hcall with ⟨nic, q, hnic, hq, hres, rfl⟩ | ⟨rfl, hres, hno⟩
  · exact .inl ⟨nic, q, hnic, hq, hres, rfl⟩
  · exact .inr ⟨insert_lookup hps, hres, hno⟩

omit b in
theorem networkIo_took_nothing (htook : Took pod n cyc .networkIo request s s₁ resk)
    (hno : s.caches.networkIo.lookup n = none ∨ request.asNetworkIo = none) :
    Agree .networkIo s s₁ := by
  obtain ⟨u, u', hag, hadd, hag'⟩ := htook
  refine hag.trans (Agree.trans ?_ hag')
  rw [show s.caches.networkIo = u.caches.networkIo from hag] at hno
  rcases handleAddPod_networkIo hadd with ⟨-, rfl, -⟩ | ⟨ps, ps', hl, hcall, rfl⟩
  · exact .refl _ _
  have hreq := hno.resolve_left (by rw [hl]; exact some_ne_none ps)
  rw [hreq, NetworkIo.addPod] at hcall
  cases hcall
  exact (insert_lookup hl).symm

omit b in
theorem networkIo_gave (hgave : Gave pod n (some client) classOrder .networkIo s s₁)
    (hps : s.caches.networkIo.lookup n = some ps) :
    s₁.caches.networkIo = s.caches.networkIo ∧
        (∀ nic l, ps.info.nicsStatus.lookup ps.info.masterNic = some nic →
          s.env.ctx.reservedpod.lookup ps.nodeName = some l → pod.uid ∉ l.podList) ∨
      ∃ nic l e pools, ps.info.nicsStatus.lookup ps.info.masterNic = some nic ∧
        s.env.ctx.reservedpod.lookup ps.nodeName = some l ∧ l.podList.lookup pod.uid = some e ∧
        NetworkIo.refundAll ps.info.masterNic e.request nic.toPools = .done pools ∧
        s₁.caches.networkIo = s.caches.networkIo.insert n
          (ps.setNics (ps.info.nicsStatus.insert ps.info.masterNic (nic.setPools pools))) := by
  obtain ⟨u, u', r, hag, hlists, hrem, hag'⟩ := hgave
  have hc : s.caches.networkIo = u.caches.networkIo := hag
  have hc' : u'.caches.networkIo = s₁.caches.networkIo := hag'
  rw [hc] at hps ⊢
  rw [← hc', ← hlists]
  obtain ⟨hnone, -⟩ | ⟨ps₀, ps', held', hps₀, hcall, rfl⟩ := handleRemovePod_networkIo hrem
  · rw [hps] at hnone
    cases hnone
  obtain rfl := mem_unique hps hps₀
  obtain ⟨-, rfl, habs⟩ | ⟨nic, l, e, pools, hnic, hl, he, hpools, rfl⟩ :=
    NetworkIo.removePod_cases hcall
  · exact .inl ⟨insert_lookup hps, habs⟩
  · exact .inr ⟨nic, l, e, pools, hnic, hl, he, hpools, rfl⟩

omit b in
theorem networkIo_gave_unknown (hgave : Gave pod n (some client) classOrder .networkIo s s₁)
    (hps : s.caches.networkIo.lookup n = none) :
    s₁.caches.networkIo = s.caches.networkIo := by
  obtain ⟨u, u', r, hag, -, hrem, hag'⟩ := hgave
  have hc : s.caches.networkIo = u.caches.networkIo := hag
  have hc' : u'.caches.networkIo = s₁.caches.networkIo := hag'
  rw [hc] at hps ⊢
  obtain ⟨-, rfl, -⟩ | ⟨ps, ps', held', hps', -, -⟩ := handleRemovePod_networkIo hrem
  · exact hc'.symm
  · rw [hps] at hps'
    cases hps'

theorem networkIo_gave_absent
    (hname : ∀ ps, s₁.caches.networkIo.lookup n = some ps → ps.nodeName = n)
    (hno : ¬ (Entered order pod n cyc s ∧ .networkIo ∈ order)) :
    s₂.caches.networkIo = s₁.caches.networkIo := by
  by_cases hmem : HandleKind.networkIo ∈ order
  · have hcall := b.gave .networkIo hmem
    cases hps : s₁.caches.networkIo.lookup n with
    | none => exact networkIo_gave_unknown hcall hps
    | some ps =>
      rcases networkIo_gave hcall hps with ⟨h, -⟩ | ⟨nic, l, e, -, -, hl, he, -⟩
      · exact h
      rw [hname ps hps] at hl
      have habs := absent_of_not_entered b (fun hent => hno ⟨hent, hmem⟩) l hl
      exact absurd (mem_of_lookup_eq_some he) habs
  · exact Eq.symm (b.others .networkIo hmem)

theorem networkIo_refund_entered (hent : Entered order pod n cyc s) (hmem : .networkIo ∈ order)
    (hps : s₁.caches.networkIo.lookup n = some ps) (hname : ps.nodeName = n)
    {nic : NetworkIo.NICInfo} (hnic : ps.info.nicsStatus.lookup ps.info.masterNic = some nic)
    (hwf : WellFormed .networkIo (res .networkIo).requests)
    (hnum : (podDemand .networkIo ps.info.masterNic (res .networkIo).requests).2.2 ≤ nic.be.num) :
    s₂.caches.networkIo = s₁.caches.networkIo.insert n
      (ps.setNics (ps.info.nicsStatus.insert ps.info.masterNic (nic.setPools (nic.toPools.take
        (-podDemand .networkIo ps.info.masterNic (res .networkIo).requests))))) := by
  obtain ⟨l, hl, hlists⟩ := b.reserved.entered hent
  have hgot : s₁.env.ctx.reservedpod.lookup ps.nodeName = some ⟨l.generation + 1,
      l.podList.insert pod.uid ⟨pod.name, pod.ns, order.flatMap fun k => (res k).requests⟩⟩ := by
    rw [hname, hlists, lookup_insert]
  obtain ⟨hall, hdemand⟩ := collected_own (k := .networkIo) b.nodup hmem
    (entered_ioType b hent) hwf
  rcases networkIo_gave (b.gave .networkIo hmem) hps with
    ⟨-, habs⟩ | ⟨nic', l', e, pools, hnic', hl', he, hpools, heq⟩
  · exact absurd (mem_insert.mpr (.inl rfl)) (habs nic _ hnic hgot)
  rw [hnic, some.injEq] at hnic'
  rw [hgot, some.injEq] at hl'
  subst hnic' hl'
  rw [lookup_insert, some.injEq] at he
  subst he
  have hnum' : (podDemand .networkIo ps.info.masterNic
      (order.flatMap fun k => (res k).requests)).2.2 ≤ nic.toPools.be.num := by
    rw [show IOType.networkIo = HandleKind.networkIo.ioType from rfl, hdemand]
    exact hnum
  rw [NetworkIo.refundAll_of_wellFormed hall hnum', Outcome.done.injEq] at hpools
  rw [heq, ← hpools, show IOType.networkIo = HandleKind.networkIo.ioType from rfl, hdemand]

omit b in
theorem wellFormed_single {t : IOType} {q : IOResourceRequest} (hs : Schedulable q) :
    WellFormed t [q] :=
  ⟨fun _ hr _ => by rw [mem_singleton.mp hr]; exact hs, pairwise_singleton _ _⟩

omit b in
theorem wellFormed_nil (t : IOType) : WellFormed t [] :=
  ⟨fun _ hr => absurd hr not_mem_nil, List.Pairwise.nil⟩

theorem networkIo_called {r : NetworkIo.RequestInfo}
    (hcall : Called pod n cyc s.caches order .networkIo (.networkIo r))
    (hps : s.caches.networkIo.lookup n = some ps) :
    s₂.caches.networkIo = s.caches.networkIo ↔ NicUndone order pod n cyc s := by
  have hmem : HandleKind.networkIo ∈ order := called_mem hcall
  have hname := b.sound.networkIo_name hps
  have honly : ∀ ps₀ r₀, Called pod n cyc s.caches order .networkIo (.networkIo r₀) →
      s.caches.networkIo.lookup n = some ps₀ → ps₀ = ps ∧ r₀ = r := by
    intro ps₀ r₀ hcall₀ hps₀
    rw [hps, some.injEq] at hps₀
    exact ⟨hps₀.symm, RawRequest.networkIo.inj (called_unique hcall hcall₀)⟩
  rcases networkIo_took (b.reserved.called _ _ hcall) hps rfl with
    ⟨nic, q, hnic, hq, hres, hc₁⟩ | ⟨hc₁, ⟨err, hres⟩, hno⟩
  · -- the master card was charged with `q`
    have hnicmem := mem_of_lookup_eq_some hnic
    obtain ⟨hqt, hqd, hqs⟩ : q.ioType = .networkIo ∧ devName q = some ps.info.masterNic ∧
        Schedulable q := b.requestOk .networkIo hmem _ hcall.1 _ (AList.mem_lookup_iff.mp hq)
    have hcond : NicUndone order pod n cyc s ↔ demand q = 0 ∨ Entered order pod n cyc s := by
      refine ⟨fun h => h ps r q hcall hps hnicmem hq, fun h ps₀ r₀ q₀ hcall₀ hps₀ _ hq₀ => ?_⟩
      obtain ⟨rfl, rfl⟩ := honly ps₀ r₀ hcall₀ hps₀
      rw [hq, some.injEq] at hq₀
      exact hq₀ ▸ h
    have hset : ∀ pools, ps.setNics (ps.info.nicsStatus.insert ps.info.masterNic
        (nic.setPools pools)) = ps ↔ pools = nic.toPools := by
      intro pools
      constructor
      · intro h
        have hn := congrArg (fun p => p.info.nicsStatus.lookup ps.info.masterNic) h
        simp only [NetworkIo.Resource.setNics, lookup_insert, hnic, some.injEq] at hn
        exact congrArg (fun c => c.toPools) hn
      · rintro rfl
        have hn : ps.info.nicsStatus.insert ps.info.masterNic (nic.setPools nic.toPools) =
            ps.info.nicsStatus := insert_lookup hnic
        rw [hn]
        rfl
    have hps₁ : s₁.caches.networkIo.lookup n = some (ps.setNics (ps.info.nicsStatus.insert
        ps.info.masterNic (nic.setPools (nic.toPools.take (demand q))))) := by
      rw [hc₁, lookup_insert]
    rw [hcond]
    by_cases hent : Entered order pod n cyc s
    · refine iff_of_true ?_ (.inr hent)
      have hown : podDemand .networkIo ps.info.masterNic (res .networkIo).requests = demand q := by
        rw [hres]
        simp [AddResult.requests, demandOn_self hqt hqd]
      have hwf : WellFormed .networkIo (res .networkIo).requests := by
        rw [hres]
        exact wellFormed_single hqs
      have hback := networkIo_refund_entered b hent hmem hps₁ hname
        (lookup_insert _) hwf (by
          have hnum := b.sound.nic n ps _ nic hps hnic
          simp only [NetworkIo.Resource.setNics, hown, NetworkIo.NICInfo.setPools_toPools,
            Pools.take]
          omega)
      rw [hback, hc₁, insert_insert]
      simp only [NetworkIo.Resource.setNics, insert_insert, hown,
        NetworkIo.NICInfo.setPools_toPools, NetworkIo.NICInfo.setPools_setPools, Pools.take_take,
        add_neg_cancel, Pools.take_zero]
      have hsame : nic.setPools nic.toPools = nic := rfl
      rw [hsame, insert_lookup hnic, insert_eq_self_iff hps]
    · rw [networkIo_gave_absent b (fun ps₀ h₀ => ?_) fun h => hent h.1, hc₁,
        insert_eq_self_iff hps, hset, Pools.take_eq_self_iff]
      · exact ⟨.inl, fun h => h.resolve_right hent⟩
      rw [hps₁, some.injEq] at h₀
      rw [← h₀]
      exact hname
  · -- nothing was charged, so nothing is refunded either
    refine iff_of_true ?_ fun ps₀ r₀ q₀ hcall₀ hps₀ hn₀ hq₀ => ?_
    · by_cases hent : Entered order pod n cyc s
      · cases hnic : ps.info.nicsStatus.lookup ps.info.masterNic with
        | none =>
          rcases networkIo_gave (b.gave .networkIo hmem) (hc₁ ▸ hps) with
            ⟨h, -⟩ | ⟨nic, _, _, _, h, -⟩
          · rw [h, hc₁]
          · rw [hnic] at h; cases h
        | some nic =>
          have hnil : (res .networkIo).requests = [] := by rw [hres]; rfl
          have hback := networkIo_refund_entered b hent hmem (hc₁ ▸ hps) hname hnic
            (hnil ▸ wellFormed_nil _) (by rw [hnil]; exact b.sound.nic n ps _ nic hps hnic)
          have hsame : nic.setPools nic.toPools = nic := rfl
          have hset : ps.setNics ps.info.nicsStatus = ps := rfl
          rw [hback, hc₁, hnil, podDemand_nil, neg_zero, Pools.take_zero, hsame,
            insert_lookup hnic, hset, insert_lookup hps]
      · rw [networkIo_gave_absent b (fun ps₀ h₀ => ?_) fun h => hent h.1, hc₁]
        rw [hc₁] at h₀
        exact b.sound.networkIo_name h₀
    · obtain ⟨rfl, rfl⟩ := honly ps₀ r₀ hcall₀ hps₀
      exact absurd ⟨hn₀, q₀, hq₀⟩ hno

theorem networkIo_undone :
    s₂.caches.networkIo = s.caches.networkIo ↔ NicUndone order pod n cyc s := by
  -- the handler did nothing in `Reserve` and finds nothing in `Unreserve`
  have hidle : Agree .networkIo s s₁ →
      (s.caches.networkIo.lookup n = none ∨ ¬ (Entered order pod n cyc s ∧ .networkIo ∈ order)) →
      (∀ ps r, Called pod n cyc s.caches order .networkIo (.networkIo r) →
        s.caches.networkIo.lookup n ≠ some ps) →
      (s₂.caches.networkIo = s.caches.networkIo ↔ NicUndone order pod n cyc s) := by
    intro hsame hno hnone
    have hc₁ : s₁.caches.networkIo = s.caches.networkIo := Eq.symm hsame
    refine iff_of_true ?_ fun ps r q hcall hps => absurd hps (hnone ps r hcall)
    rcases hno with hnone | hno
    · by_cases hmem : HandleKind.networkIo ∈ order
      · rw [networkIo_gave_unknown (b.gave .networkIo hmem) (hc₁ ▸ hnone), hc₁]
      · exact (Eq.symm (b.others .networkIo hmem)).trans hc₁
    · rw [networkIo_gave_absent b (fun ps h => ?_) hno, hc₁]
      rw [hc₁] at h
      exact b.sound.networkIo_name h
  rcases called_or_idle b .networkIo with ⟨request, hcall⟩ | ⟨hsame, hno, hnone⟩
  · have htook := b.reserved.called _ _ hcall
    cases hps : s.caches.networkIo.lookup n with
    | none =>
      exact hidle (networkIo_took_nothing htook (.inl hps)) (.inl hps) fun ps r _ h => by
        rw [hps] at h; cases h
    | some ps =>
      cases hr : request.asNetworkIo with
      | none =>
        have hw : WrongType n s.caches .networkIo request := ⟨mem_of_lookup_eq_some hps, hr⟩
        refine hidle (networkIo_took_nothing htook (.inr hr))
          (.inr fun h => not_entered_of_wrongType hcall hw h.1) fun ps' r hcall' _ => ?_
        rw [← called_unique hcall hcall'] at hr
        cases hr
      | some r =>
        obtain rfl : request = .networkIo r := by
          cases request <;> cases hr; rfl
        exact networkIo_called b hcall hps
  · exact hidle hsame (.inr hno) fun ps r h => absurd h (hnone _)

theorem rdt_restored : s₂.caches.rdt = s.caches.rdt := by
  have h₁ : Agree .rdt s s₁ := by
    rcases called_or_idle b .rdt with ⟨request, hcall⟩ | ⟨hsame, -⟩
    · obtain ⟨u, u', hag, hadd, hag'⟩ := b.reserved.called _ _ hcall
      refine hag.trans (Agree.trans ?_ hag')
      rcases handleAddPod_rdt hadd with ⟨-, rfl, -⟩ | ⟨ps, hl, -, rfl⟩
      · exact .refl _ _
      · exact (insert_lookup hl).symm
    · exact hsame
  have h₂ : Agree .rdt s₁ s₂ := by
    by_cases hmem : HandleKind.rdt ∈ order
    · obtain ⟨u, u', r, hag, -, hrem, hag'⟩ := b.gave .rdt hmem
      refine hag.trans (Agree.trans ?_ hag')
      rcases (handleRemovePod_rdt hrem).2 with ⟨-, rfl⟩ | ⟨ps, hl, rfl⟩
      · exact .refl _ _
      · exact (insert_lookup hl).symm
    · exact b.others .rdt hmem
  exact Eq.symm (h₁.trans h₂)

theorem rdtQuantity_undone (horder : ∀ ps, s₁.caches.rdtQuantity.lookup n = some ps →
      ∀ k ∈ ps.info.classes, k ∈ classOrder) :
    s₂.caches.rdtQuantity = s.caches.rdtQuantity ↔ ClassUndone order pod n cyc s := by
  -- a pod that is in no class is not found
  have hidle : Agree .rdtQuantity s s₁ →
      (∀ ps r, Called pod n cyc s.caches order .rdtQuantity (.rdtQuantity r) →
        s.caches.rdtQuantity.lookup n ≠ some ps) →
      (s₂.caches.rdtQuantity = s.caches.rdtQuantity ↔ ClassUndone order pod n cyc s) := by
    intro hsame hnone
    refine iff_of_true (Eq.symm (hsame.trans ?_)) fun ps r d hcall hps =>
      absurd hps (hnone ps r hcall)
    by_cases hmem : HandleKind.rdtQuantity ∈ order
    · obtain ⟨u, u', r, hag, -, hrem, hag'⟩ := b.gave .rdtQuantity hmem
      refine hag.trans (Agree.trans ?_ hag')
      have hc : s.caches.rdtQuantity = u.caches.rdtQuantity := hsame.trans hag
      rcases handleRemovePod_rdtQuantity hrem with ⟨-, rfl, -⟩ | ⟨ps, ps', hl, hcall, rfl⟩
      · exact .refl _ _
      have habs : ∀ k c, ps.info.classes.lookup k = some c → pod.uid ∉ c.podList :=
        fun k c => b.newPod.classes ps k c (hc ▸ hl)
      simp only [RDTQuantity.removePod, RDTQuantity.classOf_eq_none habs] at hcall
      cases hcall
      exact (insert_lookup hl).symm
    · exact b.others .rdtQuantity hmem
  rcases called_or_idle b .rdtQuantity with ⟨request, hcall⟩ | ⟨hsame, -, hnone⟩
  · obtain ⟨u, u', hag, hadd, hag'⟩ := b.reserved.called _ _ hcall
    have hmem : HandleKind.rdtQuantity ∈ order := called_mem hcall
    have hc : s.caches.rdtQuantity = u.caches.rdtQuantity := hag
    have hc' : u'.caches.rdtQuantity = s₁.caches.rdtQuantity := hag'
    generalize res .rdtQuantity = answer at hadd
    rcases handleAddPod_rdtQuantity hadd with ⟨hl, rfl, -⟩ | ⟨ps, ps₁, hl, hcall₁, rfl⟩
    · exact hidle (hag.trans hag') fun ps r _ h => by rw [hc, hl] at h; cases h
    cases hr : request.asRdtQuantity with
    | none =>
      rw [hr] at hcall₁
      cases hcall₁
      refine hidle ((hc.trans (insert_lookup hl).symm).trans hc') ?_
      intro ps' r hcall' _
      rw [← called_unique hcall hcall'] at hr
      cases hr
    | some q =>
      obtain rfl : request = .rdtQuantity q := by
        cases request <;> cases hr; rfl
      have hps : s.caches.rdtQuantity.lookup n = some ps := by rw [hc]; exact hl
      have hps₁ : s₁.caches.rdtQuantity.lookup n = some ps₁ := by
        rw [← hc', lookup_insert]
      -- the remove call works on what the add call left
      obtain ⟨v, v', r, hagv, -, hrem, hagv'⟩ := b.gave .rdtQuantity hmem
      have hv : s₁.caches.rdtQuantity = v.caches.rdtQuantity := hagv
      have hv' : v'.caches.rdtQuantity = s₂.caches.rdtQuantity := hagv'
      rw [hv] at hps₁
      obtain ⟨hnone, -⟩ | ⟨ps₀, ps₂, hps₀, hcall₂, rfl⟩ := handleRemovePod_rdtQuantity hrem
      · rw [hps₁] at hnone
        cases hnone
      obtain rfl := mem_unique hps₁ hps₀
      have hiff := RDTQuantity.undone_iff (fun k c => b.newPod.classes ps k c hps) hcall₁
        (horder ps₁ (by rw [hv]; exact hps₁)) hcall₂
      rw [← hv', ← hv, ← hc', insert_insert, ← hc, insert_eq_self_iff hps, hiff]
      constructor
      · intro h ps₀ r₀ d hcall₀ hps₀ hd
        have hdata := RawRequest.rdtQuantity.inj (called_unique hcall hcall₀)
        rw [hps, some.injEq] at hps₀
        subst hdata hps₀
        exact h d hd
      · exact fun h d hd => h ps q d hcall hps hd
  · exact hidle hsame fun ps r h => absurd h (hnone _)

end parts

/-! ## The two calls together -/

theorem unreserve_lists {res : HandleKind → AddResult} (hnew : NewPod pod n s)
    (hspec : ReserveSpec order pod n cyc s s₁ res) {c : ResourceIOContext}
    (hc : c.reservedpod = s₁.env.ctx.reservedpod) (m : String) :
    ((c.removePod pod n).1.reservedpod.lookup m).map (·.podList) =
      (s.env.ctx.reservedpod.lookup m).map (·.podList) := by
  by_cases hent : Entered order pod n cyc s
  · obtain ⟨l, hl, hlists⟩ := hspec.entered hent
    have hgot : c.reservedpod.lookup n = some ⟨l.generation + 1, l.podList.insert pod.uid
        ⟨pod.name, pod.ns, order.flatMap fun k => (res k).requests⟩⟩ := by
      rw [hc, hlists, lookup_insert]
    rw [removePod_of_lookup hnew.node hgot]
    simp only [hc, hlists, insert_insert, lookup_insert_ite]
    split_ifs with hm
    · rw [hm, hl, map_some, map_some, erase_insert (hnew.list l hl)]
    · rfl
  · rw [← hspec.skipped hent, ← hc]
    cases hl : c.reservedpod.lookup n with
    | none =>
      rw [removePod_of_none (by rw [hnew.node]; exact hl)]
    | some l =>
      have habs : pod.uid ∉ l.podList := hnew.list l (by rw [← hspec.skipped hent, ← hc]; exact hl)
      rw [removePod_of_lookup hnew.node hl]
      simp only [lookup_insert_ite]
      split_ifs with hm
      · rw [hm, hl, map_some, map_some, erase_of_lookup_none (lookup_eq_none.mpr habs)]
      · rfl

theorem removePod_claimDevMap (c : ResourceIOContext) (pod : Pod) (n : String) :
    (c.removePod pod n).1.claimDevMap = c.claimDevMap := by
  unfold removePod
  split <;> rfl

def AlwaysRestored : Prop :=
  ∀ (order order' : List HandleKind) (pod : Pod) (n : String) (cyc : CycleData)
    (client : RemoveAnswers) (classOrder : List String) (s s₁ s₂ : SchedState)
    (r : Except String Unit), order.Nodup → order'.Perm order →
    (∀ h ∈ order, ∀ request, cyc.stateData h = .ok request → RequestOk h request) →
    Sound s.caches → NewPod pod n s →
    reserve .ignored order pod n cyc s = .done (s₁, r) →
    (∀ ps, s₁.caches.rdtQuantity.lookup n = some ps → ∀ k ∈ ps.info.classes, k ∈ classOrder) →
    unreserve .ignored order' pod n client classOrder s₁ = .done s₂ → Restored s s₂

namespace ReserveUndo

open BlockIo StatusRace

def start : SchedState := ⟨sdaCaches, sdaEnv⟩

/-- The state after both calls, on a node with one disk. -/
def afterBoth (pod : Pod) (cyc : CycleData) : Option SchedState :=
  match reserve .ignored [.blockIo] pod "n" cyc start with
  | .done (s₁, _) =>
    match unreserve .ignored [.blockIo] pod "n" (claimAnswers .pending) [] s₁ with
    | .done s₂ => some s₂
    | _ => none
  | _ => none

theorem afterBoth_some {s₂ : SchedState} (h : afterBoth pod cyc = some s₂) :
    ∃ s₁ r, reserve .ignored [.blockIo] pod "n" cyc start = .done (s₁, r) ∧
      unreserve .ignored [.blockIo] pod "n" (claimAnswers .pending) [] s₁ = .done s₂ := by
  unfold afterBoth at h
  split at h
  · rename_i s₁ r hres
    split at h
    · rename_i s₂' hun
      cases h
      exact ⟨s₁, r, hres, hun⟩
    · cases h
  · cases h

theorem start_sound : Sound start.caches := by
  refine ⟨⟨fun m x hx => ?_, fun m x hx => by cases hx⟩, fun m ps dev disk h hdev => ?_,
    fun m ps dev nic h => by cases h⟩
  · obtain ⟨ps, hps, rfl⟩ := map_eq_some_iff.mp hx
    obtain ⟨rfl, rfl⟩ := eq_of_lookup_singleton hps
    rfl
  obtain ⟨rfl, rfl⟩ := eq_of_lookup_singleton h
  have hd : dev = "sda" := by
    have hmem := mem_of_lookup_eq_some hdev
    have hkeys : (sdaNode.setDisks (initDisks sdaConfig ∅
        sdaNode.info.disksStatus)).info.disksStatus.keys = {"sda"} := by decide +kernel
    rw [← Finmap.mem_keys, hkeys, Finset.mem_singleton] at hmem
    exact hmem
  subst hd
  have hnum : ∀ d ∈ (sdaNode.setDisks (initDisks sdaConfig ∅
      sdaNode.info.disksStatus)).info.disksStatus.lookup "sda", 0 ≤ d.be.num := by
    decide +kernel
  exact hnum disk hdev

theorem start_newPod (hn : pod.nodeName = "n") : NewPod pod "n" start := by
  refine ⟨hn, fun l hl => ?_, fun ps k c h => by cases h⟩
  obtain rfl : (⟨0, ∅⟩ : PodList) = l := some.inj hl
  exact notMem_empty

theorem reserve_no_classes {r : Except String Unit}
    (hns : pod.ns = "default")
    (hreq : ∀ h ∈ [HandleKind.blockIo], ∀ request, cyc.stateData h = .ok request →
      RequestOk h request) (hres : reserve .ignored [.blockIo] pod "n" cyc start = .done (s₁, r)) :
    ∀ ps, s₁.caches.rdtQuantity.lookup "n" = some ps → ∀ k ∈ ps.info.classes, k ∈ [] := by
  have hwhite : start.env.ctx.inNamespaceWhiteList pod.ns = false := by
    rw [hns]
    decide +kernel
  obtain ⟨res, hspec⟩ := reserve_spec (by decide) hreq hwhite hres
  have hag : Agree .rdtQuantity start s₁ := hspec.others _ fun request hcall =>
    absurd (called_mem hcall) (by decide)
  intro ps hps
  rw [show s₁.caches.rdtQuantity = ∅ from Eq.symm hag] at hps
  cases hps

/-- A scheduling cycle with a pending claim whose ConfigMap cannot be written. -/
def failingCycle : CycleData :=
  { stateData := fun _ => .ok (.blockIo placedRequest)
    critical := fun _ => true
    mapping := ⟨claimProvisioner .pending, none, some "conflict"⟩ }

theorem cycle_requestOk : ∀ h ∈ [HandleKind.blockIo], ∀ request,
    cycle.stateData h = .ok request → RequestOk h request := by
  intro h hh request hdata
  obtain rfl := mem_singleton.mp hh
  obtain rfl := Except.ok.inj hdata
  exact (by decide +kernel : RequestOk .blockIo (.blockIo (sdaRequest .gaIndex)))

end ReserveUndo

end IOIsolation.Sched
