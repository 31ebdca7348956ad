import IOIsolation.Sched.RDTConservation

/-!
# Sched.RDTRuns

Runs of the RDT-quantity handler on one node: pods that `CanAdmitPod` accepts are added, pods are
removed, the agent reports a status.

* `conserved_of_run` — what the classes are after every run, and that a rebuild gives the same.
* `honest_iff`       — when a pod with explicit amounts gets what its annotation asks for.
-/

namespace IOIsolation.Sched.RDTQuantity

open Lib Finmap Outcome Dict Option

/-! ## Runs -/

structure Node where
  ps : Resource
  pods : Dict String PodRequest
  deriving DecidableEq

inductive Event where
  /-- `AddPod` of request `r`; `entry` are the requests of all handlers. -/
  | add (pod : Pod) (r : IOResourceRequest) (entry : PodRequest)
  /-- `RemovePod`, with the classes in the order of the loop. -/
  | remove (pod : Pod) (order : List String)
  | status (st : NodeIOStatusStatus)

def start (nodeName : String) (rc : ResourceConfigSpec) : Node :=
  ⟨addCacheNodeInfo nodeName rc, ∅⟩

def Accepted (s : Node) (r : IOResourceRequest) : Prop :=
  canAdmitPod (Finmap.singleton s.ps.nodeName s.ps) s.ps.nodeName (some r) = .done (.ok ())

instance (s : Node) (r : IOResourceRequest) : Decidable (Accepted s r) :=
  inferInstanceAs (Decidable (_ = _))

/-- A pod enters when it is new and accepted; a call that panics is not a step. -/
def step (s : Node) : Event → Option Node
  | .add pod r entry =>
    if entry.request.filter (fun x => x.ioType = .rdtQuantity) = [r] ∧ pod.uid ∉ s.pods ∧
        Accepted s r then
      match addPod s.ps pod (some r) with
      | .done (ps, _) => some ⟨ps, s.pods.insert pod.uid entry⟩
      | _ => none
    else none
  | .remove pod order =>
    if ∀ k ∈ s.ps.info.classes.keys, k ∈ order then
      match removePod s.ps pod order with
      | .done (ps, _) => some ⟨ps, s.pods.erase pod.uid⟩
      | _ => none
    else none
  | .status st => some { s with ps := updateCacheNodeStatus s.ps st }

variable {s s' : Node} {classes classes' : Dict String ClassInfo} {d : DeviceRequirement}
  {uid : String} {e : Event} {rc : ResourceConfigSpec} {be : ClassInfo} {a : Amounts} {pod : Pod}
  {anno : RDTAnnotationResource} {r : IOResourceRequest} {entry : PodRequest}
  {pods : Dict String PodRequest} {es : List Event} {nodeName class_ : String} {c : ClassInfo}
  {order : List String}

theorem accepted_iff :
    Accepted s r ↔ ∃ d, r.devRequest = some d ∧ admitRequest s.ps.info d = .done (.ok ()) := by
  simp only [Accepted, canAdmitPod, lookup_singleton_eq, bind_eq_done, ofOption_eq_done]

theorem enterClass_amounts (h : enterClass uid d classes = .done classes') (hne : d.devName ≠ BE) :
    ∃ a, amountsOf d = some a := by
  cases ha : amountsOf d with
  | some a => exact ⟨a, rfl⟩
  | none =>
    unfold enterClass at h
    cases hc : classes.lookup d.devName with
    | none => simp [hc, ha] at h
    | some c => simp [hc, ha, hne] at h

/-- What a step does, guards included. -/
theorem step_cases (h : step s e = some s') :
    (∃ pod r entry d classes, e = .add pod r entry ∧
        entry.request.filter (fun x => x.ioType = .rdtQuantity) = [r] ∧ pod.uid ∉ s.pods ∧
        r.devRequest = some d ∧ admitRequest s.ps.info d = .done (.ok ()) ∧
        enterClass pod.uid d s.ps.info.classes = .done classes ∧
        s' = ⟨s.ps.setClasses classes, s.pods.insert pod.uid entry⟩) ∨
      (∃ pod order ps r, e = .remove pod order ∧ (∀ k ∈ s.ps.info.classes, k ∈ order) ∧
        removePod s.ps pod order = .done (ps, r) ∧ s' = ⟨ps, s.pods.erase pod.uid⟩) ∨
      ∃ st, e = .status st ∧ s' = { s with ps := updateCacheNodeStatus s.ps st } := by
  cases e with
  | add pod r entry =>
    simp only [step] at h
    split_ifs at h with hguard
    obtain ⟨hentry, hnew, hacc⟩ := hguard
    obtain ⟨d, hd, hadm⟩ := accepted_iff.mp hacc
    rw [addPod_eq_enterClass, hd, ofOption_some, done_bind] at h
    cases hent : enterClass pod.uid d s.ps.info.classes with
    | done classes =>
      rw [hent] at h
      cases h
      exact .inl ⟨pod, r, entry, d, classes, rfl, hentry, hnew, hd, hadm, hent, rfl⟩
    | panic | deadlock => rw [hent] at h; cases h
  | remove pod order =>
    simp only [step] at h
    split_ifs at h with hguard
    cases hrem : removePod s.ps pod order with
    | done x =>
      rw [hrem] at h
      cases h
      exact .inr (.inl ⟨pod, order, x.1, x.2, rfl, hguard, hrem, rfl⟩)
    | panic | deadlock => rw [hrem] at h; cases h
  | status st =>
    cases h
    exact .inr (.inr ⟨st, rfl, rfl⟩)

theorem updateCacheNodeStatus_classes (ps : Resource) (st : NodeIOStatusStatus) :
    ∃ score, updateCacheNodeStatus ps st = { ps with info := { ps.info with beScore := score } } := by
  unfold updateCacheNodeStatus
  split
  · split
    · exact ⟨_, rfl⟩
    · exact ⟨ps.info.beScore, rfl⟩
  · exact ⟨ps.info.beScore, rfl⟩

/-! ## The invariant -/

/-- The entry of a node of configuration `rc`: the numbers it was built with, and the classes of its
reserved pods. -/
structure Inv (rc : ResourceConfigSpec) (s : Node) : Prop where
  baselineL3 : s.ps.info.beL3CapacityBaseline = baselineOf rc L3
  baselineMB : s.ps.info.beMBCapacityBaseline = baselineOf rc MB
  classed : Classed s.pods
  describes : Describes (capacityOf rc L3, capacityOf rc MB) (membersOf s.pods) s.ps.info.classes

theorem inv_start (nodeName : String) (rc : ResourceConfigSpec) :
    Inv rc (start nodeName rc) where
  baselineL3 := rfl
  baselineMB := rfl
  classed := by
    intro uid e he
    simp [start] at he
  describes := by
    have hnone : membersOf (start nodeName rc).pods = ∅ := rfl
    exact describes_empty (capacityOf rc L3, capacityOf rc MB)

theorem membersOf_insert (hd : classRequest entry.request none = .done (some d)) :
    membersOf (pods.insert uid entry) = (membersOf pods).insert uid d := by
  apply ext_lookup
  intro u
  simp only [membersOf, lookup_filterMapVals, lookup_insert_ite]
  split_ifs
  · simp [entryClass, hd]
  · rfl

theorem membersOf_erase (pods : Dict String PodRequest) (uid : String) :
    membersOf (pods.erase uid) = (membersOf pods).erase uid := by
  apply ext_lookup
  intro u
  simp only [membersOf, lookup_filterMapVals, lookup_erase_ite]
  split_ifs <;> rfl

theorem not_mem_membersOf (h : uid ∉ pods) : uid ∉ membersOf pods := by
  rw [← lookup_eq_none] at h ⊢
  exact lookup_membersOf_none h

/-- An accepted request is best effort, or asks for the amounts of its class. -/
theorem accepted_compatible {info : NodeInfo} (hadm : admitRequest info d = .done (.ok ()))
    (henter : enterClass uid d info.classes = .done classes) :
    d.devName = BE ∨ d.devName ≠ BE ∧ ∃ a, amountsOf d = some a ∧
      ∀ c, info.classes.lookup d.devName = some c → a = ⟨c.requests, c.limits⟩ := by
  by_cases hbe : d.devName = BE
  · exact .inl hbe
  obtain ⟨a, ha⟩ := enterClass_amounts henter hbe
  refine .inr ⟨hbe, a, ha, fun c hc => ?_⟩
  have hcases := admit_ok ha hadm
  rw [hc] at hcases
  exact (hcases.resolve_left hbe).2

theorem inv_step (h : step s e = some s') (hI : Inv rc s) : Inv rc s' := by
  rcases step_cases h with ⟨pod, r, entry, d, classes, rfl, hentry, hnew, hd, hadm, hent, rfl⟩ |
    ⟨pod, order, ps, r, rfl, horder, hrem, rfl⟩ | ⟨st, rfl, rfl⟩
  · have hreq := classRequest_of_filter hd hentry
    obtain ⟨classes', hent', hdesc⟩ := hI.describes.enter (not_mem_membersOf hnew)
      (accepted_compatible hadm hent)
    rw [hent, done.injEq] at hent'
    subst hent'
    refine ⟨hI.baselineL3, hI.baselineMB, ?_, ?_⟩
    · intro uid e he
      rw [lookup_insert_ite] at he
      split_ifs at he
      · cases he
        exact ⟨d, hreq⟩
      · exact hI.classed uid e he
    · rw [membersOf_insert hreq]
      exact hdesc
  · obtain ⟨classes, r', hrem', hdesc⟩ := hI.describes.leave pod horder
    rw [hrem, done.injEq, Prod.mk.injEq] at hrem'
    obtain ⟨rfl, -⟩ := hrem'
    refine ⟨hI.baselineL3, hI.baselineMB, ?_, ?_⟩
    · intro uid e he
      rw [lookup_erase_ite] at he
      split_ifs at he
      exact hI.classed uid e he
    · rw [membersOf_erase]
      exact hdesc
  · obtain ⟨score, hscore⟩ := updateCacheNodeStatus_classes s.ps st
    rw [hscore]
    exact { hI with }

theorem inv_run (h : run step (start nodeName rc) es = some s) : Inv rc s :=
  run_invariant (C := fun _ _ => True) (fun _ _ _ hs _ hI => inv_step hs hI)
    (inv_start nodeName rc) (along_true step _ es) h

/-! ## The share of the best-effort class -/

theorem enterClass_be_of_some (hent : enterClass uid d classes = .done classes')
    (hc : classes.lookup d.devName = some c)
    (hok : d.devName = BE ∨ amountsOf d = some ⟨c.requests, c.limits⟩)
    (hbe : classes.lookup BE = some be) :
    classes' = classes.insert d.devName { c with podList := c.podList ++ [uid] } ∧
      ∃ be', classes'.lookup BE = some be' ∧ be'.requests = be.requests := by
  have heq : classes' = classes.insert d.devName { c with podList := c.podList ++ [uid] } := by
    unfold enterClass at hent
    by_cases hname : d.devName = BE
    · simp only [hc, if_pos hname] at hent
      cases hent
      rw [hname]
    simp only [hc, if_neg hname, hok.resolve_left hname, ofOption_some,
      done_bind, and_self, if_true] at hent
    cases hent
    rfl
  refine ⟨heq, ?_⟩
  rw [heq, lookup_insert_ite]
  split_ifs with hname
  · rw [← hname, hbe, some.injEq] at hc
    exact ⟨_, rfl, by rw [hc]⟩
  · exact ⟨be, hbe, rfl⟩

theorem enterClass_be_of_none (hent : enterClass uid d classes = .done classes')
    (hc : classes.lookup d.devName = none) (ha : amountsOf d = some a)
    (hbe : classes.lookup BE = some be) :
    classes'.lookup d.devName = some ⟨a.requests, a.limits, [uid]⟩ ∧
      ∃ be', classes'.lookup BE = some be' ∧
        be'.requests = ⟨be.requests.l3 - a.requests.l3, be.requests.mb - a.requests.mb⟩ := by
  have hne : d.devName ≠ BE := by
    intro hk
    rw [hk, hbe] at hc
    cases hc
  simp only [enterClass, hc, ha, ofOption_some, done_bind] at hent
  obtain ⟨be', hbe', rfl⟩ := adjustBE_done hent
  rw [lookup_insert_ite, if_neg hne.symm, hbe, some.injEq] at hbe'
  subst hbe'
  refine ⟨?_, _, lookup_insert _, ?_⟩
  · rw [lookup_insert_ite, if_neg hne, lookup_insert]
  · simp [sub_eq_add_neg]

def Event.NonNeg : Event → Prop
  | .add _ r _ => ∀ d a, r.devRequest = some d → amountsOf d = some a →
      0 ≤ a.requests.l3 ∧ 0 ≤ a.requests.mb
  | _ => True

/-- The best-effort class has its baseline if the node has, and no pod asks for a negative
amount. -/
structure Floor (rc : ResourceConfigSpec) (s : Node) : Prop where
  l3 : baselineOf rc L3 ≤ capacityOf rc L3 → ∀ be, s.ps.info.classes.lookup BE = some be →
    baselineOf rc L3 ≤ be.requests.l3
  mb : baselineOf rc MB ≤ capacityOf rc MB → ∀ be, s.ps.info.classes.lookup BE = some be →
    baselineOf rc MB ≤ be.requests.mb
  nonneg : ∀ uid d a, (membersOf s.pods).lookup uid = some d → amountsOf d = some a →
    0 ≤ a.requests.l3 ∧ 0 ≤ a.requests.mb

theorem floor_start (nodeName : String) (rc : ResourceConfigSpec) :
    Floor rc (start nodeName rc) where
  l3 := by
    intro h be hbe
    cases hbe
    exact h
  mb := by
    intro h be hbe
    cases hbe
    exact h
  nonneg := by
    intro uid d a hd
    simp [start, membersOf, lookup_filterMapVals] at hd

theorem classOf_some {k : String} (h : classOf classes uid order = some (k, c)) :
    classes.lookup k = some c := by
  induction order with
  | nil => cases h
  | cons x order ih =>
    unfold classOf at h
    cases hx : classes.lookup x with
    | none => rw [hx] at h; exact ih h
    | some c' =>
      rw [hx] at h
      dsimp only at h
      split_ifs at h
      · cases h
        exact hx
      · exact ih h

/-- `RemovePod` gives the best-effort class nothing, or the amounts of a class. -/
theorem removePod_be {ps ps' : Resource} {r : Except String Unit}
    (h : removePod ps pod order = .done (ps', r)) (hbe : ps.info.classes.lookup BE = some be) :
    ∃ be', ps'.info.classes.lookup BE = some be' ∧ (be'.requests = be.requests ∨
      ∃ k c, k ≠ BE ∧ ps.info.classes.lookup k = some c ∧ be'.requests =
        ⟨be.requests.l3 + c.requests.l3, be.requests.mb + c.requests.mb⟩) := by
  unfold removePod at h
  cases hclass : classOf ps.info.classes pod.uid order with
  | none =>
    rw [hclass] at h
    cases h
    exact ⟨be, hbe, .inl rfl⟩
  | some x =>
    obtain ⟨k, c⟩ := x
    have hc := classOf_some hclass
    simp only [hclass] at h
    split_ifs at h with hlast
    · simp only [bind_eq_done] at h
      obtain ⟨classes, hadj, h⟩ := h
      cases h
      obtain ⟨be', hbe', rfl⟩ := adjustBE_done hadj
      rw [lookup_erase_ite, if_neg hlast.2.symm, hbe, some.injEq] at hbe'
      subst hbe'
      exact ⟨_, lookup_insert _, .inr ⟨k, c, hlast.2, hc, by simp⟩⟩
    · cases h
      simp only [Resource.setClasses, lookup_insert_ite]
      split_ifs with hk
      · rw [← hk, hbe, some.injEq] at hc
        exact ⟨_, rfl, .inl (by rw [hc])⟩
      · exact ⟨be, hbe, .inl rfl⟩

theorem floor_step (h : step s e = some s') (hnn : e.NonNeg) (hI : Inv rc s) (hF : Floor rc s) :
    Floor rc s' := by
  obtain ⟨be, hbe, -⟩ := hI.describes.be
  rcases step_cases h with ⟨pod, r, entry, d, classes, rfl, hentry, hnew, hd, hadm, hent, rfl⟩ |
    ⟨pod, order, ps, r, rfl, horder, hrem, rfl⟩ | ⟨st, rfl, rfl⟩
  · have hreq := classRequest_of_filter hd hentry
    have hmembers : ∀ uid d' a, (membersOf (s.pods.insert pod.uid entry)).lookup uid = some d' →
        amountsOf d' = some a → 0 ≤ a.requests.l3 ∧ 0 ≤ a.requests.mb := by
      intro uid d' a hd' ha
      rw [membersOf_insert hreq, lookup_insert_ite] at hd'
      split_ifs at hd'
      · cases hd'
        exact hnn d a hd ha
      · exact hF.nonneg uid d' a hd' ha
    have hok := accepted_compatible hadm hent
    cases hc : s.ps.info.classes.lookup d.devName with
    | some c =>
      obtain ⟨-, be', hbe', hsame⟩ := enterClass_be_of_some hent hc
        (hok.imp id fun ⟨_, a, ha, hall⟩ => by rw [ha, hall c hc]) hbe
      refine ⟨fun hb x hx => ?_, fun hb x hx => ?_, hmembers⟩
      · rw [some.inj (hx.symm.trans hbe'), hsame]
        exact hF.l3 hb be hbe
      · rw [some.inj (hx.symm.trans hbe'), hsame]
        exact hF.mb hb be hbe
    | none =>
      have hne : d.devName ≠ BE := by
        intro hk
        rw [hk, hbe] at hc
        cases hc
      obtain ⟨-, a, ha, -⟩ := hok.resolve_left hne
      have hfits := admit_ok ha hadm
      rw [hc] at hfits
      obtain ⟨be₀, hbe₀, hl3, hmb⟩ := hfits
      obtain rfl := mem_unique hbe hbe₀
      rw [hI.baselineL3] at hl3
      rw [hI.baselineMB] at hmb
      obtain ⟨-, be', hbe', hless⟩ := enterClass_be_of_none hent hc ha hbe
      refine ⟨fun _ x hx => ?_, fun _ x hx => ?_, hmembers⟩
      · rw [some.inj (hx.symm.trans hbe'), hless]
        linarith
      · rw [some.inj (hx.symm.trans hbe'), hless]
        linarith
  · have hmembers : ∀ uid d' a, (membersOf (s.pods.erase pod.uid)).lookup uid = some d' →
        amountsOf d' = some a → 0 ≤ a.requests.l3 ∧ 0 ≤ a.requests.mb := by
      intro uid d' a hd' ha
      rw [membersOf_erase, lookup_erase_ite] at hd'
      split_ifs at hd'
      exact hF.nonneg uid d' a hd' ha
    -- the best-effort class only gains
    have hgain : ∃ be', ps.info.classes.lookup BE = some be' ∧
        be.requests.l3 ≤ be'.requests.l3 ∧ be.requests.mb ≤ be'.requests.mb := by
      obtain ⟨be', hbe', hsame | ⟨k, c, hk, hc, hmore⟩⟩ := removePod_be hrem hbe
      · exact ⟨be', hbe', by rw [hsame], by rw [hsame]⟩
      obtain ⟨uid, d, hd, -, ha⟩ := hI.describes.exists_member hc hk
      obtain ⟨h1, h2⟩ := hF.nonneg uid d _ hd ha
      refine ⟨be', hbe', ?_, ?_⟩
      · rw [hmore]
        exact le_add_of_nonneg_right h1
      · rw [hmore]
        exact le_add_of_nonneg_right h2
    obtain ⟨be', hbe', h1, h2⟩ := hgain
    refine ⟨fun hb x hx => ?_, fun hb x hx => ?_, hmembers⟩
    · rw [some.inj (hx.symm.trans hbe')]
      exact (hF.l3 hb be hbe).trans h1
    · rw [some.inj (hx.symm.trans hbe')]
      exact (hF.mb hb be hbe).trans h2
  · obtain ⟨score, hscore⟩ := updateCacheNodeStatus_classes s.ps st
    rw [hscore]
    exact ⟨hF.l3, hF.mb, hF.nonneg⟩

theorem floor_run (h : run step (start nodeName rc) es = some s) (hnn : ∀ e ∈ es, e.NonNeg) :
    Floor rc s := by
  have hboth := run_invariant (C := fun _ e => e.NonNeg) (I := fun s => Inv rc s ∧ Floor rc s)
    (fun _ _ _ hs he hI => ⟨inv_step hs hI.1, floor_step hs he hI.1 hI.2⟩)
    ⟨inv_start nodeName rc, floor_start nodeName rc⟩ (along_of_forall _ hnn) h
  exact hboth.2

/-! ## Conservation and rebuild -/

/-- The total of all classes but the best-effort one. -/
def reserved (part : RdtResource → ℚ) (classes : Dict String ClassInfo) : ℚ :=
  Dict.total (fun _ c => part c.requests) (classes.erase BE)

/-- The amounts add up to the capacity, the best-effort class keeps its baseline where the capacity
covers it, classes and pods belong together, and a rebuild from the reserved pods gives the same. -/
structure Conserved (nodeName : String) (rc : ResourceConfigSpec) (es : List Event) (s : Node) :
    Prop where
  l3 : ∃ be, s.ps.info.classes.lookup BE = some be ∧
    be.requests.l3 + reserved RdtResource.l3 s.ps.info.classes = capacityOf rc L3
  mb : ∃ be, s.ps.info.classes.lookup BE = some be ∧
    be.requests.mb + reserved RdtResource.mb s.ps.info.classes = capacityOf rc MB
  baselineL3 : (∀ e ∈ es, e.NonNeg) → baselineOf rc L3 ≤ capacityOf rc L3 →
    ∀ be, s.ps.info.classes.lookup BE = some be → baselineOf rc L3 ≤ be.requests.l3
  baselineMB : (∀ e ∈ es, e.NonNeg) → baselineOf rc MB ≤ capacityOf rc MB →
    ∀ be, s.ps.info.classes.lookup BE = some be → baselineOf rc MB ≤ be.requests.mb
  inhabited : ∀ k c, s.ps.info.classes.lookup k = some c → k ≠ BE → c.podList ≠ []
  oneClass : ∀ uid ∈ s.pods, ∃! k, InClass s.ps.info.classes k uid
  once : ∀ k c, s.ps.info.classes.lookup k = some c → c.podList.Nodup ∧ ∀ uid ∈ c.podList, uid ∈ s.pods
  rebuild : ∀ ctx l order, ctx.getReservedPods nodeName = .ok l → l.podList = s.pods →
    order.Nodup → (∀ u, u ∈ order ↔ u ∈ l.podList) →
    ∃ ps, initNodeStatus (addCacheNodeInfo nodeName rc) ctx order = .done ps ∧
      SameClasses s.ps.info.classes ps.info.classes

/-- What the best-effort class has and what is reserved are the capacity. -/
theorem Describes.be_add_reserved {capacity : ℚ × ℚ} {members : Dict String DeviceRequirement}
    (h : Describes capacity members classes) (hbe : classes.lookup BE = some be) :
    be.requests.l3 + reserved RdtResource.l3 classes = capacity.1 ∧
      be.requests.mb + reserved RdtResource.mb classes = capacity.2 := by
  have htotal := h.conserved
  unfold assigned at htotal
  rw [total_eq_erase hbe] at htotal
  have h1 := total_map (f := fun _ (c : ClassInfo) => c.requests.pair)
    (AddMonoidHom.fst ℚ ℚ) (classes.erase BE)
  have h2 := total_map (f := fun _ (c : ClassInfo) => c.requests.pair)
    (AddMonoidHom.snd ℚ ℚ) (classes.erase BE)
  constructor
  · rw [← htotal, Prod.fst_add]
    exact congrArg (be.requests.l3 + ·) h1.symm
  · rw [← htotal, Prod.snd_add]
    exact congrArg (be.requests.mb + ·) h2.symm

theorem conserved_of_run (nodeName : String) (rc : ResourceConfigSpec) (es : List Event) (s : Node)
    (hrun : run step (start nodeName rc) es = some s) : Conserved nodeName rc es s := by
  have hI := inv_run hrun
  obtain ⟨be, hbe, -⟩ := hI.describes.be
  obtain ⟨hl3, hmb⟩ := hI.describes.be_add_reserved hbe
  constructor
  case l3 => exact ⟨be, hbe, hl3⟩
  case mb => exact ⟨be, hbe, hmb⟩
  case baselineL3 => exact fun hnn => (floor_run hrun hnn).l3
  case baselineMB => exact fun hnn => (floor_run hrun hnn).mb
  case inhabited => exact hI.describes.inhabited
  case oneClass =>
    intro uid hu
    obtain ⟨e, he⟩ := mem_iff.mp hu
    obtain ⟨d, -, hd⟩ := hI.classed.lookup_membersOf he
    have hin := (hI.describes.member d.devName uid).mpr ⟨d, hd, rfl⟩
    exact ⟨d.devName, hin, fun k hk => hI.describes.inClass_unique hk hin⟩
  case once =>
    intro k c hc
    refine ⟨hI.describes.nodup k c hc, fun uid hu => ?_⟩
    by_contra hnot
    exact not_mem_membersOf hnot (hI.describes.mem_of_inClass ⟨c, hc, hu⟩)
  case rebuild =>
    intro ctx l order hl hpods hnodup horder
    obtain ⟨ps, hps, hdesc⟩ := describes_rebuild rc hl (hpods ▸ hI.classed)
      (hpods ▸ hI.describes.compatible) hnodup horder
    refine ⟨ps, hps, ?_⟩
    rw [hpods] at hdesc
    exact hI.describes.unique hdesc

def quantityDevice (name : String) (capacity baseline : ℚ) : Device :=
  { name := name, type := .otherDevice, defaultIn := baseline, defaultOut := 0, readRatio := ∅
    writeRatio := ∅, capacityIn := capacity, capacityOut := 0, capacityTotal := 0, diskSize := ""
    mountPath := "" }

/-- A node with 100 MiB of cache and 1000 MB/s of memory bandwidth. -/
def quantityConfig (baselineL3 : ℚ) : ResourceConfigSpec :=
  { bePool := 0
    classes := []
    devices := (Finmap.singleton L3 (quantityDevice L3 100 baselineL3) : Dict String Device).insert MB
      (quantityDevice MB 1000 100) }

def quantityPod (uid : String) : Pod :=
  { uid := uid, name := uid, ns := "default", nodeName := "node1"
    annotations := Finmap.singleton rdtQuantityConfigAnno "quantities", volumes := [] }

def addOnly (uid : String) (r : IOResourceRequest) : Event :=
  .add (quantityPod uid) r ⟨uid, "default", [r]⟩

/-- Two pods share a class, and the first leaves. -/
def sharedRun : List Event :=
  [addOnly "a" (requestOf "gold" ⟨⟨40, 400⟩, ⟨40, 500⟩⟩),
    addOnly "b" (requestOf "gold" ⟨⟨40, 400⟩, ⟨40, 500⟩⟩),
    .remove (quantityPod "a") ["gold", BE]]

theorem conserved_of_sharedRun :
    ∃ s, run step (start "node1" (quantityConfig 10)) sharedRun = some s ∧
      Conserved "node1" (quantityConfig 10) sharedRun s := by
  have hsome : (run step (start "node1" (quantityConfig 10)) sharedRun).isSome = true := by
    decide +kernel
  obtain ⟨s, hs⟩ := isSome_iff_exists.mp hsome
  exact ⟨s, hs, conserved_of_run _ _ _ s hs⟩

/-- A baseline above the capacity is not there from the start. -/
theorem baseline_above_capacity :
    ∃ be, (start "node1" (quantityConfig 200)).ps.info.classes.lookup BE = some be ∧
      be.requests.l3 < baselineOf (quantityConfig 200) L3 :=
  ⟨⟨⟨100, 1000⟩, ⟨100, 1000⟩, []⟩, by decide +kernel, by decide +kernel⟩

/-! ## What an annotation gets -/

/-- The amounts an annotation asks for; a limit that is not given is the request. -/
structure Annotated (anno : RDTAnnotationResource) (a : Amounts) : Prop where
  requestL3 : parseL3 anno.requests.l3 = .ok a.requests.l3
  limitL3 : parseL3 (orElse anno.limits.l3 anno.requests.l3) = .ok a.limits.l3
  requestMb : parseMb anno.requests.mb = .ok a.requests.mb
  limitMb : parseMb (orElse anno.limits.mb anno.requests.mb) = .ok a.limits.mb

theorem cannotParse_ok {s : String} {r : Except String ℚ} {v : ℚ} :
    cannotParse s r = .ok v ↔ r = .ok v := by
  cases r <;> simp [cannotParse]

theorem RDTAnnotationResource.amounts_ok (h : anno.amounts = .ok a) :
    parseL3 anno.requests.l3 = .ok a.requests.l3 ∧ parseL3 anno.limits.l3 = .ok a.limits.l3 ∧
      parseMb anno.requests.mb = .ok a.requests.mb ∧ parseMb anno.limits.mb = .ok a.limits.mb := by
  obtain ⟨v1, h1, h⟩ := except_bind_ok h
  obtain ⟨v2, h2, h⟩ := except_bind_ok h
  obtain ⟨v3, h3, h⟩ := except_bind_ok h
  obtain ⟨v4, h4, h⟩ := except_bind_ok h
  cases h
  exact ⟨cannotParse_ok.mp h1, cannotParse_ok.mp h2, cannotParse_ok.mp h3, cannotParse_ok.mp h4⟩

theorem RDTAnnotationResource.complete_ok {full : RDTAnnotationResource} {podName : String}
    (hexp : anno.Explicit) (h : anno.complete podName = .ok full) :
    full.requests = anno.requests ∧ full.limits =
      ⟨orElse anno.limits.l3 anno.requests.l3, orElse anno.limits.mb anno.requests.mb⟩ := by
  dsimp only [RDTAnnotationResource.complete] at h
  rw [if_neg hexp] at h
  by_cases hmiss : anno.requests.l3 = "" ∨ anno.requests.mb = ""
  · rw [if_pos hmiss] at h
    cases h
  rw [if_neg hmiss] at h
  cases h
  exact ⟨rfl, rfl⟩

variable {cache : Dict String Resource} {unmarshal : String → Except String RDTAnnotationResource}

/-- What an accepted request says of the annotation. -/
theorem request_cases {node : String}
    (h : getRequestByAnnotation cache unmarshal pod node = .ok (class_, r)) :
    ∃ v anno full a, pod.annotations.lookup rdtQuantityConfigAnno = some v ∧
      unmarshal v = .ok anno ∧ anno.complete pod.name = .ok full ∧ full.amounts = .ok a ∧
      class_ = full.class_ ∧ r = requestOf full.class_ a := by
  simp only [ getRequestByAnnotation] at h
  split at h
  · cases h
  split at h
  · cases h
  rename_i v hv
  split at h
  · cases h
  rename_i anno hanno
  obtain ⟨full, hfull, h⟩ := except_bind_ok h
  obtain ⟨a, ha, h⟩ := except_bind_ok h
  cases h
  exact ⟨v, anno, full, a, hv, hanno, hfull, ha, rfl, rfl⟩

theorem request_of_explicit {node v : String}
    (hv : pod.annotations.lookup rdtQuantityConfigAnno = some v) (hanno : unmarshal v = .ok anno)
    (hexp : anno.Explicit) (h : getRequestByAnnotation cache unmarshal pod node = .ok (class_, r)) :
    ∃ a, Annotated anno a ∧ r = requestOf class_ a := by
  obtain ⟨v', anno', full, a, hv', hanno', hfull, ha, rfl, rfl⟩ := request_cases h
  obtain rfl := some.inj (hv'.symm.trans hv)
  obtain rfl := Except.ok.inj (hanno'.symm.trans hanno)
  obtain ⟨hreq, hlim⟩ := RDTAnnotationResource.complete_ok hexp hfull
  obtain ⟨h1, h2, h3, h4⟩ := RDTAnnotationResource.amounts_ok ha
  rw [hreq] at h1 h3
  rw [hlim] at h2 h4
  exact ⟨a, ⟨h1, h2, h3, h4⟩, rfl⟩

/-- The pod has what it asked for: it is in a class with its amounts, none of them negative, and the
classes together leave the best-effort baseline. -/
structure Honest (rc : ResourceConfigSpec) (a : Amounts) (uid : String) (s : Node) : Prop where
  inClass : ∃ k c, s.ps.info.classes.lookup k = some c ∧ uid ∈ c.podList ∧
    c.requests = a.requests ∧ c.limits = a.limits
  requests : 0 ≤ a.requests.l3 ∧ 0 ≤ a.requests.mb
  limits : 0 ≤ a.limits.l3 ∧ 0 ≤ a.limits.mb
  l3 : reserved RdtResource.l3 s.ps.info.classes ≤ capacityOf rc L3 - baselineOf rc L3
  mb : reserved RdtResource.mb s.ps.info.classes ≤ capacityOf rc MB - baselineOf rc MB

def BaselineLeft (rc : ResourceConfigSpec) (classes : Dict String ClassInfo) : Prop :=
  ∃ be, classes.lookup BE = some be ∧ baselineOf rc L3 ≤ be.requests.l3 ∧
    baselineOf rc MB ≤ be.requests.mb

/-- The amounts are not negative. If the class is there already, the best-effort class still has its
baseline, and if it is the best-effort class itself, that has just these amounts. -/
structure HonestWhen (rc : ResourceConfigSpec) (s : Node) (class_ : String) (a : Amounts) :
    Prop where
  requests : 0 ≤ a.requests.l3 ∧ 0 ≤ a.requests.mb
  limits : 0 ≤ a.limits.l3 ∧ 0 ≤ a.limits.mb
  shared : class_ ∈ s.ps.info.classes → BaselineLeft rc s.ps.info.classes
  bestEffort : class_ = BE → ∃ be, s.ps.info.classes.lookup BE = some be ∧
    be.requests = a.requests ∧ be.limits = a.limits

theorem Inv.reserved_le_iff (hI : Inv rc s) :
    (reserved RdtResource.l3 s.ps.info.classes ≤ capacityOf rc L3 - baselineOf rc L3 ∧
      reserved RdtResource.mb s.ps.info.classes ≤ capacityOf rc MB - baselineOf rc MB) ↔
      BaselineLeft rc s.ps.info.classes := by
  obtain ⟨be, hbe, -⟩ := hI.describes.be
  obtain ⟨hl3, hmb⟩ := hI.describes.be_add_reserved hbe
  constructor
  · rintro ⟨h1, h2⟩
    exact ⟨be, hbe, by linarith, by linarith⟩
  · rintro ⟨be', hbe', h1, h2⟩
    obtain rfl := mem_unique hbe hbe'
    exact ⟨by linarith, by linarith⟩

theorem honest_add_iff (hI : Inv rc s)
    (hstep : step s (.add pod (requestOf class_ a) entry) = some s') :
    Honest rc a pod.uid s' ↔ HonestWhen rc s class_ a := by
  have hI' := inv_step hstep hI
  have htotals := hI'.reserved_le_iff
  obtain ⟨d, hd, hname, ha⟩ := amountsOf_requestOf class_ a
  rcases step_cases hstep with
    ⟨pod, r, entry, d', classes, he, hentry, hnew, hd', hadm, hent, rfl⟩ |
    ⟨_, _, _, _, he, _⟩ | ⟨_, he, _⟩
  case inr.inl => cases he
  case inr.inr => cases he
  cases he
  obtain rfl := mem_unique hd hd'
  subst hname
  obtain ⟨be, hbe, -⟩ := hI.describes.be
  have hreq := classRequest_of_filter hd hentry
  have hclass : ∀ k, InClass classes k pod.uid ↔ k = d.devName := by
    intro k
    have hmember := hI'.describes.member k pod.uid
    rw [membersOf_insert hreq, lookup_insert] at hmember
    rw [show InClass classes k pod.uid ↔ _ from hmember]
    simp [eq_comm]
  have hok := accepted_compatible hadm hent
  cases hc : s.ps.info.classes.lookup d.devName with
  | none =>
    -- a new class: the check left the baseline
    obtain ⟨hnewClass, be', hbe', hless⟩ := enterClass_be_of_none hent hc ha hbe
    have hfits := admit_ok ha hadm
    rw [hc] at hfits
    obtain ⟨be₀, hbe₀, h1, h2⟩ := hfits
    obtain rfl := mem_unique hbe hbe₀
    rw [hI.baselineL3] at h1
    rw [hI.baselineMB] at h2
    have hleft : BaselineLeft rc classes := by
      refine ⟨be', hbe', ?_, ?_⟩
      · rw [hless]
        linarith
      · rw [hless]
        linarith
    constructor
    · intro h
      refine ⟨h.requests, h.limits, fun hmem => ?_, fun hbest => ?_⟩
      · exact absurd hmem (lookup_eq_none.mp hc)
      · rw [hbest, hbe] at hc
        cases hc
    · intro h
      obtain ⟨h3, h4⟩ := htotals.mpr hleft
      exact ⟨⟨d.devName, _, hnewClass, List.mem_singleton_self _, rfl, rfl⟩, h.requests, h.limits,
        h3, h4⟩
  | some c =>
    obtain ⟨hclasses, be', hbe', hsame⟩ := enterClass_be_of_some hent hc
      (hok.imp id fun ⟨_, a, ha, hall⟩ => by rw [ha, hall c hc]) hbe
    have hleft : BaselineLeft rc classes ↔ BaselineLeft rc s.ps.info.classes := by
      simp only [BaselineLeft, hbe, hbe', some.injEq, exists_eq_left', hsame]
    have hmem : d.devName ∈ s.ps.info.classes := mem_of_lookup_eq_some hc
    have hc' : classes.lookup d.devName = some { c with podList := c.podList ++ [pod.uid] } := by
      rw [hclasses, lookup_insert]
    constructor
    · intro h
      refine ⟨h.requests, h.limits, fun _ => hleft.mp (htotals.mp ⟨h.l3, h.mb⟩), fun hbest => ?_⟩
      obtain ⟨k, ck, hk, hu, h1, h2⟩ := h.inClass
      have hkd := (hclass k).mp ⟨ck, hk, hu⟩
      subst hkd
      rw [show classes.lookup d.devName = some ck from hk, some.injEq] at hc'
      subst hc'
      exact ⟨c, hbest ▸ hc, h1, h2⟩
    · intro h
      obtain ⟨h3, h4⟩ := htotals.mpr (hleft.mpr (h.shared hmem))
      refine ⟨⟨d.devName, _, hc', by simp, ?_⟩, h.requests, h.limits, h3, h4⟩
      by_cases hbest : d.devName = BE
      · obtain ⟨be₀, hbe₀, h1, h2⟩ := h.bestEffort hbest
        rw [hbest, hbe₀, some.injEq] at hc
        subst hc
        exact ⟨h1, h2⟩
      · obtain ⟨-, a', ha', hall⟩ := hok.resolve_left hbest
        obtain rfl := mem_unique ha ha'
        rw [hall c hc]
        exact ⟨rfl, rfl⟩

/-- When admission of a pod with explicit amounts is honest, in every reachable state. -/
theorem honest_iff (unmarshal : String → Except String RDTAnnotationResource)
    (nodeName : String) (rc : ResourceConfigSpec) (es : List Event) (s s' : Node) (pod : Pod)
    (v : String) (anno : RDTAnnotationResource) (class_ : String) (r : IOResourceRequest)
    (entry : PodRequest) (hrun : run step (start nodeName rc) es = some s)
    (hv : pod.annotations.lookup rdtQuantityConfigAnno = some v) (hanno : unmarshal v = .ok anno)
    (hexp : anno.Explicit)
    (hreq : getRequestByAnnotation (Finmap.singleton s.ps.nodeName s.ps) unmarshal pod
      s.ps.nodeName = .ok (class_, r))
    (hstep : step s (.add pod r entry) = some s') :
    ∃ a, Annotated anno a ∧ (Honest rc a pod.uid s' ↔ HonestWhen rc s class_ a) := by
  obtain ⟨a, ha, rfl⟩ := request_of_explicit hv hanno hexp hreq
  exact ⟨a, ha, honest_add_iff (inv_run hrun) hstep⟩

/-- Whatever the annotation and the reachable state, an accepted pod gets what it asked for. -/
def AlwaysHonest : Prop :=
  ∀ (unmarshal : String → Except String RDTAnnotationResource) (nodeName : String)
    (rc : ResourceConfigSpec) (es : List Event) (s s' : Node) (pod : Pod) (v : String)
    (anno : RDTAnnotationResource) (class_ : String) (r : IOResourceRequest) (entry : PodRequest)
    (a : Amounts), run step (start nodeName rc) es = some s →
    pod.annotations.lookup rdtQuantityConfigAnno = some v → unmarshal v = .ok anno →
    anno.Explicit →
    getRequestByAnnotation (Finmap.singleton s.ps.nodeName s.ps) unmarshal pod
      s.ps.nodeName = .ok (class_, r) →
    step s (.add pod r entry) = some s' → Annotated anno a → Honest rc a pod.uid s'

/-- Amounts under the name of the best-effort class. -/
def bestEffortAnno : RDTAnnotationResource :=
  { requests := ⟨"40MiB", "400MBps"⟩, limits := ⟨"", ""⟩, class_ := BE }

def goldAnno : RDTAnnotationResource := { bestEffortAnno with class_ := "gold" }

def askedAmounts : Amounts := ⟨⟨40, 400⟩, ⟨40, 400⟩⟩

/-- A pod that asks for 40 MiB under the name `BE` is accepted and gets nothing. -/
theorem not_alwaysHonest : ¬ AlwaysHonest := by
  intro h
  have hstep : (step (start "node1" (quantityConfig 10))
      (addOnly "a" (requestOf BE askedAmounts))).isSome = true := by decide +kernel
  obtain ⟨s', hs'⟩ := isSome_iff_exists.mp hstep
  have hanno : Annotated bestEffortAnno askedAmounts :=
    ⟨by decide +kernel, by decide +kernel, by decide +kernel, by decide +kernel⟩
  have hhonest := h (fun _ => .ok bestEffortAnno) "node1" (quantityConfig 10) [] _ s'
    (quantityPod "a") "quantities" bestEffortAnno BE (requestOf BE askedAmounts) _ askedAmounts rfl
    (by decide +kernel) rfl (by decide) (by decide +kernel) hs' hanno
  obtain ⟨be, hbe, hsame, -⟩ :=
    ((honest_add_iff (inv_start "node1" (quantityConfig 10)) hs').mp hhonest).bestEffort rfl
  have hcapacity : be.requests = ⟨100, 1000⟩ := by
    cases hbe
    decide +kernel
  rw [hcapacity] at hsame
  revert hsame
  decide +kernel

/-- A class of its own: the pod gets its 40 MiB. -/
theorem honest_gold : ∃ s' a, step (start "node1" (quantityConfig 10))
    (addOnly "b" (requestOf "gold" askedAmounts)) = some s' ∧ Annotated goldAnno a ∧
      Honest (quantityConfig 10) a "b" s' := by
  have hstep : (step (start "node1" (quantityConfig 10))
      (addOnly "b" (requestOf "gold" askedAmounts))).isSome = true := by decide +kernel
  obtain ⟨s', hs'⟩ := isSome_iff_exists.mp hstep
  obtain ⟨a, ha, hiff⟩ := honest_iff (fun _ => .ok goldAnno) "node1" (quantityConfig 10) []
    (start "node1" (quantityConfig 10)) s' (quantityPod "b") "quantities" goldAnno "gold"
    (requestOf "gold" askedAmounts) ⟨"b", "default", [requestOf "gold" askedAmounts]⟩ rfl
    (by decide +kernel) rfl (by decide) (by decide +kernel) hs'
  have hasked : Annotated goldAnno askedAmounts :=
    ⟨by decide +kernel, by decide +kernel, by decide +kernel, by decide +kernel⟩
  refine ⟨s', a, hs', ha, hiff.mpr ⟨⟨?_, ?_⟩, ⟨?_, ?_⟩, fun h => absurd h (by decide +kernel),
    fun h => absurd h (by decide)⟩⟩
  · exact Except.ok.inj (ha.requestL3.symm.trans hasked.requestL3) ▸ by decide +kernel
  · exact Except.ok.inj (ha.requestMb.symm.trans hasked.requestMb) ▸ by decide +kernel
  · exact Except.ok.inj (ha.limitL3.symm.trans hasked.limitL3) ▸ by decide +kernel
  · exact Except.ok.inj (ha.limitMb.symm.trans hasked.limitMb) ▸ by decide +kernel

end IOIsolation.Sched.RDTQuantity
