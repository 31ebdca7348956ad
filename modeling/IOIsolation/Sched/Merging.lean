import IOIsolation.Lib.MergeTree
import IOIsolation.Sched.Recovery

/-!
# Sched.Merging

The loop of `addPodRequest` as it runs: it goes through a Go map in any order, follows pointers that
may be nil and changes the requests it has entered. `addToDevice` is its body on a device both maps
have. Requests of volumes are brought together by such loops in some order and grouping, a
`Lib.MergeTree`; `merged_sums` says that neither matters.
-/

namespace IOIsolation.Sched.BlockIo

open Lib List

def addToDevice (cur req : IOResourceRequest) : Outcome IOResourceRequest := do
  let cur ←
    if req.workloadType = .gaIndex then do
      let d ← Outcome.ofOption cur.devRequest
      let e ← Outcome.ofOption req.devRequest
      let request ← Outcome.ofOption e.request
      let limit ← Outcome.ofOption e.limit
      let rawRequest ← Outcome.ofOption e.rawRequest
      let rawLimit ← Outcome.ofOption e.rawLimit
      -- a quantity the device does not have yet starts from zero
      pure { cur with
        workloadType := .gaIndex
        devRequest := some { d with
          request := some (addBps d.request (some request))
          limit := some (addBps d.limit (some limit))
          rawRequest := some (addRaw d.rawRequest (some rawRequest))
          rawLimit := some (addRaw d.rawLimit (some rawLimit)) } }
    else pure cur
  if req.workloadType = .beIndex ∧ cur.workloadType ≠ .gaIndex then
    pure { cur with workloadType := .beIndex }
  else pure cur

/-- `addPodRequest` with a loop over `reqs` in the order `order`. -/
def addPodRequestLoop (order : List String) (m reqs : Requests) : Outcome Requests :=
  mergeInto addToDevice reqs order m

def foldRequests (t : MergeTree String IOResourceRequest) : Outcome Requests := t.fold addToDevice

/-! ## Requests of volumes -/

/-- Guaranteed with all four quantities, or best effort without any. -/
inductive VolumeRequest : IOResourceRequest → Prop where
  | guaranteed (ioType : IOType) (dev : String) (request limit rawRequest rawLimit : Quantity) :
      VolumeRequest ⟨ioType, .gaIndex,
        some ⟨dev, some request, some limit, some rawRequest, some rawLimit⟩⟩
  | bestEffort (ioType : IOType) (dev : String) :
      VolumeRequest ⟨ioType, .beIndex, some ⟨dev, none, none, none, none⟩⟩

variable {cur req : IOResourceRequest}

theorem addToDevice_eq (hc : VolumeRequest cur) (hr : VolumeRequest req) :
    addToDevice cur req = .done (mergeRequest cur req) := by
  cases hc <;> cases hr <;> rfl

theorem VolumeRequest.merge (hc : VolumeRequest cur) (hr : VolumeRequest req) :
    VolumeRequest (mergeRequest cur req) := by
  cases hc with
  | guaranteed t dev =>
    cases hr with
    | guaranteed | bestEffort => exact .guaranteed t dev _ _ _ _
  | bestEffort t dev =>
    cases hr with
    | guaranteed => exact .guaranteed t dev _ _ _ _
    | bestEffort => exact .bestEffort t dev

/-- The loop makes the union `addPodRequest` of the two maps. -/
theorem addPodRequestLoop_eq {order : List String} {m reqs : Requests}
    (ho : Dict.Lists order reqs) (hm : ∀ dev r, m.lookup dev = some r → VolumeRequest r)
    (hreqs : ∀ dev r, reqs.lookup dev = some r → VolumeRequest r) :
    addPodRequestLoop order m reqs = .done (addPodRequest m reqs) :=
  mergeInto_eq ho fun dev cur req hcur hreq =>
    addToDevice_eq (hm dev cur hcur) (hreqs dev req hreq)

def guaranteedOn (dev : String) : IOResourceRequest :=
  ⟨.diskIo, .gaIndex, some ⟨dev, some ⟨20, 30, 0, 0⟩, some ⟨40, 50, 0, 0⟩, some ⟨10, 15, 7, 8⟩,
    some ⟨20, 25, 9, 10⟩⟩⟩

def sdaRequests : Requests := Finmap.singleton "sda" (guaranteedOn "sda")

def twoDisks : Requests := sdaRequests.insert "sdb" (parseBEIOAnnotations "sdb")

/-- Both orders double the quantities of the disk that both maps have. -/
theorem addPodRequestLoop_eq_twoDisks :
    addPodRequestLoop ["sda", "sdb"] sdaRequests twoDisks = .done (addPodRequest sdaRequests twoDisks) ∧
      addPodRequestLoop ["sdb", "sda"] sdaRequests twoDisks =
        .done (addPodRequest sdaRequests twoDisks) ∧
      (addPodRequest sdaRequests twoDisks).lookup "sda" = some ⟨.diskIo, .gaIndex, some ⟨"sda",
        some ⟨40, 60, 0, 0⟩, some ⟨80, 100, 0, 0⟩, some ⟨20, 30, 14, 16⟩, some ⟨40, 50, 18, 20⟩⟩⟩ := by
  have hsda : ∀ dev r, sdaRequests.lookup dev = some r → VolumeRequest r := by
    intro dev r h
    rw [(Dict.eq_of_lookup_singleton h).2]
    exact .guaranteed _ _ _ _ _ _
  have htwo : ∀ dev r, twoDisks.lookup dev = some r → VolumeRequest r := by
    intro dev r h
    rw [twoDisks, Dict.lookup_insert_ite] at h
    split_ifs at h
    · cases h
      exact .bestEffort _ _
    · exact hsda dev r h
  exact ⟨addPodRequestLoop_eq (by decide) hsda htwo, addPodRequestLoop_eq (by decide) hsda htwo,
    by decide +kernel⟩

/-! ## What merging adds up -/

/-- The bandwidths of a quantity; a missing one is zero. -/
def bandwidth (q : Option Quantity) : ℚ × ℚ := ((rates q).1, (rates q).2.1)

/-- What `addPodRequest` adds up: the bandwidths of request and limit, and the raw quantities with their
operations. -/
def addedUp (r : IOResourceRequest) : (ℚ × ℚ) × (ℚ × ℚ) × Rates × Rates :=
  (bandwidth (r.devRequest.bind (·.request)), bandwidth (r.devRequest.bind (·.limit)),
    rates (r.devRequest.bind (·.rawRequest)), rates (r.devRequest.bind (·.rawLimit)))

theorem bandwidth_addBps (q r : Option Quantity) :
    bandwidth (some (addBps q r)) = bandwidth q + bandwidth r := by
  cases q <;> cases r <;> simp [bandwidth, rates, addBps]

theorem addedUp_mergeRequest (hc : VolumeRequest cur) (hr : VolumeRequest req) :
    addedUp (mergeRequest cur req) = addedUp cur + addedUp req := by
  cases hr with
  | guaranteed =>
    cases hc <;>
      simp [mergeRequest, addedUp, bandwidth_addBps, rates_addRaw]
  | bestEffort t' dev' =>
    have hzero : addedUp ⟨t', .beIndex, some ⟨dev', none, none, none, none⟩⟩ = 0 := rfl
    rw [hzero, add_zero]
    cases hc <;> rfl

/-- A request made of the requests `rs`: guaranteed if one of them is, with their sums. -/
structure MadeOf (r : IOResourceRequest) (rs : List IOResourceRequest) : Prop where
  volume : VolumeRequest r
  guaranteed : r.workloadType = .gaIndex ↔ ∃ x ∈ rs, x.workloadType = .gaIndex
  sums : addedUp r = (rs.map addedUp).sum

theorem VolumeRequest.madeOf {r : IOResourceRequest} (h : VolumeRequest r) : MadeOf r [r] :=
  ⟨h, by simp, by simp⟩

theorem mergeRequest_guaranteed (hc : VolumeRequest cur) (hr : VolumeRequest req) :
    (mergeRequest cur req).workloadType = .gaIndex ↔
      cur.workloadType = .gaIndex ∨ req.workloadType = .gaIndex := by
  cases hc <;> cases hr <;> simp [mergeRequest]

variable {rs : List IOResourceRequest} {dev : String} {entry : Option IOResourceRequest}

theorem MadeOf.merge {rs' : List IOResourceRequest} (hc : MadeOf cur rs) (hr : MadeOf req rs') :
    MadeOf (mergeRequest cur req) (rs ++ rs') where
  volume := hc.volume.merge hr.volume
  guaranteed := by
    simp only [mergeRequest_guaranteed hc.volume hr.volume, hc.guaranteed, hr.guaranteed,
      mem_append, or_and_right, exists_or]
  sums := by
    rw [addedUp_mergeRequest hc.volume hr.volume, hc.sums, hr.sums, map_append, sum_append]

/-- The guaranteed ones among the requests for a device. -/
def guaranteedFor (dev : String) (rs : List (String × IOResourceRequest)) :
    List IOResourceRequest :=
  (MergeTree.under dev rs).filter fun r => r.workloadType = .gaIndex

theorem sum_guaranteed (h : ∀ r ∈ rs, VolumeRequest r) :
    (rs.map addedUp).sum =
      ((rs.filter fun r => r.workloadType = .gaIndex).map addedUp).sum := by
  induction rs with
  | nil => rfl
  | cons r rs ih =>
    obtain ⟨hr, hrs⟩ := forall_mem_cons.mp h
    rw [map_cons, sum_cons, ih hrs]
    cases hr with
    | guaranteed => rw [filter_cons_of_pos (by simp), map_cons, sum_cons]
    | bestEffort t dev =>
      have hzero : addedUp ⟨t, .beIndex, some ⟨dev, none, none, none, none⟩⟩ = 0 := rfl
      rw [filter_cons_of_neg (by simp), hzero, zero_add]

/-- What the merged requests have for a device after `rs` have been folded: nothing if none of them is
for it; otherwise a request that is guaranteed exactly if one of these is, with the sums over the
guaranteed ones. -/
def Summed (dev : String) (rs : List (String × IOResourceRequest)) :
    Option IOResourceRequest → Prop
  | none => ∀ e ∈ rs, e.1 ≠ dev
  | some r => (∃ e ∈ rs, e.1 = dev) ∧
      r.workloadType = (if guaranteedFor dev rs = [] then .beIndex else .gaIndex) ∧
      addedUp r = ((guaranteedFor dev rs).map addedUp).sum

theorem summed_of_gathers {rs : List (String × IOResourceRequest)}
    (hrs : ∀ e ∈ rs, VolumeRequest e.2)
    (h : MergeTree.Gathers MadeOf entry (MergeTree.under dev rs)) : Summed dev rs entry := by
  cases entry with
  | none =>
    intro e he heq
    exact MergeTree.under_eq_nil.mp h (heq ▸ mem_map_of_mem he)
  | some r =>
    obtain ⟨hne, hmade⟩ := h
    refine ⟨?_, ?_, ?_⟩
    · by_contra hnone
      refine hne (MergeTree.under_eq_nil.mpr fun hmem => hnone ?_)
      obtain ⟨e, he, heq⟩ := mem_map.mp hmem
      exact ⟨e, he, heq⟩
    · have hga : r.workloadType = .gaIndex ↔ guaranteedFor dev rs ≠ [] := by
        rw [hmade.guaranteed, guaranteedFor, ne_eq, filter_eq_nil_iff]
        simp
      split_ifs with hnil
      · rcases hmade.volume with _ | _
        · exact absurd hnil (hga.mp rfl)
        · rfl
      · exact hga.mpr hnil
    · rw [hmade.sums, guaranteedFor]
      refine sum_guaranteed fun x hx => ?_
      obtain ⟨e, he, rfl⟩ := mem_map.mp hx
      exact hrs e (mem_of_mem_filter he)

theorem summed_perm {rs rs' : List (String × IOResourceRequest)} (h : rs.Perm rs')
    (hs : Summed dev rs entry) : Summed dev rs' entry := by
  have hperm : (guaranteedFor dev rs).Perm (guaranteedFor dev rs') :=
    ((h.filter _).map _).filter _
  cases entry with
  | none => exact fun e he => hs e (h.mem_iff.mpr he)
  | some r =>
    obtain ⟨⟨e, he, heq⟩, hw, hsum⟩ := hs
    refine ⟨⟨e, h.mem_iff.mp he, heq⟩, ?_, hsum.trans (hperm.map addedUp).sum_eq⟩
    have hnil : guaranteedFor dev rs = [] ↔ guaranteedFor dev rs' = [] := by
      rw [← length_eq_zero_iff, ← length_eq_zero_iff, hperm.length_eq]
    rw [hw]
    exact if_congr hnil rfl rfl

/-- In whatever order and grouping requests of volumes are folded, every device gets the sums over
its guaranteed ones. -/
theorem merged_sums {rs : List (String × IOResourceRequest)} (hrs : ∀ e ∈ rs, VolumeRequest e.2)
    {t : MergeTree String IOResourceRequest} (ho : t.Ordered) (hp : t.leaves.Perm rs) :
    ∃ m, foldRequests t = .done m ∧ ∀ dev, Summed dev rs (m.lookup dev) := by
  have hleaves : ∀ e ∈ t.leaves, VolumeRequest e.2 := fun e he => hrs e (hp.mem_iff.mp he)
  obtain ⟨m, hm, hl⟩ := MergeTree.fold_gathers (R := MadeOf) (f := mergeRequest)
    (fun _ _ _ _ hc hr => addToDevice_eq hc.volume hr.volume)
    (fun _ _ _ _ hc hr => hc.merge hr) ho fun e he => (hleaves e he).madeOf
  exact ⟨m, hm, fun dev => summed_perm hp (summed_of_gathers hleaves (hl dev))⟩

def threeVolumes : List (String × IOResourceRequest) :=
  [("sda", parseBEIOAnnotations "sda"),
    ("sda", ⟨.diskIo, .gaIndex, some ⟨"sda", some ⟨20, 30, 0, 0⟩, some ⟨40, 50, 0, 0⟩,
      some ⟨10, 15, 7, 8⟩, some ⟨20, 25, 9, 10⟩⟩⟩),
    ("sdb", ⟨.diskIo, .gaIndex, some ⟨"sdb", some ⟨5, 6, 0, 0⟩, some ⟨7, 8, 0, 0⟩,
      some ⟨5, 6, 1, 2⟩, some ⟨7, 8, 3, 4⟩⟩⟩)]

/-- The last two are merged first, and the map of the first is the one they are folded into. -/
def threeVolumesTree : MergeTree String IOResourceRequest :=
  match threeVolumes with
  | [x, y, z] =>
    .merge (.entry x.1 x.2) (.merge (.entry y.1 y.2) (.entry z.1 z.2) ["sdb"]) ["sdb", "sda"]
  | _ => .empty

theorem merged_sums_threeVolumes :
    ∃ m, foldRequests threeVolumesTree = .done m ∧
      ∀ dev, Summed dev threeVolumes (m.lookup dev) := by
  refine merged_sums (fun e he => ?_) ?_ (Perm.refl threeVolumes)
  · simp only [threeVolumes, mem_cons, not_mem_nil, or_false] at he
    rcases he with rfl | rfl | rfl
    · exact .bestEffort _ _
    · exact .guaranteed _ _ _ _ _ _
    · exact .guaranteed _ _ _ _ _ _
  · exact ⟨trivial, ⟨trivial, trivial, by decide, by decide⟩, by decide, by decide⟩

end IOIsolation.Sched.BlockIo
