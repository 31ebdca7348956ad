import IOIsolation.Sched.BlockRequest

/-!
# Sched.DeviceRates

The two directions of a guaranteed request of `getDeviceRequest`, with any rounding. Each of its four
rates is a bandwidth of the annotation, or the default of the disk where that is more, or without a
limit the largest bandwidth (`requestRate`, `limitRate`). A rate has a raw and a translated bandwidth;
the ratio between them should be that of the block size in force, and the directions should be treated
alike.

* `getDeviceRequest_guaranteed_iff` — the guaranteed requests there are.
* `requestRate_balanced`, `limitRate_balanced` — when a rate is the same by the code of both directions,
  and agrees.
* `translated_iff` — a request agrees exactly if all four rates do.
-/

namespace IOIsolation.Sched.BlockIo

open Lib Outcome List

/-! ## Guaranteed requests -/

def ratio4k (ratios : List MappingRatio) : ℚ := (findMappingRatio defaultBlockSize ratios).ratio

/-- The bandwidths of the annotation on the disk, as far as it has them. -/
structure Weighed where
  readRequest : Option Rate
  writeRequest : Option Rate
  readLimit : Option Rate
  writeLimit : Option Rate

def Weighed.Empty (w : Weighed) : Prop :=
  w.readRequest = none ∧ w.readLimit = none ∧ w.writeRequest = none ∧ w.writeLimit = none

def Weighed.exchanged (w : Weighed) : Weighed :=
  ⟨w.writeRequest, w.readRequest, w.writeLimit, w.readLimit⟩

def VolumeAnnoThroughput.exchanged (v : VolumeAnnoThroughput) : VolumeAnnoThroughput :=
  ⟨⟨v.requests.wbps, v.requests.rbps⟩, ⟨v.limits.wbps, v.limits.rbps⟩⟩

def DiskInfo.exchanged (disk : DiskInfo) : DiskInfo :=
  { disk with
    readRatio := disk.writeRatio
    writeRatio := disk.readRatio
    beDefaultRead := disk.beDefaultWrite
    beDefaultWrite := disk.beDefaultRead }

def exchangeQuantity (q : Quantity) : Quantity := ⟨q.outbps, q.inbps, q.outiops, q.iniops⟩

def exchangeRequest (r : IOResourceRequest) : IOResourceRequest :=
  { r with devRequest := r.devRequest.map fun d => { d with
      request := d.request.map exchangeQuantity
      limit := d.limit.map exchangeQuantity
      rawRequest := d.rawRequest.map exchangeQuantity
      rawLimit := d.rawLimit.map exchangeQuantity } }

theorem empty_exchanged {w : Weighed} : w.exchanged.Empty ↔ w.Empty := by
  simp only [Weighed.Empty, Weighed.exchanged]
  tauto

theorem exchangeQuantity_rates_iff {i o i' o' : Rate} :
    weighted i' o' = exchangeQuantity (weighted i o) ∧
        unweighted i' o' = exchangeQuantity (unweighted i o) ↔ i' = o ∧ o' = i := by
  obtain ⟨raw, iops, bps⟩ := i
  obtain ⟨raw', iops', bps'⟩ := o
  obtain ⟨x, y, z⟩ := i'
  obtain ⟨x', y', z'⟩ := o'
  simp only [weighted, unweighted, exchangeQuantity, Quantity.mk.injEq, Rate.mk.injEq]
  tauto

section Rates

variable [Rounding]

/-- The request in one direction. Its default is `min`; `rawMin` is the default whose raw bandwidth is
taken with it. -/
def requestRate (min rawMin ratio : ℚ) (r : Option Rate) : Rate :=
  (r.getD .zero).atLeast min rawMin ratio

/-- A limit that is left open, with the translated bandwidth `bps`. -/
def openLimit (ratio bps : ℚ) : Rate :=
  ⟨fl (maxBtLimit / ratio), fl (fl (maxBtLimit * miB / ratio) / 4000), bps⟩

def limitRate (min rawMin ratio bps : ℚ) (r : Option Rate) : Rate :=
  (r.getD (openLimit ratio bps)).atLeast min rawMin ratio

/-- The rates of the request for the disk: request and limit, each for reading and for writing. -/
def DiskInfo.readRequestRate (disk : DiskInfo) (w : Weighed) : Rate :=
  requestRate disk.beDefaultRead disk.beDefaultRead (ratio4k disk.readRatio) w.readRequest

def DiskInfo.writeRequestRate (disk : DiskInfo) (w : Weighed) : Rate :=
  requestRate disk.beDefaultWrite disk.beDefaultRead (ratio4k disk.writeRatio) w.writeRequest

def DiskInfo.readLimitRate (disk : DiskInfo) (w : Weighed) : Rate :=
  limitRate disk.beDefaultRead disk.beDefaultRead (ratio4k disk.readRatio) maxBtLimit w.readLimit

def DiskInfo.writeLimitRate (disk : DiskInfo) (w : Weighed) : Rate :=
  limitRate disk.beDefaultWrite disk.beDefaultRead (ratio4k disk.writeRatio)
    (fl (maxBtLimit / ratio4k disk.writeRatio)) w.writeLimit

def guaranteedRequest (dev : String) (disk : DiskInfo) (w : Weighed) : IOResourceRequest :=
  { ioType := .diskIo, workloadType := .gaIndex
    devRequest := some ⟨dev,
      some (weighted (disk.readRequestRate w) (disk.writeRequestRate w)),
      some (weighted (disk.readLimitRate w) (disk.writeLimitRate w)),
      some (unweighted (disk.readRequestRate w) (disk.writeRequestRate w)),
      some (unweighted (disk.readLimitRate w) (disk.writeLimitRate w))⟩ }

/-- The requests are exchanged exactly if each direction has the rates the other would have. -/
theorem guaranteedRequest_exchanged_iff {dev : String} {disk : DiskInfo} {w : Weighed} :
    guaranteedRequest dev disk.exchanged w.exchanged =
        exchangeRequest (guaranteedRequest dev disk w) ↔
      (disk.exchanged.readRequestRate w.exchanged = disk.writeRequestRate w ∧
        disk.exchanged.writeRequestRate w.exchanged = disk.readRequestRate w) ∧
      disk.exchanged.readLimitRate w.exchanged = disk.writeLimitRate w ∧
        disk.exchanged.writeLimitRate w.exchanged = disk.readLimitRate w := by
  rw [← exchangeQuantity_rates_iff, ← exchangeQuantity_rates_iff]
  simp only [guaranteedRequest, exchangeRequest, Option.map_some, IOResourceRequest.mk.injEq,
    DeviceRequirement.mk.injEq, Option.some.injEq, true_and]
  tauto

/-- Raising to the default `min` gives the raw bandwidth that raising to the other default would give,
and the ratio leads back from it. -/
def Raises (ρ min other : ℚ) : Prop := fl (other / ρ) = fl (min / ρ) ∧ fl (fl (min / ρ) * ρ) = min

end Rates

section Rounded

variable [QuantityParser] [Rounding]

/-- Weighing the annotation on the disk gives `w`. -/
structure Weighs4 (disk : DiskInfo) (v : VolumeAnnoThroughput) (w : Weighed) : Prop where
  readRequest : weigh disk.readRatio v.requests.rbps = .done w.readRequest
  writeRequest : weigh disk.writeRatio v.requests.wbps = .done w.writeRequest
  readLimit : weigh disk.readRatio v.limits.rbps = .done w.readLimit
  writeLimit : weigh disk.writeRatio v.limits.wbps = .done w.writeLimit

variable {dev : String} {disk : DiskInfo} {v : VolumeAnnoThroughput}

theorem getDeviceRequest_guaranteed_iff {r : IOResourceRequest} :
    getDeviceRequest dev disk v = .done r ∧ r.workloadType = .gaIndex ↔
      ∃ w, Weighs4 disk v w ∧ ¬ w.Empty ∧ r = guaranteedRequest dev disk w := by
  constructor
  · rintro ⟨h, hga⟩
    simp only [getDeviceRequest, bind_eq_done] at h
    obtain ⟨rr, hrr, wr, hwr, rl, hrl, wl, hwl, h⟩ := h
    split_ifs at h with hnone
    · cases h
      cases hga
    cases h
    refine ⟨⟨rr, wr, rl, wl⟩, ⟨hrr, hwr, hrl, hwl⟩, fun hempty => hnone ?_, rfl⟩
    simp only [Option.isNone_iff_eq_none]
    exact hempty
  · rintro ⟨w, hw, hne, rfl⟩
    refine ⟨?_, rfl⟩
    simp only [getDeviceRequest, hw.readRequest, hw.writeRequest, hw.readLimit, hw.writeLimit,
      done_bind, Option.isNone_iff_eq_none]
    rw [Weighed.Empty] at hne
    rw [if_neg hne]
    rfl

variable {w : Weighed} {r : Rate}

theorem Weighs4.unique {w' : Weighed} (h : Weighs4 disk v w) (h' : Weighs4 disk v w') : w = w' := by
  obtain ⟨rr, wr, rl, wl⟩ := w
  obtain ⟨h1, h2, h3, h4⟩ := h
  obtain ⟨h1', h2', h3', h4'⟩ := h'
  rw [h1, done.injEq] at h1'
  rw [h2, done.injEq] at h2'
  rw [h3, done.injEq] at h3'
  rw [h4, done.injEq] at h4'
  dsimp only at h1' h2' h3' h4'
  rw [h1', h2', h3', h4']

theorem weighs4_exchanged (h : Weighs4 disk v w) : Weighs4 disk.exchanged v.exchanged w.exchanged :=
  ⟨h.writeRequest, h.readRequest, h.writeLimit, h.readLimit⟩

/-! ## The ratio in force -/

def translated (ratios : List MappingRatio) (config : String) : Option ℚ :=
  (parseDiskRequestBandwidth config).map fun p =>
    fl (fl (fl (p.1.asInt64.getD 0 : Int) / miB) * (findMappingRatio p.2 ratios).ratio)

/-- The ratio of the block size in force: the annotated one, or 4k where the default of the disk is
taken instead, or nothing is annotated. -/
def ratioInForce (ratios : List MappingRatio) (min : ℚ) (config : String) : ℚ :=
  match parseDiskRequestBandwidth config with
  | none => ratio4k ratios
  | some (bw, bs) =>
    let ratio := (findMappingRatio bs ratios).ratio
    if fl (fl (fl (bw.asInt64.getD 0 : Int) / miB) * ratio) < min then ratio4k ratios else ratio

/-- The raw and the translated bandwidth, with the ratio in force between them. -/
def Rate.Agrees (r : Rate) (ratios : List MappingRatio) (min : ℚ) (config : String) : Prop :=
  r.bps = fl (r.raw * ratioInForce ratios min config)

variable {ratios : List MappingRatio} {config : String} {min other : ℚ} {o : Option Rate}

theorem weigh_translated (h : weigh ratios config = .done o) :
    o.map Rate.bps = translated ratios config := by
  unfold weigh at h
  unfold translated
  cases hp : parseDiskRequestBandwidth config with
  | none =>
    simp only [hp, done.injEq] at h
    rw [← h]
    rfl
  | some p =>
    simp only [hp] at h
    split_ifs at h
    cases h
    rfl

theorem weigh_agrees (h : weigh ratios config = .done (some r)) :
    (r.bps < min → ratioInForce ratios min config = ratio4k ratios) ∧
      (min ≤ r.bps → r.Agrees ratios min config) := by
  unfold weigh at h
  cases hp : parseDiskRequestBandwidth config with
  | none => simp [hp] at h
  | some p =>
    simp only [hp] at h
    split_ifs at h
    cases h
    simp only [Rate.Agrees, ratioInForce, hp]
    exact ⟨fun hlt => if_pos hlt, fun hle => by rw [if_neg (not_lt.mpr hle)]⟩

theorem ratioInForce_of_none (h : weigh ratios config = .done none) :
    ratioInForce ratios min config = ratio4k ratios := by
  have ht := weigh_translated h
  rw [Option.map_none, eq_comm, translated, Option.map_eq_none_iff] at ht
  rw [ratioInForce, ht]

/-! ## Where the directions are treated alike -/

/-- A request is raised only where that is so. -/
def RequestBalanced (ratios : List MappingRatio) (min other : ℚ) (config : String) : Prop :=
  (translated ratios config).getD 0 < min → Raises (ratio4k ratios) min other

/-- The same for a limit. A limit left open is the largest bandwidth by the code of one direction and
the largest bandwidth divided by the ratio by that of the other. -/
def LimitBalanced (ratios : List MappingRatio) (min other : ℚ) (config : String) : Prop :=
  let ρ := ratio4k ratios
  match translated ratios config with
  | some bps => bps < min → Raises ρ min other
  | none =>
    let r := (openLimit ρ maxBtLimit).atLeast min min ρ
    r = (openLimit ρ (fl (maxBtLimit / ρ))).atLeast min other ρ ∧ r.bps = fl (r.raw * ρ)

/-- A rate is the same with either default for the raw bandwidth, and agrees. -/
theorem Rate.atLeast_balanced
    (hraised : r.bps < min → ratioInForce ratios min config = ratio4k ratios)
    (hkept : min ≤ r.bps → r.Agrees ratios min config) :
    r.atLeast min min (ratio4k ratios) = r.atLeast min other (ratio4k ratios) ∧
        (r.atLeast min min (ratio4k ratios)).Agrees ratios min config ↔
      (r.bps < min → Raises (ratio4k ratios) min other) := by
  unfold Rate.atLeast
  split_ifs with hlt
  · simp only [Rate.Agrees, hraised hlt, Rate.mk.injEq, and_true, Raises, hlt, true_imp_iff]
    constructor
    · rintro ⟨⟨hraw, -⟩, hback⟩
      exact ⟨hraw.symm, hback.symm⟩
    · rintro ⟨hraw, hback⟩
      rw [hraw]
      exact ⟨⟨rfl, rfl⟩, hback.symm⟩
  · simp [hlt, hkept (not_lt.mp hlt)]

theorem requestRate_balanced (h : weigh ratios config = .done o) :
    requestRate min min (ratio4k ratios) o = requestRate min other (ratio4k ratios) o ∧
        (requestRate min min (ratio4k ratios) o).Agrees ratios min config ↔
      RequestBalanced ratios min other config := by
  rw [RequestBalanced, ← weigh_translated h]
  cases o with
  | some r => exact Rate.atLeast_balanced (weigh_agrees h).1 (weigh_agrees h).2
  | none =>
    refine Rate.atLeast_balanced (fun _ => ratioInForce_of_none h) fun _ => ?_
    simp [Rate.Agrees, Rate.zero, Rounding.fl_zero]

theorem limitRate_balanced (h : weigh ratios config = .done o) :
    limitRate min min (ratio4k ratios) maxBtLimit o =
          limitRate min other (ratio4k ratios) (fl (maxBtLimit / ratio4k ratios)) o ∧
        (limitRate min min (ratio4k ratios) maxBtLimit o).Agrees ratios min config ↔
      LimitBalanced ratios min other config := by
  rw [LimitBalanced, ← weigh_translated h]
  cases o with
  | some r => exact Rate.atLeast_balanced (weigh_agrees h).1 (weigh_agrees h).2
  | none =>
    rw [Rate.Agrees, ratioInForce_of_none h]
    exact Iff.rfl

structure Balanced (disk : DiskInfo) (v : VolumeAnnoThroughput) : Prop where
  readRequest :
    RequestBalanced disk.readRatio disk.beDefaultRead disk.beDefaultWrite v.requests.rbps
  writeRequest :
    RequestBalanced disk.writeRatio disk.beDefaultWrite disk.beDefaultRead v.requests.wbps
  readLimit : LimitBalanced disk.readRatio disk.beDefaultRead disk.beDefaultWrite v.limits.rbps
  writeLimit : LimitBalanced disk.writeRatio disk.beDefaultWrite disk.beDefaultRead v.limits.wbps

/-! ## Agreement -/

/-- The raw and the translated bandwidths of the request agree: for reading and for writing, request
and limit. -/
def Translated (disk : DiskInfo) (v : VolumeAnnoThroughput) (r : IOResourceRequest) : Prop :=
  ∃ d request limit rawRequest rawLimit, r.devRequest = some d ∧
    d.request = some request ∧ d.limit = some limit ∧
    d.rawRequest = some rawRequest ∧ d.rawLimit = some rawLimit ∧
    request.inbps =
      fl (rawRequest.inbps * ratioInForce disk.readRatio disk.beDefaultRead v.requests.rbps) ∧
    request.outbps =
      fl (rawRequest.outbps * ratioInForce disk.writeRatio disk.beDefaultWrite v.requests.wbps) ∧
    limit.inbps =
      fl (rawLimit.inbps * ratioInForce disk.readRatio disk.beDefaultRead v.limits.rbps) ∧
    limit.outbps =
      fl (rawLimit.outbps * ratioInForce disk.writeRatio disk.beDefaultWrite v.limits.wbps)

theorem translated_guaranteed : Translated disk v (guaranteedRequest dev disk w) ↔
    (disk.readRequestRate w).Agrees disk.readRatio disk.beDefaultRead v.requests.rbps ∧
      (disk.writeRequestRate w).Agrees disk.writeRatio disk.beDefaultWrite v.requests.wbps ∧
      (disk.readLimitRate w).Agrees disk.readRatio disk.beDefaultRead v.limits.rbps ∧
      (disk.writeLimitRate w).Agrees disk.writeRatio disk.beDefaultWrite v.limits.wbps := by
  constructor
  · rintro ⟨d, request, limit, rawRequest, rawLimit, hd, h1, h2, h3, h4, h⟩
    cases hd
    cases h1
    cases h2
    cases h3
    cases h4
    exact h
  · intro h
    exact ⟨_, _, _, _, _, rfl, rfl, rfl, rfl, rfl, h⟩

/-- A request is translated right and exchanged with the directions exactly if each rate is the same
by the code of both directions, and agrees. -/
theorem guaranteed_agrees_iff (dev : String) (hw : Weighs4 disk v w) :
    Translated disk v (guaranteedRequest dev disk w) ∧
        guaranteedRequest dev disk.exchanged w.exchanged =
          exchangeRequest (guaranteedRequest dev disk w) ↔ Balanced disk v := by
  have h1 : disk.readRequestRate w = disk.exchanged.writeRequestRate w.exchanged ∧ _ ↔ _ :=
    requestRate_balanced hw.readRequest
  have h2 : disk.exchanged.readRequestRate w.exchanged = disk.writeRequestRate w ∧ _ ↔ _ :=
    requestRate_balanced hw.writeRequest
  have h3 : disk.readLimitRate w = disk.exchanged.writeLimitRate w.exchanged ∧ _ ↔ _ :=
    limitRate_balanced hw.readLimit
  have h4 : disk.exchanged.readLimitRate w.exchanged = disk.writeLimitRate w ∧ _ ↔ _ :=
    limitRate_balanced hw.writeLimit
  rw [translated_guaranteed, guaranteedRequest_exchanged_iff]
  constructor
  · rintro ⟨⟨hrr, hwr, hrl, hwl⟩, ⟨hwr', hrr'⟩, hwl', hrl'⟩
    exact ⟨h1.mp ⟨hrr'.symm, hrr⟩, h2.mp ⟨hwr', (congrArg (Rate.Agrees · _ _ _) hwr').mpr hwr⟩,
      h3.mp ⟨hrl'.symm, hrl⟩, h4.mp ⟨hwl', (congrArg (Rate.Agrees · _ _ _) hwl').mpr hwl⟩⟩
  · rintro ⟨hrr, hwr, hrl, hwl⟩
    obtain ⟨hrr', hrr⟩ := h1.mpr hrr
    obtain ⟨hwr', hwr⟩ := h2.mpr hwr
    obtain ⟨hrl', hrl⟩ := h3.mpr hrl
    obtain ⟨hwl', hwl⟩ := h4.mpr hwl
    exact ⟨⟨hrr, hwr' ▸ hwr, hrl, hwl' ▸ hwl⟩, ⟨hwr', hrr'.symm⟩, hwl', hrl'.symm⟩

/-- A guaranteed request that is made is translated right, and is exchanged with the directions. -/
def Agrees (dev : String) (disk : DiskInfo) (v : VolumeAnnoThroughput) : Prop :=
  ∀ r, getDeviceRequest dev disk v = .done r → r.workloadType = .gaIndex →
    Translated disk v r ∧
      getDeviceRequest dev disk.exchanged v.exchanged = .done (exchangeRequest r)

end Rounded

def PositiveRatios (disk : DiskInfo) : Prop :=
  ∀ m ∈ disk.readRatio ++ disk.writeRatio, 0 < m.ratio

def AlwaysTranslated [QuantityParser] [Rounding] : Prop :=
  ∀ dev disk v, PositiveRatios disk → Agrees dev disk v

attribute [local instance] sampleParser

def slowWrites : DiskInfo where
  ga := .zero
  be := .zero
  diskName := "disk"
  readRatio := [⟨defaultBlockSize, 1⟩]
  writeRatio := [⟨defaultBlockSize, 2⟩]
  beDefaultRead := 5
  beDefaultWrite := 5
  capacity := 100
  requestedDiskSpace := 0
  mountPath := "/"

def requestsOnly : VolumeAnnoThroughput := ⟨⟨"10Mi/4k", "10Mi/4k"⟩, ⟨"", ""⟩⟩

theorem slowWrites_positive : PositiveRatios slowWrites := by
  simp only [PositiveRatios, slowWrites, cons_append, nil_append, forall_mem_cons]
  exact ⟨by decide, by decide, fun m hm => absurd hm not_mem_nil⟩

end IOIsolation.Sched.BlockIo
