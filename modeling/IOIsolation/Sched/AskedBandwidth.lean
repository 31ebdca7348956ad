import IOIsolation.Sched.DeviceRates
import IOIsolation.Sched.NetworkRequest

/-!
# Sched.AskedBandwidth

The bandwidth a pod asks for and the bandwidth it is charged. The handlers read an amount with
`AsInt64`, which has no integer for the amounts that the parser keeps as decimals, though their value
may be a whole number; they go on with zero.

* `parseDiskRequestBandwidth_integer`, `parseNetworkRequestBandwidth_integer` — an amount that is read is
  read right.
* `charged_iff` — when a disk and a network request are charged what is asked.
-/

namespace IOIsolation.Sched

open Lib Finmap Option

/-- Reading a disk and receiving, or writing and sending. -/
inductive Direction where
  | input
  | output
  deriving DecidableEq

def bpsOf (q : Quantity) : Direction → ℚ
  | .input => q.inbps
  | .output => q.outbps

/-! ## Amounts that are read -/

variable {bw : Amount} {config : String} {k : Int}

section

variable [QuantityParser]

theorem parseDiskRequestBandwidth_integer {bs : Amount}
    (h : BlockIo.parseDiskRequestBandwidth config = some (bw, bs)) (hk : bw.asInt64 = some k) :
    bw.value = k := by
  suffices hparse : ∃ s, parseQuantity s = some bw by
    obtain ⟨s, hs⟩ := hparse
    exact QuantityParser.value_of_asInt64 hs hk
  unfold BlockIo.parseDiskRequestBandwidth at h
  by_cases hempty : config = ""
  · simp [hempty] at h
  rw [if_neg hempty] at h
  extract_lets s at h
  refine ⟨s, ?_⟩
  split at h
  · obtain ⟨a, ha, heq⟩ := map_eq_some_iff.mp h
    cases heq
    exact ha
  extract_lets t at h
  cases hs : parseQuantity s with
  | none => simp [hs] at h
  | some a =>
    cases ht : parseQuantity (String.ofList t) with
    | none => simp [hs, ht] at h
    | some b =>
      simp only [hs, ht, some.injEq, Prod.mk.injEq] at h
      rw [h.1]

theorem parseNetworkRequestBandwidth_integer
    (h : NetworkIo.parseNetworkRequestBandwidth config = some bw) (hk : bw.asInt64 = some k) :
    bw.value = k :=
  QuantityParser.value_of_asInt64 h hk

namespace BlockIo

/-! ## Disks -/

def VolumeAnnoThroughput.requestOf (anno : VolumeAnnoThroughput) : Direction → String
  | .input => anno.requests.rbps
  | .output => anno.requests.wbps

def DiskInfo.ratioOf (disk : DiskInfo) : Direction → List MappingRatio
  | .input => disk.readRatio
  | .output => disk.writeRatio

def DiskInfo.defaultOf (disk : DiskInfo) : Direction → ℚ
  | .input => disk.beDefaultRead
  | .output => disk.beDefaultWrite

def PackVolume.rawOf (vol : PackVolume) : Direction → ℚ
  | .input => vol.rawRead
  | .output => vol.rawWrite

/-- An annotation on a disk, with a request in one direction that the parser takes for a whole positive
number of bytes. -/
structure DiskAsk where
  disk : DiskInfo
  anno : VolumeAnnoThroughput
  direction : Direction
  bw : Amount
  bs : Amount
  asked : ℕ
  accepted : parseDiskRequestBandwidth (anno.requestOf direction) = some (bw, bs)
  positive : 0 < asked
  whole : bw.value = asked

/-- The guaranteed request has what is asked, or the default if that is more, and the packer places
the volume by what is asked. -/
structure DiskAsk.Charged (a : DiskAsk) : Prop where
  request : ∀ dev, ∃ d q, getDeviceRequest dev a.disk a.anno = .done ⟨.diskIo, .gaIndex, some d⟩ ∧
    d.request = some q ∧
    bpsOf q a.direction = max (a.disk.defaultOf a.direction)
      (a.asked / miB * (findMappingRatio a.bs (a.disk.ratioOf a.direction)).ratio)
  packer : ∀ (annos : PodAnnoThroughput) (vol key : String) (size : Int),
    annos.lookup vol = some a.anno →
      (packVolumeOf annos vol key size).rawOf a.direction = a.asked / miB

/-- The block size found for the bandwidth is read as a number to divide by. -/
def Divides (ratios : List MappingRatio) (config : String) : Prop :=
  ∀ bw bs, parseDiskRequestBandwidth config = some (bw, bs) →
    (findMappingRatio bs ratios).blockSize.asInt64.getD 0 ≠ 0

/-- The amount is one that is read as an integer, and so are the block sizes found for all
bandwidths of the annotation. -/
structure DiskAsk.Readable (a : DiskAsk) : Prop where
  amount : a.bw.asInt64.isSome
  readRequest : Divides a.disk.readRatio a.anno.requests.rbps
  writeRequest : Divides a.disk.writeRatio a.anno.requests.wbps
  readLimit : Divides a.disk.readRatio a.anno.limits.rbps
  writeLimit : Divides a.disk.writeRatio a.anno.limits.wbps

theorem weigh_done_iff {ratios : List MappingRatio} :
    (∃ o, weigh ratios config = .done o) ↔ Divides ratios config := by
  unfold weigh Divides
  cases hp : parseDiskRequestBandwidth config with
  | none => simp
  | some p =>
    obtain ⟨bw, bs⟩ := p
    simp only [some.injEq, Prod.mk.injEq]
    split_ifs with hzero
    · simp only [exists_false, false_iff, not_forall]
      exact ⟨bw, bs, ⟨rfl, rfl⟩, not_not.mpr hzero⟩
    refine iff_of_true ⟨_, rfl⟩ ?_
    rintro _ _ ⟨-, rfl⟩
    exact hzero

omit [QuantityParser] in
theorem Rate.atLeast_bps_eq (r : Rate) (min rawMin ratio : ℚ) :
    (r.atLeast min rawMin ratio).bps = max min r.bps := by
  unfold Rate.atLeast
  split_ifs with h
  · exact (max_eq_left h.le).symm
  · exact (max_eq_right (not_lt.mp h)).symm

/-- What the handler goes on with. -/
def DiskAsk.read (a : DiskAsk) : ℚ := (a.bw.asInt64.getD 0 : Int)

theorem DiskAsk.read_eq_iff (a : DiskAsk) : a.read = a.asked ↔ a.bw.asInt64.isSome := by
  cases h : a.bw.asInt64 with
  | none =>
    have hpos : (a.asked : ℚ) ≠ 0 := Nat.cast_ne_zero.mpr a.positive.ne'
    simp [DiskAsk.read, h, hpos.symm]
  | some k =>
    have hk := parseDiskRequestBandwidth_integer a.accepted h
    simp [DiskAsk.read, h, ← a.whole, hk]

theorem DiskAsk.packer_raw (a : DiskAsk) {annos : PodAnnoThroughput} {vol : String} (key : String)
    (size : Int) (h : annos.lookup vol = some a.anno) :
    (packVolumeOf annos vol key size).rawOf a.direction = a.read / miB := by
  have hp := a.accepted
  unfold DiskAsk.read
  cases hd : a.direction with
  | input | output =>
    rw [hd, VolumeAnnoThroughput.requestOf] at hp
    simp only [PackVolume.rawOf, packVolumeOf, h, bind_some, hp, fl_exact]

theorem DiskAsk.request_bps (a : DiskAsk) {w : Weighed} (hw : Weighs4 a.disk a.anno w) :
    ¬ w.Empty ∧ bpsOf (weighted (a.disk.readRequestRate w) (a.disk.writeRequestRate w)) a.direction =
      max (a.disk.defaultOf a.direction)
        (a.read / miB * (findMappingRatio a.bs (a.disk.ratioOf a.direction)).ratio) := by
  have hp := a.accepted
  cases hd : a.direction with
  | input =>
    rw [hd, VolumeAnnoThroughput.requestOf] at hp
    have ht := weigh_translated hw.readRequest
    rw [translated, hp, map_some, map_eq_some_iff] at ht
    obtain ⟨r, hr, hbps⟩ := ht
    refine ⟨fun hempty => by simp [hempty.1] at hr, ?_⟩
    rw [bpsOf, weighted, DiskInfo.readRequestRate, requestRate, Rate.atLeast_bps_eq, hr,
      getD_some, hbps]
    rfl
  | output =>
    rw [hd, VolumeAnnoThroughput.requestOf] at hp
    have ht := weigh_translated hw.writeRequest
    rw [translated, hp, map_some, map_eq_some_iff] at ht
    obtain ⟨r, hr, hbps⟩ := ht
    refine ⟨fun hempty => by simp [hempty.2.2.1] at hr, ?_⟩
    rw [bpsOf, weighted, DiskInfo.writeRequestRate, requestRate, Rate.atLeast_bps_eq, hr,
      getD_some, hbps]
    rfl

theorem DiskAsk.charged_iff_readable (a : DiskAsk) : a.Charged ↔ a.Readable := by
  constructor
  · intro h
    obtain ⟨d, q, hreq, -, -⟩ := h.request ""
    obtain ⟨w, hw, -, -⟩ := getDeviceRequest_guaranteed_iff.mp ⟨hreq, rfl⟩
    have hraw := h.packer (Finmap.singleton "" a.anno) "" "" 0 (lookup_singleton_eq)
    rw [a.packer_raw "" 0 lookup_singleton_eq, div_left_inj' (by norm_num [miB])] at hraw
    exact ⟨a.read_eq_iff.mp hraw, weigh_done_iff.mp ⟨_, hw.readRequest⟩,
      weigh_done_iff.mp ⟨_, hw.writeRequest⟩, weigh_done_iff.mp ⟨_, hw.readLimit⟩,
      weigh_done_iff.mp ⟨_, hw.writeLimit⟩⟩
  · intro h
    obtain ⟨rr, hrr⟩ := weigh_done_iff.mpr h.readRequest
    obtain ⟨wr, hwr⟩ := weigh_done_iff.mpr h.writeRequest
    obtain ⟨rl, hrl⟩ := weigh_done_iff.mpr h.readLimit
    obtain ⟨wl, hwl⟩ := weigh_done_iff.mpr h.writeLimit
    have hw : Weighs4 a.disk a.anno ⟨rr, wr, rl, wl⟩ := ⟨hrr, hwr, hrl, hwl⟩
    have hread := a.read_eq_iff.mpr h.amount
    obtain ⟨hne, hbps⟩ := a.request_bps hw
    constructor
    · intro dev
      refine ⟨_, _, (getDeviceRequest_guaranteed_iff.mpr ⟨_, hw, hne, rfl⟩).1, rfl, ?_⟩
      rw [hbps, hread]
    · intro annos vol key size hv
      rw [a.packer_raw key size hv, hread]

end BlockIo

namespace NetworkIo

/-! ## The master card -/

def NetIOConfig.amountOf (config : NetIOConfig) : Direction → String
  | .input => config.ingress
  | .output => config.egress

/-- A pod whose annotation has a request in one direction that the parser takes for a whole positive
number of bytes, on a node with a registered master card. -/
structure NetAsk where
  decode : String → Option PodAnnoThroughput
  ps : Resource
  nic : NICInfo
  pod : Pod
  anno : PodAnnoThroughput
  direction : Direction
  bw : Amount
  asked : ℕ
  registered : ps.info.nicsStatus.lookup ps.info.masterNic = some nic
  annotated : (pod.annotations.lookup networkIOConfigAnno).bind decode = some anno
  accepted : parseNetworkRequestBandwidth (anno.requests.amountOf direction) = some bw
  positive : 0 < asked
  whole : bw.value = asked

def NetAsk.Charged (a : NetAsk) : Prop :=
  ∃ d q, getRequestByAnnotation a.decode a.ps a.pod =
      .ok (AList.singleton a.ps.info.masterNic ⟨.networkIo, .gaIndex, some d⟩) ∧
    d.request = some q ∧ bpsOf q a.direction = max a.nic.defaultSpeed (a.asked / mB)

/-- The amount is one that is read as an integer, or the default hides it. -/
def NetAsk.Readable (a : NetAsk) : Prop :=
  a.bw.asInt64.isSome ∨ a.asked / mB ≤ a.nic.defaultSpeed

theorem NetAsk.request (a : NetAsk) : ∃ d q, getRequestByAnnotation a.decode a.ps a.pod =
      .ok (AList.singleton a.ps.info.masterNic ⟨.networkIo, .gaIndex, some d⟩) ∧
    d.request = some q ∧ bpsOf q a.direction = max (megabytesOf (some a.bw)) a.nic.defaultSpeed := by
  have hp := a.accepted
  have hsome : (parseNetworkRequestBandwidth a.anno.requests.ingress).isSome ∨
      (parseNetworkRequestBandwidth a.anno.requests.egress).isSome := by
    cases hd : a.direction with
    | input => exact .inl (by rw [hd] at hp; exact isSome_of_mem hp)
    | output => exact .inr (by rw [hd] at hp; exact isSome_of_mem hp)
  obtain ⟨limit, hreq⟩ := parsePodNetworkIOAnnotations_guaranteed a.ps.info hsome
  have hget : getRequestByAnnotation a.decode a.ps a.pod =
      .ok (AList.singleton a.ps.info.masterNic (parsePodNetworkIOAnnotations a.anno a.ps.info)) := by
    simp only [ getRequestByAnnotation, a.registered, a.annotated]
  rw [hget, hreq]
  refine ⟨_, _, rfl, rfl, ?_⟩
  cases hd : a.direction with
  | input | output =>
    rw [hd, NetIOConfig.amountOf] at hp
    simp only [bpsOf, NodeInfo.atLeastDefault, a.registered, hp]

theorem NetAsk.charged_iff_readable (a : NetAsk) : a.Charged ↔ a.Readable := by
  obtain ⟨d, q, hreq, hq, hbps⟩ := a.request
  have hcharged : a.Charged ↔
      max (megabytesOf (some a.bw)) a.nic.defaultSpeed = max a.nic.defaultSpeed (a.asked / mB) := by
    rw [← hbps]
    constructor
    · rintro ⟨d', q', hreq', hq', hbps'⟩
      rw [hreq, Except.ok.injEq] at hreq'
      have hentries := congrArg AList.entries hreq'
      simp only [AList.singleton, List.cons.injEq, and_true, Sigma.mk.injEq, heq_eq_eq, true_and,
        IOResourceRequest.mk.injEq, some.injEq] at hentries
      rw [← hentries, hq, some.injEq] at hq'
      rw [hq', hbps']
    · intro h
      exact ⟨d, q, hreq, hq, h⟩
  have hpos : 0 < (a.asked : ℚ) / mB := div_pos (Nat.cast_pos.mpr a.positive) (by norm_num [mB])
  rw [hcharged, NetAsk.Readable]
  cases h : a.bw.asInt64 with
  | some k =>
    have hk := parseNetworkRequestBandwidth_integer a.accepted h
    have hbw : megabytesOf (some a.bw) = a.asked / mB := by
      simp [megabytesOf, h, ← a.whole, hk]
    rw [hbw, max_comm]
    simp
  | none =>
    have hbw : megabytesOf (some a.bw) = 0 := by simp [megabytesOf, h]
    rw [hbw, isSome_none]
    simp only [Bool.false_eq_true, false_or]
    constructor
    · intro heq
      by_contra hlt
      rw [max_eq_right (not_le.mp hlt).le] at heq
      have : max 0 a.nic.defaultSpeed < a.asked / mB := max_lt hpos (not_le.mp hlt)
      exact this.ne heq
    · intro hle
      rw [max_eq_left hle, max_eq_right (hpos.le.trans hle)]

end NetworkIo

/-- What is asked of a disk and of the master card is charged exactly if the amounts can be read. -/
theorem charged_iff (a : BlockIo.DiskAsk) (b : NetworkIo.NetAsk) :
    (a.Charged ↔ a.Readable) ∧ (b.Charged ↔ b.Readable) :=
  ⟨a.charged_iff_readable, b.charged_iff_readable⟩

def AlwaysCharged : Prop :=
  (∀ a : BlockIo.DiskAsk, a.Charged) ∧ ∀ a : NetworkIo.NetAsk, a.Charged

end

attribute [local instance] sampleParser

/-- One and a half megabytes per second, asked of a disk that has no other peculiarity. -/
def fractionAsk : BlockIo.DiskAsk where
  disk := {
    ga := .zero
    be := .zero
    diskName := "disk"
    readRatio := [⟨BlockIo.defaultBlockSize, 1⟩]
    writeRatio := [⟨BlockIo.defaultBlockSize, 1⟩]
    beDefaultRead := 0
    beDefaultWrite := 0
    capacity := 100
    requestedDiskSpace := 0
    mountPath := "/" }
  anno := ⟨⟨"1.5Mi", "1.5Mi"⟩, ⟨"", ""⟩⟩
  direction := .input
  bw := ⟨1572864, none⟩
  bs := BlockIo.defaultBlockSize
  asked := 1572864
  accepted := by decide +kernel
  positive := by decide
  whole := by norm_num

theorem not_alwaysCharged : ¬ AlwaysCharged := by
  intro h
  have hpacker := (h.1 fractionAsk).packer (Finmap.singleton "v" fractionAsk.anno) "v" "" 0
    lookup_singleton_eq
  have hzero : (BlockIo.packVolumeOf (Finmap.singleton "v" fractionAsk.anno) "v" "" 0).rawOf
      fractionAsk.direction = 0 := by decide +kernel
  rw [hzero] at hpacker
  norm_num [fractionAsk, BlockIo.miB] at hpacker

def wholeAsk : BlockIo.DiskAsk :=
  { fractionAsk with
    anno := ⟨⟨"10Mi", "10Mi"⟩, ⟨"", ""⟩⟩
    bw := ⟨10485760, some 10485760⟩
    asked := 10485760
    accepted := by decide +kernel
    positive := by decide
    whole := by norm_num }

def cardAsk : NetworkIo.NetAsk where
  decode _ := some ⟨⟨"10Mi", "10Mi"⟩, ⟨"", ""⟩⟩
  ps := ⟨"n", ⟨Finmap.singleton "eth0" ⟨⟨.zero, .zero⟩, 5⟩, "eth0"⟩⟩
  nic := ⟨⟨.zero, .zero⟩, 5⟩
  pod := ⟨"a", "a", "default", "n", Finmap.singleton NetworkIo.networkIOConfigAnno "", []⟩
  anno := ⟨⟨"10Mi", "10Mi"⟩, ⟨"", ""⟩⟩
  direction := .output
  bw := ⟨10485760, some 10485760⟩
  asked := 10485760
  registered := by decide +kernel
  annotated := by decide +kernel
  accepted := by decide +kernel
  positive := by decide
  whole := by norm_num

theorem charged_whole : wholeAsk.Charged ∧ cardAsk.Charged := by
  obtain ⟨hdisk, hcard⟩ := charged_iff wholeAsk cardAsk
  have hread : BlockIo.parseDiskRequestBandwidth "10Mi" = some (wholeAsk.bw, wholeAsk.bs) :=
    wholeAsk.accepted
  have hdivides : BlockIo.Divides [⟨BlockIo.defaultBlockSize, 1⟩] "10Mi" := by
    intro bw bs h
    rw [hread] at h
    cases h
    decide +kernel
  have hopen : BlockIo.Divides [⟨BlockIo.defaultBlockSize, 1⟩] "" := fun bw bs h => by cases h
  exact ⟨hdisk.mpr ⟨rfl, hdivides, hdivides, hopen, hopen⟩, hcard.mpr (.inl rfl)⟩

end IOIsolation.Sched
