import IOIsolation.Lib.Nested
import IOIsolation.Sched.Worker
import IOIsolation.Aggr.PodList

/-!
# Aggr.AnnotationRoundTrip

The allocation annotation. The scheduler writes the requests of a pod into a map of maps and encodes
it (`PodRequest2String`); the aggregator decodes it and lists the requests again (`formatPodRequest`),
in the order in which it happens to go through the two levels. The encoder and the decoder of the text
are parameters.

* `allocatedIo_eq` — the map is filled from the entries of the request.
* `formatted_perm` — listing the map gives the entries back, in some order.
-/

namespace IOIsolation.Aggr

open Lib List
open Sched (noQuantity allocateRequest deviceAllocatedIo podRequest2String)

def allocatedIo (req : PodRequest) : AllocatedIo := req.request.foldl allocateRequest ∅

/-- What the map has of a request with a device. -/
def allocatedEntry (r : IOResourceRequest) : Option (IOType × String × DeviceAllocatedIo) :=
  r.devRequest.map fun d => (r.ioType, d.devName, deviceAllocatedIo r.workloadType d)

theorem allocatedIo_eq (req : PodRequest) :
    allocatedIo req = Nested.fill (req.request.filterMap allocatedEntry) ∅ := by
  have hfold : ∀ (rs : List IOResourceRequest) (m : AllocatedIo),
      rs.foldl allocateRequest m = Nested.fill (rs.filterMap allocatedEntry) m := by
    intro rs
    induction rs with
    | nil => intro m; rfl
    | cons r rs ih =>
      intro m
      rw [foldl_cons, ih]
      cases hd : r.devRequest with
      | none =>
        rw [filterMap_cons_none (by rw [allocatedEntry, hd]; rfl)]
        simp only [allocateRequest, hd]
      | some d =>
        rw [filterMap_cons_some (by rw [allocatedEntry, hd]; rfl)]
        simp only [allocateRequest, hd]
        rfl
  exact hfold req.request ∅

def deviceKey (r : IOResourceRequest) : IOType × Option String :=
  (r.ioType, r.devRequest.map (·.devName))

/-- A request as it should be read back: the same but for the operations of request and limit, with
zeros for what is absent. -/
def readBack (r : IOResourceRequest) : IOResourceRequest :=
  { r with devRequest := r.devRequest.map fun d => { d with
      request := some (bandwidthsOf (d.request.getD noQuantity))
      limit := some (bandwidthsOf (d.limit.getD noQuantity))
      rawRequest := some (d.rawRequest.getD noQuantity)
      rawLimit := some (d.rawLimit.getD noQuantity) } }

theorem formatDevice_deviceAllocatedIo {r : IOResourceRequest} {d : DeviceRequirement}
    (h : r.devRequest = some d) :
    formatDevice r.ioType d.devName (deviceAllocatedIo r.workloadType d) = readBack r := by
  have hb : ∀ q : Option Quantity,
      bandwidthsOf (Sched.bandwidths q) = bandwidthsOf (q.getD noQuantity) := by
    intro q
    cases q <;> rfl
  simp only [formatDevice, deviceAllocatedIo, readBack, h, Option.map_some, hb]

theorem formatPodRequest_request (podName podNamespace : String) (l : AllocatedIOList) :
    (formatPodRequest podName podNamespace l).request =
      (Nested.entries l).map fun e => formatDevice e.1 e.2.1 e.2.2 := by
  simp only [formatPodRequest, Nested.entries, map_flatMap, map_map, Function.comp_def]

section RoundTrip

variable {req : PodRequest} (hdev : ∀ r ∈ req.request, r.devRequest.isSome)
  (hkeys : (req.request.map deviceKey).Nodup)

include hdev

theorem map_formatDevice :
    (req.request.filterMap allocatedEntry).map (fun e => formatDevice e.1 e.2.1 e.2.2) =
      req.request.map readBack := by
  rw [map_filterMap, ← filterMap_eq_map]
  refine filterMap_congr fun r hr => ?_
  obtain ⟨d, hd⟩ := Option.isSome_iff_exists.mp (hdev r hr)
  rw [allocatedEntry, hd, Option.map_some, Option.map_some, formatDevice_deviceAllocatedIo hd]
  rfl

include hkeys

theorem allocatedEntry_keys_nodup :
    ((req.request.filterMap allocatedEntry).map fun e => (e.1, e.2.1)).Nodup := by
  have hmap : ((req.request.filterMap allocatedEntry).map fun e => (e.1, e.2.1)).map
      (fun k => (k.1, some k.2)) = req.request.map deviceKey := by
    rw [map_map, map_filterMap, ← filterMap_eq_map]
    refine filterMap_congr fun r hr => ?_
    obtain ⟨d, hd⟩ := Option.isSome_iff_exists.mp (hdev r hr)
    simp [allocatedEntry, deviceKey, hd]
  rw [← hmap] at hkeys
  exact hkeys.of_map

/-- In whatever order the decoded map is gone through, the requests come back. -/
theorem formatted_perm {l : AllocatedIOList} (hl : Nested.toNested l = allocatedIo req)
    (podName podNamespace : String) :
    (formatPodRequest podName podNamespace l).request.Perm (req.request.map readBack) := by
  rw [allocatedIo_eq] at hl
  rw [formatPodRequest_request, ← map_formatDevice hdev]
  exact (Nested.entries_perm (allocatedEntry_keys_nodup hdev hkeys) hl).map _

end RoundTrip

/-- A non-empty request, of devices that are listed once, comes back from its annotation if the decoder
undoes the encoder. -/
theorem annotation_round_trip (marshal : AllocatedIo → String)
    (unmarshal : String → Option AllocatedIo) {req : PodRequest}
    (hcodec : unmarshal (marshal (allocatedIo req)) = some (allocatedIo req))
    (hne : req.request ≠ []) (hdev : ∀ r ∈ req.request, r.devRequest.isSome)
    (hkeys : (req.request.map deviceKey).Nodup) :
    ∃ text decoded, podRequest2String marshal req = .ok text ∧ unmarshal text = some decoded ∧
      ∀ l : AllocatedIOList, Nested.toNested l = decoded → ∀ podName podNamespace,
        (formatPodRequest podName podNamespace l).request.Perm (req.request.map readBack) :=
  ⟨marshal (allocatedIo req), allocatedIo req, if_neg hne, hcodec,
    fun _ hl podName podNamespace => formatted_perm hdev hkeys hl podName podNamespace⟩

def diskAndCard : PodRequest where
  podName := "web"
  podNamespace := "default"
  request := [
    { ioType := .diskIo, workloadType := .gaIndex
      devRequest := some ⟨"sda", some ⟨20, 30, 1, 1⟩, some ⟨40, 50, 0, 0⟩, some ⟨10, 15, 7, 8⟩, none⟩ },
    { ioType := .networkIo, workloadType := .beIndex
      devRequest := some ⟨"eth0", none, none, none, none⟩ }]

/-- The texts of an encoding, as far as it is needed. -/
def texts : List (AllocatedIo × String) := [(∅, "none"), (allocatedIo diskAndCard, "disk and card")]

theorem annotation_round_trip_diskAndCard :
    podRequest2String (fun m => (texts.lookup m).getD "") diskAndCard = .ok "disk and card" ∧
      ∃ decoded, (texts.find? (·.2 = "disk and card")).map (·.1) = some decoded ∧
        ∀ l : AllocatedIOList, Nested.toNested l = decoded → ∀ podName podNamespace,
          (formatPodRequest podName podNamespace l).request.Perm
            (diskAndCard.request.map readBack) := by
  obtain ⟨text, decoded, htext, hdecoded, hback⟩ := @annotation_round_trip
    (fun m => (texts.lookup m).getD "") (fun text => (texts.find? (·.2 = text)).map (·.1))
    diskAndCard (by decide +kernel) (by decide) (by decide) (by decide)
  have hok : podRequest2String (fun m => (texts.lookup m).getD "") diskAndCard =
      .ok "disk and card" := by decide +kernel
  obtain rfl := Except.ok.inj (htext.symm.trans hok)
  exact ⟨hok, decoded, hdecoded, hback⟩

end IOIsolation.Aggr
