import IOIsolation.Sched.ClaimMapping
import IOIsolation.Sched.StaticInfo

/-!
# Sched.ClaimRecords

The ConfigMap of a node as a record of where its claims are: what a successful `volumeDeviceMapping`
writes for every claim of the pod, and what `getDeviceUsage` reads back.

* `volumeDeviceMapping_entries` — the claims the pod's placement is new for get an entry
  `device:mountPath`, all other entries stay.
* `deviceOf_entryText` — such an entry is read back as its device, if neither part has a colon.
* `getDeviceUsage_device` — the claim map of a restart has the devices of the entries.
-/

namespace IOIsolation.Sched.BlockIo

open Lib Finmap Option

/-! ## Entries -/

/-- The text the ConfigMap of a node has for a claim. -/
def recordedText (cms : ConfigMaps) (node key : String) : Option String :=
  (cms.lookup node).bind fun data => data.lookup key

def entryText (dev : String) (disk : DiskInfo) : String := dev ++ ":" ++ disk.mountPath

theorem deviceOf_entryText {dev : String} {disk : DiskInfo} (hdev : ':' ∉ dev.toList)
    (hpath : ':' ∉ disk.mountPath.toList) : deviceOf (entryText dev disk) = dev := by
  have hsplit : (entryText dev disk).toList.splitOn ':' = [dev.toList, disk.mountPath.toList] := by
    have hne : [dev.toList, disk.mountPath.toList] ≠ [] := List.cons_ne_nil _ _
    rw [← List.splitOn_intercalate ':' (by simp [hdev, hpath]) hne]
    simp [entryText, List.intercalate]
  rw [deviceOf, hsplit]
  exact String.ofList_toList

theorem claimKey_ne_deviceInUse (claim ns : String) : claimKey claim ns ≠ deviceInUse := by
  intro h
  have hdot : '.' ∈ (claimKey claim ns).toList := by simp [claimKey]
  rw [h] at hdot
  exact absurd hdot (by decide)

variable {cms : ConfigMaps} {node : String} {fail : Option String} {key : String}

theorem getVolumeDeviceMap_notFound (h : getVolumeDeviceMap cms node fail = .notFound) :
    cms.lookup node = none := by
  unfold getVolumeDeviceMap at h
  split_ifs at h
  cases fail <;> cases hl : cms.lookup node <;> simp_all

theorem getVolumeDeviceMap_found {data : Dict String String}
    (h : getVolumeDeviceMap cms node fail = .found data) : cms.lookup node = some data := by
  unfold getVolumeDeviceMap at h
  split_ifs at h
  cases fail <;> cases hl : cms.lookup node <;> simp_all

/-! ## Writing -/

theorem writeMapping_entries {cms' : ConfigMaps} {mapping : Dict String String}
    {getFail writeFail : Option String}
    (h : writeMapping cms node mapping getFail writeFail = (cms', .ok ())) (key : String) :
    recordedText cms' node key = (mapping.lookup key).or (recordedText cms node key) := by
  unfold writeMapping at h
  cases hget : getVolumeDeviceMap cms node getFail with
  | failed err => simp [hget] at h
  | notFound =>
    cases hw : writeFail with
    | some e => simp [hget, hw] at h
    | none =>
      simp only [hget, hw, Prod.mk.injEq, and_true] at h
      simp [recordedText, ← h, getVolumeDeviceMap_notFound hget, lookup_insert]
  | found data =>
    cases hw : writeFail with
    | some e => simp [hget, hw] at h
    | none =>
      simp only [hget, hw, Prod.mk.injEq, and_true] at h
      rw [recordedText, ← h, lookup_insert, recordedText, getVolumeDeviceMap_found hget,
        bind_some, bind_some, Dict.lookup_union_ite]
      cases hm : mapping.lookup key with
      | none => rw [if_neg (lookup_eq_none.mp hm), none_or]
      | some raw => rw [if_pos (mem_of_lookup_eq_some hm), some_or]

section Loop

variable {ps : Resource} {pvcMap : Dict String PVCInfo} {pod : Pod}
  {provisioner : Volume → ProvisionerAnswer} {vols : List Volume}
  {mapping mapping' : Dict String String} {claims claims' : Dict String StorageInfo}

/-- What one volume does to the loop: the loop goes on with the same maps, or with one claim more in
both of them. -/
theorem mapVolumes_cons_ok {vol : Volume}
    (h : mapVolumes ps pvcMap pod provisioner (vol :: vols) mapping claims =
      .done (mapping', claims', .ok ())) :
    (IsIOI provisioner vol → Placed ps pvcMap pod.ns vol) ∧
      (mapVolumes ps pvcMap pod provisioner vols mapping claims =
          .done (mapping', claims', .ok ()) ∨
        ∃ (key : String) (dev : PVCInfo) (disk : DiskInfo), ps.info.disksStatus.lookup dev.devID = some disk ∧
          mapVolumes ps pvcMap pod provisioner vols (mapping.insert key (entryText dev.devID disk))
            (claims.insert key ⟨dev.devID, dev.reqStorage, ps.nodeName⟩) =
              .done (mapping', claims', .ok ())) := by
  rcases mapVolumes_cons ps pvcMap pod provisioner vol vols mapping claims with
    ⟨-, -, hrun⟩ | ⟨-, ⟨-, -, err, hrun⟩ | ⟨hre, hrun⟩ |
      ⟨pvc, dev, disk, -, hc, hdev, -, hdisk, hrun⟩⟩
  · rw [hrun] at h
    cases h
  · rw [hrun] at h
    cases h
  · rw [hrun] at h
    refine ⟨fun hioi => ?_, .inl h⟩
    obtain ⟨pvc, dev, hc, hdev, hre⟩ := hre hioi
    exact ⟨pvc, dev, hc, hdev, by simp [hre]⟩
  · rw [hrun] at h
    exact ⟨fun _ => ⟨pvc, dev, hc, hdev, fun _ => mem_of_lookup_eq_some hdisk⟩,
      .inr ⟨_, dev, disk, hdisk, h⟩⟩

theorem mapVolumes_placed
    (h : mapVolumes ps pvcMap pod provisioner vols mapping claims =
      .done (mapping', claims', .ok ())) :
    ∀ v ∈ vols, IsIOI provisioner v → Placed ps pvcMap pod.ns v := by
  induction vols generalizing mapping claims with
  | nil => simp
  | cons vol vols ih =>
    obtain ⟨hplaced, h | ⟨key, dev, disk, -, h⟩⟩ := mapVolumes_cons_ok h
    · exact List.forall_mem_cons.mpr ⟨hplaced, ih h⟩
    · exact List.forall_mem_cons.mpr ⟨hplaced, ih h⟩

/-- The texts of a mapping are those of the claims. -/
def Texts (disks : Disks) (mapping : Dict String String) (claims : Dict String StorageInfo) : Prop :=
  ∀ key raw, mapping.lookup key = some raw → ∃ info disk, claims.lookup key = some info ∧
    disks.lookup info.devID = some disk ∧ raw = entryText info.devID disk

theorem mapVolumes_texts (hT : Texts ps.info.disksStatus mapping claims)
    (h : mapVolumes ps pvcMap pod provisioner vols mapping claims =
      .done (mapping', claims', .ok ())) :
    Texts ps.info.disksStatus mapping' claims' := by
  induction vols generalizing mapping claims with
  | nil =>
    cases h
    exact hT
  | cons vol vols ih =>
    obtain ⟨-, h | ⟨key, dev, disk, hdisk, h⟩⟩ := mapVolumes_cons_ok h
    · exact ih hT h
    refine ih (fun k raw hraw => ?_) h
    rw [Dict.lookup_insert_ite] at hraw ⊢
    split_ifs at hraw ⊢ with hk
    · cases hraw
      exact ⟨_, disk, rfl, hdisk, rfl⟩
    · exact hT k raw hraw

end Loop

def OfClaim (provisioner : Volume → ProvisionerAnswer) (ns key : String) (vol : Volume) : Prop :=
  IsIOI provisioner vol ∧ vol.claimName.map (claimKey · ns) = some key

theorem volumeDeviceMapping_entries {ps : Resource} {pvcMap : Dict String PVCInfo} {pod : Pod}
    {a : MappingAnswers} {env env' : Env}
    (h : volumeDeviceMapping .ignored ps pvcMap pod a env = .done (env', .ok ())) {v : Volume}
    (hv : v ∈ pod.volumes) (hof : OfClaim a.provisioner pod.ns key v) :
    ∃ dev, pvcMap.lookup key = some dev ∧
      if dev.reuse then recordedText env'.cms ps.nodeName key = recordedText env.cms ps.nodeName key
      else ∃ disk, ps.info.disksStatus.lookup dev.devID = some disk ∧
        recordedText env'.cms ps.nodeName key = some (entryText dev.devID disk) := by
  simp only [volumeDeviceMapping, LockModel.ignored_lock, LockModel.ignored_unlock,
    Outcome.done_bind, Outcome.bind_eq_done] at h
  obtain ⟨⟨mapping, claims, r⟩, hloop, h⟩ := h
  cases r with
  | error err => simp at h
  | ok u =>
    -- the call writes the mapping, if there is anything to write
    have hentry : recordedText env'.cms ps.nodeName key =
        (mapping.lookup key).or (recordedText env.cms ps.nodeName key) := by
      by_cases hempty : mapping = ∅
      · simp only [hempty, if_true] at h
        cases h
        rw [hempty, lookup_empty, none_or]
      simp only [hempty, if_false] at h
      cases hw : writeMapping env.cms ps.nodeName mapping a.getFail a.writeFail with
      | mk cms' r =>
        simp only [hw] at h
        cases h
        exact writeMapping_entries hw key
    obtain ⟨hov, hkeys⟩ := mapVolumes_spec hloop
    have hplaced := mapVolumes_placed hloop
    obtain ⟨claim, dev, hclaim, hdev, hreg⟩ := hplaced v hv hof.1
    have hkey := hof.2
    rw [hclaim, map_some, some.injEq] at hkey
    rw [hkey] at hdev
    refine ⟨dev, hdev, ?_⟩
    rw [hentry]
    cases hre : dev.reuse with
    | true =>
      have hno : key ∉ mapping := by
        rw [hkeys]
        rintro (h | ⟨info, hmaps⟩)
        · exact notMem_empty h
        obtain ⟨dev', hdev', hre'⟩ := hmaps.fresh
        rw [hdev, some.injEq] at hdev'
        rw [← hdev', hre] at hre'
        cases hre'
      rw [if_pos rfl, lookup_eq_none.mpr hno, none_or]
    | false =>
      have hmaps : Maps ps pvcMap pod.ns a.provisioner key
          ⟨dev.devID, dev.reqStorage, ps.nodeName⟩ pod.volumes :=
        Reaches.of_mem hplaced hv ⟨hof.1, hof.2, dev, hdev, hre, hreg hre, rfl⟩
      obtain ⟨raw, hraw⟩ := mem_iff.mp ((hkeys key).mpr (.inr ⟨_, hmaps⟩))
      have htexts := mapVolumes_texts (fun k raw hk => by simp at hk) hloop
      obtain ⟨info, disk, hinfo, hdisk, rfl⟩ := htexts key raw hraw
      rw [hov.entered _ _ hmaps, some.injEq] at hinfo
      subst hinfo
      exact ⟨disk, hdisk, by rw [hraw, some_or]⟩

/-! ## Reading back -/

variable {a : UsageAnswers}

/-- What a restart enters for a claim: the device of its entry and the size it asks for. -/
theorem getDeviceUsage_lookup {claims : Dict String StorageInfo}
    (h : getDeviceUsage cms node a = .ok claims) :
    ∃ requests, getBoundPVCsStorageRequest node a.pvcs = .ok requests ∧
      ∀ key, claims.lookup key = if key = deviceInUse then none
        else (recordedText cms node key).map fun raw =>
          ⟨deviceOf raw, (requests.lookup key).getD 0, node⟩ := by
  unfold getDeviceUsage at h
  cases hreq : getBoundPVCsStorageRequest node a.pvcs with
  | error err => simp [hreq] at h
  | ok requests =>
    refine ⟨requests, rfl, fun key => ?_⟩
    simp only [hreq] at h
    cases hget : getVolumeDeviceMap cms node a.getFail with
    | failed err => simp [hget] at h
    | notFound =>
      simp only [hget] at h
      split_ifs at h
      cases h
      simp [recordedText, getVolumeDeviceMap_notFound hget]
    | found data =>
      simp only [hget, Except.ok.injEq] at h
      rw [← h, claimsOf, Dict.lookup_filterMapVals, recordedText, getVolumeDeviceMap_found hget,
        bind_some]
      cases data.lookup key <;> simp

theorem getDeviceUsage_device {claims : Dict String StorageInfo}
    (h : getDeviceUsage cms node a = .ok claims) (hkey : key ≠ deviceInUse) :
    (claims.lookup key).map (·.devID) = (recordedText cms node key).map deviceOf := by
  obtain ⟨requests, -, hlookup⟩ := getDeviceUsage_lookup h
  rw [hlookup, if_neg hkey, Option.map_map]
  rfl

end IOIsolation.Sched.BlockIo
