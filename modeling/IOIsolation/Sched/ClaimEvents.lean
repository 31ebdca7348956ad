import IOIsolation.Sched.ClaimMapping

/-!
# Sched.ClaimEvents

What the calls that move volume claims do to the disks of the cache and to the claim-to-device map:
`AddPod` maps claims and leaves the used space of the disks alone, `UpdatePVC` changes the used space
of one disk and may drop one claim.

* `handleAddPod_places` — every entry of the map is an old one, or a fresh claim of the pod.
* `updatePVC_diskOf`, `updatePVC_claims` — the disk and the claim an `UpdatePVC` is about.
* `onUpdatePVC_isUpdate`, `deletePVC_isUpdate` — an event of a claim is an `UpdatePVC`, or nothing.
-/

namespace IOIsolation.Sched

open Lib BlockIo Option

namespace BlockIo

/-! ## Disks of the cache -/

def diskOf (cache : Dict String Resource) (node dev : String) : Option DiskInfo :=
  (cache.lookup node).bind fun ps => ps.info.disksStatus.lookup dev

def Named (cache : Dict String Resource) : Prop :=
  ∀ node ps, cache.lookup node = some ps → ps.nodeName = node

variable {ps : Resource} {a : MappingAnswers} {pod : Pod} {request : RequestInfo}

theorem Named.insert {cache : Dict String Resource} (h : Named cache) {node : String}
    (hps : ps.nodeName = node) : Named (cache.insert node ps) := by
  intro n ps' hps'
  rw [Dict.lookup_insert_ite] at hps'
  split_ifs at hps' with hn
  · cases hps'
    rw [hps, hn]
  · exact h n ps' hps'

theorem diskOf_insert (cache : Dict String Resource) (node n dev : String) (ps : Resource) :
    diskOf (cache.insert node ps) n dev =
      if n = node then ps.info.disksStatus.lookup dev else diskOf cache n dev := by
  unfold diskOf
  rw [Dict.lookup_insert_ite]
  split_ifs <;> rfl

/-- The size of a disk and the space counted as used. -/
def space (disk : DiskInfo) : Int × Int := (disk.capacity, disk.requestedDiskSpace)

/-! ## Mapping the claims of a pod -/

/-- The claim is placed anew on a disk of the node. -/
def Fresh (pvcs : Dict String PVCInfo) (node key : String) (info : StorageInfo) : Prop :=
  ∃ dev, pvcs.lookup key = some dev ∧ dev.reuse = false ∧
    info = ⟨dev.devID, dev.reqStorage, node⟩

/-- Every entry is an old one or that of a fresh claim. -/
def Places (pvcs : Dict String PVCInfo) (node : String) (claims claims' : Dict String StorageInfo) :
    Prop :=
  ∀ key, claims'.lookup key = claims.lookup key ∨
    ∃ info, claims'.lookup key = some info ∧ Fresh pvcs node key info

theorem Enters.isFresh {key : String} {info : StorageInfo} (h : Enters ps pod request a key info) :
    Fresh request.pvcToDevice ps.nodeName key info := by
  obtain ⟨dev, hdev, hinfo⟩ := h.2.lookup
  obtain ⟨dev', hdev', hfresh⟩ := h.2.fresh
  rw [hdev, some.injEq] at hdev'
  exact ⟨dev, hdev, hdev' ▸ hfresh, hinfo⟩

variable {env env' : Env} {ps' : Resource} {res : AddResult}

theorem AddSpec.places (h : AddSpec ps pod request a env ps' env' res) :
    Places request.pvcToDevice ps.nodeName env.ctx.claimDevMap env'.ctx.claimDevMap := by
  intro key
  by_cases hkey : ∃ info, Enters ps pod request a key info
  · obtain ⟨info, hinfo⟩ := hkey
    exact .inr ⟨info, h.claims.entered key info hinfo, hinfo.isFresh⟩
  · exact .inl (h.claims.kept key (not_exists.mp hkey))

theorem AddSpec.space_eq (h : AddSpec ps pod request a env ps' env' res) (dev : String) :
    (ps'.info.disksStatus.lookup dev).map space = (ps.info.disksStatus.lookup dev).map space := by
  rw [h.disks, Resource.setDisks_disksStatus, lookup_takeAll, map_map]
  rfl

end BlockIo

theorem handleAddPod_places {pod : Pod} {node : String} {request : RequestInfo}
    {a : MappingAnswers} {s s' : SchedState} {r : AddResult}
    (hnamed : BlockIo.Named s.caches.blockIo)
    (h : handleAddPod .ignored .blockIo pod node (.blockIo request) a s = .done (s', r)) :
    BlockIo.Named s'.caches.blockIo ∧
      (∀ n dev, (diskOf s'.caches.blockIo n dev).map space =
        (diskOf s.caches.blockIo n dev).map space) ∧
      Places request.pvcToDevice node s.env.ctx.claimDevMap s'.env.ctx.claimDevMap := by
  rcases handleAddPod_blockIo h with ⟨-, rfl, -⟩ | ⟨ps, ps', env', hps, hadd, rfl⟩
  · exact ⟨hnamed, fun _ _ => rfl, fun _ => .inl rfl⟩
  have hspec := addPod_spec hadd
  have hplaces := hspec.places
  rw [hnamed node ps hps] at hplaces
  refine ⟨hnamed.insert ?_, fun n dev => ?_, hplaces⟩
  · rw [hspec.disks, Resource.setDisks_nodeName]
    exact hnamed node ps hps
  rw [diskOf_insert]
  split_ifs with hn
  · rw [hspec.space_eq, hn, diskOf, hps, bind_some]
  · rfl

namespace BlockIo

/-! ## `UpdatePVC` -/

def addSpace (q : Int) (disk : DiskInfo) : DiskInfo :=
  { disk with requestedDiskSpace := disk.requestedDiskSpace + q }

section UpdatePVC

variable (cache : Dict String Resource) (pvc : PersistentVolumeClaim) (node dev : String) (q : Int)
  (add : Bool) (getFail updateFail : Option String) (env : Env)

theorem updatePVC_missing (h : diskOf cache node dev = none) :
    (updatePVC cache pvc node dev q add getFail updateFail env).1 = cache ∧
      (updatePVC cache pvc node dev q add getFail updateFail env).2.1 = env := by
  unfold updatePVC
  cases hps : cache.lookup node with
  | none => exact ⟨rfl, rfl⟩
  | some ps =>
    rw [diskOf, hps, bind_some] at h
    simp only [h, and_self]

theorem updatePVC_found {ps : Resource} {disk : DiskInfo} (hps : cache.lookup node = some ps)
    (hdisk : ps.info.disksStatus.lookup dev = some disk) :
    (updatePVC cache pvc node dev q add getFail updateFail env).1 =
      cache.insert node (ps.setDisks (ps.info.disksStatus.insert dev
        (addSpace (if add then q else -1 * q) disk))) := by
  simp only [updatePVC, hps, hdisk]
  rfl

theorem updatePVC_diskOf (n d : String) :
    diskOf (updatePVC cache pvc node dev q add getFail updateFail env).1 n d =
      if n = node ∧ d = dev then (diskOf cache node dev).map (addSpace (if add then q else -1 * q))
      else diskOf cache n d := by
  cases hdisk : diskOf cache node dev with
  | none =>
    rw [(updatePVC_missing cache pvc node dev q add getFail updateFail env hdisk).1]
    by_cases hnd : n = node ∧ d = dev
    · rw [if_pos hnd, hnd.1, hnd.2, hdisk, map_none]
    · rw [if_neg hnd]
  | some disk =>
    obtain ⟨ps, hps, hlook⟩ := bind_eq_some_iff.mp hdisk
    rw [updatePVC_found cache pvc node dev q add getFail updateFail env hps hlook, diskOf_insert,
      Resource.setDisks_disksStatus, Dict.lookup_insert_ite]
    by_cases hn : n = node
    · by_cases hd : d = dev
      · rw [if_pos hn, if_pos hd, if_pos (And.intro hn hd), map_some]
      · rw [if_pos hn, if_neg hd, if_neg fun h => hd h.2, hn, diskOf, hps, bind_some]
    · rw [if_neg hn, if_neg fun h => hn h.1]

theorem updatePVC_named (h : Named cache) :
    Named (updatePVC cache pvc node dev q add getFail updateFail env).1 := by
  cases hdisk : diskOf cache node dev with
  | none =>
    rw [(updatePVC_missing cache pvc node dev q add getFail updateFail env hdisk).1]
    exact h
  | some disk =>
    obtain ⟨ps, hps, hlook⟩ := bind_eq_some_iff.mp hdisk
    rw [updatePVC_found cache pvc node dev q add getFail updateFail env hps hlook]
    exact h.insert (h node ps hps)

/-- A claim is dropped when space is given back on a disk that is there, and the claim names a
node. -/
theorem updatePVC_claims :
    (updatePVC cache pvc node dev q add getFail updateFail env).2.1.ctx.claimDevMap =
      if add = false ∧ pvc.selectedNode.isSome ∧ (diskOf cache node dev).isSome then
        env.ctx.claimDevMap.erase (claimKey pvc.name pvc.ns)
      else env.ctx.claimDevMap := by
  cases hdisk : diskOf cache node dev with
  | none =>
    rw [(updatePVC_missing cache pvc node dev q add getFail updateFail env hdisk).2]
    simp
  | some disk =>
    obtain ⟨ps, hps, hlook⟩ := bind_eq_some_iff.mp hdisk
    cases add <;> cases hn : pvc.selectedNode <;> simp [updatePVC, hps, hlook, hn]

end UpdatePVC

end BlockIo

/-! ## The events of a claim -/

section Events

variable {handles : List HandleKind} {a : ClaimAnswers} {s s' : SchedState}

theorem updatePVCAll_named (pvc : PersistentVolumeClaim) (node dev : String) (q : Int) (add : Bool)
    (h : BlockIo.Named s.caches.blockIo) :
    BlockIo.Named (updatePVCAll handles pvc node dev q add a s).caches.blockIo := by
  unfold updatePVCAll
  split_ifs
  · exact updatePVC_named _ _ _ _ _ _ _ _ _ h
  · exact h

theorem updatePVCAll_diskOf (hb : .blockIo ∈ handles) (pvc : PersistentVolumeClaim)
    (node dev : String) (q : Int) (add : Bool) (n d : String) :
    diskOf (updatePVCAll handles pvc node dev q add a s).caches.blockIo n d =
      if n = node ∧ d = dev then
        (diskOf s.caches.blockIo node dev).map
          (addSpace (if add then q else -1 * q))
      else diskOf s.caches.blockIo n d := by
  unfold updatePVCAll
  rw [if_pos hb]
  exact updatePVC_diskOf _ _ _ _ _ _ _ _ _ n d

theorem updatePVCAll_claims (hb : .blockIo ∈ handles) (pvc : PersistentVolumeClaim)
    (node dev : String) (q : Int) (add : Bool) :
    (updatePVCAll handles pvc node dev q add a s).env.ctx.claimDevMap =
      if add = false ∧ pvc.selectedNode.isSome ∧
          (diskOf s.caches.blockIo node dev).isSome then
        s.env.ctx.claimDevMap.erase (claimKey pvc.name pvc.ns)
      else s.env.ctx.claimDevMap := by
  unfold updatePVCAll
  rw [if_pos hb]
  exact updatePVC_claims _ _ _ _ _ _ _ _ _

theorem updateBound_ignored (pvc : PersistentVolumeClaim) (node : String) (add : Bool) :
    updateBound .ignored handles pvc node add a s =
      .done (match boundDevice pvc node a.getFail s.env with
        | .ok (dev, q) =>
          if dev ≠ "" ∧ q ≥ 0 then updatePVCAll handles pvc node dev q add a s else s
        | .error _ => s) := by
  simp only [updateBound, getBoundDeviceId, LockModel.ignored_lock, LockModel.ignored_unlock,
    Outcome.done_bind, Outcome.pure_eq]
  cases boundDevice pvc node a.getFail s.env with
  | error e => rfl
  | ok p =>
    dsimp only
    split_ifs <;> rfl

theorem deletePVC_ignored (pvc : PersistentVolumeClaim) :
    deletePVC .ignored handles (some pvc) a s =
      .done (match s.env.ctx.claimDevMap.lookup (claimKey pvc.name pvc.ns) with
        | some info =>
          updatePVCAll handles pvc info.nodeName info.devID info.requestedStorage false a s
        | none => s) := by
  simp only [deletePVC, LockModel.ignored_lock, LockModel.ignored_unlock, Outcome.done_bind,
    Outcome.pure_eq, ResourceIOContext.getStorageInfo]
  cases s.env.ctx.claimDevMap.lookup (claimKey pvc.name pvc.ns) <;> rfl

/-- The event does nothing, or is an `UpdatePVC`. -/
def IsUpdate (handles : List HandleKind) (a : ClaimAnswers) (s s' : SchedState) : Prop :=
  s' = s ∨ ∃ pvc node dev q add, s' = updatePVCAll handles pvc node dev q add a s

theorem onUpdatePVC_isUpdate {old new : Option PersistentVolumeClaim}
    (h : onUpdatePVC .ignored handles old new a s = .done s') : IsUpdate handles a s s' := by
  have hbound : ∀ pvc node add, updateBound .ignored handles pvc node add a s = .done s' →
      IsUpdate handles a s s' := by
    intro pvc node add h
    rw [updateBound_ignored, Outcome.done.injEq] at h
    subst h
    split
    · split_ifs
      · exact .inr ⟨_, _, _, _, _, rfl⟩
      · exact .inl rfl
    · exact .inl rfl
  unfold onUpdatePVC at h
  split at h
  · split at h
    · split_ifs at h
      · cases h; exact .inl rfl
      · exact hbound _ _ _ h
      · exact hbound _ _ _ h
      · cases h; exact .inl rfl
    · cases h; exact .inl rfl
  · cases h; exact .inl rfl

theorem deletePVC_isUpdate {obj : Option PersistentVolumeClaim}
    (h : deletePVC .ignored handles obj a s = .done s') : IsUpdate handles a s s' := by
  cases obj with
  | none => cases h; exact .inl rfl
  | some pvc =>
    rw [deletePVC_ignored, Outcome.done.injEq] at h
    subst h
    split
    · exact .inr ⟨_, _, _, _, _, rfl⟩
    · exact .inl rfl

end Events

end IOIsolation.Sched
