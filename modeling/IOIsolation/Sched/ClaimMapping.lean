import IOIsolation.Sched.LockDiscipline

/-!
# Sched.ClaimMapping

What the two block I/O calls of a reservation do to the claim-to-device map and to the ConfigMap of
the node, with the mutex left out.

* `addPod_spec` — `AddPod` charges the disks before the first unregistered one, and enters the
  claims its volume loop gets to, whether it then fails or not.
* `undoLoop_spec` — the undo of `RemovePod` drops every claim of the pod, bound or pending, once it
  has dropped one pending claim from the ConfigMap.
-/

namespace IOIsolation.Sched.BlockIo

open Lib Finmap Outcome Option LockModel

/-! ## The ConfigMap of a node -/

def Listed (cms : ConfigMaps) (node key : String) : Prop :=
  ∃ data, cms.lookup node = some data ∧ key ∈ data

variable {cms : ConfigMaps} {node key ns : String} {info : StorageInfo}
  {provisioner : Volume → ProvisionerAnswer} {ps ps' : Resource} {pvcMap : Dict String PVCInfo}
  {vols : List Volume} {pod : Pod} {r : Except String Unit} {env env' : Env}

theorem not_listed_of_none (h : cms.lookup node = none) (key : String) : ¬ Listed cms node key := by
  rintro ⟨data, hdata, -⟩
  rw [h] at hdata; cases hdata

theorem listed_iff {data : Dict String String} (h : cms.lookup node = some data) (key : String) :
    Listed cms node key ↔ key ∈ data := by
  simp [Listed, h]

theorem listed_insert (cms : ConfigMaps) (node key : String) (data : Dict String String) :
    Listed (cms.insert node data) node key ↔ key ∈ data :=
  listed_iff (lookup_insert cms) key

/-- What the ConfigMap call of `AddPod` needs. -/
def WriteFails (node : String) (a : MappingAnswers) : Prop :=
  node.length = 0 ∨ a.getFail.isSome = true ∨ a.writeFail.isSome = true

theorem writeMapping_cases (cms : ConfigMaps) (node : String) (mapping : Dict String String)
    (a : MappingAnswers) :
    (∃ err, writeMapping cms node mapping a.getFail a.writeFail = (cms, .error err)) ∧
        WriteFails node a ∨
      ¬ WriteFails node a ∧ ∃ cms', writeMapping cms node mapping a.getFail a.writeFail =
        (cms', .ok ()) ∧ node ∈ cms' ∧
          ∀ key, Listed cms' node key ↔ Listed cms node key ∨ key ∈ mapping := by
  by_cases hn : node.length = 0
  · refine .inl ⟨?_, .inl hn⟩
    simp only [writeMapping, getVolumeDeviceMap, if_pos hn]
    exact ⟨_, rfl⟩
  cases hg : a.getFail with
  | some e =>
    refine .inl ⟨?_, .inr (.inl (by simp [hg]))⟩
    simp only [writeMapping, getVolumeDeviceMap, if_neg hn]
    exact ⟨_, rfl⟩
  | none =>
    have hok : a.writeFail = none → ¬ WriteFails node a := by
      intro hw
      simp [WriteFails, hn, hg, hw]
    cases hw : a.writeFail with
    | some e =>
      refine .inl ⟨⟨e, ?_⟩, .inr (.inr (by simp [hw]))⟩
      cases hl : cms.lookup node <;> simp [writeMapping, getVolumeDeviceMap, hn, hl]
    | none =>
      cases hl : cms.lookup node with
      | none =>
        refine .inr ⟨hok hw, cms.insert node mapping, ?_, mem_insert.mpr (.inl rfl), ?_⟩
        · simp [writeMapping, getVolumeDeviceMap, hn, hl]
        · intro key
          simp [listed_insert, not_listed_of_none hl]
      | some data =>
        refine .inr ⟨hok hw, cms.insert node (mapping ∪ data), ?_, mem_insert.mpr (.inl rfl), ?_⟩
        · simp [writeMapping, getVolumeDeviceMap, hn, hl]
        · intro key
          rw [listed_insert, listed_iff hl, mem_union, or_comm]

/-- A claim can be dropped from the ConfigMap of the node. -/
def Removable (a : UndoAnswers) (node : String) (onNode : Prop) (listed : String → Prop)
    (vol : Volume) : Prop :=
  node.length ≠ 0 ∧ a.getFail vol = none ∧ onNode ∧
    ((∃ key, listed key) → a.updateFail vol = none)

theorem removePVCs_cases (cms : ConfigMaps) (obj : PersistentVolumeClaim) (node : String)
    (a : UndoAnswers) (vol : Volume) :
    (∃ err, removePVCsFromVolDiskCm cms obj node (a.getFail vol) (a.updateFail vol) =
        .error err) ∧ ¬ Removable a node (node ∈ cms) (Listed cms node) vol ∨
      Removable a node (node ∈ cms) (Listed cms node) vol ∧
        ∃ cms', removePVCsFromVolDiskCm cms obj node (a.getFail vol) (a.updateFail vol) =
          .ok cms' ∧ (node ∈ cms' ↔ node ∈ cms) ∧
          ∀ key, Listed cms' node key ↔ Listed cms node key ∧ key ≠ claimKey obj.name obj.ns := by
  unfold Removable removePVCsFromVolDiskCm getVolumeDeviceMap
  by_cases hn : node.length = 0
  · simp only [if_pos hn]
    exact .inl ⟨⟨_, rfl⟩, fun h => h.1 hn⟩
  simp only [if_neg hn]
  cases hg : a.getFail vol with
  | some e => exact .inl ⟨⟨_, rfl⟩, by simp⟩
  | none =>
    cases hl : cms.lookup node with
    | none =>
      refine .inl ⟨⟨_, rfl⟩, ?_⟩
      rintro ⟨-, -, hmem, -⟩
      exact lookup_eq_none.mp hl hmem
    | some data =>
      have hmem := mem_of_lookup_eq_some hl
      by_cases hdata : data = ∅
      · subst hdata
        have hno : ∀ key, ¬ Listed cms node key := fun key h => notMem_empty ((listed_iff hl _).mp h)
        refine .inr ⟨⟨hn, rfl, hmem, fun ⟨key, h⟩ => absurd h (hno key)⟩, cms, rfl, Iff.rfl, ?_⟩
        exact fun key => ⟨fun h => absurd h (hno key), And.left⟩
      simp only [if_neg hdata]
      cases hu : a.updateFail vol with
      | some e =>
        refine .inl ⟨⟨e, rfl⟩, ?_⟩
        rintro ⟨-, -, -, h⟩
        obtain ⟨key, hkey⟩ : ∃ key, key ∈ data := by
          by_contra hno
          exact hdata (ext_lookup fun key => by
            rw [lookup_eq_none.mpr fun h => hno ⟨key, h⟩, lookup_empty])
        cases h ⟨key, (listed_iff hl _).mpr hkey⟩
      | none =>
        refine .inr ⟨⟨hn, trivial, hmem, fun _ => rfl⟩, _, rfl, by simp [mem_insert, hmem], ?_⟩
        intro key
        rw [listed_insert, listed_iff hl, mem_erase, and_comm]

/-! ## The volume loop of `AddPod` -/

/-- The volume loop gets to a claim with the given key that is not bound yet, and enters it with
`info`. -/
def Maps (ps : Resource) (pvcMap : Dict String PVCInfo) (ns : String)
    (provisioner : Volume → ProvisionerAnswer) (key : String) (info : StorageInfo) :
    List Volume → Prop :=
  Reaches (fun v => IsIOI provisioner v → Placed ps pvcMap ns v) fun v =>
    IsIOI provisioner v ∧ v.claimName.map (claimKey · ns) = some key ∧
      ∃ dev, pvcMap.lookup key = some dev ∧ dev.reuse = false ∧ dev.devID ∈ ps.info.disksStatus ∧
        info = ⟨dev.devID, dev.reqStorage, ps.nodeName⟩

theorem maps_cons {vol : Volume} :
    Maps ps pvcMap ns provisioner key info (vol :: vols) ↔
      (IsIOI provisioner vol ∧ vol.claimName.map (claimKey · ns) = some key ∧
        ∃ dev, pvcMap.lookup key = some dev ∧ dev.reuse = false ∧
          dev.devID ∈ ps.info.disksStatus ∧ info = ⟨dev.devID, dev.reqStorage, ps.nodeName⟩) ∨
        (IsIOI provisioner vol → Placed ps pvcMap ns vol) ∧
          Maps ps pvcMap ns provisioner key info vols :=
  Iff.rfl

/-- What is entered under a key is fixed by the pod's placement. -/
theorem Maps.lookup (h : Maps ps pvcMap ns provisioner key info vols) :
    ∃ dev, pvcMap.lookup key = some dev ∧ info = ⟨dev.devID, dev.reqStorage, ps.nodeName⟩ := by
  induction vols with
  | nil => exact h.elim
  | cons vol vols ih =>
    rcases maps_cons.mp h with ⟨-, -, dev, hdev, -, -, hinfo⟩ | ⟨-, h⟩
    · exact ⟨dev, hdev, hinfo⟩
    · exact ih h

theorem Maps.fresh (h : Maps ps pvcMap ns provisioner key info vols) :
    ∃ dev, pvcMap.lookup key = some dev ∧ dev.reuse = false := by
  induction vols with
  | nil => exact h.elim
  | cons vol vols ih =>
    rcases maps_cons.mp h with ⟨-, -, dev, hdev, hre, -⟩ | ⟨-, h⟩
    · exact ⟨dev, hdev, hre⟩
    · exact ih h

theorem Maps.unique {info' : StorageInfo} {vols' : List Volume}
    (h : Maps ps pvcMap ns provisioner key info vols)
    (h' : Maps ps pvcMap ns provisioner key info' vols') : info = info' := by
  obtain ⟨dev, hdev, rfl⟩ := h.lookup
  obtain ⟨dev', hdev', rfl⟩ := h'.lookup
  rw [hdev, some.injEq] at hdev'
  rw [hdev']

variable {claims claims' : Dict String StorageInfo} {a : MappingAnswers} {disks : Disks}
  {listed : String → Prop} {onNode : Prop}

/-- The loop enters exactly the claims it gets to, also when it stops at an unplaced one. -/
theorem mapVolumes_spec {mapping mapping' : Dict String String}
    (h : mapVolumes ps pvcMap pod provisioner vols mapping claims = .done (mapping', claims', r)) :
    Dict.Overlays (fun key info => Maps ps pvcMap pod.ns provisioner key info vols) claims claims' ∧
      ∀ key, key ∈ mapping' ↔ key ∈ mapping ∨
        ∃ info, Maps ps pvcMap pod.ns provisioner key info vols := by
  induction vols generalizing mapping claims with
  | nil =>
    cases h
    exact ⟨.none fun _ _ => id, fun key => by simp [Maps, Reaches]⟩
  | cons vol vols ih =>
    rcases mapVolumes_cons ps pvcMap pod provisioner vol vols mapping claims with
      ⟨-, -, hrun⟩ | ⟨-, ⟨hioi, hpl, err, hrun⟩ | ⟨hre, hrun⟩ |
        ⟨pvc, dev, disk, hvol, hc, hdev, hre, hdisk, hrun⟩⟩
    · rw [hrun] at h
      cases h
    · -- the loop stops at the volume
      rw [hrun] at h
      cases h
      have hno : ∀ key info, ¬ Maps ps pvcMap pod.ns provisioner key info (vol :: vols) := by
        intro key info hmaps
        rcases maps_cons.mp hmaps with ⟨-, hkey, dev, hdev, -, hmem, -⟩ | ⟨hplaced, -⟩
        · obtain ⟨claim, hclaim, rfl⟩ := map_eq_some_iff.mp hkey
          exact hpl ⟨claim, dev, hclaim, hdev, fun _ => hmem⟩
        · exact hpl (hplaced hioi)
      exact ⟨.none hno, fun key => by simp [hno]⟩
    · -- the loop passes over a volume that enters nothing
      rw [hrun] at h
      suffices hiff : ∀ key info, Maps ps pvcMap pod.ns provisioner key info (vol :: vols) ↔
          Maps ps pvcMap pod.ns provisioner key info vols by
        simp only [hiff]
        exact ih h
      intro key info
      constructor
      · rintro (⟨hioi, hk, dev', hdev', hre', -⟩ | ⟨-, h⟩)
        · obtain ⟨pvc, dev, hc, hdev, hre⟩ := hre hioi
          rw [hc, map_some, some.injEq] at hk
          rw [← hk, hdev, some.injEq] at hdev'
          rw [← hdev', hre] at hre'
          cases hre'
        · exact h
      · refine fun h => .inr ⟨fun hioi => ?_, h⟩
        obtain ⟨pvc, dev, hc, hdev, hre⟩ := hre hioi
        exact ⟨pvc, dev, hc, hdev, by simp [hre]⟩
    · rw [hrun] at h
      have hkey : vol.claimName.map (claimKey · pod.ns) = some (claimKey pvc pod.ns) := by
        rw [hc, map_some]
      have hmem := mem_of_lookup_eq_some hdisk
      have hcons : ∀ key info, Maps ps pvcMap pod.ns provisioner key info (vol :: vols) ↔
          key = claimKey pvc pod.ns ∧ info = ⟨dev.devID, dev.reqStorage, ps.nodeName⟩ ∨
            Maps ps pvcMap pod.ns provisioner key info vols := by
        intro key info
        constructor
        · rintro (⟨-, hk, dev', hdev', -, -, rfl⟩ | ⟨-, h⟩)
          · rw [hkey, some.injEq] at hk
            rw [← hk, hdev, some.injEq] at hdev'
            exact .inl ⟨hk.symm, by rw [hdev']⟩
          · exact .inr h
        · rintro (⟨rfl, rfl⟩ | h)
          · exact .inl ⟨hvol, hkey, dev, hdev, hre, hmem, rfl⟩
          · exact .inr ⟨fun _ => ⟨pvc, dev, hc, hdev, fun _ => hmem⟩, h⟩
      obtain ⟨hov, hmapping⟩ := ih h
      refine ⟨hov.insert (fun info hm => ?_) hcons, fun key => ?_⟩
      · exact hm.unique ((hcons _ _).mpr (.inl ⟨rfl, rfl⟩))
      · rw [hmapping, mem_insert]
        simp only [hcons, exists_or, exists_and_left, exists_eq, and_true]
        tauto

/-- The ConfigMap of the node gets the claims of `r`, and is created for them if it is missing. -/
structure ListsAlso (r : String → Prop) (node : String) (cms cms' : ConfigMaps) : Prop where
  onNode : node ∈ cms' ↔ node ∈ cms ∨ ∃ key, r key
  listed : ∀ key, Listed cms' node key ↔ Listed cms node key ∨ r key

theorem ListsAlso.none {r : String → Prop} (h : ∀ key, ¬ r key) : ListsAlso r node cms cms :=
  ⟨by simp [h], by simp [h]⟩

/-- The volume loop ends and its ConfigMap call succeeds. -/
def Writes (ps : Resource) (pvcMap : Dict String PVCInfo) (pod : Pod) (a : MappingAnswers) : Prop :=
  ¬ Unplaced ps pvcMap pod.ns a.provisioner pod.volumes ∧ ¬ WriteFails ps.nodeName a

/-- What makes `volumeDeviceMapping` return an error: an unplaced claim, or a ConfigMap call. -/
def MappingFails (ps : Resource) (pvcMap : Dict String PVCInfo) (pod : Pod) (a : MappingAnswers) :
    Prop :=
  Unplaced ps pvcMap pod.ns a.provisioner pod.volumes ∨
    (∃ key info, Maps ps pvcMap pod.ns a.provisioner key info pod.volumes) ∧
      WriteFails ps.nodeName a

theorem volumeDeviceMapping_spec
    (h : volumeDeviceMapping .ignored ps pvcMap pod a env = .done (env', r)) :
    Dict.Overlays (fun key info => Maps ps pvcMap pod.ns a.provisioner key info pod.volumes)
        env.ctx.claimDevMap env'.ctx.claimDevMap ∧
      ListsAlso (fun key => Writes ps pvcMap pod a ∧
          ∃ info, Maps ps pvcMap pod.ns a.provisioner key info pod.volumes)
        ps.nodeName env.cms env'.cms ∧
      (r = .ok () ∧ ¬ MappingFails ps pvcMap pod a ∨
        (∃ err, r = .error err) ∧ MappingFails ps pvcMap pod a) := by
  simp only [volumeDeviceMapping, ignored_lock, ignored_unlock, done_bind, bind_eq_done] at h
  obtain ⟨⟨mapping, claims, r1⟩, hloop, h⟩ := h
  obtain ⟨hov, hmapping⟩ := mapVolumes_spec hloop
  have hfails := mapVolumes_fails ps pvcMap pod a.provisioner pod.volumes ∅ env.ctx.claimDevMap
  rw [hloop] at hfails
  cases r1 with
  | error err =>
    cases h
    have hun : Unplaced ps pvcMap pod.ns a.provisioner pod.volumes := hfails
    exact ⟨hov, .none fun key hw => hw.1.1 hun, .inr ⟨⟨err, rfl⟩, .inl hun⟩⟩
  | ok u =>
    have hun : ¬ Unplaced ps pvcMap pod.ns a.provisioner pod.volumes := hfails
    have hkeys : ∀ key, key ∈ mapping ↔
        ∃ info, Maps ps pvcMap pod.ns a.provisioner key info pod.volumes := by
      intro key
      rw [hmapping]
      simp [notMem_empty]
    by_cases hempty : mapping = ∅
    · have hno : ∀ key, ¬ ∃ info, Maps ps pvcMap pod.ns a.provisioner key info pod.volumes := by
        intro key hk
        rw [← hkeys, hempty] at hk
        exact notMem_empty hk
      simp only [hempty, if_true] at h
      cases h
      refine ⟨hov, .none fun key hw => hno key hw.2, .inl ⟨rfl, ?_⟩⟩
      rintro (h | ⟨⟨key, hk⟩, -⟩)
      · exact hun h
      · exact hno key hk
    -- some claim was entered, so the ConfigMap is written
    have hsome : ∃ key info, Maps ps pvcMap pod.ns a.provisioner key info pod.volumes := by
      by_contra hno
      exact hempty (Dict.eq_empty fun key hk => hno ⟨key, (hkeys key).mp hk⟩)
    simp only [hempty, if_false] at h
    rcases writeMapping_cases env.cms ps.nodeName mapping a with
      ⟨⟨err, hw⟩, hfail⟩ | ⟨hok, cms', hw, hmem, hlisted⟩
    · simp only [hw] at h
      cases h
      exact ⟨hov, .none fun key hk => hk.1.2 hfail, .inr ⟨⟨err, rfl⟩, .inr ⟨hsome, hfail⟩⟩⟩
    simp only [hw] at h
    cases h
    have hwrites : Writes ps pvcMap pod a := ⟨hun, hok⟩
    refine ⟨hov, ⟨?_, fun key => ?_⟩, .inl ⟨rfl, ?_⟩⟩
    · obtain ⟨key, hk⟩ := hsome
      exact ⟨fun _ => .inr ⟨key, hwrites, hk⟩, fun _ => hmem⟩
    · rw [hlisted, hkeys]
      simp [hwrites]
    · rintro (h | ⟨-, h⟩)
      · exact hun h
      · exact hok h

/-! ## `AddPod` -/

def Registers (ps : Resource) (request : RequestInfo) : Prop :=
  ∀ e ∈ request.resourceRequest.entries, e.1 ∈ ps.info.disksStatus

/-- `AddPod` enters the claim into the claim-to-device map. -/
def Enters (ps : Resource) (pod : Pod) (request : RequestInfo) (a : MappingAnswers) (key : String)
    (info : StorageInfo) : Prop :=
  Registers ps request ∧
    Maps ps request.pvcToDevice pod.ns a.provisioner key info pod.volumes

def AddFails (ps : Resource) (pod : Pod) (request : RequestInfo) (a : MappingAnswers) : Prop :=
  ¬ Registers ps request ∨
    request.pvcToDevice ≠ ∅ ∧ MappingFails ps request.pvcToDevice pod a

/-- Everything `AddPod` can do: the disks before the first unregistered one are charged and the
claims are entered whatever the result is. -/
structure AddSpec (ps : Resource) (pod : Pod) (request : RequestInfo) (a : MappingAnswers)
    (env : Env) (ps' : Resource) (env' : Env) (res : AddResult) : Prop where
  disks : ps' = ps.setDisks (takeAll (entriesDemand
    (registered ps.info.disksStatus request.resourceRequest.entries)) ps.info.disksStatus)
  claims : Dict.Overlays (Enters ps pod request a) env.ctx.claimDevMap env'.ctx.claimDevMap
  cms : ListsAlso (fun key => Writes ps request.pvcToDevice pod a ∧
    ∃ info, Enters ps pod request a key info) ps.nodeName env.cms env'.cms
  result : res = .added (request.resourceRequest.entries.map fun e => e.2.ioRequest) ∧
      ¬ AddFails ps pod request a ∨
    (∃ err, res = .failed err) ∧ AddFails ps pod request a

theorem maps_setDisks (hkeys : ∀ dev, dev ∈ disks ↔ dev ∈ ps.info.disksStatus)
    (pvcMap : Dict String PVCInfo) (pod : Pod) (a : MappingAnswers) :
    (∀ key info, Maps (ps.setDisks disks) pvcMap pod.ns a.provisioner key info pod.volumes ↔
        Maps ps pvcMap pod.ns a.provisioner key info pod.volumes) ∧
      (Unplaced (ps.setDisks disks) pvcMap pod.ns a.provisioner pod.volumes ↔
        Unplaced ps pvcMap pod.ns a.provisioner pod.volumes) := by
  constructor
  · intro key info
    simp only [Maps, Placed, Resource.setDisks_disksStatus, hkeys, Resource.setDisks_nodeName]
  · simp only [Unplaced, Placed, Resource.setDisks_disksStatus, hkeys]

theorem addPod_spec {request : RequestInfo} {res : AddResult}
    (h : addPod .ignored ps pod (some request) a env = .done (ps', env', res)) :
    AddSpec ps pod request a env ps' env' res := by
  simp only [addPod, bind_eq_done] at h
  obtain ⟨⟨disks, r⟩, hcharge, h⟩ := h
  obtain ⟨hd, hr⟩ := chargeAll_done hcharge
  cases r with
  | error err =>
    cases h
    have hnot : ¬ Registers ps request := by
      intro hall
      have hnone : request.resourceRequest.entries.find?
          (fun e => decide (e.1 ∉ ps.info.disksStatus)) = none := by
        rw [List.find?_eq_none]
        intro e he
        simpa using hall e he
      rw [chargeResult, hnone] at hr
      cases hr
    refine ⟨by rw [hd], .none fun _ _ h => hnot h.1, .none ?_, .inr ⟨⟨err, rfl⟩, .inl hnot⟩⟩
    rintro key ⟨_, _, h⟩
    exact hnot h.1
  | ok reqs =>
    obtain ⟨rfl, hall⟩ := chargeResult_ok hr.symm
    have hreg : Registers ps request := hall
    simp only at h
    by_cases hpvc : request.pvcToDevice = ∅
    · rw [if_pos hpvc] at h
      cases h
      have hno : ∀ key info, ¬ Enters ps pod request a key info := by
        rintro key info ⟨-, hm⟩
        obtain ⟨dev, hdev, -⟩ := hm.lookup
        rw [hpvc, lookup_empty] at hdev; cases hdev
      refine ⟨by rw [hd], .none hno, .none ?_, .inl ⟨rfl, ?_⟩⟩
      · rintro key ⟨_, info, h⟩
        exact hno key info h
      rintro (h | ⟨h, -⟩)
      · exact h hreg
      · exact h hpvc
    rw [if_neg hpvc] at h
    simp only [bind_eq_done] at h
    obtain ⟨⟨env1, r1⟩, hmap, h⟩ := h
    obtain ⟨hov, hlists, hres⟩ := volumeDeviceMapping_spec hmap
    have hkeys : ∀ dev, dev ∈ disks ↔ dev ∈ ps.info.disksStatus := by
      intro dev
      rw [hd, mem_takeAll]
    obtain ⟨hmaps, hun⟩ := maps_setDisks hkeys request.pvcToDevice pod a
    have henters : ∀ key info, Enters ps pod request a key info ↔
        Maps ps request.pvcToDevice pod.ns a.provisioner key info pod.volumes :=
      fun key info => ⟨And.right, fun h => ⟨hreg, h⟩⟩
    simp only [hmaps, Writes, hun, Resource.setDisks_nodeName, MappingFails] at hov hlists hres
    have hspec : env1.ctx.claimDevMap = env'.ctx.claimDevMap ∧ env1.cms = env'.cms ∧
        ps' = ps.setDisks disks := by
      cases r1 <;> cases h <;> exact ⟨rfl, rfl, rfl⟩
    obtain ⟨hc, hcms, rfl⟩ := hspec
    rw [hc] at hov
    rw [hcms] at hlists
    refine ⟨by rw [hd], ?_, ?_, ?_⟩
    · exact ⟨fun key info hk => hov.entered key info ((henters key info).mp hk),
        fun key hk => hov.kept key fun info hm => hk info ((henters key info).mpr hm)⟩
    · simp only [Writes, henters]
      exact hlists
    rcases hres with ⟨rfl, hok⟩ | ⟨⟨err, rfl⟩, hfail⟩
    · cases h
      refine .inl ⟨rfl, ?_⟩
      rintro (h | ⟨-, h⟩)
      · exact h hreg
      · exact hok h
    · cases h
      exact .inr ⟨⟨err, rfl⟩, .inr ⟨hpvc, hfail⟩⟩

/-! ## The undo of `RemovePod` -/

/-- Some volume of the pod is a claim of the provisioner with the given key. -/
def Names (ns : String) (provisioner : Volume → ProvisionerAnswer) (vols : List Volume)
    (key : String) : Prop :=
  ∃ v ∈ vols, IsIOI provisioner v ∧ v.claimName.map (claimKey · ns) = some key

theorem names_cons {vol : Volume} : Names ns provisioner (vol :: vols) key ↔
    IsIOI provisioner vol ∧ vol.claimName.map (claimKey · ns) = some key ∨
      Names ns provisioner vols key := by
  simp [Names]

/-- The inner loop drops all claims of the pod, bound or pending. -/
theorem dropClaims_spec (h : dropClaims ns provisioner vols claims = .done claims') :
    Dict.Erases (Names ns provisioner vols) claims claims' := by
  induction vols generalizing claims with
  | nil =>
    cases h
    exact .refl fun k ⟨v, hv, _⟩ => by cases hv
  | cons vol vols ih =>
    change atClaim provisioner vol _ _ = _ at h
    rcases atClaim_cases provisioner vol (dropClaims ns provisioner vols claims)
        (fun pvc => dropClaims ns provisioner vols (claims.erase (claimKey pvc ns))) with
      ⟨-, -, hrun⟩ | ⟨-, ⟨hno, hrun⟩ | ⟨pvc, hc, hvol, hrun⟩⟩
    · rw [hrun] at h
      cases h
    · rw [hrun] at h
      refine (ih h).congr fun k => ?_
      simp [names_cons, hno]
    · rw [hrun] at h
      refine ((Dict.erases_erase (claimKey pvc ns) claims).trans (ih h)).congr fun k => ?_
      simp [names_cons, hvol, hc, eq_comm]

/-- The API tells the undo that the claim of the volume is pending. -/
def PendingAt (a : UndoAnswers) (vol : Volume) (obj : PersistentVolumeClaim) : Prop :=
  IsIOI a.provisioner vol ∧ a.getPVC vol = .ok obj ∧ obj.phase = .pending

/-- The undo gets to a pending claim and drops it from the ConfigMap; then it drops the claim with
the given key. `onNode` and `listed` describe the ConfigMap of the node. -/
def Drops (pod : Pod) (node : String) (a : UndoAnswers) (key : String) (onNode : Prop) :
    (String → Prop) → List Volume → Prop
  | _, [] => False
  | listed, vol :: vols =>
    (¬ ∃ obj, PendingAt a vol obj) ∧ Drops pod node a key onNode listed vols ∨
      ∃ obj, PendingAt a vol obj ∧ Removable a node onNode listed vol ∧
        (Names pod.ns (a.innerProvisioner vol) pod.volumes key ∨
          Drops pod node a key onNode (fun k => listed k ∧ k ≠ claimKey obj.name obj.ns) vols)

theorem undoLoop_spec {a : UndoAnswers} {n n' : Nat} (hon : onNode ↔ node ∈ env.cms)
    (hlisted : ∀ key, listed key ↔ Listed env.cms node key)
    (h : undoLoop .ignored pod node a vols n env = .done (n', env', r)) :
    Dict.Erases (fun key => Drops pod node a key onNode listed vols) env.ctx.claimDevMap
      env'.ctx.claimDevMap := by
  induction vols generalizing n env listed with
  | nil =>
    cases h
    exact .refl fun _ => id
  | cons vol vols ih =>
    have hskip : (¬ ∃ obj, PendingAt a vol obj) →
        undoLoop .ignored pod node a vols n env = .done (n', env', r) →
        Dict.Erases (fun key => Drops pod node a key onNode listed (vol :: vols)) env.ctx.claimDevMap
          env'.ctx.claimDevMap := by
      intro hnot h
      refine (ih hon hlisted h).congr fun key => ?_
      constructor
      · rintro (⟨-, h⟩ | ⟨obj, hobj, -⟩)
        · exact h
        · exact absurd ⟨obj, hobj⟩ hnot
      · exact fun h => .inl ⟨hnot, h⟩
    change atClaim a.provisioner vol (undoLoop .ignored pod node a vols n env) _ = _ at h
    rcases atClaim_cases a.provisioner vol (undoLoop .ignored pod node a vols n env) _ with
      ⟨-, -, hrun⟩ | ⟨-, ⟨hno, hrun⟩ | ⟨pvc, -, hvol, hrun⟩⟩
    · rw [hrun] at h
      cases h
    · rw [hrun] at h
      exact hskip (fun ⟨obj, hat⟩ => hno hat.1) h
    rw [hrun] at h
    cases hget : a.getPVC vol with
    | error err =>
      simp only [hget] at h
      refine hskip ?_ h
      rintro ⟨obj, -, hobj, -⟩
      rw [hget] at hobj; cases hobj
    | ok obj =>
      simp only [hget] at h
      by_cases hpend : obj.phase = .pending
      · rw [if_neg (not_not.mpr hpend)] at h
        have hat : PendingAt a vol obj := ⟨hvol, hget, hpend⟩
        have honly : ∀ obj', PendingAt a vol obj' → obj' = obj := by
          rintro obj' ⟨-, hobj', -⟩
          rw [hget, Except.ok.injEq] at hobj'
          exact hobj'.symm
        have hrem : Removable a node onNode listed vol ↔
            Removable a node (node ∈ env.cms) (Listed env.cms node) vol := by
          simp only [Removable, hon, hlisted]
        rcases removePVCs_cases env.cms obj node a vol with
          ⟨⟨err, herr⟩, hnot⟩ | ⟨hok, cms', hcms, honNode', hlisted'⟩
        · simp only [herr] at h
          cases h
          refine .refl fun key hd => ?_
          rcases hd with ⟨hno, -⟩ | ⟨obj', hobj', hrem', -⟩
          · exact hno ⟨obj, hat⟩
          · obtain rfl := honly obj' hobj'
            exact hnot (hrem.mp hrem')
        · simp only [hcms, ignored_lock, done_bind, bind_eq_done] at h
          obtain ⟨claims, hdrop, h⟩ := h
          have hleft : ∀ key, listed key ∧ key ≠ claimKey obj.name obj.ns ↔
              Listed cms' node key := fun key => by rw [hlisted', hlisted]
          have hrest := ih (hon.trans honNode'.symm) hleft h
          refine ((dropClaims_spec hdrop).trans hrest).congr fun key => ?_
          constructor
          · rintro (⟨hno, -⟩ | ⟨obj', hobj', -, hd⟩)
            · exact absurd ⟨obj, hat⟩ hno
            · obtain rfl := honly obj' hobj'
              exact hd
          · exact fun hd => .inr ⟨obj, hat, hrem.mpr hok, hd⟩
      · rw [if_pos hpend] at h
        refine hskip ?_ h
        rintro ⟨obj', -, hobj', hpend'⟩
        rw [hget, Except.ok.injEq] at hobj'
        exact hpend (hobj' ▸ hpend')

theorem podHasPVCs_iff {b : Bool} (h : podHasPVCs provisioner vols = .done b) :
    b = true ↔ ∃ v ∈ vols, IsIOI provisioner v := by
  induction vols with
  | nil => cases h; simp
  | cons vol vols ih =>
    change atClaim provisioner vol (podHasPVCs provisioner vols) (fun _ => .done true) = _ at h
    rcases atClaim_cases provisioner vol (podHasPVCs provisioner vols) fun _ => .done true with
      ⟨-, -, hrun⟩ | ⟨-, ⟨hno, hrun⟩ | ⟨pvc, -, hioi, hrun⟩⟩
    · rw [hrun] at h
      cases h
    · rw [hrun] at h
      simp [ih h, hno]
    rw [hrun] at h
    cases h
    simp [hioi]

/-! ## `RemovePod` -/

theorem unlockAll_ignored (n : Nat) (held : Bool) : unlockAll .ignored n held = .done held := by
  induction n with
  | zero => rfl
  | succ n ih => simp [unlockAll, ih]

theorem removePod_absent {client : Option RemoveAnswers}
    (habs : ∀ l, env.ctx.reservedpod.lookup ps.nodeName = some l → pod.uid ∉ l.podList)
    (h : removePod .ignored ps pod client env = .done (ps', env', r)) : ps' = ps ∧ env' = env := by
  simp only [removePod, ignored_lock, ignored_unlock, done_bind, bind_eq_done] at h
  obtain ⟨⟨ps1, env1, r1⟩, hbody, h⟩ := h
  cases h
  simp only [removeLocked] at hbody
  cases hl : env.ctx.getReservedPods ps.nodeName with
  | error err => simp only [hl] at hbody; cases hbody; exact ⟨rfl, rfl⟩
  | ok l =>
    have hnone := lookup_eq_none.mpr (habs l (ResourceIOContext.getReservedPods_ok.mp hl))
    simp only [hl, hnone] at hbody
    cases hbody
    exact ⟨rfl, rfl⟩

theorem removePod_reserved {client : RemoveAnswers} {l : PodList} {e : PodRequest}
    (hl : env.ctx.reservedpod.lookup ps.nodeName = some l) (he : l.podList.lookup pod.uid = some e)
    (hrefund : refundAll ps.nodeName e.request ps.info.disksStatus = .done (disks, .ok ()))
    (hon : onNode ↔ ps.nodeName ∈ env.cms)
    (hlisted : ∀ key, listed key ↔ Listed env.cms ps.nodeName key)
    (h : removePod .ignored ps pod (some client) env = .done (ps', env', r)) :
    ps' = ps.setDisks disks ∧
      Dict.Erases (fun key => (∃ v ∈ pod.volumes, IsIOI client.provisioner v) ∧
          Drops pod ps.nodeName client.undo key onNode listed pod.volumes)
        env.ctx.claimDevMap env'.ctx.claimDevMap := by
  simp only [removePod, ignored_lock, ignored_unlock, done_bind, bind_eq_done] at h
  obtain ⟨⟨ps1, env1, r1⟩, hbody, h⟩ := h
  cases h
  simp only [removeLocked, ResourceIOContext.getReservedPods_ok.mpr hl, he, hrefund,
    done_bind, bind_eq_done] at hbody
  obtain ⟨b, hb, hbody⟩ := hbody
  have hhas := podHasPVCs_iff hb
  cases b with
  | false =>
    cases hbody
    refine ⟨rfl, .refl fun key hk => ?_⟩
    exact absurd (hhas.mpr hk.1) (by simp)
  | true =>
    simp only [if_true, bind_eq_done] at hbody
    obtain ⟨⟨env2, r2⟩, hundo, hbody⟩ := hbody
    simp only [undoVolumeDeviceMapping, unlockAll_ignored, done_bind, bind_eq_done]
      at hundo
    obtain ⟨⟨n, env3, r3⟩, hloop, hundo⟩ := hundo
    cases hundo
    cases hbody
    refine ⟨rfl, (undoLoop_spec hon hlisted hloop).congr fun key => ?_⟩
    exact and_iff_right (hhas.mp rfl)

end IOIsolation.Sched.BlockIo
