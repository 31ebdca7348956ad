import IOIsolation.Csi.ControllerServer

/-!
# Csi.NodeServer

Staging and publishing volumes on the node. Staging is only noted in the volume; publishing mounts
the volume at its target path, unless something is mounted there already.

* `NodeServer.stage_cases`, `NodeServer.publish_cases`, `NodeServer.unpublish_cases`,
  `NodeServer.unstage_cases` — what a call can do to the driver, and when it succeeds.
-/

namespace IOIsolation.Csi

open Lib KeyedList

/-! ## The mount table -/

/-- How the system answers the question whether a path is a mount point. A path that is one exists. -/
inductive Probe where
  | answers
  | missing
  | failed (e : String)
  deriving DecidableEq

/-- `IsNotMountPoint` for the paths it can answer for. -/
inductive MountPoint where
  | mounted
  | notMounted
  | notExist
  | error (e : String)
  deriving DecidableEq

def isNotMountPoint (mounts : Finset String) (targetPath : String) : Probe → MountPoint
  | .failed e => .error e
  | .answers => if targetPath ∈ mounts then .mounted else .notMounted
  | .missing => if targetPath ∈ mounts then .mounted else .notExist

/-! ## Requests -/

structure NodeStageVolumeRequest where
  volumeId : String
  stagingTargetPath : String
  volumeCapability : Option VolumeCapability
  deriving DecidableEq

structure NodeUnstageVolumeRequest where
  volumeId : String
  stagingTargetPath : String
  deriving DecidableEq

/-- `annoVolPath` is the path in the volume's context. -/
structure NodePublishVolumeRequest where
  volumeId : String
  targetPath : String
  stagingTargetPath : String
  volumeCapability : Option VolumeCapability
  annoVolPath : Option String
  deriving DecidableEq

structure NodeUnpublishVolumeRequest where
  volumeId : String
  targetPath : String
  deriving DecidableEq

/-- What the system answers while a volume is published; `makeTarget` is `makeFile` for a block
volume and `Mkdir` for the others. -/
structure PublishOutcome where
  loopDevice : Except String String
  lstat : Stat
  makeTarget : SysResult
  probe : Probe
  mount : SysResult
  written : WriteResult

structure UnpublishOutcome where
  probe : Probe
  unmount : SysResult
  removeAll : SysResult
  written : WriteResult
  deriving DecidableEq

namespace NodeServer

/-! ## Staging -/

def checkStage (cfg : Config) (req : NodeStageVolumeRequest) (volumes : List Volume) :
    Except Status Volume :=
  if req.volumeId = "" then .error ⟨.invalidArgument, "Volume ID missing in request"⟩
  else if req.stagingTargetPath = "" then
    .error ⟨.invalidArgument, "Target path missing in request"⟩
  else if req.volumeCapability = none then
    .error ⟨.invalidArgument, "Volume Capability missing in request"⟩
  else
    match State.getVolumeByID req.volumeId volumes with
    | .error e => .error e
    | .ok vol =>
      if cfg.enableAttach && !vol.attached then
        .error ⟨.internal, "ControllerPublishVolume must be called on volume '" ++ vol.volID ++
          "' before staging on node"⟩
      else .ok vol

def nodeStageVolume (cfg : Config) (written : WriteResult) (req : NodeStageVolumeRequest)
    (d : Driver) : Except Status Unit × Driver :=
  match checkStage cfg req d.volumes with
  | .error e => (.error e, d)
  | .ok vol =>
    if vol.staged.has req.stagingTargetPath then (.ok (), d)
    else if !vol.staged.empty then
      (.error ⟨.failedPrecondition, "volume " ++ quote req.volumeId ++ " is already staged at " ++
        vol.staged.text⟩, d)
    else
      State.updateVolume written { vol with staged := vol.staged.add req.stagingTargetPath } d

def checkUnstage (req : NodeUnstageVolumeRequest) (volumes : List Volume) : Except Status Volume :=
  if req.volumeId = "" then .error ⟨.invalidArgument, "Volume ID missing in request"⟩
  else if req.stagingTargetPath = "" then
    .error ⟨.invalidArgument, "Target path missing in request"⟩
  else State.getVolumeByID req.volumeId volumes

def nodeUnstageVolume (written : WriteResult) (req : NodeUnstageVolumeRequest) (d : Driver) :
    Except Status Unit × Driver :=
  match checkUnstage req d.volumes with
  | .error e => (.error e, d)
  | .ok vol =>
    if !vol.staged.has req.stagingTargetPath then (.ok (), d)
    else if !vol.published.empty then
      (.error ⟨.internal, "volume " ++ quote vol.volID ++ " is still published at " ++
        Strings.text (vol.published.map quote) ++ " on node " ++ quote vol.nodeID⟩, d)
    else
      State.updateVolume written { vol with staged := vol.staged.remove req.stagingTargetPath } d

/-! ## Publishing -/

def isMountedElsewhere (targetPath : String) (vol : Volume) : Bool :=
  vol.published.any fun path => path ≠ targetPath

def checkPublish (req : NodePublishVolumeRequest) (volumes : List Volume) :
    Except Status (VolumeCapability × Volume) :=
  match req.volumeCapability with
  | none => .error ⟨.invalidArgument, "Volume capability missing in request"⟩
  | some cap =>
    if req.volumeId = "" then .error ⟨.invalidArgument, "Volume ID missing in request"⟩
    else if req.targetPath = "" then .error ⟨.invalidArgument, "Target path missing in request"⟩
    else if cap.block && cap.mount then
      .error ⟨.invalidArgument, "cannot have both block and mount access type"⟩
    else
      match State.getVolumeByID req.volumeId volumes with
      | .error e => .error ⟨.notFound, e.text⟩
      | .ok vol =>
        if cap.singleNodeSingleWriter && isMountedElsewhere req.targetPath vol then
          .error ⟨.failedPrecondition, "volume uses SINGLE_NODE_SINGLE_WRITER access mode and is " ++
            "already mounted at a different target path"⟩
        else if vol.staged.empty then
          .error ⟨.failedPrecondition, "volume " ++ quote vol.volID ++
            " must be staged before publishing"⟩
        else if !vol.staged.has req.stagingTargetPath then
          .error ⟨.invalidArgument, "volume " ++ quote vol.volID ++ " was staged at " ++
            vol.staged.text ++ ", not " ++ quote req.stagingTargetPath⟩
        else .ok (cap, vol)

inductive Mounting where
  | already
  | done
  | skipped
  deriving DecidableEq

/-- The last part of mounting, once the path is there and nothing is mounted on it. -/
def bindMount (mount : SysResult) (failure : String) : Except Status Mounting :=
  match mount with
  | some e => .error (plain (failure ++ e))
  | none => .ok .done

def mountBlock (o : PublishOutcome) (targetPath : String) (vol : Volume)
    (mounts : Finset String) : Except Status Mounting :=
  if vol.volAccessType ≠ .blockAccess then
    .error ⟨.invalidArgument, "cannot publish a non-block volume as block volume"⟩
  else
    match o.loopDevice with
    | .error e => .error (plain ("failed to get the loop device: " ++ e))
    | .ok loopDevice =>
      let target : Except Status Unit :=
        match o.lstat with
        | .found => .ok ()
        | .failed e => .error (plain ("failed to check if the target block file exists: " ++ e))
        | .missing =>
          match o.makeTarget with
          | some e => .error (plain ("failed to create target path: " ++ e))
          | none => .ok ()
      match target with
      | .error e => .error e
      | .ok () =>
        let failure := "failed to mount block device: " ++ loopDevice ++ " at " ++ targetPath ++ ": "
        match isNotMountPoint mounts targetPath o.probe with
        | .error e =>
          .error (plain ("error checking path " ++ targetPath ++ " for mount: " ++ e))
        | .mounted => .ok .already
        | .notMounted => bindMount o.mount failure
        | .notExist => bindMount o.mount failure

/-- Mounting a directory needs its path from the volume's context. -/
def mountPath (o : PublishOutcome) (targetPath : String) (annoVolPath : Option String) :
    Except Status Mounting :=
  match annoVolPath with
  | none => .error (plain "cannot get mount path with device path: ")
  | some path => bindMount o.mount ("failed to mount device: " ++ path ++ " at " ++ targetPath ++ ": ")

def mountDirectory (o : PublishOutcome) (req : NodePublishVolumeRequest) (vol : Volume)
    (mounts : Finset String) : Except Status Mounting :=
  if vol.volAccessType ≠ .mountAccess then
    .error ⟨.invalidArgument, "cannot publish a non-mount volume as mount volume"⟩
  else
    match isNotMountPoint mounts req.targetPath o.probe with
    | .error e => .error (plain ("check target path: " ++ e))
    | .mounted => .ok .already
    | .notMounted => mountPath o req.targetPath req.annoVolPath
    | .notExist =>
      match o.makeTarget with
      | some e => .error (plain ("create target path: " ++ e))
      | none => mountPath o req.targetPath req.annoVolPath

/-- A capability of neither kind mounts nothing. -/
def mountTarget (o : PublishOutcome) (req : NodePublishVolumeRequest) (cap : VolumeCapability)
    (vol : Volume) (mounts : Finset String) : Except Status Mounting :=
  if cap.block then mountBlock o req.targetPath vol mounts
  else if cap.mount then mountDirectory o req vol mounts
  else .ok .skipped

def nodePublishVolume (cfg : Config) (o : PublishOutcome) (req : NodePublishVolumeRequest)
    (d : Driver) : Except Status Unit × Driver :=
  match checkPublish req d.volumes with
  | .error e => (.error e, d)
  | .ok (cap, vol) =>
    match mountTarget o req cap vol d.mounts with
    | .error e => (.error e, d)
    -- Whatever is mounted there is not looked at, and nothing is noted.
    | .ok .already => (.ok (), d)
    | .ok mounting =>
      let mounts := if mounting = .done then insert req.targetPath d.mounts else d.mounts
      State.updateVolume o.written
        { vol with nodeID := cfg.nodeID, published := vol.published.add req.targetPath }
        { d with mounts := mounts }

def checkUnpublish (req : NodeUnpublishVolumeRequest) (volumes : List Volume) :
    Except Status Volume :=
  if req.volumeId = "" then .error ⟨.invalidArgument, "Volume ID missing in request"⟩
  else if req.targetPath = "" then .error ⟨.invalidArgument, "Target path missing in request"⟩
  else State.getVolumeByID req.volumeId volumes

def unmountTarget (o : UnpublishOutcome) (targetPath : String) (mounts : Finset String) :
    Except Status (Finset String) :=
  match isNotMountPoint mounts targetPath o.probe with
  | .error e => .error (plain ("check target path: " ++ e))
  | .notExist => .ok mounts
  | .notMounted => .ok mounts
  | .mounted =>
    match o.unmount with
    | some e => .error (plain ("unmount target path: " ++ e))
    | none => .ok (mounts.erase targetPath)

def nodeUnpublishVolume (o : UnpublishOutcome) (req : NodeUnpublishVolumeRequest) (d : Driver) :
    Except Status Unit × Driver :=
  match checkUnpublish req d.volumes with
  | .error e => (.error e, d)
  | .ok vol =>
    if !vol.published.has req.targetPath then (.ok (), d)
    else
      match unmountTarget o req.targetPath d.mounts with
      | .error e => (.error e, d)
      | .ok mounts =>
        match o.removeAll with
        | some e => (.error (plain ("remove target path: " ++ e)), { d with mounts := mounts })
        | none =>
          State.updateVolume o.written
            { vol with published := vol.published.remove req.targetPath }
            { d with mounts := mounts }

/-! ## What the calls do -/

variable {vol : Volume} {volumes : List Volume} {req : NodePublishVolumeRequest} {m : Mounting}
  {o : PublishOutcome} {targetPath : String} {mounts : Finset String}

theorem getVolumeByID_of_checkStage {cfg : Config} {req : NodeStageVolumeRequest}
    (h : checkStage cfg req volumes = .ok vol) :
    find Volume.volID req.volumeId volumes = some vol := by
  unfold checkStage at h
  split_ifs at h
  split at h
  · cases h
  split_ifs at h
  obtain rfl := Except.ok.inj h
  exact State.getVolumeByID_eq_ok.mp ‹_›

theorem getVolumeByID_of_checkUnstage {req : NodeUnstageVolumeRequest}
    (h : checkUnstage req volumes = .ok vol) :
    find Volume.volID req.volumeId volumes = some vol := by
  unfold checkUnstage at h
  split_ifs at h
  exact State.getVolumeByID_eq_ok.mp h

theorem getVolumeByID_of_checkUnpublish {req : NodeUnpublishVolumeRequest}
    (h : checkUnpublish req volumes = .ok vol) :
    find Volume.volID req.volumeId volumes = some vol := by
  unfold checkUnpublish at h
  split_ifs at h
  exact State.getVolumeByID_eq_ok.mp h

variable {cap : VolumeCapability} {probe : Probe}

theorem checkPublish_ok (h : checkPublish req volumes = .ok (cap, vol)) :
    req.volumeCapability = some cap ∧
      find Volume.volID req.volumeId volumes = some vol ∧ vol.staged ≠ [] := by
  unfold checkPublish at h
  split at h
  · cases h
  rename_i cap' hcap
  split_ifs at h
  split at h
  · cases h
  rename_i vol' hvol
  split_ifs at h with hmode hstaged hpath
  obtain ⟨rfl, rfl⟩ := Prod.mk.inj (Except.ok.inj h)
  exact ⟨hcap, State.getVolumeByID_eq_ok.mp hvol, by simpa using hstaged⟩

theorem stage_cases (cfg : Config) (written : WriteResult) (req : NodeStageVolumeRequest)
    (d : Driver) :
    (nodeStageVolume cfg written req d).2 = d ∨
      ∃ vol, find Volume.volID req.volumeId d.volumes = some vol ∧ vol.staged = [] ∧
        nodeStageVolume cfg written req d =
          State.updateVolume written { vol with staged := [req.stagingTargetPath] } d := by
  unfold nodeStageVolume
  cases hcheck : checkStage cfg req d.volumes with
  | error e => exact .inl rfl
  | ok vol =>
    dsimp only
    split_ifs with hhas hempty
    · exact .inl rfl
    · exact .inl rfl
    have hstaged : vol.staged = [] := by simpa using hempty
    refine .inr ⟨vol, getVolumeByID_of_checkStage hcheck, hstaged, ?_⟩
    rw [hstaged]
    rfl

theorem unstage_cases (written : WriteResult) (req : NodeUnstageVolumeRequest) (d : Driver) :
    (nodeUnstageVolume written req d).2 = d ∨
      ∃ vol, find Volume.volID req.volumeId d.volumes = some vol ∧ vol.published = [] ∧
        nodeUnstageVolume written req d =
          State.updateVolume written
            { vol with staged := vol.staged.remove req.stagingTargetPath } d := by
  unfold nodeUnstageVolume
  cases hcheck : checkUnstage req d.volumes with
  | error e => exact .inl rfl
  | ok vol =>
    dsimp only
    split_ifs with hhas hempty
    · exact .inl rfl
    · exact .inl rfl
    · exact .inr ⟨vol, getVolumeByID_of_checkUnstage hcheck, by simpa using hempty, rfl⟩

/-- The mount table says what mounting a block volume or a directory comes to. -/
def Follows (targetPath : String) (mounts : Finset String) (m : Mounting) : Prop :=
  (m = .already ∧ targetPath ∈ mounts) ∨ (m = .done ∧ targetPath ∉ mounts)

theorem done_of_bindMount {mount : SysResult} {failure : String}
    (h : bindMount mount failure = .ok m) : m = .done := by
  unfold bindMount at h
  split at h
  · cases h
  · exact (Except.ok.inj h).symm

theorem done_of_mountPath {annoVolPath : Option String}
    (h : mountPath o targetPath annoVolPath = .ok m) : m = .done := by
  unfold mountPath at h
  split at h
  · cases h
  · exact done_of_bindMount h

theorem mem_of_mounted (h : isNotMountPoint mounts targetPath probe = .mounted) :
    targetPath ∈ mounts := by
  cases probe <;> simp [isNotMountPoint] at h <;> exact h

theorem notMem_of_notMounted (h : isNotMountPoint mounts targetPath probe = .notMounted ∨
      isNotMountPoint mounts targetPath probe = .notExist) : targetPath ∉ mounts := by
  intro hmem
  cases probe <;> simp [isNotMountPoint, hmem] at h

theorem mountBlock_follows (h : mountBlock o targetPath vol mounts = .ok m) :
    Follows targetPath mounts m := by
  unfold mountBlock at h
  split_ifs at h
  split at h
  · cases h
  dsimp only at h
  split at h
  · cases h
  split at h
  · cases h
  · exact .inl ⟨(Except.ok.inj h).symm, mem_of_mounted ‹_›⟩
  · exact .inr ⟨done_of_bindMount h, notMem_of_notMounted (.inl ‹_›)⟩
  · exact .inr ⟨done_of_bindMount h, notMem_of_notMounted (.inr ‹_›)⟩

theorem mountDirectory_follows (h : mountDirectory o req vol mounts = .ok m) :
    Follows req.targetPath mounts m := by
  unfold mountDirectory at h
  split_ifs at h
  split at h
  · cases h
  · exact .inl ⟨(Except.ok.inj h).symm, mem_of_mounted ‹_›⟩
  · exact .inr ⟨done_of_mountPath h, notMem_of_notMounted (.inl ‹_›)⟩
  split at h
  · cases h
  · exact .inr ⟨done_of_mountPath h, notMem_of_notMounted (.inr ‹_›)⟩

theorem mountTarget_ok (h : mountTarget o req cap vol mounts = .ok m) :
    Follows req.targetPath mounts m ∨ (m = .skipped ∧ cap.block = false ∧ cap.mount = false) := by
  unfold mountTarget at h
  split_ifs at h with hblock hmount
  · exact .inl (mountBlock_follows h)
  · exact .inl (mountDirectory_follows h)
  · exact .inr ⟨(Except.ok.inj h).symm, by simpa using hblock, by simpa using hmount⟩

def publishedAt (cfg : Config) (vol : Volume) (targetPath : String) : Volume :=
  { vol with nodeID := cfg.nodeID, published := vol.published.add targetPath }

/-- Publishing fails and changes nothing, succeeds and changes nothing because the path is mounted,
or adds the path to a staged volume, mounted by now unless the capability is of neither kind. -/
theorem publish_cases (cfg : Config) (o : PublishOutcome) (req : NodePublishVolumeRequest)
    (d : Driver) :
    (∃ e, nodePublishVolume cfg o req d = (.error e, d)) ∨
      (nodePublishVolume cfg o req d = (.ok (), d) ∧ req.targetPath ∈ d.mounts ∧
        ∃ vol, find Volume.volID req.volumeId d.volumes = some vol) ∨
      ∃ cap vol mounts, req.volumeCapability = some cap ∧
        find Volume.volID req.volumeId d.volumes = some vol ∧ vol.staged ≠ [] ∧
        ((req.targetPath ∉ d.mounts ∧ mounts = insert req.targetPath d.mounts) ∨
          (cap.block = false ∧ cap.mount = false ∧ mounts = d.mounts)) ∧
        nodePublishVolume cfg o req d =
          State.updateVolume o.written (publishedAt cfg vol req.targetPath)
            { d with mounts := mounts } := by
  unfold nodePublishVolume
  cases hcheck : checkPublish req d.volumes with
  | error e => exact .inl ⟨e, rfl⟩
  | ok r =>
    obtain ⟨cap, vol⟩ := r
    obtain ⟨hcap, hfind, hstaged⟩ := checkPublish_ok hcheck
    dsimp only
    cases hmount : mountTarget o req cap vol d.mounts with
    | error e => exact .inl ⟨e, rfl⟩
    | ok m =>
      rcases mountTarget_ok hmount with (⟨rfl, hmem⟩ | ⟨rfl, hmem⟩) | ⟨rfl, hblock, hnone⟩
      · exact .inr (.inl ⟨rfl, hmem, vol, hfind⟩)
      · exact .inr (.inr ⟨cap, vol, _, hcap, hfind, hstaged, .inl ⟨hmem, rfl⟩, rfl⟩)
      · exact .inr (.inr ⟨cap, vol, _, hcap, hfind, hstaged, .inr ⟨hblock, hnone, rfl⟩, rfl⟩)

theorem unmountTarget_ok {o : UnpublishOutcome} {mounts' : Finset String}
    (h : unmountTarget o targetPath mounts = .ok mounts') : mounts' = mounts.erase targetPath := by
  unfold unmountTarget at h
  split at h
  · cases h
  · rw [← Except.ok.inj h, Finset.erase_eq_of_notMem (notMem_of_notMounted (.inr ‹_›))]
  · rw [← Except.ok.inj h, Finset.erase_eq_of_notMem (notMem_of_notMounted (.inl ‹_›))]
  split at h
  · cases h
  · exact (Except.ok.inj h).symm

/-- Unpublishing fails and changes nothing, succeeds and changes nothing because the path is not in
the list, leaves the list alone because the path cannot be removed after it has been unmounted, or
takes the path from the list. -/
theorem unpublish_cases (o : UnpublishOutcome) (req : NodeUnpublishVolumeRequest) (d : Driver) :
    (∃ e, nodeUnpublishVolume o req d = (.error e, d)) ∨
      ∃ vol, find Volume.volID req.volumeId d.volumes = some vol ∧
        ((req.targetPath ∉ vol.published ∧ nodeUnpublishVolume o req d = (.ok (), d)) ∨
          (req.targetPath ∈ vol.published ∧
            ((∃ e e', o.removeAll = some e ∧ nodeUnpublishVolume o req d =
                (.error e', { d with mounts := d.mounts.erase req.targetPath })) ∨
              (o.removeAll = none ∧ nodeUnpublishVolume o req d = State.updateVolume o.written
                  { vol with published := vol.published.remove req.targetPath }
                  { d with mounts := d.mounts.erase req.targetPath })))) := by
  unfold nodeUnpublishVolume
  cases hcheck : checkUnpublish req d.volumes with
  | error e => exact .inl ⟨e, rfl⟩
  | ok vol =>
    have hfind := getVolumeByID_of_checkUnpublish hcheck
    dsimp only
    split_ifs with hhas
    · exact .inr ⟨vol, hfind, .inl ⟨by simpa using hhas, rfl⟩⟩
    have hmem : req.targetPath ∈ vol.published := by simpa using hhas
    cases hunmount : unmountTarget o req.targetPath d.mounts with
    | error e => exact .inl ⟨e, rfl⟩
    | ok mounts =>
      obtain rfl := unmountTarget_ok hunmount
      refine .inr ⟨vol, hfind, .inr ⟨hmem, ?_⟩⟩
      cases hremove : o.removeAll with
      | some e => exact .inl ⟨e, _, rfl, rfl⟩
      | none => exact .inr ⟨rfl, rfl⟩

/-! ## Calls and events -/

inductive NodeCall where
  | stage (req : NodeStageVolumeRequest) (written : WriteResult)
  | publish (req : NodePublishVolumeRequest) (o : PublishOutcome)
  | unpublish (req : NodeUnpublishVolumeRequest) (o : UnpublishOutcome)
  | unstage (req : NodeUnstageVolumeRequest) (written : WriteResult)

def serve (cfg : Config) (d : Driver) : NodeCall → Except Status Unit × Driver
  | .stage req written => nodeStageVolume cfg written req d
  | .publish req o => nodePublishVolume cfg o req d
  | .unpublish req o => nodeUnpublishVolume o req d
  | .unstage req written => nodeUnstageVolume written req d

/-- The driver or the whole node may start again between the calls. -/
inductive NodeEvent where
  | call (c : NodeCall)
  | restart
  | reboot

/-- A node that starts again has an empty mount table. -/
def step (cfg : Config) (d : Driver) : NodeEvent → Option Driver
  | .call c => some (serve cfg d c).2
  | .restart => State.restore d
  | .reboot => (State.restore d).map ({ · with mounts := ∅ })

end NodeServer

end IOIsolation.Csi
