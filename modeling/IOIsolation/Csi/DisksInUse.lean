import IOIsolation.Csi.Lifecycle
import IOIsolation.Lib.Retry
import IOIsolation.Types

/-!
# Csi.DisksInUse

The list of disks in use, which the driver keeps in the ConfigMap of the node, and the administrator's
tool that disables a disk unless the list has it.

The driver reports success whether or not it could bring the list up to date, and the tool goes on if
it cannot read the list. Where these accesses succeed the list is right at all times, and no disk with
a volume is disabled.

* `listed_add`, `listed_remove` — the two changes of the list.
* `deleteDisk_ok`    — what the tool has checked when it disables a disk.
* `right_step`       — the list stays right.
* `disks_protected`  — the runs in which it does.
-/

namespace IOIsolation.Csi.DisksInUse

open Lib ControllerServer KeyedList List

/-! ## The tool -/

inductive DiskState where
  | notEnabled
  | profiling
  | ready
  | fail
  deriving DecidableEq

def DiskState.text : DiskState → String
  | .notEnabled => "NotEnabled"
  | .profiling => "Profiling"
  | .ready => "Ready"
  | .fail => "Fail"

structure DeviceState where
  name : String
  state : DiskState
  deriving DecidableEq

/-- `blockIo` are the devices in the resource configuration of type `BlockIO`. -/
structure NodeStaticIOInfo where
  deviceStates : Dict String DeviceState
  blockIo : Option (Dict String DeviceType)
  deriving DecidableEq

inductive UpdateResult where
  | ok
  | conflict (e : String)
  | failed (e : String)
  deriving DecidableEq

/-- One pass of the tool: how its accesses end, and the order in which it goes through the map of
disks. -/
structure Attempt where
  infoRead : SysResult
  order : List String
  configMapRead : SysResult
  update : UpdateResult
  deriving DecidableEq

/-- How a pass fails; `exit` ends the program. -/
inductive Failure where
  | exit (message : String)
  | conflict (e : String)
  | failed (e : String)

def Failure.isConflict : Failure → Bool
  | conflict _ => true
  | exit _ | failed _ => false

def Failure.message : Failure → String
  | exit message => message
  | conflict e | failed e => "failed to patch the NodeIOStatus: " ++ e

def devNameToKey (order : List String) (devName : String) (info : NodeStaticIOInfo) : Option String :=
  order.find? fun key => (info.deviceStates.lookup key).any fun s => s.name = devName

/-- The list of the ConfigMap has the disk; a ConfigMap that cannot be read has no list. -/
def isInUse (configMapRead : SysResult) (dev : String) (cm : Option ConfigMap) : Bool :=
  match configMapRead with
  | some _ => false
  | none => (curDeviceInUse cm).elem dev

def disable (dev : String) (state : DeviceState) (info : NodeStaticIOInfo) : NodeStaticIOInfo :=
  { info with
    deviceStates := info.deviceStates.insert dev { state with state := .notEnabled } }

def deleteDiskOnce (node devName : String) (cm : Option ConfigMap) (info : NodeStaticIOInfo)
    (a : Attempt) : Except Failure NodeStaticIOInfo :=
  match a.infoRead with
  | some e => .error (.exit ("failed to get the NodeIOStatus: " ++ e))
  | none =>
    match devNameToKey a.order devName info with
    | none => .error (.exit ("device " ++ devName ++ " not exists in node " ++ node))
    | some dev =>
      match info.deviceStates.lookup dev with
      | none => .error (.exit ("device " ++ dev ++ " not exists in node " ++ node))
      | some s =>
        if isInUse a.configMapRead dev cm then .error (.exit ("device " ++ devName ++ " is in use"))
        else if s.state = .profiling ∨ s.state = .notEnabled then
          .error (.exit ("device " ++ devName ++ " is in " ++ s.state.text ++ " state, cannot remove"))
        else
          match info.blockIo with
          | none => .error (.exit ("BlockIO not enabled in node " ++ node))
          | some devices =>
            match devices.lookup dev with
            | none => .error (.exit ("device " ++ devName ++ " not exists in BlockIO resource config"))
            | some .defaultDevice =>
              .error (.exit ("device " ++ devName ++ " is default device, cannot remove"))
            | some .otherDevice =>
              match a.update with
              | .ok => .ok (disable dev s info)
              | .conflict e => .error (.conflict e)
              | .failed e => .error (.failed e)

/-- The `Steps` of the tool's backoff. -/
def backoffSteps : Nat := 3

/-- `DeleteDisk`: a conflict is tried again, until the attempts run out. -/
def deleteDisk (node devName : String) (attempts : Nat → Attempt) (cm : Option ConfigMap)
    (info : NodeStaticIOInfo) : Except String NodeStaticIOInfo :=
  (onError Failure.isConflict (fun i => deleteDiskOnce node devName cm info (attempts i))
    (backoffSteps - 1) 0).mapError Failure.message

/-! ## Runs -/

structure Sys where
  driver : Driver
  info : NodeStaticIOInfo

inductive Event where
  | createVolume (req : CreateVolumeRequest) (o : CreateOutcome)
  | deleteVolume (volumeId : String) (o : DeleteOutcome)
  | deleteDisk (devName : String) (attempts : Nat → Attempt)

/-- The state after an event, and whether the event reports success. -/
def perform (cfg : Config) (s : Sys) : Event → Bool × Sys
  | .createVolume req o =>
    let r := ControllerServer.createVolume cfg o req s.driver
    (r.1.isOk, { s with driver := r.2 })
  | .deleteVolume volumeId o =>
    let r := ControllerServer.deleteVolume cfg o volumeId s.driver
    (r.1.isOk, { s with driver := r.2 })
  | .deleteDisk devName attempts =>
    match deleteDisk cfg.nodeID devName attempts s.driver.configMap s.info with
    | .ok info => (true, { s with info := info })
    | .error _ => (false, s)

def Possible (s : Sys) : Event → Prop
  | .createVolume _ o => Lifecycle.Fresh s.driver o
  | _ => True

instance (s : Sys) : ∀ e, Decidable (Possible s e)
  | .createVolume _ o => inferInstanceAs (Decidable (Lifecycle.Fresh s.driver o))
  | .deleteVolume _ _ => isTrue trivial
  | .deleteDisk _ _ => isTrue trivial

def step (cfg : Config) (s : Sys) (e : Event) : Option Sys :=
  if Possible s e then some (perform cfg s e).2 else none

/-- A driver without volumes, any claims with their disks, and no list yet. -/
def start (claims : Option (Dict String String)) (info : NodeStaticIOInfo) : Sys :=
  ⟨⟨[], [], false, ∅, claims.map fun data => ⟨data, none⟩⟩, info⟩

/-! ## The list -/

def Holds (volumes : List Volume) (dev : String) : Prop := ∃ v ∈ volumes, v.deviceID = dev

instance (volumes : List Volume) (dev : String) : Decidable (Holds volumes dev) :=
  inferInstanceAs (Decidable (∃ v ∈ volumes, v.deviceID = dev))

/-- The list names the disks with volumes, each of them once. -/
structure Listed (list : List String) (volumes : List Volume) : Prop where
  nodup : list.Nodup
  mem : ∀ dev, dev ∈ list ↔ Holds volumes dev

variable {list : List String} {volumes volumes' : List Volume} {dev : String}

theorem listed_add (h : Listed list volumes)
    (hvolumes : ∀ x, Holds volumes' x ↔ Holds volumes x ∨ x = dev) :
    Listed (calDeviceInUse list dev true volumes').2 volumes' := by
  unfold calDeviceInUse
  simp only [if_true]
  split_ifs with hmem
  · refine ⟨h.nodup, fun x => ?_⟩
    rw [hvolumes, ← h.mem]
    exact ⟨.inl, fun hx => hx.elim id fun hx => hx ▸ hmem⟩
  refine ⟨nodup_append.mpr ⟨h.nodup, nodup_singleton dev, ?_⟩, fun x => ?_⟩
  · intro x hx y hy hxy
    exact hmem (mem_singleton.mp hy ▸ hxy ▸ hx)
  · rw [mem_append, mem_singleton, hvolumes, h.mem]

theorem listed_remove (h : Listed list volumes)
    (hothers : ∀ x, x ≠ dev → (Holds volumes' x ↔ Holds volumes x))
    (hself : Holds volumes' dev → Holds volumes dev) :
    Listed (calDeviceInUse list dev false volumes').2 volumes' := by
  unfold calDeviceInUse
  simp only [Bool.false_eq_true, if_false]
  split_ifs with hholds
  · refine ⟨h.nodup, fun x => ?_⟩
    rw [h.mem]
    by_cases hx : x = dev
    · subst hx
      exact ⟨fun _ => hholds, hself⟩
    · exact (hothers x hx).symm
  · refine ⟨h.nodup.erase dev, fun x => ?_⟩
    rw [h.nodup.mem_erase_iff, h.mem]
    by_cases hx : x = dev
    · subst hx
      exact iff_of_false (fun hne => hne.1 rfl) hholds
    · rw [hothers x hx]
      exact and_iff_right hx

variable {cm : Option ConfigMap} {cfg : Config} {devName node : String} {info : NodeStaticIOInfo}
  {attempts : Nat → Attempt} {s : Sys}

theorem curDeviceInUse_update {o : ConfigMapAccess} {inUse : Bool}
    (h : (o.read = none ∧ o.write = none) ∨
      (calDeviceInUse (curDeviceInUse cm) dev inUse volumes).1 = false) :
    curDeviceInUse (updateDeviceInUse o dev inUse volumes cm).2 =
      (calDeviceInUse (curDeviceInUse cm) dev inUse volumes).2 := by
  have hkeep : (calDeviceInUse (curDeviceInUse cm) dev inUse volumes).1 = false →
      (calDeviceInUse (curDeviceInUse cm) dev inUse volumes).2 = curDeviceInUse cm := by
    unfold calDeviceInUse
    split_ifs <;> simp
  unfold updateDeviceInUse
  rcases hcal : calDeviceInUse (curDeviceInUse cm) dev inUse volumes with ⟨changed, new⟩
  rw [hcal] at h hkeep
  cases changed with
  | false =>
    have hnew : new = curDeviceInUse cm := hkeep rfl
    cases o.read <;> exact hnew.symm
  | true =>
    obtain ⟨hread, hwrite⟩ := h.resolve_right (by simp)
    rw [hread]
    cases cm <;> simp [updateVolumeDeviceMap, hwrite, curDeviceInUse]

/-! ## Conditions -/

structure Right (d : Driver) : Prop where
  listed : Listed (curDeviceInUse d.configMap) d.volumes
  ids : (d.volumes.map Volume.volID).Nodup

def Accessible (o : ConfigMapAccess) : Prop := o.read = none ∧ o.write = none

instance (o : ConfigMapAccess) : Decidable (Accessible o) := inferInstanceAs (Decidable (_ ∧ _))

/-- What the events need: a state file that can be written, a list that can be read and written when
the first volume comes to a disk or the last one goes, and a list that can be read when a disk with a
volume is to be disabled. -/
def Good (s : Sys) : Event → Prop
  | .createVolume req o => o.written = none ∧
      ∀ cm device, s.driver.configMap = some cm → ControllerServer.findDevice req cm = .ok device →
        Holds s.driver.volumes device.1 ∨ Accessible o.deviceInUse
  | .deleteVolume volumeId o =>
      ∀ vol, KeyedList.find Volume.volID volumeId s.driver.volumes = some vol →
        o.written = none ∧
          (Holds (KeyedList.remove Volume.volID volumeId s.driver.volumes) vol.deviceID ∨
            Accessible o.deviceInUse)
  | .deleteDisk devName attempts =>
      ∀ i < backoffSteps, ∀ dev, devNameToKey (attempts i).order devName s.info = some dev →
        Holds s.driver.volumes dev → (attempts i).configMapRead = none

def stateOf (info : NodeStaticIOInfo) (dev : String) : Option DiskState :=
  (info.deviceStates.lookup dev).map DeviceState.state

/-- An event that reports success leaves the right list, and no event disables a disk with a
volume. -/
def Protects (cfg : Config) (s : Sys) (e : Event) : Prop :=
  Possible s e →
    ((perform cfg s e).1 = true →
      Listed (curDeviceInUse (perform cfg s e).2.driver.configMap)
        (perform cfg s e).2.driver.volumes) ∧
    ∀ dev, stateOf (perform cfg s e).2.info dev = some .notEnabled →
      stateOf s.info dev ≠ some .notEnabled → ¬ Holds s.driver.volumes dev

/-! ## The driver -/

variable {d : Driver} {info' : NodeStaticIOInfo} {e : Event}

theorem right_create (h : Right d) {req : CreateVolumeRequest} {o : CreateOutcome}
    (hfresh : Lifecycle.Fresh d o) (hwritten : o.written = none)
    (hlist : ∀ cm device, d.configMap = some cm → findDevice req cm = .ok device →
      Holds d.volumes device.1 ∨ Accessible o.deviceInUse) :
    Right (createVolume cfg o req d).2 := by
  rw [createVolume_eq]
  cases hprepare : prepare cfg o req d with
  | error e => exact h
  | ok vol =>
    obtain ⟨cm, volAccessType, device, volumeID, hcm, -, hc, -, huuid, rfl⟩ :=
      request_eq_ok.mp (prepare_eq_ok.mp hprepare).1
    simp only [State.updateVolume, State.dump, hwritten]
    refine ⟨?_, nodup_put h.ids _⟩
    have hnew : ∀ x, Holds (put Volume.volID (newVolume req volAccessType
        device.1 device.2 volumeID) d.volumes) x ↔ Holds d.volumes x ∨ x = device.1 := by
      intro x
      unfold Holds
      simp only [mem_put_iff h.ids]
      constructor
      · rintro ⟨v, rfl | ⟨hv, -⟩, rfl⟩
        · exact .inr rfl
        · exact .inl ⟨v, hv, rfl⟩
      · rintro (⟨v, hv, rfl⟩ | rfl)
        · refine ⟨v, .inr ⟨hv, fun hid => ?_⟩, rfl⟩
          exact (hfresh volumeID huuid).1 (mem_map.mpr ⟨v, hv, hid⟩)
        · exact ⟨_, .inl rfl, rfl⟩
    rw [curDeviceInUse_update]
    · exact listed_add h.listed hnew
    refine (hlist cm device hcm hc.device).symm.imp_right fun hholds => ?_
    have hmem := (h.listed.mem device.1).mpr hholds
    have hdevice : (newVolume req volAccessType device.1 device.2
      volumeID).deviceID = device.1 := rfl
    simp [calDeviceInUse, hdevice, hmem]

theorem right_delete (h : Right d) {volumeId : String} {o : DeleteOutcome}
    (hgood : ∀ vol, find Volume.volID volumeId d.volumes = some vol → o.written = none ∧
      (Holds (remove Volume.volID volumeId d.volumes) vol.deviceID ∨
        Accessible o.deviceInUse)) : Right (deleteVolume cfg o volumeId d).2 := by
  rw [deleteVolume_eq]
  rcases hprepare : prepareDelete cfg o volumeId d with e | _ | vol
  · exact h
  · exact h
  obtain ⟨hfind, -⟩ := prepareDelete_ok hprepare
  obtain ⟨hwritten, hlist⟩ := hgood vol hfind
  simp only [State.dump, hwritten]
  refine ⟨?_, nodup_remove h.ids _⟩
  rw [curDeviceInUse_update]
  · refine listed_remove h.listed (fun x hx => ?_) ?_
    · constructor
      · rintro ⟨v, hv, hdev⟩
        exact ⟨v, mem_of_mem_remove hv, hdev⟩
      · rintro ⟨v, hv, hdev⟩
        refine ⟨v, mem_remove_of_ne hv fun hid => hx ?_, hdev⟩
        have hsame := (find_eq_some_iff h.ids).mpr ⟨hv, hid⟩
        obtain rfl := Option.some.inj (hfind.symm.trans hsame)
        exact hdev.symm
    · rintro ⟨v, hv, hdev⟩
      exact ⟨v, mem_of_mem_remove hv, hdev⟩
  · refine hlist.symm.imp_right ?_
    rintro ⟨v, hv, hdev⟩
    unfold calDeviceInUse
    rw [if_neg Bool.false_ne_true, if_pos ⟨v, hv, hdev⟩]

/-! ## Disabling a disk -/

theorem deleteDiskOnce_ok {a : Attempt}
    (h : deleteDiskOnce node devName cm info a = .ok info') :
    ∃ dev state, devNameToKey a.order devName info = some dev ∧
      info' = disable dev state info ∧ isInUse a.configMapRead dev cm = false := by
  unfold deleteDiskOnce at h
  split at h
  · cases h
  split at h
  · cases h
  rename_i dev hdev
  split at h
  · cases h
  rename_i s hs
  split_ifs at h with huse hstate
  split at h
  · cases h
  split at h
  · cases h
  · cases h
  split at h
  · obtain rfl := Except.ok.inj h
    exact ⟨dev, s, hdev, rfl, by simpa using huse⟩
  · cases h
  · cases h

theorem deleteDisk_ok (h : deleteDisk node devName attempts cm info = .ok info') :
    ∃ i < backoffSteps, ∃ dev state, devNameToKey (attempts i).order devName info = some dev ∧
      info' = disable dev state info ∧ isInUse (attempts i).configMapRead dev cm = false := by
  unfold deleteDisk at h
  cases hrun : onError Failure.isConflict
      (fun i => deleteDiskOnce node devName cm info (attempts i)) (backoffSteps - 1) 0 with
  | error e =>
    rw [hrun] at h
    cases h
  | ok x =>
    rw [hrun] at h
    cases h
    obtain ⟨i, hi, hok⟩ := onError_ok hrun
    exact ⟨i, Nat.lt_of_le_of_lt hi (by decide), deleteDiskOnce_ok hok⟩

theorem stateOf_disable_of_ne {state : DeviceState} {x : String} (h : x ≠ dev) :
    stateOf (disable dev state info) x = stateOf info x := by
  unfold stateOf disable
  rw [Dict.lookup_insert_ite, if_neg h]

theorem deleteDisk_spares (h : Right s.driver) (hgood : Good s (.deleteDisk devName attempts))
    (hok : deleteDisk node devName attempts s.driver.configMap s.info = .ok info)
    (hnow : stateOf info dev = some .notEnabled) (hthen : stateOf s.info dev ≠ some .notEnabled) :
    ¬ Holds s.driver.volumes dev := by
  obtain ⟨i, hi, dev', state, hkey, rfl, huse⟩ := deleteDisk_ok hok
  intro hholds
  by_cases hdev : dev = dev'
  · subst hdev
    have hread := hgood i hi dev hkey hholds
    have hlisted := (h.listed.mem dev).mpr hholds
    simp [isInUse, hread, hlisted] at huse
  · rw [stateOf_disable_of_ne hdev] at hnow
    exact hthen hnow

/-! ## Whole runs -/

theorem right_step {s' : Sys} (hstep : step cfg s e = some s') (hgood : Good s e)
    (h : Right s.driver) : Right s'.driver := by
  unfold step at hstep
  split_ifs at hstep with hpossible
  obtain rfl := Option.some.inj hstep
  cases e with
  | createVolume req o => exact right_create h hpossible hgood.1 hgood.2
  | deleteVolume volumeId o => exact right_delete h hgood
  | deleteDisk devName attempts =>
    simp only [perform]
    cases deleteDisk cfg.nodeID devName attempts s.driver.configMap s.info <;> exact h

theorem protects_of_good (hgood : Good s e) (h : Right s.driver) : Protects cfg s e := by
  intro hpossible
  have hright : Right (perform cfg s e).2.driver :=
    right_step (if_pos hpossible) hgood h
  refine ⟨fun _ => hright.listed, fun dev hnow hthen => ?_⟩
  cases e with
  | createVolume | deleteVolume => exact absurd hnow hthen
  | deleteDisk devName attempts =>
    simp only [perform] at hnow
    cases hok : deleteDisk cfg.nodeID devName attempts s.driver.configMap s.info with
    | error e =>
      rw [hok] at hnow
      exact absurd hnow hthen
    | ok info =>
      rw [hok] at hnow
      exact deleteDisk_spares h hgood hok hnow hthen

theorem right_start (claims : Option (Dict String String)) (info : NodeStaticIOInfo) :
    Right (start claims info).driver := by
  have hlist : curDeviceInUse (start claims info).driver.configMap = [] := by
    cases claims <;> rfl
  refine ⟨⟨hlist ▸ nodup_nil, fun dev => ?_⟩, nodup_nil⟩
  rw [hlist]
  refine iff_of_false not_mem_nil ?_
  rintro ⟨v, hv, -⟩
  cases hv

/-- The list and the disks are protected, whatever fails. -/
def AlwaysProtected : Prop :=
  ∀ cfg claims info es, Along (step cfg) (Protects cfg) (start claims info) es

theorem disks_protected {cfg : Config} {claims : Option (Dict String String)}
    {info : NodeStaticIOInfo} {es : List Event}
    (hgood : Along (step cfg) Good (start claims info) es) :
    Along (step cfg) (Protects cfg) (start claims info) es :=
  along_of_invariant (I := fun s => Right s.driver)
    (fun _ _ _ hstep hc h => right_step hstep hc h) (fun _ _ hc h => protects_of_good hc h)
    (right_start claims info) hgood

/-! ## A disk with a volume -/

def sampleInfo : NodeStaticIOInfo :=
  ⟨Finmap.singleton "d" ⟨"sda", .ready⟩, some (Finmap.singleton "d" .otherDevice)⟩

def creation (access : ConfigMapAccess) : Event :=
  .createVolume sampleRequest { allOk "v" with deviceInUse := access }

def removal : Event := .deleteDisk "sda" fun _ => ⟨none, ["d"], none, .ok⟩

theorem disks_protected_accessible :
    Along (step sampleConfig) (Protects sampleConfig)
      (start (some sampleMap.data) sampleInfo) [creation ⟨none, none⟩, removal] := by
  refine disks_protected ⟨⟨rfl, fun cm device _ _ => .inr ⟨rfl, rfl⟩⟩, ?_⟩
  cases step sampleConfig (start (some sampleMap.data) sampleInfo) (creation ⟨none, none⟩) with
  | none => trivial
  | some s =>
    refine ⟨fun _ _ _ _ _ => rfl, ?_⟩
    cases step sampleConfig s removal <;> trivial

/-- The ConfigMap cannot be written when the volume is created; the list stays empty, and the disk
is disabled. -/
theorem not_alwaysProtected : ¬ AlwaysProtected := by
  intro h
  have hall := h sampleConfig (some sampleMap.data) sampleInfo
    ([creation ⟨none, some "conflict"⟩] ++ [removal])
  obtain ⟨s, hs, hholds, hthen, hnow⟩ :
      ∃ s ∈ run (step sampleConfig) (start (some sampleMap.data) sampleInfo)
          [creation ⟨none, some "conflict"⟩],
        Holds s.driver.volumes "d" ∧ stateOf s.info "d" ≠ some .notEnabled ∧
          stateOf (perform sampleConfig s removal).2.info "d" = some .notEnabled := by
    decide +kernel
  obtain ⟨hlast, -⟩ := Along.of_append hall hs
  exact (hlast trivial).2 "d" hnow hthen hholds

end IOIsolation.Csi.DisksInUse
