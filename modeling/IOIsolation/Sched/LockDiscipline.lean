import IOIsolation.Sched.Accounting
import IOIsolation.Sched.EventHandler

/-!
# Sched.LockDiscipline

The mutex of the shared context in the block I/O handler and the claim events, read as a
non-reentrant flag. A call is disciplined when it never waits for a mutex its own call chain
holds, and returns with the flag as it found it.

* `addPod_disciplined_iff`    — `AddPod` is disciplined unless a volume makes `volumeDeviceMapping`
  return early.
* `removePod_disciplined_iff` — `RemovePod` is disciplined unless the undo of a pending claim
  gets as far as its own `Lock`.
* `deletePVC_disciplined`, `onUpdatePVC_disciplined` — the claim events always are.
-/

namespace IOIsolation.Sched

open Lib Outcome Option LockModel

/-- The call does not deadlock, and if it returns the flag is `held` again. A panic ends the
process. -/
def Disciplined {α : Type} (held : Bool) (flag : α → Bool) : Outcome α → Prop
  | .done a => flag a = held
  | .panic => True
  | .deadlock => False

namespace BlockIo

/-! ## `AddPod` -/

/-- The volume is a claim of the provisioner, as far as the API answers tell. -/
def IsIOI (provisioner : Volume → ProvisionerAnswer) (vol : Volume) : Prop :=
  vol.claimName.isSome = true ∧ isIOIProvisioner (provisioner vol) = .done (.ok true)

/-- The provisioner call for the volume, if there is one, does not dereference nil. -/
def Answers (provisioner : Volume → ProvisionerAnswer) (vol : Volume) : Prop :=
  vol.claimName.isSome = true → (provisioner vol).Returns

/-- The claim of the volume was placed on a disk: it is in the pod's placement, and unless it
reuses a bound disk, its disk is registered. -/
def Placed (ps : Resource) (pvcMap : Dict String PVCInfo) (ns : String) (vol : Volume) : Prop :=
  ∃ claim dev, vol.claimName = some claim ∧ pvcMap.lookup (claimKey claim ns) = some dev ∧
    (dev.reuse = false → dev.devID ∈ ps.info.disksStatus)

def Unplaced (ps : Resource) (pvcMap : Dict String PVCInfo) (ns : String)
    (provisioner : Volume → ProvisionerAnswer) (vols : List Volume) : Prop :=
  Reaches (fun v => Answers provisioner v ∧ (IsIOI provisioner v → Placed ps pvcMap ns v))
    (fun v => IsIOI provisioner v ∧ ¬ Placed ps pvcMap ns v) vols

variable {vol : Volume} {vols : List Volume}

/-- What the loops over the volumes do at one of them: `body` for a claim of the provisioner, and
`rest` otherwise. -/
def atClaim {α : Type} (provisioner : Volume → ProvisionerAnswer) (vol : Volume) (rest : Outcome α)
    (body : String → Outcome α) : Outcome α :=
  match vol.claimName with
  | none => rest
  | some pvc => do
    match ← isIOIProvisioner (provisioner vol) with
    | .ok true => body pvc
    | _ => rest

theorem atClaim_cases {α : Type} (provisioner : Volume → ProvisionerAnswer) (vol : Volume)
    (rest : Outcome α) (body : String → Outcome α) :
    ¬ Answers provisioner vol ∧ ¬ IsIOI provisioner vol ∧
        atClaim provisioner vol rest body = .panic ∨
      Answers provisioner vol ∧
        (¬ IsIOI provisioner vol ∧ atClaim provisioner vol rest body = rest ∨
          ∃ pvc, vol.claimName = some pvc ∧ IsIOI provisioner vol ∧
            atClaim provisioner vol rest body = body pvc) := by
  unfold atClaim
  cases hc : vol.claimName with
  | none => exact .inr ⟨by simp [Answers, hc], .inl ⟨by simp [IsIOI, hc], rfl⟩⟩
  | some pvc =>
    rcases isIOIProvisioner_cases (provisioner vol) with ⟨⟨r, hr⟩, hret⟩ | ⟨hr, hret⟩
    · have hioi : IsIOI provisioner vol ↔ r = .ok true := by simp [IsIOI, hc, hr]
      refine .inr ⟨fun _ => hret, ?_⟩
      simp only [hr, done_bind, hioi]
      rcases r with e | (_ | _)
      · exact .inl ⟨by simp, rfl⟩
      · exact .inl ⟨by simp, rfl⟩
      · exact .inr ⟨pvc, rfl, rfl, rfl⟩
    · refine .inl ⟨fun h => hret (h (by simp [hc])), fun h => ?_, by simp [hr]⟩
      have hdone := h.2
      rw [hr] at hdone
      cases hdone

/-- What `mapVolumes` does at a volume: it panics, stops at a claim that was not placed, goes on with
the same maps, or enters a claim into both of them. -/
theorem mapVolumes_cons (ps : Resource) (pvcMap : Dict String PVCInfo) (pod : Pod)
    (provisioner : Volume → ProvisionerAnswer) (vol : Volume) (vols : List Volume)
    (mapping : Dict String String) (claims : Dict String StorageInfo) :
    let run := mapVolumes ps pvcMap pod provisioner
    ¬ Answers provisioner vol ∧ ¬ IsIOI provisioner vol ∧
        run (vol :: vols) mapping claims = .panic ∨
      Answers provisioner vol ∧
        ((IsIOI provisioner vol ∧ ¬ Placed ps pvcMap pod.ns vol ∧
            ∃ err, run (vol :: vols) mapping claims = .done (mapping, claims, .error err)) ∨
          ((IsIOI provisioner vol → ∃ pvc dev, vol.claimName = some pvc ∧
              pvcMap.lookup (claimKey pvc pod.ns) = some dev ∧ dev.reuse = true) ∧
            run (vol :: vols) mapping claims = run vols mapping claims) ∨
          ∃ pvc dev disk, IsIOI provisioner vol ∧ vol.claimName = some pvc ∧
            pvcMap.lookup (claimKey pvc pod.ns) = some dev ∧ dev.reuse = false ∧
            ps.info.disksStatus.lookup dev.devID = some disk ∧
            run (vol :: vols) mapping claims =
              run vols (mapping.insert (claimKey pvc pod.ns) (dev.devID ++ ":" ++ disk.mountPath))
                (claims.insert (claimKey pvc pod.ns) ⟨dev.devID, dev.reqStorage, ps.nodeName⟩)) := by
  intro run
  have hrun : run (vol :: vols) mapping claims =
      atClaim provisioner vol (run vols mapping claims) _ := rfl
  rw [hrun]
  rcases atClaim_cases provisioner vol (run vols mapping claims) _ with
    h | ⟨hans, ⟨hno, h⟩ | ⟨pvc, hc, hioi, h⟩⟩
  · exact .inl h
  · exact .inr ⟨hans, .inr (.inl ⟨fun hioi => absurd hioi hno, h⟩)⟩
  refine .inr ⟨hans, ?_⟩
  rw [h]
  cases hdev : pvcMap.lookup (claimKey pvc pod.ns) with
  | none =>
    simp only [hdev]
    refine .inl ⟨hioi, ?_, _, rfl⟩
    rintro ⟨claim, dev, hclaim, hlook, -⟩
    rw [hc, some.injEq] at hclaim
    rw [← hclaim, hdev] at hlook
    cases hlook
  | some dev =>
    cases hre : dev.reuse with
    | true => exact .inr (.inl ⟨fun _ => ⟨pvc, dev, hc, hdev, hre⟩, by simp [run, hdev, hre]⟩)
    | false =>
      cases hdisk : ps.info.disksStatus.lookup dev.devID with
      | none =>
        simp only [hdev, hre, hdisk]
        refine .inl ⟨hioi, ?_, _, rfl⟩
        rintro ⟨claim, dev', hclaim, hlook, hmem⟩
        rw [hc, some.injEq] at hclaim
        rw [← hclaim, hdev, some.injEq] at hlook
        subst hlook
        exact Finmap.lookup_eq_none.mp hdisk (hmem hre)
      | some disk =>
        exact .inr (.inr ⟨pvc, dev, disk, hioi, hc, hdev, hre, hdisk, by
          simp [run, hdev, hre, hdisk]⟩)

theorem unplaced_cons {ps : Resource} {pvcMap : Dict String PVCInfo} {ns : String}
    {provisioner : Volume → ProvisionerAnswer} :
    Unplaced ps pvcMap ns provisioner (vol :: vols) ↔
      IsIOI provisioner vol ∧ ¬ Placed ps pvcMap ns vol ∨
        (Answers provisioner vol ∧ (IsIOI provisioner vol → Placed ps pvcMap ns vol)) ∧
          Unplaced ps pvcMap ns provisioner vols :=
  Iff.rfl

/-- The loop returns an error exactly when `bad`. -/
def FailsExactly (bad : Prop) :
    Outcome (Dict String String × Dict String StorageInfo × Except String Unit) → Prop
  | .done (_, _, .error _) => bad
  | .done (_, _, .ok _) => ¬ bad
  | .panic => ¬ bad
  | .deadlock => False

/-- The locked loop of `volumeDeviceMapping` fails exactly at an unplaced claim. -/
theorem mapVolumes_fails (ps : Resource) (pvcMap : Dict String PVCInfo) (pod : Pod)
    (provisioner : Volume → ProvisionerAnswer) (vols : List Volume)
    (mapping : Dict String String) (claims : Dict String StorageInfo) :
    FailsExactly (Unplaced ps pvcMap pod.ns provisioner vols)
      (mapVolumes ps pvcMap pod provisioner vols mapping claims) := by
  induction vols generalizing mapping claims with
  | nil => exact id
  | cons vol vols ih =>
    -- the loop passes over the volume
    have hpass : ∀ m c, Answers provisioner vol →
        (IsIOI provisioner vol → Placed ps pvcMap pod.ns vol) →
        FailsExactly (Unplaced ps pvcMap pod.ns provisioner (vol :: vols))
          (mapVolumes ps pvcMap pod provisioner vols m c) := by
      intro m c hans hpl
      have hiff : Unplaced ps pvcMap pod.ns provisioner (vol :: vols) ↔
          Unplaced ps pvcMap pod.ns provisioner vols := by
        constructor
        · rintro (⟨h1, h2⟩ | ⟨-, h⟩)
          · exact absurd (hpl h1) h2
          · exact h
        · exact fun h => .inr ⟨⟨hans, hpl⟩, h⟩
      rw [hiff]
      exact ih m c
    rcases mapVolumes_cons ps pvcMap pod provisioner vol vols mapping claims with
      ⟨hans, hno, h⟩ | ⟨hans, ⟨hioi, hpl, err, h⟩ | ⟨hre, h⟩ | ⟨pvc, dev, disk, -, hc, hdev, -, hdisk, h⟩⟩
    · rw [h, FailsExactly, unplaced_cons]
      rintro (⟨hioi, -⟩ | ⟨⟨h, -⟩, -⟩)
      · exact hno hioi
      · exact hans h
    · rw [h]
      exact unplaced_cons.mpr (.inl ⟨hioi, hpl⟩)
    · rw [h]
      refine hpass mapping claims hans fun hioi => ?_
      obtain ⟨pvc, dev, hc, hdev, hre⟩ := hre hioi
      exact ⟨pvc, dev, hc, hdev, by simp [hre]⟩
    · rw [h]
      exact hpass _ _ hans fun _ => ⟨pvc, dev, hc, hdev, fun _ => Finmap.mem_of_lookup_eq_some hdisk⟩

/-- What makes `AddPod` return with the mutex locked: all disks are charged, and then the mapping
of the volumes stops at an unplaced claim. -/
structure StaysLocked (ps : Resource) (pod : Pod) (request : RequestInfo) (a : MappingAnswers) :
    Prop where
  charged : ∀ e ∈ request.resourceRequest.entries,
    e.1 ∈ ps.info.disksStatus ∧ Chargeable e.2.ioRequest
  maps : request.pvcToDevice ≠ ∅
  unplaced : Unplaced ps request.pvcToDevice pod.ns a.provisioner pod.volumes

variable {env : Env}

theorem volumeDeviceMapping_disciplined_iff (ps : Resource) (pvcMap : Dict String PVCInfo)
    (pod : Pod) (a : MappingAnswers) (hfree : env.held = false) :
    Disciplined false (fun r => r.1.held)
        (volumeDeviceMapping .nonReentrant ps pvcMap pod a env) ↔
      ¬ Unplaced ps pvcMap pod.ns a.provisioner pod.volumes := by
  have hloop := mapVolumes_fails ps pvcMap pod a.provisioner pod.volumes ∅ env.ctx.claimDevMap
  unfold volumeDeviceMapping
  rw [hfree]
  cases hm : mapVolumes ps pvcMap pod a.provisioner pod.volumes ∅ env.ctx.claimDevMap with
  | panic => rw [hm] at hloop; exact ⟨fun _ => hloop, fun _ => trivial⟩
  | deadlock => rw [hm] at hloop; exact hloop.elim
  | done x =>
    obtain ⟨mapping, claims, r⟩ := x
    rw [hm] at hloop
    cases r with
    | error err => exact ⟨fun h => absurd h Bool.noConfusion, fun h => absurd hloop h⟩
    | ok u =>
      refine ⟨fun _ => hloop, fun _ => ?_⟩
      by_cases hmap : mapping = ∅
      · simp [hmap, Disciplined]
      · simp [hmap, Disciplined]

theorem addPod_some_disciplined_iff (ps : Resource) (pod : Pod) (request : RequestInfo)
    (a : MappingAnswers) (hfree : env.held = false) :
    Disciplined false (fun r => r.2.1.held)
        (addPod .nonReentrant ps pod (some request) a env) ↔
      ¬ StaysLocked ps pod request a := by
  unfold addPod
  rcases chargeAll_cases ps.nodeName request.resourceRequest.entries ps.info.disksStatus with
    ⟨⟨disks, reqs, hc⟩, hall⟩ | ⟨hc, hall⟩
  · have hkeys : ∀ dev, dev ∈ disks ↔ dev ∈ ps.info.disksStatus := by
      intro dev
      rw [(chargeAll_done hc).1, mem_takeAll]
    have hplaced : Unplaced (ps.setDisks disks) request.pvcToDevice pod.ns a.provisioner
        pod.volumes ↔ Unplaced ps request.pvcToDevice pod.ns a.provisioner pod.volumes := by
      simp only [Unplaced, Placed, Resource.setDisks_disksStatus, hkeys]
    simp only [hc, done_bind]
    by_cases hmaps : request.pvcToDevice = ∅
    · rw [if_pos hmaps]
      exact ⟨fun _ h => h.maps hmaps, fun _ => hfree⟩
    rw [if_neg hmaps]
    have hmap := volumeDeviceMapping_disciplined_iff (ps.setDisks disks) request.pvcToDevice
      pod a hfree
    rw [hplaced] at hmap
    have hstay : StaysLocked ps pod request a ↔
        Unplaced ps request.pvcToDevice pod.ns a.provisioner pod.volumes :=
      ⟨StaysLocked.unplaced, fun h => ⟨hall, hmaps, h⟩⟩
    rw [hstay, ← hmap]
    cases volumeDeviceMapping .nonReentrant (ps.setDisks disks) request.pvcToDevice pod a env with
    | panic | deadlock => exact Iff.rfl
    | done x =>
      obtain ⟨env', r⟩ := x
      cases r <;> exact Iff.rfl
  · refine ⟨fun _ h => hall h.charged, fun _ => ?_⟩
    rcases hc with ⟨disks, err, hc⟩ | hc
    · simp [hc, hfree, Disciplined]
    · simp [hc, Disciplined]

/-- `AddPod` keeps the discipline unless it stops at an unplaced claim after charging the disks. -/
theorem addPod_disciplined_iff (ps : Resource) (pod : Pod) (rawRequest : Option RequestInfo)
    (a : MappingAnswers) (hfree : env.held = false) :
    Disciplined false (fun r => r.2.1.held)
        (addPod .nonReentrant ps pod rawRequest a env) ↔
      ¬ ∃ request, rawRequest = some request ∧ StaysLocked ps pod request a := by
  cases rawRequest with
  | none => simp [addPod, Disciplined, hfree]
  | some request =>
    simp only [some.injEq, exists_eq_left']
    exact addPod_some_disciplined_iff ps pod request a hfree

/-! ## `RemovePod` -/

/-- The undo passes over the volume without touching the mutex. -/
def Skips (a : UndoAnswers) (vol : Volume) : Prop :=
  Answers a.provisioner vol ∧
    (IsIOI a.provisioner vol → ∀ obj, a.getPVC vol = .ok obj → obj.phase ≠ .pending)

/-- The undo gets to a pending claim and drops it from the ConfigMap, so that it calls `Lock`. -/
def LocksAgain (nodename : String) (a : UndoAnswers) (cms : ConfigMaps) (vol : Volume) : Prop :=
  IsIOI a.provisioner vol ∧ ∃ obj cms', a.getPVC vol = .ok obj ∧ obj.phase = .pending ∧
    removePVCsFromVolDiskCm cms obj nodename (a.getFail vol) (a.updateFail vol) = .ok cms'

/-- The first volume the undo does not pass over makes it call `Lock`. -/
def UndoLocks (nodename : String) (a : UndoAnswers) (cms : ConfigMaps) (vols : List Volume) :
    Prop :=
  Reaches (Skips a) (LocksAgain nodename a cms) vols

theorem undoLocks_cons {nodename : String} {a : UndoAnswers} {cms : ConfigMaps} :
    UndoLocks nodename a cms (vol :: vols) ↔
      LocksAgain nodename a cms vol ∨ Skips a vol ∧ UndoLocks nodename a cms vols :=
  Iff.rfl

/-- The call waits for itself exactly when `bad`; otherwise it panics or its result is `good`. -/
def WaitsExactly {α : Type} (bad : Prop) (good : α → Prop) : Outcome α → Prop
  | .done x => ¬ bad ∧ good x
  | .panic => ¬ bad
  | .deadlock => bad

/-- A pending claim makes the undo wait for the mutex its caller holds; otherwise it changes
nothing. -/
theorem undoLoop_waits (pod : Pod) (nodename : String) (a : UndoAnswers) (vols : List Volume)
    (n : Nat) (hheld : env.held = true) :
    WaitsExactly (UndoLocks nodename a env.cms vols) (fun r => r.1 = n ∧ r.2.1 = env)
      (undoLoop .nonReentrant pod nodename a vols n env) := by
  induction vols with
  | nil => exact ⟨id, rfl, rfl⟩
  | cons vol vols ih =>
    -- the loop passes over the volume
    have hpass : Skips a vol → WaitsExactly (UndoLocks nodename a env.cms (vol :: vols))
        (fun r => r.1 = n ∧ r.2.1 = env) (undoLoop .nonReentrant pod nodename a vols n env) := by
      intro hskip
      have hiff : UndoLocks nodename a env.cms (vol :: vols) ↔
          UndoLocks nodename a env.cms vols := by
        constructor
        · rintro (⟨hioi, obj, -, hobj, hpend, -⟩ | ⟨-, h⟩)
          · exact absurd hpend (hskip.2 hioi obj hobj)
          · exact h
        · exact fun h => .inr ⟨hskip, h⟩
      rw [hiff]
      exact ih
    change WaitsExactly _ _ (atClaim a.provisioner vol _ _)
    rcases atClaim_cases a.provisioner vol (undoLoop .nonReentrant pod nodename a vols n env) _ with
      ⟨hans, hno, h⟩ | ⟨hans, ⟨hno, h⟩ | ⟨pvc, -, hvol, h⟩⟩
    · rw [h, WaitsExactly, undoLocks_cons]
      rintro (⟨hioi, -⟩ | ⟨⟨h, -⟩, -⟩)
      · exact hno hioi
      · exact hans h
    · rw [h]
      exact hpass ⟨hans, fun hioi => absurd hioi hno⟩
    rw [h]
    cases hpvc : a.getPVC vol with
    | error err => exact hpass ⟨hans, fun _ obj h => by rw [hpvc] at h; cases h⟩
    | ok obj =>
      by_cases hpend : obj.phase = .pending
      · simp only [hpend, ne_eq, not_true_eq_false, if_false]
        have hgo : ¬ Skips a vol := fun h => h.2 hvol obj hpvc hpend
        cases hrm : removePVCsFromVolDiskCm env.cms obj nodename (a.getFail vol)
            (a.updateFail vol) with
        | error err =>
          refine ⟨?_, rfl, rfl⟩
          rintro (⟨-, obj', cms', hobj', -, hrm'⟩ | ⟨h, -⟩)
          · rw [hpvc, Except.ok.injEq] at hobj'
            subst hobj'
            rw [hrm] at hrm'; cases hrm'
          · exact hgo h
        | ok cms =>
          simp only [hheld, nonReentrant_lock_true, deadlock_bind]
          exact undoLocks_cons.mpr (.inl ⟨hvol, obj, cms, hpvc, hpend, hrm⟩)
      · simp only [hpend, ne_eq, not_false_eq_true, if_true]
        refine hpass ⟨hans, fun _ obj' h => ?_⟩
        rw [hpvc, Except.ok.injEq] at h
        exact h ▸ hpend

theorem podHasPVCs_ne_deadlock (provisioner : Volume → ProvisionerAnswer) (vols : List Volume) :
    podHasPVCs provisioner vols ≠ .deadlock := by
  induction vols with
  | nil => simp [podHasPVCs]
  | cons vol vols ih =>
    change atClaim provisioner vol (podHasPVCs provisioner vols) (fun _ => .done true) ≠ _
    rcases atClaim_cases provisioner vol (podHasPVCs provisioner vols) fun _ => .done true with
      ⟨-, -, h⟩ | ⟨-, ⟨-, h⟩ | ⟨pvc, -, -, h⟩⟩
    · simp [h]
    · rw [h]
      exact ih
    · simp [h]

/-- What makes `RemovePod` wait for itself: a reserved pod whose disk requests can all be refunded,
with a client, and a pending claim whose undo gets to `Lock`. -/
structure LocksTwice (ps : Resource) (pod : Pod) (client : Option RemoveAnswers) (env : Env)
    (pl : PodList) (pr : PodRequest) (a : RemoveAnswers) : Prop where
  list : env.ctx.getReservedPods ps.nodeName = .ok pl
  reserved : pl.podList.lookup pod.uid = some pr
  refundable : ∀ v ∈ pr.request, CanRefund ps.info.disksStatus v
  client : client = some a
  claims : podHasPVCs a.provisioner pod.volumes = .done true
  locks : UndoLocks ps.nodeName a.undo env.cms pod.volumes

theorem undoVolumeDeviceMapping_waits (pod : Pod) (nodename : String) (a : UndoAnswers)
    (hheld : env.held = true) :
    WaitsExactly (UndoLocks nodename a env.cms pod.volumes) (fun r => r.1 = env)
      (undoVolumeDeviceMapping .nonReentrant pod nodename a env) := by
  have hloop := undoLoop_waits pod nodename a pod.volumes 0 hheld
  unfold undoVolumeDeviceMapping
  cases h : undoLoop .nonReentrant pod nodename a pod.volumes 0 env with
  | panic | deadlock => rw [h] at hloop; exact hloop
  | done x =>
    obtain ⟨n, env', r⟩ := x
    rw [h] at hloop
    obtain ⟨hbad, hn, henv⟩ := hloop
    subst hn henv
    exact ⟨hbad, rfl⟩

theorem removeLocked_waits (ps : Resource) (pod : Pod) (client : Option RemoveAnswers)
    (hheld : env.held = true) :
    WaitsExactly (∃ pl pr a, LocksTwice ps pod client env pl pr a) (fun r => r.2.1 = env)
      (removeLocked .nonReentrant ps pod client env) := by
  unfold removeLocked
  cases hlist : env.ctx.getReservedPods ps.nodeName with
  | error err =>
    refine ⟨?_, rfl⟩
    rintro ⟨pl, pr, a, h⟩
    have := h.list
    rw [hlist] at this; cases this
  | ok podreq =>
    dsimp only
    cases hpod : podreq.podList.lookup pod.uid with
    | none =>
      refine ⟨?_, rfl⟩
      rintro ⟨pl, pr, a, h⟩
      have hl := h.list
      rw [hlist, Except.ok.injEq] at hl
      have := h.reserved
      rw [← hl, hpod] at this; cases this
    | some e =>
      -- the list, the entry and the client of a double lock are the ones at hand
      have hsame : ∀ {pl pr a}, LocksTwice ps pod client env pl pr a →
          podreq = pl ∧ e = pr := by
        intro pl pr a h
        have hl := h.list
        rw [hlist, Except.ok.injEq] at hl
        have hr := h.reserved
        rw [← hl, hpod, some.injEq] at hr
        exact ⟨hl, hr⟩
      rcases refundAll_cases ps.nodeName e.request ps.info.disksStatus with
        ⟨⟨disks, href⟩, hall⟩ | ⟨hfail, hall⟩
      · simp only [href, done_bind]
        cases hcl : client with
        | none =>
          refine ⟨?_, rfl⟩
          rintro ⟨pl, pr, a, h⟩
          cases h.client
        | some a =>
          dsimp only
          cases hpvcs : podHasPVCs a.provisioner pod.volumes with
          | panic =>
            rintro ⟨pl, pr, a', h⟩
            obtain rfl := some.inj h.client
            have := h.claims
            rw [hpvcs] at this; cases this
          | deadlock => exact absurd hpvcs (podHasPVCs_ne_deadlock _ _)
          | done b =>
            cases b with
            | false =>
              refine ⟨?_, rfl⟩
              rintro ⟨pl, pr, a', h⟩
              obtain rfl := some.inj h.client
              have := h.claims
              rw [hpvcs] at this; cases this
            | true =>
              have hundo := undoVolumeDeviceMapping_waits pod ps.nodeName a.undo hheld
              have hiff : (∃ pl pr a', LocksTwice ps pod (some a) env pl pr a') ↔
                  UndoLocks ps.nodeName a.undo env.cms pod.volumes := by
                constructor
                · rintro ⟨pl, pr, a', h⟩
                  obtain rfl := some.inj h.client
                  exact h.locks
                · exact fun h => ⟨podreq, e, a, hlist, hpod, hall, rfl, hpvcs, h⟩
              rw [hiff]
              simp only [done_bind, if_true, Resource.setDisks_nodeName]
              cases h : undoVolumeDeviceMapping .nonReentrant pod ps.nodeName a.undo env with
              | panic | deadlock | done => rw [h] at hundo; exact hundo
      · have hnot : ¬ ∃ pl pr a, LocksTwice ps pod client env pl pr a := by
          rintro ⟨pl, pr, a, h⟩
          obtain ⟨-, rfl⟩ := hsame h
          exact hall h.refundable
        rcases hfail with ⟨disks, err, hfail⟩ | hfail
        · simp only [hfail, done_bind]
          exact ⟨hnot, rfl⟩
        · simp only [hfail, panic_bind]
          exact hnot

/-- `RemovePod` keeps the discipline unless the undo of a pending claim gets to its `Lock`. -/
theorem removePod_disciplined_iff (ps : Resource) (pod : Pod) (client : Option RemoveAnswers)
    (hfree : env.held = false) :
    Disciplined false (fun r => r.2.1.held)
        (removePod .nonReentrant ps pod client env) ↔
      ¬ ∃ pl pr a, LocksTwice ps pod client env pl pr a := by
  have hlocked : WaitsExactly _ _
      (removeLocked .nonReentrant ps pod client { env with held := true }) :=
    removeLocked_waits ps pod client rfl
  have hiff : (∃ pl pr a, LocksTwice ps pod client { env with held := true } pl pr a) ↔
      ∃ pl pr a, LocksTwice ps pod client env pl pr a :=
    ⟨fun ⟨pl, pr, a, h⟩ => ⟨pl, pr, a, h.1, h.2, h.3, h.4, h.5, h.6⟩,
      fun ⟨pl, pr, a, h⟩ => ⟨pl, pr, a, h.1, h.2, h.3, h.4, h.5, h.6⟩⟩
  rw [hiff] at hlocked
  unfold removePod
  rw [hfree]
  simp only [nonReentrant_lock_false, done_bind]
  cases h : removeLocked .nonReentrant ps pod client { env with held := true } with
  | panic => rw [h] at hlocked; exact ⟨fun _ => hlocked, fun _ => trivial⟩
  | deadlock => rw [h] at hlocked; exact ⟨False.elim, fun hn => hn hlocked⟩
  | done x =>
    obtain ⟨ps', env', r⟩ := x
    rw [h] at hlocked
    obtain ⟨hnot, henv⟩ := hlocked
    subst henv
    exact ⟨fun _ => hnot, fun _ => rfl⟩

theorem updatePVC_held (cache : Dict String Resource) (pvc : PersistentVolumeClaim)
    (nodename devId : String) (storage : Int) (add : Bool) (getFail updateFail : Option String)
    (env : Env) :
    (updatePVC cache pvc nodename devId storage add getFail updateFail env).2.1.held =
      env.held := by
  unfold updatePVC
  cases cache.lookup nodename with
  | none => rfl
  | some r =>
    dsimp only
    cases r.info.disksStatus.lookup devId with
    | none => rfl
    | some disk => cases add <;> cases pvc.selectedNode <;> rfl

end BlockIo

/-! ## The claim events -/

theorem updatePVCAll_held (handles : List HandleKind) (pvc : PersistentVolumeClaim)
    (node devId : String) (storage : Int) (add : Bool) (a : ClaimAnswers) (s : SchedState) :
    (updatePVCAll handles pvc node devId storage add a s).env.held = s.env.held := by
  unfold updatePVCAll
  by_cases h : HandleKind.blockIo ∈ handles
  · rw [if_pos h]
    exact BlockIo.updatePVC_held ..
  · rw [if_neg h]

variable {s : SchedState}

theorem deletePVC_disciplined (handles : List HandleKind) (obj : Option PersistentVolumeClaim)
    (a : ClaimAnswers) (hfree : s.env.held = false) :
    Disciplined false (fun s => s.env.held) (deletePVC .nonReentrant handles obj a s) := by
  unfold deletePVC
  cases obj with
  | none => exact hfree
  | some pvc =>
    simp only [hfree, nonReentrant_lock_false, done_bind]
    cases s.env.ctx.getStorageInfo (claimKey pvc.name pvc.ns) with
    | error err => rfl
    | ok info => simp [updatePVCAll_held, Disciplined]

theorem updateBound_disciplined (handles : List HandleKind) (pvc : PersistentVolumeClaim)
    (node : String) (add : Bool) (a : ClaimAnswers) (hfree : s.env.held = false) :
    Disciplined false (fun s => s.env.held)
      (updateBound .nonReentrant handles pvc node add a s) := by
  unfold updateBound getBoundDeviceId
  simp only [hfree, nonReentrant_lock_false, nonReentrant_unlock_true, done_bind, pure_eq]
  cases boundDevice pvc node a.getFail { s.env with held := true } with
  | error err => rfl
  | ok x =>
    obtain ⟨deviceId, qty⟩ := x
    by_cases hdev : deviceId ≠ "" ∧ qty ≥ 0
    · simp only [if_pos hdev]
      exact updatePVCAll_held ..
    · simp only [if_neg hdev]
      rfl

theorem onUpdatePVC_disciplined (handles : List HandleKind)
    (oldObj newObj : Option PersistentVolumeClaim) (a : ClaimAnswers) (hfree : s.env.held = false) :
    Disciplined false (fun s => s.env.held)
      (onUpdatePVC .nonReentrant handles oldObj newObj a s) := by
  unfold onUpdatePVC
  split
  · split
    · split_ifs
      · exact hfree
      · exact updateBound_disciplined _ _ _ _ _ hfree
      · exact updateBound_disciplined _ _ _ _ _ hfree
      · exact hfree
    · exact hfree
  · exact hfree

/-! ## The discipline of all four calls -/

/-- Every call keeps the discipline, whatever the pod, its claims and the API answers are. -/
def KeepsLockDiscipline : Prop :=
  (∀ ps pod rawRequest a (env : BlockIo.Env), env.held = false →
    Disciplined false (fun r => r.2.1.held)
      (BlockIo.addPod .nonReentrant ps pod rawRequest a env)) ∧
  (∀ ps pod client (env : BlockIo.Env), env.held = false →
    Disciplined false (fun r => r.2.1.held)
      (BlockIo.removePod .nonReentrant ps pod client env)) ∧
  (∀ handles obj a (s : SchedState), s.env.held = false →
    Disciplined false (fun s => s.env.held) (deletePVC .nonReentrant handles obj a s)) ∧
  (∀ handles old new a (s : SchedState), s.env.held = false →
    Disciplined false (fun s => s.env.held) (onUpdatePVC .nonReentrant handles old new a s))

/-- Which calls keep the discipline: `AddPod` unless a charged pod has an unplaced claim,
`RemovePod` unless a reserved pod has a pending claim that the undo drops, the claim events
always. -/
theorem lock_discipline_iff (ps : BlockIo.Resource) (pod : Pod)
    (rawRequest : Option BlockIo.RequestInfo) (a : BlockIo.MappingAnswers) (client : Option BlockIo.RemoveAnswers)
    (handles : List HandleKind) (old new : Option PersistentVolumeClaim) (c : ClaimAnswers)
    (s : SchedState) (hfree : s.env.held = false) :
    (Disciplined false (fun r => r.2.1.held)
        (BlockIo.addPod .nonReentrant ps pod rawRequest a s.env) ↔
      ¬ ∃ request, rawRequest = some request ∧ BlockIo.StaysLocked ps pod request a) ∧
    (Disciplined false (fun r => r.2.1.held) (BlockIo.removePod .nonReentrant ps pod client s.env) ↔
      ¬ ∃ pl pr answers, BlockIo.LocksTwice ps pod client s.env pl pr answers) ∧
    Disciplined false (fun s => s.env.held) (deletePVC .nonReentrant handles old c s) ∧
    Disciplined false (fun s => s.env.held) (onUpdatePVC .nonReentrant handles old new c s) :=
  ⟨BlockIo.addPod_disciplined_iff ps pod rawRequest a hfree,
    BlockIo.removePod_disciplined_iff ps pod client hfree,
    deletePVC_disciplined handles old c hfree,
    onUpdatePVC_disciplined handles old new c hfree⟩

/-! A reserved pod on one disk, with one volume `data` that is a claim of the provisioner. -/

def claimVolume : Volume := { name := "v", claimName := some "data", emptyDir := false }

def claimPod : Pod := { BlockIo.sdaPod "a" with volumes := [claimVolume] }

def claimObject (phase : ClaimPhase) : PersistentVolumeClaim :=
  { name := "data", ns := "default", phase := phase, storageClassName := some "ioi"
    selectedNode := some "n", storageProvisioner := some ioiProvisioner
    requestedStorage := some 1 }

def claimProvisioner (phase : ClaimPhase) : Volume → ProvisionerAnswer := fun _ =>
  ⟨.ok (claimObject phase), .ok ioiProvisioner⟩

def claimAnswers (phase : ClaimPhase) : BlockIo.RemoveAnswers :=
  { provisioner := claimProvisioner phase
    undo := {
      provisioner := claimProvisioner phase, getPVC := fun _ => .ok (claimObject phase)
      getFail := fun _ => none, updateFail := fun _ => none
      innerProvisioner := fun _ => claimProvisioner phase } }

def claimEnv : BlockIo.Env :=
  { BlockIo.sdaEnv with
    ctx := { BlockIo.sdaEnv.ctx with
      reservedpod := Finmap.singleton "n" ⟨1, Finmap.singleton "a" {
        podName := "a", podNamespace := "default", request := [] }⟩ }
    cms := Finmap.singleton "n" ∅ }

/-- `RemovePod` of a reserved pod with a pending claim waits for the mutex it holds. -/
theorem not_keepsLockDiscipline : ¬ KeepsLockDiscipline := by
  intro h
  have hdead : BlockIo.removePod .nonReentrant BlockIo.sdaNode claimPod
      (some (claimAnswers .pending)) claimEnv = .deadlock := by decide +kernel
  have := h.2.1 BlockIo.sdaNode claimPod (some (claimAnswers .pending)) claimEnv rfl
  exact this

def placedRequest : BlockIo.RequestInfo :=
  { BlockIo.sdaRequest .gaIndex with
    pvcToDevice := Finmap.singleton (claimKey "data" "default") ⟨"sda", 1, false⟩ }

def claimState : SchedState := ⟨⟨∅, ∅, ∅, ∅⟩, claimEnv⟩

/-- With the claim placed and bound, both calls give the mutex back. -/
theorem lock_discipline_iff_bound :
    Disciplined false (fun r => r.2.1.held)
        (BlockIo.addPod .nonReentrant BlockIo.sdaNode claimPod (some placedRequest)
          ⟨claimProvisioner .bound, none, none⟩ claimEnv) ∧
      Disciplined false (fun r => r.2.1.held)
        (BlockIo.removePod .nonReentrant BlockIo.sdaNode claimPod (some (claimAnswers .bound))
          claimEnv) := by
  have h := lock_discipline_iff BlockIo.sdaNode claimPod (some placedRequest)
    ⟨claimProvisioner .bound, none, none⟩ (some (claimAnswers .bound)) [.blockIo] none none
    ⟨none, none, none⟩ claimState rfl
  refine ⟨h.1.mpr ?_, h.2.1.mpr ?_⟩
  · rintro ⟨request, hreq, hstay⟩
    obtain rfl := some.inj hreq
    rcases hstay.unplaced with ⟨-, hnot⟩ | ⟨-, hnil⟩
    · exact hnot ⟨"data", ⟨"sda", 1, false⟩, rfl, by decide +kernel, fun _ => by decide +kernel⟩
    · exact hnil
  · rintro ⟨pl, pr, answers, htwice⟩
    obtain rfl := some.inj htwice.client
    rcases htwice.locks with ⟨-, obj, -, hobj, hpend, -⟩ | ⟨-, hnil⟩
    · obtain rfl := Except.ok.inj hobj
      cases hpend
    · exact hnil

end IOIsolation.Sched
