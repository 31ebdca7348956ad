import IOIsolation.Types
import IOIsolation.Lib.Outcome

/-!
# Sched.Api

The API server as the scheduler sees it: the answers to single calls, and the helper functions
built on them. An answer may be an error at any call, so the answers are arguments; what the
calls write is kept in the `ConfigMaps` state.
-/

namespace IOIsolation.Sched

open Lib

/-- The provisioner whose claims are placed on isolated devices. -/
def ioiProvisioner : String := "localstorage.csi.k8s.io"

/-- The answers to the two calls of `IsIOIProvisioner`: the claim, and the provisioner of its
storage class. -/
structure ProvisionerAnswer where
  claim : Except String PersistentVolumeClaim
  storageClass : Except String String

/-- `IsIOIProvisioner`; a claim without a storage class name is a nil dereference. -/
def isIOIProvisioner (a : ProvisionerAnswer) : Outcome (Except String Bool) :=
  match a.claim with
  | .error e => .done (.error e)
  | .ok claim => do
    let _ ← Outcome.ofOption claim.storageClassName
    match a.storageClass with
    | .error e => return .error e
    | .ok provisioner => return .ok (provisioner == ioiProvisioner)

/-- The call does not dereference a nil storage class name. -/
def ProvisionerAnswer.Returns (a : ProvisionerAnswer) : Prop :=
  ∀ claim, a.claim = .ok claim → claim.storageClassName.isSome = true

theorem isIOIProvisioner_cases (a : ProvisionerAnswer) :
    (∃ r, isIOIProvisioner a = .done r) ∧ a.Returns ∨
      isIOIProvisioner a = .panic ∧ ¬ a.Returns := by
  cases hc : a.claim with
  | error e =>
    refine .inl ⟨⟨.error e, by simp [isIOIProvisioner, hc]⟩, ?_⟩
    intro claim h
    rw [hc] at h; cases h
  | ok claim =>
    cases hs : claim.storageClassName with
    | none =>
      refine .inr ⟨by simp [isIOIProvisioner, hc, hs], ?_⟩
      intro h
      have := h claim hc
      rw [hs] at this; cases this
    | some sc =>
      refine .inl ⟨?_, ?_⟩
      · cases hp : a.storageClass with
        | error e => exact ⟨.error e, by simp [isIOIProvisioner, hc, hs, hp]⟩
        | ok p => exact ⟨.ok (p == ioiProvisioner), by simp [isIOIProvisioner, hc, hs, hp]⟩
      · intro claim' h
        rw [hc] at h; cases h; simp [hs]

/-- The volume-device-map ConfigMaps by node: claim key to `device:mountPath`. -/
abbrev ConfigMaps : Type := Dict String (Dict String String)

inductive ConfigMapAnswer where
  | notFound
  | failed (err : String)
  | found (data : Dict String String)

/-- `GetVolumeDeviceMap`, where `fail` is an error of the call other than NotFound. -/
def getVolumeDeviceMap (cms : ConfigMaps) (nodename : String) (fail : Option String) :
    ConfigMapAnswer :=
  if nodename.length = 0 then .failed "node name cannot be empty"
  else
    match fail, cms.lookup nodename with
    | some e, _ => .failed e
    | none, none => .notFound
    | none, some data => .found data

/-- `RemovePVCsFromVolDiskCm`: drop the claim from the node's ConfigMap, which is updated even if
the claim is not in it. -/
def removePVCsFromVolDiskCm (cms : ConfigMaps) (pvc : PersistentVolumeClaim) (nodename : String)
    (getFail updateFail : Option String) : Except String ConfigMaps :=
  match getVolumeDeviceMap cms nodename getFail with
  | .notFound =>
    .error s!"configMap for volume device binding does not exists on node {nodename}"
  | .failed err =>
    .error s!"failed to get ConfigMap volume-device-map: nodename {nodename}, err: {err} "
  | .found data =>
    if data = ∅ then .ok cms
    else
      match updateFail with
      | some e => .error e
      | none => .ok (cms.insert nodename (data.erase (claimKey pvc.name pvc.ns)))

end IOIsolation.Sched
