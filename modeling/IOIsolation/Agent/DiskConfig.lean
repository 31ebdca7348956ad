import IOIsolation.Agent.EventCache
import IOIsolation.Lib.Quantity
import IOIsolation.Types
import Mathlib.Data.Rat.Floor

/-!
# Agent.DiskConfig

The resource configuration the disk engine holds. A profile is turned into devices with the values
of the admin configuration in force (`newDevice`); an admin event sets these values for later
profiles, and the first one of a restarted agent replaces the whole configuration by the stored
one. Both go through the event cache, since a profile has to wait for the first admin event.
Publishing the configuration is left out.

* `profile_runs_twice`     — a cached profile is handled twice.
* `drain_profiles`         — the profiles in the cache leave the last of them in force all the same.
* `configuration_holds`    — the configuration comes from the last admin event and the last profile, as
  long as nothing stored is loaded and no admin event changes the values a profile was read with.
-/

namespace IOIsolation.Agent

open Lib Option Finset

/-! ## Profiles -/

/-- A profiled disk. -/
structure DiskInfo where
  name : String
  majorMinor : String
  type : String
  mountPoint : String
  capacity : String
  totalBPS : ℚ
  totalRBPS : ℚ
  totalWBPS : ℚ
  readRatio : Dict String ℚ
  writeRatio : Dict String ℚ
  deriving DecidableEq

abbrev DiskInfos : Type := Dict String DiskInfo

def emptyDir : String := "emptyDir"

structure AdminResourceConfig where
  initFlag : Bool
  diskBePool : Int
  diskSysPool : Int
  namespaceWhitelist : Finset String
  sysDiskRatio : Int
  profileTime : Int
  diskMinPodInBw : Int
  diskMinPodOutBw : Int
  deriving DecidableEq

/-- The values of an admin event that go into the devices of a profile. -/
structure AdminValues where
  sysPool : Int
  sysDiskRatio : Int
  profileTimes : Int
  minPodDiskInBw : ℚ
  minPodDiskOutBw : ℚ
  deriving DecidableEq

def AdminResourceConfig.values (a : AdminResourceConfig) : AdminValues :=
  { sysPool := a.diskSysPool
    sysDiskRatio := a.sysDiskRatio
    profileTimes := a.profileTime
    minPodDiskInBw := a.diskMinPodInBw
    minPodDiskOutBw := a.diskMinPodOutBw }

/-- A measured bandwidth; the system's share is taken off the disk of the `emptyDir` volumes. -/
def scaled (v : AdminValues) (type : String) (bps : ℚ) : ℚ :=
  if type = emptyDir then bps * ((100 - v.sysPool) / 100) * v.profileTimes
  else bps * v.profileTimes

def newDiskInfo (v : AdminValues) (d : DiskInfo) : DiskInfo :=
  { d with
    type := ""
    capacity := ""
    totalBPS := scaled v d.type d.totalBPS
    totalRBPS := scaled v d.type d.totalRBPS
    totalWBPS := scaled v d.type d.totalWBPS }

section

variable [QuantityParser]

/-- The size of a device; `MustParse` panics on a capacity that cannot be read. -/
def newDiskSize (v : AdminValues) (d : DiskInfo) : Option String :=
  if d.type = emptyDir then
    (parseQuantity d.capacity).map fun dv =>
      toString ((dv.value.ceil * v.sysDiskRatio).tdiv 100)
  else some d.capacity

def newDevice (v : AdminValues) (d : DiskInfo) : Option Device :=
  (newDiskSize v d).map fun size =>
    { name := d.name
      type := if d.type = emptyDir then .defaultDevice else .otherDevice
      defaultIn := v.minPodDiskInBw
      defaultOut := v.minPodDiskOutBw
      readRatio := d.readRatio
      writeRatio := d.writeRatio
      capacityIn := (newDiskInfo v d).totalRBPS
      capacityOut := (newDiskInfo v d).totalWBPS
      capacityTotal := (newDiskInfo v d).totalBPS
      diskSize := size
      mountPath := d.mountPoint }

def newDevices (v : AdminValues) (profile : DiskInfos) : Dict String Device :=
  Dict.filterMapVals (fun _ d => newDevice v d) profile

def Parsable (v : AdminValues) (profile : DiskInfos) : Prop :=
  ∀ id ∈ profile.keys, ((profile.lookup id).bind (newDevice v)).isSome = true

instance (v : AdminValues) (profile : DiskInfos) : Decidable (Parsable v profile) :=
  inferInstanceAs (Decidable (∀ id ∈ profile.keys, _))

theorem parsable_empty (v : AdminValues) : Parsable v ∅ := by
  intro id h
  simp at h

/-! ## The handlers -/

/-- The part of the disk engine its configuration depends on. `stored` is the disk part of the
custom resource that `GetDiskStaticCR` finds, if it does. -/
structure DiskEngine where
  profile : DiskInfos
  isProfiled : Bool
  resourceConfig : ResourceConfigSpec
  diskInfos : DiskInfos
  nsWhitelist : Finset String
  values : AdminValues
  stored : Option ResourceConfigSpec
  deriving DecidableEq

def DiskEngine.init (stored : Option ResourceConfigSpec) : DiskEngine :=
  { profile := ∅
    isProfiled := false
    resourceConfig := ⟨0, ∅, []⟩
    diskInfos := ∅
    nsWhitelist := ∅
    values := ⟨20, 0, 1, 5, 5⟩
    stored := stored }

namespace DiskEngine

/-- The body of `ProcessProfile` for a new profile. -/
def takeProfile (e : DiskEngine) (profile : DiskInfos) : Option DiskEngine :=
  if Parsable e.values profile then
    some { e with
      isProfiled := false
      profile := profile
      resourceConfig := { e.resourceConfig with devices := newDevices e.values profile }
      diskInfos := Dict.mapVals (fun _ d => newDiskInfo e.values d) profile ∪ e.diskInfos }
  else none

/-- The body of `ProcessAdmin` up to its call of `SetFlag`. -/
def takeAdmin (e : DiskEngine) (a : AdminResourceConfig) (firstAdmin : Bool) : DiskEngine :=
  let e := { e with
    resourceConfig := { e.resourceConfig with bePool := a.diskBePool }
    nsWhitelist := a.namespaceWhitelist
    values := a.values }
  if a.initFlag ∧ ¬ firstAdmin then
    match e.stored with
    | some cr => { e with resourceConfig := cr }
    | none => e
  else e

end DiskEngine

/-- The handlers run on the engine, or on nothing once the agent has crashed. -/
def profileAction (profile : DiskInfos) : Action (Option DiskEngine)
  | _, none => (none, ∅)
  | _, some e =>
    if e.profile ≠ profile ∨ e.isProfiled then
      match e.takeProfile profile with
      | some e' => (some e', {.profileFlag})
      | none => (none, ∅)
    else (some e, ∅)

def processProfile (profile : DiskInfos) : List (Action (Option DiskEngine)) :=
  [profileAction profile]

/-- `firstAdmin` in the code says that there was an admin event before. -/
def adminAction (a : AdminResourceConfig) : Action (Option DiskEngine)
  | _, none => (none, ∅)
  | flag, some e => (some (e.takeAdmin a (decide (.adminFlag ∈ flag))), {.adminFlag})

def processAdmin (a : AdminResourceConfig) : List (Action (Option DiskEngine)) := [adminAction a]

/-- `ProcessPolicy` sets its flag when the rules of all three groups are there. -/
def policyAction (rules : Finset String) : Action (Option DiskEngine)
  | _, none => (none, ∅)
  | _, some e =>
    if {"DiskGArules", "DiskBTrules", "DiskBErules"} ⊆ rules then (some e, {.policyFlag})
    else (some e, ∅)

def processPolicy (rules : Finset String) : List (Action (Option DiskEngine)) :=
  [policyAction rules]

/-- `SetProfiled(true)`, which the profiler calls when it finds no new disk. -/
def profiledAction : Action (Option DiskEngine)
  | _, own => (own.map fun e => { e with isProfiled := true }, ∅)

inductive ConfigEvent where
  | admin (a : AdminResourceConfig)
  | profile (profile : DiskInfos)
  | policy (rules : Finset String)
  | profiled
  deriving DecidableEq

/-- Admin and policy events are handled at once, as events without an expectation. -/
def ConfigEvent.event : ConfigEvent → EventCache.Event (Option DiskEngine)
  | admin a => ⟨expectAdmin, processAdmin a⟩
  | profile p => ⟨expectProfile, processProfile p⟩
  | policy rules => ⟨expectPolicy, processPolicy rules⟩
  | profiled => ⟨∅, [profiledAction]⟩

end

def ConfigEvent.asAdmin : ConfigEvent → Option AdminResourceConfig
  | admin a => some a
  | _ => none

def ConfigEvent.asProfile : ConfigEvent → Option DiskInfos
  | profile p => some p
  | _ => none

def podEvent : EventCache.Event (Option DiskEngine) := ⟨expectPodData, []⟩

/-! ## A profile that comes first -/

section samples

attribute [local instance] sampleParser

def sdaProfile : DiskInfos :=
  Finmap.singleton "sda" ⟨"sda", "8:0", "non-emptyDir", "/data", "100Gi", 100, 60, 40, ∅, ∅⟩

def adminConfig (bePool times : Int) : AdminResourceConfig :=
  { initFlag := false
    diskBePool := bePool
    diskSysPool := 20
    namespaceWhitelist := ∅
    sysDiskRatio := 50
    profileTime := times
    diskMinPodInBw := 5
    diskMinPodOutBw := 5 }

/-- The profile is cached until the admin event; its handler then sets a flag and is run again by
that call of `SetFlag`, which still finds it in the cache. -/
theorem profile_runs_twice :
    ¬ ∀ (σ : Type) (own : σ) (evs : List (EventCache.Event σ)) (s : EventCache.State σ),
      run EventCache.step (EventCache.start own) evs = some s → EventCache.RunsOnce s := by
  intro h
  obtain ⟨s, hs, horder, hflag, harrived⟩ : ∃ s ∈ run EventCache.step
      (EventCache.start (some (DiskEngine.init none)))
      [(ConfigEvent.profile sdaProfile).event, (ConfigEvent.admin (adminConfig 20 1)).event],
      s.engine.order = [1, 0, 0] ∧ s.engine.flag = {.profileFlag, .adminFlag} ∧
        s.arrived[0]? = some ⟨{.adminFlag}, ∅⟩ := by
    decide +kernel
  have honce := (h _ _ _ s hs).once 0 _ harrived
  rw [horder, hflag] at honce
  revert honce
  decide

/-- Pod events wait for the three flags; the profile comes after the admin event. -/
theorem runs_once_in_order :
    ∃ s, run EventCache.step (EventCache.start (some (DiskEngine.init none)))
        [podEvent, (ConfigEvent.admin (adminConfig 20 1)).event, podEvent,
          (ConfigEvent.profile sdaProfile).event,
          (ConfigEvent.policy {"DiskGArules", "DiskBTrules", "DiskBErules"}).event] = some s ∧
      s.engine.order = [1, 3, 4, 0, 2] ∧ EventCache.RunsOnce s := by
  refine exists_run (by decide +kernel) fun s hs _ => EventCache.runs_once _ _ s ?_ hs
  have hpod : Quiet podEvent.expect podEvent.f := fun a ha => by cases ha
  exact ⟨.inr hpod, .inl (by decide +kernel), .inr hpod, .inl (by decide +kernel),
    .inl (by decide +kernel), trivial⟩

end samples

/-! ## Profiles in the cache -/

/-- An engine that holds what the profile and the admin values say, if the agent still runs. -/
def Reads [QuantityParser] (stored : Option ResourceConfigSpec) (v : AdminValues) (bePool : Int)
    (profile : DiskInfos) (own : Option DiskEngine) : Prop :=
  ∀ e, own = some e → e.stored = stored ∧ e.values = v ∧ e.profile = profile ∧
    Parsable v profile ∧ e.resourceConfig = ⟨bePool, newDevices v profile, []⟩

def cachedProfile [QuantityParser] (x : Nat × DiskInfos) : CacheData (Option DiskEngine) :=
  ⟨x.1, expectProfile, processProfile x.2⟩

def latest (profile : DiskInfos) (ps : List (Nat × DiskInfos)) : DiskInfos :=
  ps.foldl (fun _ x => x.2) profile

theorem latest_append (q : DiskInfos) (ps qs : List (Nat × DiskInfos)) :
    latest q (ps ++ qs) = latest (latest q ps) qs := by
  simp [latest]

theorem latest_latest (q : DiskInfos) (ps : List (Nat × DiskInfos)) :
    latest (latest q ps) ps = latest q ps := by
  cases ps with
  | nil | cons => rfl

theorem setFlag_of_nil {σ : Type} {flag : Flags} {e : IOEngine σ} (h : e.cacheDatas = []) :
    setFlag flag e = { e with flag := e.flag ∪ flag } := by
  by_cases hflag : flag ⊆ e.flag
  · rw [setFlag_of_subset hflag, union_eq_left.mpr hflag]
  · rw [setFlag_eq, if_neg hflag, h]
    rfl

section Cached

variable [QuantityParser] {stored : Option ResourceConfigSpec} {v : AdminValues} {bePool : Int}
  {q : DiskInfos}

theorem profileAction_reads {own : Option DiskEngine} (h : Reads stored v bePool q own)
    (p : DiskInfos) (flag : Flags) :
    Reads stored v bePool p (profileAction p flag own).1 := by
  cases own with
  | none => intro e he; cases he
  | some e =>
    obtain ⟨hst, hv, hp, hq, hrc⟩ := h e rfl
    simp only [profileAction]
    split_ifs with hnew
    · unfold DiskEngine.takeProfile
      split_ifs with hparse
      · intro e' he
        cases he
        exact ⟨hst, hv, rfl, hv ▸ hparse, by rw [hrc, hv]⟩
      · intro e' he; cases he
    · intro e' he
      cases he
      simp only [not_or, not_not] at hnew
      obtain ⟨rfl, -⟩ := hnew
      exact ⟨hst, hv, rfl, hp ▸ hq, hp ▸ hrc⟩

theorem profileAction_flags (p : DiskInfos) (flag : Flags) (own : Option DiskEngine) :
    (profileAction p flag own).2 ⊆ {.profileFlag} := by
  cases own with
  | none => exact empty_subset _
  | some e =>
    simp only [profileAction]
    split_ifs with hnew
    · cases e.takeProfile p with
      | none => exact empty_subset _
      | some e' => exact Finset.Subset.refl _
    · exact empty_subset _

theorem execute_profile (x : Nat × DiskInfos) (e : IOEngine (Option DiskEngine)) :
    ∃ e₁, execute setFlag (cachedProfile x) e = setFlag (profileAction x.2 e.flag e.own).2 e₁ ∧
      e₁.flag = e.flag ∧ e₁.cacheDatas = e.cacheDatas ∧
      e₁.own = (profileAction x.2 e.flag e.own).1 :=
  ⟨_, rfl, rfl, rfl, rfl⟩

/-- The loop over cached profiles once the profile flag is set: each is handled once. -/
theorem drain_profiles_set :
    ∀ (ps : List (Nat × DiskInfos)) (newCache : List (CacheData (Option DiskEngine)))
      {e : IOEngine (Option DiskEngine)} {q : DiskInfos},
      {.adminFlag, .profileFlag} ⊆ e.flag → Reads stored v bePool q e.own →
      (drain setFlag (ps.map cachedProfile) newCache e).flag = e.flag ∧
        (drain setFlag (ps.map cachedProfile) newCache e).cacheDatas = newCache ∧
        Reads stored v bePool (latest q ps)
          (drain setFlag (ps.map cachedProfile) newCache e).own := by
  intro ps
  induction ps with
  | nil => intro newCache e q _ h; exact ⟨rfl, rfl, h⟩
  | cons x rest ih =>
    intro newCache e q hflag h
    obtain ⟨hadmin, hprofile⟩ := insert_subset_iff.mp hflag
    have hready : (cachedProfile x).expect ⊆ e.flag := singleton_subset_iff.mpr hadmin
    have hown := profileAction_reads h x.2 e.flag
    obtain ⟨e₁, hexec, hflag₁, -, hown₁⟩ := execute_profile x e
    have hset : (profileAction x.2 e.flag e.own).2 ⊆ e₁.flag := by
      rw [hflag₁]
      exact (profileAction_flags _ _ _).trans hprofile
    simp only [List.map_cons, drain, if_pos hready]
    rw [hexec, setFlag_of_subset hset, ← hflag₁]
    exact ih newCache (hflag₁ ▸ hflag) (hown₁ ▸ hown)

/-- The loop over cached profiles, from the profile flag unset. The first handler that sets the
flag goes through the whole cache in between; the rest of the loop then handles the rest again. -/
theorem drain_profiles :
    ∀ (ps before : List (Nat × DiskInfos)) (newCache : List (CacheData (Option DiskEngine)))
      {e : IOEngine (Option DiskEngine)} {q : DiskInfos},
      .adminFlag ∈ e.flag → e.cacheDatas = (before ++ ps).map cachedProfile →
      Reads stored v bePool q e.own →
      .adminFlag ∈ (drain setFlag (ps.map cachedProfile) newCache e).flag ∧
        (drain setFlag (ps.map cachedProfile) newCache e).cacheDatas = newCache ∧
        Reads stored v bePool (latest q ps)
          (drain setFlag (ps.map cachedProfile) newCache e).own := by
  intro ps
  induction ps with
  | nil => intro before newCache e q hadmin _ h; exact ⟨hadmin, rfl, h⟩
  | cons x rest ih =>
    intro before newCache e q hadmin hcache h
    have hready : (cachedProfile x).expect ⊆ e.flag := singleton_subset_iff.mpr hadmin
    have hown := profileAction_reads h x.2 e.flag
    obtain ⟨e₁, hexec, hflag₁, hcache₁, hown₁⟩ := execute_profile x e
    rw [← hown₁] at hown
    simp only [List.map_cons, drain, if_pos hready]
    by_cases hflags : (profileAction x.2 e.flag e.own).2 ⊆ e₁.flag
    · rw [hexec, setFlag_of_subset hflags]
      exact ih (before ++ [x]) newCache (hflag₁ ▸ hadmin) (by simpa [hcache₁] using hcache) hown
    have heq : (profileAction x.2 e.flag e.own).2 = {.profileFlag} :=
      (subset_singleton_iff.mp (profileAction_flags _ _ _)).resolve_left fun h0 =>
        hflags (h0 ▸ empty_subset _)
    have hboth : {.adminFlag, .profileFlag} ⊆ e₁.flag ∪ {.profileFlag} :=
      insert_subset_iff.mpr
        ⟨mem_union_left _ (hflag₁ ▸ hadmin), subset_union_right⟩
    obtain ⟨e₂, hset, hflag₂, hown₂⟩ : ∃ e₂, setFlag {.profileFlag} e₁ = e₂ ∧
        {.adminFlag, .profileFlag} ⊆ e₂.flag ∧
        Reads stored v bePool (latest x.2 (before ++ x :: rest)) e₂.own := by
      refine ⟨_, rfl, ?_⟩
      rw [setFlag_eq, if_neg (heq ▸ hflags), show e₁.cacheDatas = _ from hcache₁.trans hcache]
      obtain ⟨hflag, -, hinner⟩ := drain_profiles_set (before ++ x :: rest) []
        (e := ⟨e₁.flag ∪ {.profileFlag}, _, e₁.own, e₁.executed⟩) hboth hown
      exact ⟨hflag ▸ hboth, hinner⟩
    have hlatest : latest x.2 (before ++ x :: rest) = latest x.2 rest := latest_append _ _ _
    rw [hlatest] at hown₂
    obtain ⟨houter, hnew, hrest⟩ := drain_profiles_set rest newCache hflag₂ hown₂
    rw [hexec, heq, hset]
    refine ⟨houter ▸ hflag₂ (mem_insert_self _ _), hnew, ?_⟩
    rw [latest_latest] at hrest
    exact hrest

end Cached

/-! ## Runs -/

namespace DiskConfig

/-- `lastAdmin` and `lastProfile` are the last events of their kinds that came in. -/
structure State where
  cache : EventCache.State (Option DiskEngine)
  lastAdmin : Option AdminResourceConfig
  lastProfile : Option DiskInfos

/-- A fresh agent finds nothing stored, a restarted one what was published before. -/
def start (stored : Option ResourceConfigSpec) : State :=
  ⟨EventCache.start (some (DiskEngine.init stored)), none, none⟩

section

variable [QuantityParser]

/-- The event loop hands over the next event, unless the agent has crashed. -/
def step (s : State) (ev : ConfigEvent) : Option State :=
  if s.cache.engine.own = none then none
  else (EventCache.step s.cache ev.event).map fun cache =>
    { cache := cache
      lastAdmin := ev.asAdmin.or s.lastAdmin
      lastProfile := ev.asProfile.or s.lastProfile }

/-- The configuration the agent holds, unless it has crashed. -/
def State.config (s : State) : Option ResourceConfigSpec :=
  s.cache.engine.own.map DiskEngine.resourceConfig

/-- Just the last admin event and the last profile, admin first. -/
def State.lastTwo (s : State) : List ConfigEvent :=
  (s.lastAdmin.map ConfigEvent.admin).toList ++ (s.lastProfile.map ConfigEvent.profile).toList

/-- The configuration is the one these two events alone lead to. -/
def OrderIndependent (stored : Option ResourceConfigSpec) (s : State) : Prop :=
  ∀ rc, s.config = some rc → ((run step (start stored) s.lastTwo).bind State.config) = some rc

/-- An admin event that loads nothing stored and leaves the values as they are once a profile was
read with them. -/
def Steady (s : State) : ConfigEvent → Prop
  | .admin a => ∀ e ∈ s.cache.engine.own,
      (a.initFlag = true → e.stored = none) ∧ (e.profile = ∅ ∨ a.values = e.values)
  | _ => True

instance (s : State) : ∀ ev, Decidable (Steady s ev)
  | .admin _ => inferInstanceAs (Decidable (∀ e ∈ s.cache.engine.own, _))
  | .profile _ => isTrue trivial
  | .policy _ => isTrue trivial
  | .profiled => isTrue trivial

/-- Before the first admin event the engine is as it was started, and the profiles wait in the
cache; afterwards it holds what the last admin event and the last profile say. -/
def Inv (stored : Option ResourceConfigSpec) (s : State) : Prop :=
  match s.lastAdmin with
  | none =>
    .adminFlag ∉ s.cache.engine.flag ∧
      (∃ ps : List (Nat × DiskInfos), s.cache.engine.cacheDatas = ps.map cachedProfile ∧
        s.lastProfile.getD ∅ = latest ∅ ps) ∧
      ∀ e, s.cache.engine.own = some e →
        e.stored = stored ∧ e.profile = ∅ ∧ e.resourceConfig = ⟨0, ∅, []⟩
  | some a =>
    .adminFlag ∈ s.cache.engine.flag ∧ s.cache.engine.cacheDatas = [] ∧
      (a.initFlag = true → stored = none) ∧
      Reads stored a.values a.diskBePool (s.lastProfile.getD ∅) s.cache.engine.own

theorem start_inv (stored : Option ResourceConfigSpec) : Inv stored (start stored) := by
  refine ⟨by simp [start, EventCache.start], ⟨[], rfl, rfl⟩, fun e he => ?_⟩
  cases he
  exact ⟨rfl, rfl, rfl⟩

variable {e : IOEngine (Option DiskEngine)} {a : AdminResourceConfig} {ev : ConfigEvent}
  {s s' : State} {stored : Option ResourceConfigSpec} {expect : Flags} {p : DiskInfos}

omit [QuantityParser] in
theorem handleEvent_single {i : Nat} {a : Action (Option DiskEngine)} (h : expect ⊆ e.flag) :
    ∃ e₁, handleEvent ⟨i, expect, [a]⟩ e = setFlag (a e.flag e.own).2 e₁ ∧ e₁.flag = e.flag ∧
      e₁.cacheDatas = e.cacheDatas ∧ e₁.own = (a e.flag e.own).1 := by
  rw [handleEvent, if_pos h]
  exact ⟨_, rfl, rfl, rfl, rfl⟩

omit [QuantityParser] in
theorem takeAdmin_fresh {e : DiskEngine} (b : Bool) (h : a.initFlag = true → e.stored = none) :
    e.takeAdmin a b = { e with
      resourceConfig := { e.resourceConfig with bePool := a.diskBePool }
      nsWhitelist := a.namespaceWhitelist
      values := a.values } := by
  unfold DiskEngine.takeAdmin
  split_ifs with hinit
  · rw [h hinit.1]
  · rfl

theorem drain_waiting (hadmin : .adminFlag ∉ e.flag) :
    ∀ (ps : List (Nat × DiskInfos)) (newCache : List (CacheData (Option DiskEngine))),
      drain setFlag (ps.map cachedProfile) newCache e =
        { e with cacheDatas := newCache ++ ps.map cachedProfile } := by
  intro ps
  induction ps with
  | nil => intro newCache; simp [drain]
  | cons x rest ih =>
    intro newCache
    have hwait : ¬ (cachedProfile x).expect ⊆ e.flag :=
      fun h => hadmin (singleton_subset_iff.mp h)
    simp only [List.map_cons, drain, if_neg hwait, ih, List.append_assoc, List.singleton_append]

theorem setFlag_waiting {flag : Flags} {ps : List (Nat × DiskInfos)}
    (hcache : e.cacheDatas = ps.map cachedProfile) (hadmin : .adminFlag ∉ e.flag ∪ flag) :
    setFlag flag e = { e with flag := e.flag ∪ flag } := by
  by_cases hflag : flag ⊆ e.flag
  · rw [setFlag_of_subset hflag, union_eq_left.mpr hflag]
  · rw [setFlag_eq, if_neg hflag, hcache]
    exact drain_waiting hadmin ps []

theorem step_some (h : step s ev = some s') :
    ∃ e, s.cache.engine.own = some e ∧
      s'.cache.engine = handleEvent ⟨s.cache.arrived.length, ev.event.expect, ev.event.f⟩
        s.cache.engine ∧
      s'.lastAdmin = ev.asAdmin.or s.lastAdmin ∧ s'.lastProfile = ev.asProfile.or s.lastProfile := by
  unfold step at h
  split_ifs at h with hown
  obtain ⟨e, he⟩ := ne_none_iff_exists'.mp hown
  simp only [EventCache.step, map_some, some.injEq] at h
  subst h
  exact ⟨e, he, rfl, rfl, rfl⟩

/-- An admin event. The first one drains the profiles that waited for it. -/
theorem step_admin (h : step s (.admin a) = some s') (hok : Steady s (.admin a))
    (hinv : Inv stored s) : Inv stored s' := by
  obtain ⟨e, he, hengine, hlastA, hlastP⟩ := step_some h
  obtain ⟨hload, hvalues⟩ := hok e he
  obtain ⟨e₁, heq, hflag₁, hcache₁, hown₁⟩ := handleEvent_single (a := adminAction a)
    (i := s.cache.arrived.length) (e := s.cache.engine) (empty_subset _)
  rw [he] at heq hown₁
  simp only [adminAction] at heq hown₁
  rw [takeAdmin_fresh _ hload] at hown₁
  replace hengine := hengine.trans heq
  simp only [Inv, hlastA, hlastP, hengine, ConfigEvent.asAdmin, ConfigEvent.asProfile,
    none_or, some_or]
  unfold Inv at hinv
  split at hinv
  · obtain ⟨hadmin, ⟨ps, hps, hlast⟩, hinit⟩ := hinv
    obtain ⟨hst, hprofile, hrc⟩ := hinit e he
    have hreads : Reads stored a.values a.diskBePool ∅ e₁.own := by
      intro e' he'
      rw [hown₁] at he'
      cases he'
      exact ⟨hst, rfl, hprofile, parsable_empty _, by rw [hrc]; rfl⟩
    have hnew : ¬ {.adminFlag} ⊆ e₁.flag := by
      rw [hflag₁]
      exact fun h => hadmin (singleton_subset_iff.mp h)
    rw [setFlag_eq, if_neg hnew, show e₁.cacheDatas = _ from hcache₁.trans hps, hlast]
    obtain ⟨hf, hc, ho⟩ := drain_profiles ps [] []
      (e := ⟨e₁.flag ∪ {.adminFlag}, ps.map cachedProfile, e₁.own, e₁.executed⟩)
      (mem_union_right _ (mem_singleton_self _)) rfl hreads
    exact ⟨hf, hc, fun hi => hst ▸ hload hi, ho⟩
  · rename_i a' _
    obtain ⟨hadmin, hempty, -, hreads⟩ := hinv
    obtain ⟨hst, hv, hprofile, hparse, hrc⟩ := hreads e he
    rw [setFlag_of_nil (hcache₁.trans hempty)]
    refine ⟨mem_union_left _ (hflag₁ ▸ hadmin), hcache₁.trans hempty,
      fun hi => hst ▸ hload hi, fun e' he' => ?_⟩
    rw [hown₁] at he'
    cases he'
    -- the devices are those of the new values, since the values or the profile allow no other
    have hdevices : newDevices a.values (s.lastProfile.getD ∅) =
        newDevices a'.values (s.lastProfile.getD ∅) ∧
        Parsable a.values (s.lastProfile.getD ∅) := by
      rcases hvalues with hnone | hsame
      · rw [← hprofile, hnone]
        exact ⟨rfl, parsable_empty _⟩
      · rw [hsame, hv]
        exact ⟨rfl, hparse⟩
    exact ⟨hst, rfl, hprofile, hdevices.2, by rw [hrc, hdevices.1]⟩

/-- A profile is cached before the first admin event and handled at once afterwards. -/
theorem step_profile (h : step s (.profile p) = some s') (hinv : Inv stored s) : Inv stored s' := by
  obtain ⟨e, he, hengine, hlastA, hlastP⟩ := step_some h
  simp only [Inv, hlastA, hlastP, hengine, ConfigEvent.asAdmin, ConfigEvent.asProfile,
    none_or, some_or, getD_some]
  unfold Inv at hinv
  split at hinv
  · obtain ⟨hadmin, ⟨ps, hps, hlast⟩, hinit⟩ := hinv
    have hwait : ¬ expectProfile ⊆ s.cache.engine.flag :=
      fun h => hadmin (singleton_subset_iff.mp h)
    have hcached : handleEvent ⟨s.cache.arrived.length, expectProfile, processProfile p⟩
        s.cache.engine = _ := if_neg hwait
    simp only [ConfigEvent.event, hcached]
    refine ⟨hadmin, ⟨ps ++ [(s.cache.arrived.length, p)], ?_, ?_⟩, hinit⟩
    · simp only [hps, List.map_append]
      rfl
    · simp [latest]
  · obtain ⟨hadmin, hempty, hload, hreads⟩ := hinv
    obtain ⟨e₁, heq, hflag₁, hcache₁, hown₁⟩ := handleEvent_single (a := profileAction p)
      (i := s.cache.arrived.length) (e := s.cache.engine)
      (singleton_subset_iff.mpr hadmin)
    have hown := profileAction_reads hreads p s.cache.engine.flag
    have hset : handleEvent ⟨s.cache.arrived.length, expectProfile, [profileAction p]⟩
        s.cache.engine = _ := heq.trans (setFlag_of_nil (hcache₁.trans hempty))
    simp only [ConfigEvent.event, processProfile, hset]
    exact ⟨mem_union_left _ (hflag₁ ▸ hadmin), hcache₁.trans hempty, hload, hown₁ ▸ hown⟩

theorem step_other {a : Action (Option DiskEngine)} (h : step s ev = some s')
    (hev : ev.event = ⟨∅, [a]⟩) (hkinds : ev.asAdmin = none ∧ ev.asProfile = none)
    (hown : ∀ flag e, ∃ e', (a flag (some e)).1 = some e' ∧ e'.stored = e.stored ∧
      e'.values = e.values ∧ e'.profile = e.profile ∧ e'.resourceConfig = e.resourceConfig)
    (hflags : ∀ flag e, .adminFlag ∉ (a flag (some e)).2) (hinv : Inv stored s) :
    Inv stored s' := by
  obtain ⟨e, he, hengine, hlastA, hlastP⟩ := step_some h
  rw [hkinds.1, none_or] at hlastA
  rw [hkinds.2, none_or] at hlastP
  obtain ⟨e₁, heq, hflag₁, hcache₁, hown₁⟩ := handleEvent_single (a := a)
    (i := s.cache.arrived.length) (e := s.cache.engine) (empty_subset _)
  obtain ⟨e', he', hst', hv', hp', hrc'⟩ := hown s.cache.engine.flag e
  rw [he] at heq hown₁
  rw [he'] at hown₁
  rw [hev, heq] at hengine
  simp only [Inv, hlastA, hlastP, hengine]
  unfold Inv at hinv
  split at hinv
  · obtain ⟨hadmin, ⟨ps, hps, hlast⟩, hinit⟩ := hinv
    obtain ⟨hst, hprofile, hrc⟩ := hinit e he
    have hstill : .adminFlag ∉ e₁.flag ∪ (a s.cache.engine.flag (some e)).2 := by
      rw [hflag₁]
      exact notMem_union.mpr ⟨hadmin, hflags _ e⟩
    rw [setFlag_waiting (hcache₁.trans hps) hstill]
    refine ⟨hstill, ⟨ps, hcache₁.trans hps, hlast⟩, fun x hx => ?_⟩
    rw [hown₁] at hx
    cases hx
    exact ⟨hst'.trans hst, hp'.trans hprofile, hrc'.trans hrc⟩
  · obtain ⟨hadmin, hempty, hload, hreads⟩ := hinv
    obtain ⟨hst, hv, hprofile, hparse, hrc⟩ := hreads e he
    rw [setFlag_of_nil (hcache₁.trans hempty)]
    refine ⟨mem_union_left _ (hflag₁ ▸ hadmin), hcache₁.trans hempty, hload, fun x hx => ?_⟩
    rw [hown₁] at hx
    cases hx
    exact ⟨hst'.trans hst, hv'.trans hv, hp'.trans hprofile, hparse, hrc'.trans hrc⟩

theorem step_inv (h : step s ev = some s') (hok : Steady s ev) (hinv : Inv stored s) :
    Inv stored s' := by
  cases ev with
  | admin a => exact step_admin h hok hinv
  | profile p => exact step_profile h hinv
  | policy rules =>
    refine step_other h rfl ⟨rfl, rfl⟩ (fun flag e => ?_) (fun flag e => ?_) hinv
    · simp only [policyAction]
      split_ifs <;> exact ⟨e, rfl, rfl, rfl, rfl, rfl⟩
    · simp only [policyAction]
      split_ifs <;> simp
  | profiled =>
    refine step_other h rfl ⟨rfl, rfl⟩ (fun flag e => ?_) (fun flag e => ?_) hinv
    · exact ⟨_, rfl, rfl, rfl, rfl, rfl⟩
    · exact notMem_empty _

theorem step_single (ev : ConfigEvent) {a : Action (Option DiskEngine)}
    (hev : ev.event = ⟨expect, [a]⟩) (hown : s.cache.engine.own ≠ none)
    (hready : expect ⊆ s.cache.engine.flag) (hempty : s.cache.engine.cacheDatas = []) :
    ∃ s', step s ev = some s' ∧
      s'.cache.engine.own = (a s.cache.engine.flag s.cache.engine.own).1 := by
  obtain ⟨e₁, heq, -, hcache₁, hown₁⟩ := handleEvent_single (a := a)
    (i := s.cache.arrived.length) hready
  refine ⟨_, if_neg hown, ?_⟩
  rw [hev, heq, setFlag_of_nil (hcache₁.trans hempty)]
  exact hown₁

theorem profileAction_alive {e : DiskEngine} (h : Parsable e.values p) (flag : Flags) :
    ∃ e', (profileAction p flag (some e)).1 = some e' := by
  simp only [profileAction, DiskEngine.takeProfile, if_pos h]
  split_ifs
  · exact ⟨_, rfl⟩
  · exact ⟨_, rfl⟩

theorem run_admin (hload : a.initFlag = true → stored = none) :
    ∃ s e, step (start stored) (.admin a) = some s ∧ s.cache.engine.own = some e ∧
      s.lastAdmin = some a ∧ s.lastProfile = none ∧ Inv stored s := by
  obtain ⟨s, hs, hown⟩ := step_single (s := start stored) (.admin a) rfl
    (by simp [start, EventCache.start]) (empty_subset _) rfl
  obtain ⟨-, -, -, hlastA, hlastP⟩ := step_some hs
  have hok : Steady (start stored) (.admin a) := by
    intro e he
    cases he
    exact ⟨hload, .inl rfl⟩
  exact ⟨s, _, hs, hown, hlastA, hlastP, step_admin hs hok (start_inv stored)⟩

theorem run_lastTwo {lastProfile : Option DiskInfos} (hload : a.initFlag = true → stored = none)
    (hparse : Parsable a.values (lastProfile.getD ∅)) :
    ((run step (start stored)
      (.admin a :: (lastProfile.map ConfigEvent.profile).toList)).bind State.config) =
      some ⟨a.diskBePool, newDevices a.values (lastProfile.getD ∅), []⟩ := by
  obtain ⟨s₁, e₁, hs₁, he₁, hlastA, hlastP, hinv⟩ := run_admin hload
  rw [run_cons hs₁]
  have hinv₁ := hinv
  simp only [Inv, hlastA, hlastP, getD_none] at hinv₁
  obtain ⟨hadmin, hempty, -, hreads⟩ := hinv₁
  obtain ⟨-, hv, -, -, hrc⟩ := hreads e₁ he₁
  cases lastProfile with
  | none => simp [run, State.config, he₁, hrc]
  | some p =>
    rw [getD_some, ← hv] at hparse
    obtain ⟨e₂, he₂⟩ := profileAction_alive hparse s₁.cache.engine.flag
    obtain ⟨s₂, hs₂, hown₂⟩ := step_single (s := s₁) (.profile p) rfl (by simp [he₁])
      (singleton_subset_iff.mpr hadmin) hempty
    rw [he₁, he₂] at hown₂
    obtain ⟨-, -, -, hlastA₂, hlastP₂⟩ := step_some hs₂
    have hinv₂ := step_profile hs₂ hinv
    simp only [ConfigEvent.asAdmin, ConfigEvent.asProfile, none_or, some_or,
      hlastA] at hlastA₂ hlastP₂
    simp only [Inv, hlastA₂, hlastP₂, getD_some] at hinv₂
    obtain ⟨-, -, -, -, hrc₂⟩ := hinv₂.2.2.2 e₂ hown₂
    simp [run, hs₂, State.config, hown₂, hrc₂]

/-- The configuration of an agent is the one its last admin event and its last profile lead to, in
every run in which nothing stored is loaded and no admin event changes the values a profile was
read with. -/
theorem configuration_holds (stored : Option ResourceConfigSpec)
    (evs : List ConfigEvent) (s : State) (hsteady : Along step Steady (start stored) evs)
    (hrun : run step (start stored) evs = some s) : OrderIndependent stored s := by
  have hinv : Inv stored s := run_invariant (I := Inv stored) (C := Steady)
    (fun _ _ _ hstep hok hs => step_inv hstep hok hs) (start_inv stored) hsteady hrun
  intro rc hrc
  obtain ⟨e, he, rfl⟩ := map_eq_some_iff.mp hrc
  unfold Inv at hinv
  unfold State.lastTwo
  split at hinv
  · rename_i hnone
    obtain ⟨-, -, hinit⟩ := hinv
    rw [hnone, (hinit e he).2.2]
    cases s.lastProfile with
    | none | some => rfl
  · rename_i a ha
    obtain ⟨-, -, hload, hreads⟩ := hinv
    obtain ⟨-, -, -, hparse, hrc'⟩ := hreads e he
    rw [ha, hrc']
    exact run_lastTwo hload hparse

end

attribute [local instance] sampleParser

/-- A later admin event with another multiplier does not reach the devices of the profile. -/
theorem not_orderIndependent :
    ¬ ∀ (stored : Option ResourceConfigSpec) (evs : List ConfigEvent) (s : State),
      (∀ ev ∈ evs, ev.asAdmin ≠ none ∨ ev.asProfile ≠ none) →
      run step (start stored) evs = some s → OrderIndependent stored s := by
  intro h
  obtain ⟨s, hs, ⟨rc, hrc, hcap⟩, htwo⟩ : ∃ s ∈ run step (start none)
      [.admin (adminConfig 20 1), .profile sdaProfile, .admin (adminConfig 20 2)],
      (∃ rc ∈ s.config, (rc.devices.lookup "sda").map Device.capacityTotal = some 100) ∧
        s.lastTwo = [.admin (adminConfig 20 2), .profile sdaProfile] := by
    decide +kernel
  have hsame := h none _ s (by decide) hs rc hrc
  rw [htwo] at hsame
  have htwice : (((run step (start none)
      [.admin (adminConfig 20 2), .profile sdaProfile]).bind State.config).map
        fun rc => (rc.devices.lookup "sda").map Device.capacityTotal) = some (some 200) := by
    decide +kernel
  rw [hsame, map_some, hcap] at htwice
  revert htwice
  decide +kernel

/-- The pool changes after the profile, and the profile comes twice. -/
theorem configuration_holds_pool :
    ∃ s, run step (start none) [.profile sdaProfile, .admin (adminConfig 10 1),
        .profile sdaProfile, .admin (adminConfig 20 1)] = some s ∧
      (s.config.map ResourceConfigSpec.bePool) = some 20 ∧ OrderIndependent none s := by
  exact exists_run (by decide +kernel) fun s hs _ =>
    configuration_holds none _ s (by decide +kernel) hs

end DiskConfig

end IOIsolation.Agent
