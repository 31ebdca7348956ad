import IOIsolation.Agent.Rendezvous

/-!
# Agent.DiskPods

What the disk engine keeps of a pod list: the tables of the workload groups and the devices in the
registration entries. A list adds to both; the tables are pruned by pod and not by group, and the
devices of an entry are never taken back.

* `registerPod_tables` — the loop of `RegisterPod` clears the tables of the pods it stops.
* `mirrors_list`       — a list of new pods is mirrored exactly.
-/

namespace IOIsolation.Agent

open Lib Finmap Option

/-! ## The tables of a group -/

inductive PodTable where
  | request
  | limit
  | rawRequest
  | rawLimit
  deriving DecidableEq

def WorkloadGroup.table (wg : WorkloadGroup) : PodTable → Dict String Workload
  | .request => wg.requestPods
  | .limit => wg.limitPods
  | .rawRequest => wg.rawRequest
  | .rawLimit => wg.rawLimit

def PodRunInfo.table (info : PodRunInfo) : PodTable → Workload
  | .request => info.request
  | .limit => info.limit
  | .rawRequest => info.rawRequest
  | .rawLimit => info.rawLimit

theorem table_enter (p : ListedPod) (wg : WorkloadGroup) (tb : PodTable) :
    (wg.enter .disk p).table tb = (wg.table tb).insert p.podId (p.info.table tb) := by
  cases tb <;> rfl

theorem table_clear (podId : String) (wg : WorkloadGroup) (tb : PodTable) :
    (wg.clear podId).table tb = (wg.table tb).erase podId := by
  cases tb <;> rfl

theorem table_deleteOutdatePod (pods : Finset String) (wg : WorkloadGroup) (tb : PodTable) :
    (deleteOutdatePod pods wg).table tb = keepPods pods (wg.table tb) := by
  cases tb <;> rfl

theorem lookup_keepPods {V : Type} (pods : Finset String) (m : Dict String V) (x : String) :
    (keepPods pods m).lookup x = if x ∈ pods then m.lookup x else none := by
  unfold keepPods
  rw [Dict.lookup_filterMapVals]
  cases m.lookup x with
  | none => simp
  | some v => rfl

/-- What an engine has in a table of a group; nothing if the device is not profiled. -/
def PodEngine.entry (e : PodEngine) (dev : String) (t : WorkloadType) (tb : PodTable) (x : String) :
    Option Workload :=
  (e.wgDevices.lookup dev).bind fun wgs => ((wgs t).table tb).lookup x

/-! ## The pods of a list -/

variable {podId : String} {info : PodRunInfo}

theorem mem_pods {l : PodEventList} {dev : String} :
    ⟨dev, podId, info⟩ ∈ l.pods ↔ l.listed dev podId = some info := by
  simp only [PodEventList.pods, PodEventList.listed, List.mem_flatMap, List.mem_map,
    ListedPod.mk.injEq]
  constructor
  · rintro ⟨⟨d, pods⟩, hd, ⟨q, i⟩, hp, rfl, rfl, rfl⟩
    rw [AList.mem_lookup_iff.mpr hd, bind_some]
    exact AList.mem_lookup_iff.mpr hp
  · intro h
    obtain ⟨pods, hd, hp⟩ := bind_eq_some_iff.mp h
    exact ⟨⟨dev, pods⟩, AList.mem_lookup_iff.mp hd, ⟨podId, info⟩, AList.mem_lookup_iff.mp hp,
      rfl, rfl, rfl⟩

theorem pods_nodup (l : PodEventList) : (l.pods.map fun p => (p.dev, p.podId)).Nodup := by
  unfold PodEventList.pods
  rw [List.map_flatMap, List.nodup_flatMap]
  constructor
  · intro d _
    have hkeys : (d.2.entries.map Sigma.fst).Nodup := d.2.nodupKeys
    have hmap : ((d.2.entries.map fun p => (⟨d.1, p.1, p.2⟩ : ListedPod)).map
        fun p => (p.dev, p.podId)) = (d.2.entries.map Sigma.fst).map fun podId => (d.1, podId) := by
      simp only [List.map_map]
      rfl
    rw [hmap]
    exact hkeys.map fun _ _ h => (Prod.mk.inj h).2
  · refine (List.nodupKeys_iff_pairwise.mp l.nodupKeys).imp fun {a b} hne => ?_
    intro x hxa hxb
    simp only [List.map_map, List.mem_map] at hxa hxb
    obtain ⟨p, -, rfl⟩ := hxa
    obtain ⟨q, -, heq⟩ := hxb
    exact hne (congrArg Prod.fst heq).symm

theorem entriesOf_devices (e : PodEngine) (l : PodEventList) (podId : String) :
    ((entriesOf e podId l.pods).map ListedPod.dev).Nodup ∧
      ∀ dev, dev ∈ (entriesOf e podId l.pods).map ListedPod.dev ↔
        dev ∈ e.wgDevices ∧ ∃ info, l.listed dev podId = some info ∧ info.podName ≠ "" := by
  constructor
  · have hsub := (pods_nodup l).sublist
      ((List.filter_sublist (p := fun p : ListedPod => Taken e p ∧ p.podId = podId)).map
        fun p => (p.dev, p.podId))
    -- with the pod fixed, the pairs differ in their devices
    have hpair : ((entriesOf e podId l.pods).map fun p => (p.dev, p.podId)) =
        ((entriesOf e podId l.pods).map ListedPod.dev).map fun dev => (dev, podId) := by
      rw [List.map_map]
      refine List.map_congr_left fun p hp => ?_
      have hid : p.podId = podId := (by simpa [entriesOf] using hp : _ ∧ _ ∧ _).2.2
      simp [hid]
    unfold entriesOf at hpair
    rw [hpair] at hsub
    exact List.Nodup.of_map _ hsub
  · intro dev
    simp only [entriesOf, List.mem_map, List.mem_filter, decide_eq_true_eq]
    constructor
    · rintro ⟨⟨d, q, info⟩, ⟨hp, ⟨hdev, hname⟩, rfl⟩, rfl⟩
      exact ⟨hdev, info, mem_pods.mp hp, hname⟩
    · rintro ⟨hdev, info, hlisted, hname⟩
      exact ⟨⟨dev, podId, info⟩, ⟨mem_pods.mpr hlisted, ⟨hdev, hname⟩, rfl⟩, rfl⟩

/-! ## A list in the tables -/

theorem entry_crPod (e : PodEngine) (p : ListedPod) (dev : String) (t : WorkloadType) (tb : PodTable)
    (x : String) :
    (crPod .disk e p).entry dev t tb x =
      if Taken e p ∧ p.dev = dev ∧ p.info.workloadType = t ∧ p.podId = x then
        some (p.info.table tb)
      else e.entry dev t tb x := by
  unfold crPod PodEngine.entry
  by_cases hp : Taken e p
  · rw [if_pos hp]
    rw [Dict.lookup_adjust]
    by_cases hdev : dev = p.dev
    · subst hdev
      obtain ⟨wgs, hwgs⟩ := isSome_iff_exists.mp (lookup_isSome.mpr hp.1)
      rw [if_pos rfl, hwgs, map_some, bind_some, bind_some]
      dsimp only
      by_cases ht : t = p.info.workloadType
      · subst ht
        rw [if_pos rfl, table_enter, Dict.lookup_insert_ite]
        by_cases hx : x = p.podId
        · simp [hx, hp]
        · simp [hx, Ne.symm hx]
      · rw [if_neg ht]
        simp [Ne.symm ht]
    · rw [if_neg hdev]
      simp [Ne.symm hdev]
  · simp [hp]

/-- A list writes the places of its pods and leaves the others. -/
theorem entry_foldl_crPod (dev : String) (t : WorkloadType) (tb : PodTable) (x : String) :
    ∀ (pods : List ListedPod) (e : PodEngine), (pods.map fun p => (p.dev, p.podId)).Nodup →
      (∀ p ∈ pods, Taken e p → p.dev = dev → p.info.workloadType = t → p.podId = x →
        (pods.foldl (crPod .disk) e).entry dev t tb x = some (p.info.table tb)) ∧
      ((∀ p ∈ pods, ¬ (Taken e p ∧ p.dev = dev ∧ p.info.workloadType = t ∧ p.podId = x)) →
        (pods.foldl (crPod .disk) e).entry dev t tb x = e.entry dev t tb x) := by
  intro pods
  induction pods with
  | nil => intro e _; exact ⟨fun p hp => (by cases hp), fun _ => rfl⟩
  | cons p rest ih =>
    intro e hnodup
    obtain ⟨hnot, hrest⟩ := List.nodup_cons.mp hnodup
    obtain ⟨hin, hout⟩ := ih (crPod .disk e p) hrest
    have htaken := fun q => taken_congr (crPod_frame .disk e p).2.2 q
    constructor
    · intro q hq ht hdev htype hid
      rcases List.mem_cons.mp hq with rfl | hq
      · -- no later pod has the same place
        rw [List.foldl_cons, hout, entry_crPod, if_pos ⟨ht, hdev, htype, hid⟩]
        rintro r hr ⟨-, hd, -, hi⟩
        refine hnot (List.mem_map.mpr ⟨r, hr, ?_⟩)
        dsimp only
        rw [hd, hi, hdev, hid]
      · exact hin q hq ((htaken q).mpr ht) hdev htype hid
    · intro hnone
      rw [List.foldl_cons, hout, entry_crPod, if_neg (hnone p List.mem_cons_self)]
      intro q hq
      rw [htaken q]
      exact hnone q (List.mem_cons_of_mem _ hq)

theorem entry_mapVals (f : WorkloadGroup → WorkloadGroup) (e : PodEngine) (dev : String)
    (t : WorkloadType) (tb : PodTable) (x : String) :
    ({ e with wgDevices := Dict.mapVals (fun _ wgs t => f (wgs t)) e.wgDevices } :
      PodEngine).entry dev t tb x =
      (e.wgDevices.lookup dev).bind fun wgs => ((f (wgs t)).table tb).lookup x := by
  unfold PodEngine.entry
  rw [Dict.lookup_mapVals]
  cases e.wgDevices.lookup dev <;> rfl

theorem entry_takeList (l : PodEventList) (e : PodEngine) (dev : String) (t : WorkloadType)
    (tb : PodTable) (x : String) :
    (takeList .disk l e).entry dev t tb x =
      if x ∈ visited e l then (l.pods.foldl (crPod .disk) e).entry dev t tb x else none := by
  have h := entry_mapVals (deleteOutdatePod (visited e l)) (l.pods.foldl (crPod .disk) e) dev t tb x
  have heq : (takeList .disk l e).entry dev t tb x = _ := h
  rw [heq, PodEngine.entry]
  cases (l.pods.foldl (crPod .disk) e).wgDevices.lookup dev with
  | none => simp
  | some wgs => rw [bind_some, bind_some, table_deleteOutdatePod, lookup_keepPods]

/-! ## The loop of `RegisterPod` in the tables -/

def Stops (e : PodEngine) (x : String) : Prop :=
  ∃ r, e.podRegInfos.lookup x = some r ∧ r.Ready .disk ∧ .stopPod ∈ r.operation

theorem entry_registerOne (e : PodEngine) (podId dev : String) (t : WorkloadType) (tb : PodTable)
    (x : String) :
    (x ≠ podId ∨ ¬ Stops e x → (registerOne .disk e podId).entry dev t tb x = e.entry dev t tb x) ∧
    (x = podId → Stops e x → (registerOne .disk e podId).entry dev t tb x = none) := by
  cases hr : e.podRegInfos.lookup podId with
  | none =>
    rw [registerOne_none hr]
    refine ⟨fun _ => rfl, ?_⟩
    rintro rfl ⟨r, hr', -⟩
    rw [hr] at hr'
    cases hr'
  | some r =>
    rw [registerOne_some hr]
    by_cases hact : r.Ready .disk ∧ r.operation ≠ ∅
    · rw [if_pos hact]
      by_cases hstop : .stopPod ∈ r.operation
      · have hentry : (carryOut .disk e podId r).entry dev t tb x =
            (e.wgDevices.lookup dev).bind fun wgs =>
              (((wgs t).clear podId).table tb).lookup x := by
          rw [← entry_mapVals]
          simp [PodEngine.entry, carryOut, hstop]
        rw [hentry]
        constructor
        · intro h
          have hne : x ≠ podId := by
            rcases h with h | h
            · exact h
            · rintro rfl
              exact h ⟨r, hr, hact.1, hstop⟩
          unfold PodEngine.entry
          simp only [table_clear, lookup_erase_ne hne]
        · rintro rfl -
          cases e.wgDevices.lookup dev with
          | none => rfl
          | some wgs => rw [bind_some, table_clear, lookup_erase]
      · have hentry : (carryOut .disk e podId r).entry dev t tb x = e.entry dev t tb x := by
          simp [PodEngine.entry, carryOut, hstop]
        rw [hentry]
        refine ⟨fun _ => rfl, ?_⟩
        rintro rfl ⟨r', hr', -, hstop'⟩
        rw [hr, some.injEq] at hr'
        exact absurd (hr' ▸ hstop') hstop
    · rw [if_neg hact]
      refine ⟨fun _ => rfl, ?_⟩
      rintro rfl ⟨r', hr', hready, hstop⟩
      obtain rfl := mem_unique hr hr'
      exact absurd ⟨hready, Finset.ne_empty_of_mem hstop⟩ hact

theorem stops_registerOne {e : PodEngine} {x : String}
    (h : Stops (registerOne .disk e podId) x) : Stops e x := by
  obtain ⟨r', hr', hready, hstop⟩ := h
  rw [registerOne_lookup] at hr'
  split_ifs at hr'
  · obtain ⟨r, hr, hsettle⟩ := bind_eq_some_iff.mp hr'
    obtain ⟨hnri, hcr, hpath, -, hdev, -⟩ := PodRegInfo.settle_some hsettle
    refine ⟨r, hr, ?_, Finset.inter_subset_inter hnri hcr hstop⟩
    exact ⟨hpath ▸ hready.1, hdev ▸ hready.2⟩
  · exact ⟨r', hr', hready, hstop⟩

theorem entry_foldl_registerOne (dev : String) (t : WorkloadType) (tb : PodTable) (x : String) :
    ∀ (order : List String) (e : PodEngine), order.Nodup →
      (¬ Stops e x → (order.foldl (registerOne .disk) e).entry dev t tb x = e.entry dev t tb x) ∧
      (x ∈ order → Stops e x → (order.foldl (registerOne .disk) e).entry dev t tb x = none) := by
  intro order
  induction order with
  | nil => intro e _; exact ⟨fun _ => rfl, fun h => by cases h⟩
  | cons podId rest ih =>
    intro e hnodup
    obtain ⟨hnot, hrest⟩ := List.nodup_cons.mp hnodup
    obtain ⟨hkeep, hdrop⟩ := ih (registerOne .disk e podId) hrest
    obtain ⟨hone, hself⟩ := entry_registerOne e podId dev t tb x
    rw [List.foldl_cons]
    constructor
    · intro hns
      rw [hkeep fun h => hns (stops_registerOne h), hone (.inr hns)]
    · intro hx hs
      by_cases heq : x = podId
      · -- its entry is gone, so the rest of the loop leaves it alone
        have hgone : ¬ Stops (registerOne .disk e podId) x := by
          rintro ⟨r', hr', -⟩
          obtain ⟨r, hr, hready, hstop⟩ := hs
          subst heq
          rw [registerOne_lookup, if_pos rfl, hr, bind_some, PodRegInfo.settle,
            if_pos ⟨hready, Finset.ne_empty_of_mem hstop⟩, if_pos hstop] at hr'
          cases hr'
        rw [hkeep hgone, hself heq hs]
      · refine hdrop ((List.mem_cons.mp hx).resolve_left heq) ?_
        obtain ⟨r, hr, hready, hstop⟩ := hs
        exact ⟨r, by rw [registerOne_lookup, if_neg heq, hr], hready, hstop⟩

theorem registerPod_tables {order : List String} {e e' : PodEngine}
    (h : registerPod .disk order e = some e') (dev : String) (t : WorkloadType) (tb : PodTable)
    (x : String) :
    (¬ Stops e x → e'.entry dev t tb x = e.entry dev t tb x) ∧
      (Stops e x → e'.entry dev t tb x = none) := by
  unfold registerPod at h
  split_ifs at h with horder
  cases h
  obtain ⟨hkeep, hdrop⟩ := entry_foldl_registerOne dev t tb x order e horder.1
  refine ⟨hkeep, fun hs => hdrop ?_ hs⟩
  obtain ⟨r, hr, -⟩ := hs
  rw [← List.mem_toFinset, horder.2, mem_keys]
  exact mem_of_lookup_eq_some hr

/-! ## Lists of new pods -/

namespace Registration

def recorded (e : PodEngine) (podId : String) : List String :=
  ((e.podRegInfos.lookup podId).getD .blank).devIds

/-- The tables hold exactly the pods of the list, by disk and type, and the devices recorded for a
listed pod are the profiled disks the list has it on. -/
structure Mirrors (l : PodEventList) (e : PodEngine) : Prop where
  tables : ∀ dev ∈ e.wgDevices, ∀ t, t ≠ .groupIndex → ∀ tb x, e.entry dev t tb x =
    ((l.listed dev x).filter fun info => info.workloadType = t).map fun info => info.table tb
  nodup : ∀ podId ∈ l.names, (recorded e podId).Nodup
  devices : ∀ podId ∈ l.names, ∀ dev, dev ∈ recorded e podId ↔
    dev ∈ e.wgDevices ∧ (l.listed dev podId).isSome = true

/-- A list of pods that are new: no device is recorded for them, no stop agreed, and they have a
name on each profiled disk. -/
def NewPods (e : PodEngine) (l : PodEventList) : Prop :=
  (∀ p ∈ l.pods, p.dev ∈ e.wgDevices → p.info.podName ≠ "") ∧
    ∀ podId ∈ l.names, recorded e podId = [] ∧
      ∀ r ∈ e.podRegInfos.lookup podId, .stopPod ∉ r.operation

instance (e : PodEngine) (l : PodEventList) : Decidable (NewPods e l) :=
  inferInstanceAs (Decidable ((∀ p ∈ l.pods, _) ∧ ∀ podId ∈ l.names, _))

/-- What stands in a table is recorded with a device. -/
def TablesRecorded (e : PodEngine) : Prop :=
  ∀ dev t tb x, e.entry dev t tb x ≠ none → recorded e x ≠ []

variable {e e' : PodEngine} {order : List String} {x dev : String} {l : PodEventList}

theorem recorded_registerPod (h : registerPod .disk order e = some e') (hns : ¬ Stops e x) :
    recorded e' x = recorded e x := by
  unfold recorded
  rw [registerPod_lookup h]
  cases hlook : e.podRegInfos.lookup x with
  | none => rfl
  | some r =>
    rw [bind_some, getD_some]
    cases hsettle : r.settle .disk with
    | some r' => exact (PodRegInfo.settle_some hsettle).2.2.2.2.1
    | none =>
      unfold PodRegInfo.settle at hsettle
      split_ifs at hsettle with hact hstop
      exact absurd ⟨r, hlook, hact.1, hstop⟩ hns

theorem registerPod_recorded (h : registerPod .disk order e = some e') (hr : TablesRecorded e) :
    TablesRecorded e' := by
  intro dev t tb x hx
  obtain ⟨hkeep, hdrop⟩ := registerPod_tables h dev t tb x
  have hns : ¬ Stops e x := fun hs => hx (hdrop hs)
  rw [recorded_registerPod h hns]
  exact hr dev t tb x (hkeep hns ▸ hx)

theorem takeList_recorded : TablesRecorded (takeList .disk l e) := by
  intro dev t tb x hx
  rw [entry_takeList] at hx
  by_cases hv : x ∈ visited e l
  · obtain ⟨r, hr, hdev, -⟩ := (takeList_lookup .disk l e x).2 hv
    unfold recorded
    rw [hr, getD_some, hdev]
    exact List.append_ne_nil_of_right_ne_nil _ (by simpa using mem_visited.mp hv)
  · rw [if_neg hv] at hx
    exact absurd rfl hx

theorem step_recorded {s s' : State} {ev : Event} (h : step .disk s ev = some s')
    (hs : TablesRecorded s.engine) : TablesRecorded s'.engine := by
  cases ev with
  | nri podId info order =>
    obtain ⟨e, he, rfl⟩ := map_eq_some_iff.mp h
    unfold processNriData at he
    split_ifs at he with hwhite
    · exact registerPod_recorded he hs
    refine registerPod_recorded he fun dev t tb x hx => ?_
    have hold := hs dev t tb x hx
    unfold recorded at hold ⊢
    rw [Dict.lookup_insert_ite]
    split_ifs with hpod
    · subst hpod
      rw [getD_some, (nriEntry_eq .disk info _).2.2.2.2.1]
      exact hold
    · exact hold
  | podList l order =>
    obtain ⟨e, he, rfl⟩ := map_eq_some_iff.mp h
    unfold processCrData at he
    split_ifs at he with htyped
    exact registerPod_recorded he takeList_recorded

theorem fresh_recorded (whitelist : Finset String) (devices : List String)
    (majorMinors : Dict String String) (nodeIps : List String) :
    TablesRecorded (.fresh whitelist devices majorMinors nodeIps) := by
  intro dev t tb x hx
  -- all groups are empty, whichever devices there are
  have hempty : ∀ (devices : List String) (m : Dict String WorkloadGroups),
      (∀ wgs, m.lookup dev = some wgs → wgs t = .empty) →
      ∀ wgs, (devices.foldl (fun wgs dev => wgs.insert dev fun _ => .empty) m).lookup dev =
        some wgs → wgs t = .empty := by
    intro devices
    induction devices with
    | nil => intro m hm; exact hm
    | cons d rest ih =>
      intro m hm
      refine ih _ fun wgs hwgs => ?_
      rw [Dict.lookup_insert_ite] at hwgs
      split_ifs at hwgs with hd
      · cases hwgs
        rfl
      · exact hm wgs hwgs
  refine absurd ?_ hx
  unfold PodEngine.entry
  cases hl : (PodEngine.fresh whitelist devices majorMinors nodeIps).wgDevices.lookup dev with
  | none => rfl
  | some wgs =>
    rw [bind_some, hempty devices ∅ (fun _ h => by cases h) wgs hl]
    cases tb <;> rfl

theorem mem_names :
    podId ∈ l.names ↔ ∃ dev info, l.listed dev podId = some info := by
  simp only [PodEventList.names, List.mem_toFinset, List.mem_map]
  constructor
  · rintro ⟨⟨dev, q, info⟩, hp, rfl⟩
    exact ⟨dev, info, mem_pods.mp hp⟩
  · rintro ⟨dev, info, h⟩
    exact ⟨⟨dev, podId, info⟩, mem_pods.mpr h, rfl⟩

theorem visited_of_listed (hnew : NewPods e l) (hdev : dev ∈ e.wgDevices)
    (h : l.listed dev x = some info) : Taken e ⟨dev, x, info⟩ ∧ x ∈ visited e l := by
  have hmem := mem_pods.mpr h
  have htaken : Taken e ⟨dev, x, info⟩ := ⟨hdev, hnew.1 _ hmem hdev⟩
  refine ⟨htaken, mem_visited.mpr fun hnil => ?_⟩
  have hin : (⟨dev, x, info⟩ : ListedPod) ∈ entriesOf e x l.pods :=
    List.mem_filter.mpr ⟨hmem, by simpa using htaken⟩
  rw [hnil] at hin
  cases hin

theorem not_stops_takeList (hnew : NewPods e l) (hx : x ∈ l.names) :
    ¬ Stops (takeList .disk l e) x := by
  rintro ⟨r, hr, hready, hstop⟩
  obtain ⟨hrec, hop⟩ := hnew.2 x hx
  unfold recorded at hrec
  obtain ⟨hout, hin⟩ := takeList_lookup .disk l e x
  by_cases hv : x ∈ visited e l
  · obtain ⟨r', hr', -, -, -, hnri, hcr, -⟩ := hin hv
    obtain rfl := mem_unique hr hr'
    obtain ⟨hsn, hsc⟩ := Finset.mem_inter.mp hstop
    rw [hnri] at hsn
    rw [hcr] at hsc
    rcases Finset.mem_union.mp hsc with hsc | hsc
    · cases hold : e.podRegInfos.lookup x with
      | none =>
        rw [hold] at hsn
        cases hsn
      | some r₀ =>
        rw [hold] at hsn hsc
        exact hop r₀ hold (Finset.mem_inter.mpr ⟨hsn, hsc⟩)
    · cases Finset.mem_singleton.mp hsc
  · rw [hout hv] at hr
    obtain ⟨r₀, hold, rfl⟩ := map_eq_some_iff.mp hr
    rw [hold] at hrec
    exact hready.2 hrec

theorem recorded_takeList (hnew : NewPods e l) (hx : x ∈ l.names) :
    recorded (takeList .disk l e) x = (entriesOf e x l.pods).map ListedPod.dev := by
  have hrec := (hnew.2 x hx).1
  unfold recorded at hrec ⊢
  obtain ⟨hout, hin⟩ := takeList_lookup .disk l e x
  by_cases hv : x ∈ visited e l
  · obtain ⟨r, hr, hdev, -⟩ := hin hv
    rw [hr, getD_some, hdev, hrec, List.nil_append]
  rw [mem_visited, not_not] at hv
  rw [hout (fun h => mem_visited.mp h hv), hv, List.map_nil, ← hrec]
  cases e.podRegInfos.lookup x <;> rfl

theorem entry_takeList_new (hrec : TablesRecorded e) (hnew : NewPods e l) (hdev : dev ∈ e.wgDevices)
    (t : WorkloadType) (tb : PodTable) (x : String) :
    (takeList .disk l e).entry dev t tb x =
      ((l.listed dev x).filter fun info => info.workloadType = t).map fun info => info.table tb := by
  obtain ⟨hin, hout⟩ := entry_foldl_crPod dev t tb x l.pods e (pods_nodup l)
  rw [entry_takeList]
  by_cases hlisted : ∃ info, l.listed dev x = some info ∧ info.workloadType = t
  · obtain ⟨info, hinfo, htype⟩ := hlisted
    obtain ⟨htaken, hv⟩ := visited_of_listed hnew hdev hinfo
    rw [if_pos hv, hin ⟨dev, x, info⟩ (mem_pods.mpr hinfo) htaken rfl htype rfl, hinfo]
    simp [htype]
  have hright : ((l.listed dev x).filter fun info => info.workloadType = t) = none := by
    cases hinfo : l.listed dev x with
    | none => rfl
    | some info =>
      have htype : info.workloadType ≠ t := fun h => hlisted ⟨info, hinfo, h⟩
      simp [htype]
  rw [hright, map_none]
  split_ifs with hv
  · have hnone : ∀ p ∈ l.pods,
        ¬ (Taken e p ∧ p.dev = dev ∧ p.info.workloadType = t ∧ p.podId = x) := by
      rintro ⟨d, q, info⟩ hp ⟨-, rfl, htype, rfl⟩
      exact hlisted ⟨info, mem_pods.mp hp, htype⟩
    rw [hout hnone]
    by_contra hsome
    exact hrec dev t tb x hsome (hnew.2 x (visited_subset_names e l hv)).1
  · rfl

/-- After a list of new pods the tables have exactly these, by disk and type. -/
theorem entry_processCrData_new (hrec : TablesRecorded e) (hnew : NewPods e l)
    (h : processCrData .disk l order e = some e') (hdev : dev ∈ e.wgDevices) (t : WorkloadType)
    (tb : PodTable) (x : String) :
    e'.entry dev t tb x =
      ((l.listed dev x).filter fun info => info.workloadType = t).map fun info => info.table tb := by
  unfold processCrData at h
  split_ifs at h
  obtain ⟨hkeep, hdrop⟩ := registerPod_tables h dev t tb x
  by_cases hs : Stops (takeList .disk l e) x
  · -- a stopped pod is not in the list
    have hnot : l.listed dev x = none := by
      by_contra hsome
      obtain ⟨info, hinfo⟩ := ne_none_iff_exists'.mp hsome
      exact not_stops_takeList hnew (mem_names.mpr ⟨dev, info, hinfo⟩) hs
    rw [hdrop hs, hnot]
    rfl
  · rw [hkeep hs, entry_takeList_new hrec hnew hdev]

theorem processCrData_profiled {k : Kind} (h : processCrData k l order e = some e') (dev : String) :
    dev ∈ e'.wgDevices ↔ dev ∈ e.wgDevices := by
  unfold processCrData at h
  split_ifs at h
  rw [← mem_keys, (registerPod_frame h).2, (takeList_frame k l _).2.2, mem_keys]

/-- A list of new pods is mirrored exactly, whatever lists and runtime events came before. -/
theorem mirrors_list (whitelist : Finset String) (devices : List String)
    (majorMinors : Dict String String) (nodeIps : List String) (evs : List Event) (s s' : State)
    (l : PodEventList) (order : List String)
    (hrun : run (step .disk) (start (.fresh whitelist devices majorMinors nodeIps)) evs = some s)
    (hnew : NewPods s.engine l) (hstep : step .disk s (.podList l order) = some s') :
    Mirrors l s'.engine := by
  have hrec : TablesRecorded s.engine :=
    run_invariant (I := fun s => TablesRecorded s.engine) (C := fun _ _ => True)
      (fun _ _ _ h _ hs => step_recorded h hs) (fresh_recorded _ _ _ _) (along_true _ _ _) hrun
  obtain ⟨e, he, rfl⟩ := map_eq_some_iff.mp hstep
  have hprofiled : ∀ dev, dev ∈ e.wgDevices ↔ dev ∈ s.engine.wgDevices :=
    processCrData_profiled (e := { s.engine with calls := [] }) he
  have htables := fun dev hdev => entry_processCrData_new (e := { s.engine with calls := [] }) hrec
    hnew he ((hprofiled dev).mp hdev)
  unfold processCrData at he
  split_ifs at he with htyped
  have hrecorded : ∀ podId ∈ l.names,
      recorded e podId = (entriesOf s.engine podId l.pods).map ListedPod.dev := by
    intro podId hx
    rw [recorded_registerPod he (not_stops_takeList (e := { s.engine with calls := [] }) hnew hx)]
    exact recorded_takeList (e := { s.engine with calls := [] }) hnew hx
  refine ⟨fun dev hdev t _ tb x => htables dev hdev t tb x, fun podId hx => ?_,
    fun podId hx dev => ?_⟩
  · rw [hrecorded podId hx]
    exact (entriesOf_devices _ l podId).1
  rw [hrecorded podId hx, (entriesOf_devices _ l podId).2, hprofiled]
  constructor
  · rintro ⟨hdev, info, hinfo, -⟩
    exact ⟨hdev, by rw [hinfo]; rfl⟩
  · rintro ⟨hdev, hsome⟩
    obtain ⟨info, hinfo⟩ := isSome_iff_exists.mp hsome
    exact ⟨hdev, info, hinfo, hnew.1 _ (mem_pods.mpr hinfo) hdev⟩

theorem not_mirrors :
    ¬ ∀ (whitelist : Finset String) (devices : List String) (majorMinors : Dict String String)
      (nodeIps : List String) (evs : List Event) (s s' : State) (l : PodEventList)
      (order : List String), (∀ ev ∈ evs, ∃ l order, ev = .podList l order) →
      run (step .disk) (start (.fresh whitelist devices majorMinors nodeIps)) evs = some s →
        step .disk s (.podList l order) = some s' → Mirrors l s'.engine := by
  intro h
  obtain ⟨s, hs, s', hs', hrec⟩ : ∃ s ∈ run (step .disk) (start (.fresh ∅ ["sda"] ∅ []))
      [.podList (podOn "sda") ["p"]], ∃ s' ∈ step .disk s (.podList (podOn "sda") ["p"]),
      recorded s'.engine "p" = ["sda", "sda"] := by
    decide +kernel
  have hm := h _ _ _ _ _ s s' _ _ (by simp) hs hs'
  have hnodup := hm.nodup "p" (by decide +kernel)
  rw [hrec] at hnodup
  revert hnodup
  decide

/-- The runtime reports the pod first; the list that names it is mirrored. -/
theorem mirrors_list_new :
    ∃ s s', run (step .disk) (start (.fresh ∅ ["sda", "sdb"] ∅ []))
        [.podList ∅ [], .nri "p" (nriOf .runPod) ["p"]] = some s ∧
      step .disk s (.podList ((podOn "sda").insert "sdb" ∅) ["p"]) = some s' ∧
      recorded s'.engine "p" = ["sda"] ∧ Mirrors ((podOn "sda").insert "sdb" ∅) s'.engine := by
  obtain ⟨s, hs, hnew, s', hs', hrec⟩ : ∃ s ∈ run (step .disk)
      (start (.fresh ∅ ["sda", "sdb"] ∅ [])) [.podList ∅ [], .nri "p" (nriOf .runPod) ["p"]],
      NewPods s.engine ((podOn "sda").insert "sdb" ∅) ∧
        ∃ s' ∈ step .disk s (.podList ((podOn "sda").insert "sdb" ∅) ["p"]),
          recorded s'.engine "p" = ["sda"] := by
    decide +kernel
  exact ⟨s, s', hs, hs', hrec, mirrors_list _ _ _ _ _ s s' _ _ hs hnew hs'⟩

end Registration

end IOIsolation.Agent
