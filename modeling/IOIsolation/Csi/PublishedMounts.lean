import IOIsolation.Csi.NodeServer
import IOIsolation.Lib.Run

/-!
# Csi.PublishedMounts

The published paths of the volumes against the mount table of the node. The abstract side is a table
of volumes and their target paths next to a set of mounted paths; `Agree` says that the table lists
each mounted path once, and nothing else.

The driver keeps them in agreement as long as it is alone on its paths and loses none of its records:
two volumes are never published at one path, the node does not start again with published volumes,
the file is up to date when the driver starts again, and what is unmounted can be removed.

* `agree_publish`, `agree_unpublish` — the two changes of the table.
* `agree_step`        — what the calls and restarts do to the agreement.
* `published_matches` — a call that succeeds leaves what it reports, in every run of that kind.
-/

namespace IOIsolation.Csi.PublishedMounts

open Lib NodeServer KeyedList List

/-! ## The table of published paths -/

abbrev Table : Type := List (String × Strings)

/-- The table lists each mounted path once, and nothing else. -/
structure Agree (table : Table) (mounts : Finset String) : Prop where
  ids : (table.map Prod.fst).Nodup
  lists : ∀ r ∈ table, r.2.Nodup
  mounted : ∀ t, t ∈ mounts ↔ ∃ r ∈ table, t ∈ r.2
  once : ∀ r ∈ table, ∀ r' ∈ table, ∀ t, t ∈ r.2 → t ∈ r'.2 → r.1 = r'.1

variable {table : Table} {mounts : Finset String} {id : String} {paths : Strings} {t : String}

theorem Agree.notMem_of_ne (h : Agree table mounts) (hrow : (id, paths) ∈ table) (ht : t ∈ paths)
    {r : String × Strings} (hr : r ∈ table) (hne : r.1 ≠ id) : t ∉ r.2 :=
  fun hmem => hne (h.once r hr (id, paths) hrow t hmem ht)

theorem agree_publish (h : Agree table mounts) (hrow : (id, paths) ∈ table) (ht : t ∉ mounts) :
    Agree (put Prod.fst (id, paths ++ [t]) table) (insert t mounts) := by
  have hfree : ∀ r ∈ table, t ∉ r.2 := fun r hr hmem => ht ((h.mounted t).mpr ⟨r, hr, hmem⟩)
  have hput : ∀ r, r ∈ put Prod.fst (id, paths ++ [t]) table ↔
      r = (id, paths ++ [t]) ∨ (r ∈ table ∧ r.1 ≠ id) := fun r => mem_put_iff h.ids
  refine ⟨nodup_put h.ids _, ?_, ?_, ?_⟩
  · intro r hr
    rcases (hput r).mp hr with rfl | ⟨hr, -⟩
    · exact nodup_append.mpr ⟨h.lists _ hrow, nodup_singleton t,
        fun x hx y hy hxy => hfree _ hrow (mem_singleton.mp hy ▸ hxy ▸ hx)⟩
    · exact h.lists r hr
  · intro x
    rw [Finset.mem_insert, h.mounted]
    constructor
    · rintro (rfl | ⟨r, hr, hx⟩)
      · exact ⟨_, (hput _).mpr (.inl rfl), mem_append_right _ (mem_singleton_self _)⟩
      by_cases hid : r.1 = id
      · have hsame : r = (id, paths) := inj_on_of_nodup_map h.ids hr hrow hid
        subst hsame
        exact ⟨_, (hput _).mpr (.inl rfl), mem_append_left _ hx⟩
      · exact ⟨r, (hput r).mpr (.inr ⟨hr, hid⟩), hx⟩
    · rintro ⟨r, hr, hx⟩
      rcases (hput r).mp hr with rfl | ⟨hr, -⟩
      · rcases mem_append.mp hx with hx | hx
        · exact .inr ⟨_, hrow, hx⟩
        · exact .inl (mem_singleton.mp hx)
      · exact .inr ⟨r, hr, hx⟩
  · have hself : ∀ r ∈ table, r.1 ≠ id → ∀ x, x ∈ paths ++ [t] → x ∉ r.2 := by
      intro r hr hne x hx
      rcases mem_append.mp hx with hx | hx
      · exact h.notMem_of_ne hrow hx hr hne
      · rw [mem_singleton.mp hx]
        exact hfree r hr
    intro r hr r' hr' x hx hx'
    rcases (hput r).mp hr with rfl | ⟨hr, hne⟩
    · rcases (hput r').mp hr' with rfl | ⟨hr', hne'⟩
      · rfl
      · exact absurd hx' (hself r' hr' hne' x hx)
    · rcases (hput r').mp hr' with rfl | ⟨hr', hne'⟩
      · exact absurd hx (hself r hr hne x hx')
      · exact h.once r hr r' hr' x hx hx'

theorem agree_unpublish (h : Agree table mounts) (hrow : (id, paths) ∈ table) (ht : t ∈ paths) :
    Agree (put Prod.fst (id, paths.erase t) table) (mounts.erase t) := by
  have hput : ∀ r, r ∈ put Prod.fst (id, paths.erase t) table ↔
      r = (id, paths.erase t) ∨ (r ∈ table ∧ r.1 ≠ id) := fun r => mem_put_iff h.ids
  have herase : ∀ x, x ∈ paths.erase t ↔ x ≠ t ∧ x ∈ paths :=
    fun x => (h.lists _ hrow).mem_erase_iff
  -- A row after the change comes from a row before it, of the same id.
  have hold : ∀ r ∈ put Prod.fst (id, paths.erase t) table, ∀ x ∈ r.2,
      ∃ r₀ ∈ table, r₀.1 = r.1 ∧ x ∈ r₀.2 := by
    intro r hr x hx
    rcases (hput r).mp hr with rfl | ⟨hr, -⟩
    · exact ⟨_, hrow, rfl, ((herase x).mp hx).2⟩
    · exact ⟨r, hr, rfl, hx⟩
  refine ⟨nodup_put h.ids _, ?_, ?_, ?_⟩
  · intro r hr
    rcases (hput r).mp hr with rfl | ⟨hr, -⟩
    · exact (h.lists _ hrow).erase t
    · exact h.lists r hr
  · intro x
    rw [Finset.mem_erase, h.mounted]
    constructor
    · rintro ⟨hne, r, hr, hx⟩
      by_cases hid : r.1 = id
      · have hsame : r = (id, paths) := inj_on_of_nodup_map h.ids hr hrow hid
        subst hsame
        exact ⟨_, (hput _).mpr (.inl rfl), (herase x).mpr ⟨hne, hx⟩⟩
      · exact ⟨r, (hput r).mpr (.inr ⟨hr, hid⟩), hx⟩
    · rintro ⟨r, hr, hx⟩
      obtain ⟨r₀, hr₀, -, hx₀⟩ := hold r hr x hx
      refine ⟨?_, r₀, hr₀, hx₀⟩
      rintro rfl
      rcases (hput r).mp hr with rfl | ⟨hr, hne⟩
      · exact ((herase _).mp hx).1 rfl
      · exact h.notMem_of_ne hrow ht hr hne hx
  · intro r hr r' hr' x hx hx'
    obtain ⟨r₀, hr₀, hid, hx₀⟩ := hold r hr x hx
    obtain ⟨r₁, hr₁, hid', hx₁⟩ := hold r' hr' x hx'
    rw [← hid, ← hid']
    exact h.once r₀ hr₀ r₁ hr₁ x hx₀ hx₁

/-! ## The driver's table -/

def rowOf (v : Volume) : String × Strings := (v.volID, v.published)

def tableOf (volumes : List Volume) : Table := volumes.map rowOf

/-- The driver agrees with the mount table, and its file names no volume twice. -/
structure Inv (d : Driver) : Prop where
  agree : Agree (tableOf d.volumes) d.mounts
  fileIds : (d.file.map Volume.volID).Nodup

theorem map_fst_tableOf (volumes : List Volume) :
    (tableOf volumes).map Prod.fst = volumes.map Volume.volID := by
  simp [tableOf, rowOf, Function.comp_def]

variable {volumes : List Volume} {v : Volume} {d : Driver} {cfg : Config}

theorem agree_unpublished (hids : (volumes.map Volume.volID).Nodup)
    (hnew : ∀ v ∈ volumes, v.published = []) : Agree (tableOf volumes) ∅ := by
  have hempty : ∀ r ∈ tableOf volumes, r.2 = [] := by
    intro r hr
    obtain ⟨v, hv, rfl⟩ := mem_map.mp hr
    exact hnew v hv
  refine ⟨(map_fst_tableOf volumes).symm ▸ hids, ?_, ?_, ?_⟩
  · intro r hr
    rw [hempty r hr]
    exact nodup_nil
  · intro t
    refine iff_of_false (Finset.notMem_empty t) ?_
    rintro ⟨r, hr, ht⟩
    rw [hempty r hr] at ht
    cases ht
  · intro r hr r' _ t ht
    rw [hempty r hr] at ht
    cases ht

theorem tableOf_put (v : Volume) (volumes : List Volume) :
    tableOf (put Volume.volID v volumes) =
      put Prod.fst (rowOf v) (tableOf volumes) := by
  have hkey : ∀ v : Volume, (rowOf v).1 = v.volID := fun _ => rfl
  exact map_put_comp hkey v volumes

theorem row_of_find (h : find Volume.volID id volumes = some v) :
    (id, v.published) ∈ tableOf volumes := by
  have hid : v.volID = id := key_of_find h
  exact hid ▸ mem_map_of_mem (mem_of_find h)

/-- A volume and the mount table are changed together, and the file is written or not. -/
theorem inv_update (h : Inv d) (written : WriteResult)
    (hagree : Agree (put Prod.fst (rowOf v) (tableOf d.volumes)) mounts) :
    Inv (State.updateVolume written v { d with mounts := mounts }).2 := by
  rw [← tableOf_put] at hagree
  rcases written with _ | ⟨e, _ | _ | _⟩
  · exact ⟨hagree, map_fst_tableOf _ ▸ hagree.ids⟩
  · exact ⟨hagree, h.fileIds⟩
  · exact ⟨hagree, h.fileIds⟩
  · exact ⟨hagree, map_fst_tableOf _ ▸ hagree.ids⟩

variable {v' : Volume} {o : PublishOutcome} {req : NodePublishVolumeRequest} {e : NodeEvent}

theorem put_row_same (h : find Volume.volID id volumes = some v)
    (hrow : rowOf v' = rowOf v) :
    put Prod.fst (rowOf v') (tableOf volumes) = tableOf volumes := by
  have hfind : find Prod.fst id (tableOf volumes) = some (rowOf v) :=
    find_map_of_find (fun _ => rfl) h
  have hid : v.volID = id := key_of_find h
  rw [hrow]
  refine put_of_find ?_
  rw [← hid] at hfind
  exact hfind

theorem inv_update_same (h : Inv d) (written : WriteResult)
    (hfind : find Volume.volID id d.volumes = some v) (hrow : rowOf v' = rowOf v) :
    Inv (State.updateVolume written v' d).2 :=
  inv_update h written ((put_row_same hfind hrow).symm ▸ h.agree)

/-! ## What calls report -/

/-- A call that publishes or unpublishes a path, with a capability that mounts, and succeeds leaves
the path mounted and listed once, or neither. -/
def Reports (cfg : Config) (d : Driver) : NodeEvent → Prop
  | .call (.publish req o) =>
    (∃ cap, req.volumeCapability = some cap ∧ (cap.block = true ∨ cap.mount = true)) →
      (serve cfg d (.publish req o)).1 = .ok () →
        req.targetPath ∈ (serve cfg d (.publish req o)).2.mounts ∧
          ∃ v, KeyedList.find Volume.volID req.volumeId
              (serve cfg d (.publish req o)).2.volumes = some v ∧
            v.published.count req.targetPath = 1
  | .call (.unpublish req o) =>
    (serve cfg d (.unpublish req o)).1 = .ok () →
      req.targetPath ∉ (serve cfg d (.unpublish req o)).2.mounts ∧
        ∀ v, KeyedList.find Volume.volID req.volumeId
            (serve cfg d (.unpublish req o)).2.volumes = some v →
          req.targetPath ∉ v.published
  | _ => True

/-- No other volume is published at the path. -/
def Alone (d : Driver) (volumeId targetPath : String) : Prop :=
  ∀ v ∈ d.volumes, v.volID ≠ volumeId → targetPath ∉ v.published

/-- The conditions on the events. -/
def Orderly (d : Driver) : NodeEvent → Prop
  | .call (.publish req _) => Alone d req.volumeId req.targetPath ∧
      ∀ cap ∈ req.volumeCapability, cap.block = true ∨ cap.mount = true
  | .call (.unpublish req o) => Alone d req.volumeId req.targetPath ∧
      (o.removeAll = none ∨ req.targetPath ∉ d.mounts)
  | .restart => tableOf d.file = tableOf d.volumes
  | .reboot => ∀ v ∈ d.file, v.published = []
  | _ => True

instance (d : Driver) (volumeId targetPath : String) : Decidable (Alone d volumeId targetPath) :=
  inferInstanceAs (Decidable (∀ v ∈ d.volumes, _ → _))

instance (d : Driver) : ∀ e, Decidable (Orderly d e)
  | .call (.stage _ _) => isTrue trivial
  | .call (.publish _ _) => inferInstanceAs (Decidable (_ ∧ _))
  | .call (.unpublish _ _) => inferInstanceAs (Decidable (_ ∧ _))
  | .call (.unstage _ _) => isTrue trivial
  | .restart => inferInstanceAs (Decidable (_ = _))
  | .reboot => inferInstanceAs (Decidable (∀ v ∈ d.file, _ = _))

theorem mem_published_of_mounted (h : Inv d) (hmem : t ∈ d.mounts)
    (hfind : find Volume.volID id d.volumes = some v) (halone : Alone d id t) :
    t ∈ v.published := by
  obtain ⟨r, hr, ht⟩ := (h.agree.mounted t).mp hmem
  obtain ⟨w, hw, rfl⟩ := mem_map.mp hr
  have hid : w.volID = id := by
    by_contra hne
    exact halone w hw hne ht
  have hids : (d.volumes.map Volume.volID).Nodup := map_fst_tableOf d.volumes ▸ h.agree.ids
  have hsame := (find_eq_some_iff hids).mpr ⟨hw, hid⟩
  obtain rfl := Option.some.inj (hfind.symm.trans hsame)
  exact ht

theorem find_updateVolume (h : (d.volumes.map Volume.volID).Nodup) (written : WriteResult)
    (hid : v.volID = id) (mounts : Finset String) :
    find Volume.volID id
      (State.updateVolume written v { d with mounts := mounts }).2.volumes = some v := by
  rw [State.updateVolume_volumes]
  exact (find_eq_some_iff (nodup_put h v)).mpr
    ⟨mem_put_self v d.volumes, hid⟩

theorem publish_reports (h : Inv d) (hok : Orderly d (.call (.publish req o))) :
    Reports cfg d (.call (.publish req o)) := by
  obtain ⟨halone, hcap⟩ := hok
  rintro - hsucc
  have hids : (d.volumes.map Volume.volID).Nodup := map_fst_tableOf d.volumes ▸ h.agree.ids
  simp only [serve] at hsucc ⊢
  rcases publish_cases cfg o req d with
    ⟨e, hfail⟩ | ⟨hsame, hmem, vol, hfind⟩ | ⟨cap, vol, mounts, hc, hfind, -, hmounts, hput⟩
  · rw [hfail] at hsucc
    cases hsucc
  · rw [hsame]
    have hlisted := mem_published_of_mounted h hmem hfind halone
    exact ⟨hmem, vol, hfind, count_eq_one_of_mem (h.agree.lists _ (row_of_find hfind)) hlisted⟩
  have hid : vol.volID = req.volumeId := key_of_find hfind
  rcases hmounts with ⟨hfree, rfl⟩ | ⟨hblock, hmount, -⟩
  · rw [hput]
    refine ⟨?_, publishedAt cfg vol req.targetPath, ?_, ?_⟩
    · rw [State.updateVolume_mounts]
      exact Finset.mem_insert_self _ _
    · exact find_updateVolume (v := publishedAt cfg vol req.targetPath) hids o.written hid _
    · have hnot : req.targetPath ∉ vol.published := fun hmem =>
        hfree ((h.agree.mounted _).mpr ⟨_, row_of_find hfind, hmem⟩)
      simp [publishedAt, Strings.add, count_append, count_eq_zero_of_not_mem hnot]
  · rcases hcap cap hc with hb | hm
    · rw [hb] at hblock
      cases hblock
    · rw [hm] at hmount
      cases hmount

theorem unpublish_reports (h : Inv d) {req : NodeUnpublishVolumeRequest} {o : UnpublishOutcome}
    (hok : Orderly d (.call (.unpublish req o))) : Reports cfg d (.call (.unpublish req o)) := by
  obtain ⟨halone, -⟩ := hok
  intro hsucc
  have hids : (d.volumes.map Volume.volID).Nodup := map_fst_tableOf d.volumes ▸ h.agree.ids
  simp only [serve] at hsucc ⊢
  rcases unpublish_cases o req d with
    ⟨e, hfail⟩ | ⟨vol, hfind, ⟨hnot, hsame⟩ | ⟨hmem, ⟨e, e', -, hfail⟩ | ⟨-, hput⟩⟩⟩
  · rw [hfail] at hsucc
    cases hsucc
  · rw [hsame]
    refine ⟨fun hmounted => hnot (mem_published_of_mounted h hmounted hfind halone), ?_⟩
    intro v hv
    obtain rfl := Option.some.inj (hfind.symm.trans hv)
    exact hnot
  · rw [hfail] at hsucc
    cases hsucc
  have hid : vol.volID = req.volumeId := key_of_find hfind
  rw [hput]
  refine ⟨?_, fun v hv => ?_⟩
  · rw [State.updateVolume_mounts]
    exact Finset.notMem_erase _ _
  have hnew := find_updateVolume
    (v := { vol with published := vol.published.remove req.targetPath }) hids o.written hid
    (d.mounts.erase req.targetPath)
  obtain rfl := Option.some.inj (hnew.symm.trans hv)
  exact fun hmem' => ((h.agree.lists _ (row_of_find hfind)).mem_erase_iff.mp hmem').1 rfl

theorem reports_of_orderly (h : Inv d) (hok : Orderly d e) : Reports cfg d e := by
  cases e with
  | call c =>
    cases c with
    | stage | unstage => trivial
    | publish req o => exact publish_reports h hok
    | unpublish req o => exact unpublish_reports h hok
  | restart | reboot => trivial

/-! ## The agreement along a run -/

theorem inv_stage (h : Inv d) (req : NodeStageVolumeRequest) (written : WriteResult) :
    Inv (nodeStageVolume cfg written req d).2 := by
  rcases stage_cases cfg written req d with hsame | ⟨vol, hfind, -, hput⟩
  · rw [hsame]
    exact h
  · rw [hput]
    exact inv_update_same h written hfind rfl

theorem inv_unstage (h : Inv d) (req : NodeUnstageVolumeRequest) (written : WriteResult) :
    Inv (nodeUnstageVolume written req d).2 := by
  rcases unstage_cases written req d with hsame | ⟨vol, hfind, -, hput⟩
  · rw [hsame]
    exact h
  · rw [hput]
    exact inv_update_same h written hfind rfl

theorem inv_publish (h : Inv d)
    (hcap : ∀ cap ∈ req.volumeCapability, cap.block = true ∨ cap.mount = true) :
    Inv (nodePublishVolume cfg o req d).2 := by
  rcases publish_cases cfg o req d with
    ⟨e, hfail⟩ | ⟨hsame, -, -⟩ | ⟨cap, vol, mounts, hc, hfind, -, hmounts, hput⟩
  · rw [hfail]
    exact h
  · rw [hsame]
    exact h
  rcases hmounts with ⟨hfree, rfl⟩ | ⟨hblock, hmount, -⟩
  · rw [hput]
    refine inv_update h o.written ?_
    have hid : vol.volID = req.volumeId := key_of_find hfind
    have hrow : rowOf (publishedAt cfg vol req.targetPath) =
        (req.volumeId, vol.published ++ [req.targetPath]) := by
      rw [← hid]
      rfl
    rw [hrow]
    exact agree_publish h.agree (row_of_find hfind) hfree
  · rcases hcap cap hc with hb | hm
    · rw [hb] at hblock
      cases hblock
    · rw [hm] at hmount
      cases hmount

theorem inv_unpublish (h : Inv d) {req : NodeUnpublishVolumeRequest} {o : UnpublishOutcome}
    (hok : o.removeAll = none ∨ req.targetPath ∉ d.mounts) :
    Inv (nodeUnpublishVolume o req d).2 := by
  rcases unpublish_cases o req d with
    ⟨e, hfail⟩ | ⟨vol, hfind, ⟨-, hsame⟩ | ⟨hmem, ⟨e, e', hremove, hfail⟩ | ⟨-, hput⟩⟩⟩
  · rw [hfail]
    exact h
  · rw [hsame]
    exact h
  · have hmounted : req.targetPath ∈ d.mounts :=
      (h.agree.mounted _).mpr ⟨_, row_of_find hfind, hmem⟩
    rcases hok with hnone | hnot
    · rw [hremove] at hnone
      cases hnone
    · exact absurd hmounted hnot
  · rw [hput]
    refine inv_update h o.written ?_
    have hid : vol.volID = req.volumeId := key_of_find hfind
    have hrow : rowOf { vol with published := vol.published.remove req.targetPath } =
        (req.volumeId, vol.published.erase req.targetPath) := by
      rw [← hid]
      rfl
    rw [hrow]
    exact agree_unpublish h.agree (row_of_find hfind) hmem

theorem agree_step {d' : Driver} (hstep : step cfg d e = some d') (hok : Orderly d e) (h : Inv d) :
    Inv d' := by
  cases e with
  | call c =>
    obtain rfl := Option.some.inj hstep
    cases c with
    | stage req written => exact inv_stage h req written
    | publish req o => exact inv_publish h hok.2
    | unpublish req o => exact inv_unpublish h hok.2
    | unstage req written => exact inv_unstage h req written
  | restart =>
    rw [State.restore_eq_some hstep]
    refine ⟨?_, h.fileIds⟩
    have hsame : tableOf d.file = tableOf d.volumes := hok
    exact hsame.symm ▸ h.agree
  | reboot =>
    obtain ⟨d₁, hd₁, rfl⟩ := Option.map_eq_some_iff.mp hstep
    rw [State.restore_eq_some hd₁]
    exact ⟨agree_unpublished h.fileIds hok, h.fileIds⟩

/-! ## Whole runs -/

/-- A driver with volumes that are not published, and nothing mounted. -/
def start (volumes : List Volume) : Driver := ⟨volumes, volumes, false, ∅, none⟩

theorem inv_start (hids : (volumes.map Volume.volID).Nodup) (hnew : ∀ v ∈ volumes, v.published = []) :
    Inv (start volumes) :=
  ⟨agree_unpublished hids hnew, hids⟩

/-- Every call reports what is the case, whatever has failed or started again before. -/
def AlwaysReports : Prop :=
  ∀ cfg volumes es, (volumes.map Volume.volID).Nodup → (∀ v ∈ volumes, v.published = []) →
    Along (step cfg) (Reports cfg) (start volumes) es

theorem published_matches {cfg : Config} {volumes : List Volume} {es : List NodeEvent}
    (hids : (volumes.map Volume.volID).Nodup) (hnew : ∀ v ∈ volumes, v.published = [])
    (hok : Along (step cfg) Orderly (start volumes) es) :
    Along (step cfg) (Reports cfg) (start volumes) es :=
  along_of_invariant (I := Inv) (fun _ _ _ hstep hc h => agree_step hstep hc h)
    (fun _ _ hc h => reports_of_orderly h hc) (inv_start hids hnew) hok

/-! ## A node that starts again -/

def sampleVolume : Volume :=
  ⟨"pv", "v", 10, "/mnt/v", .mountAccess, "", "", false, [], [], "d"⟩

def staging : NodeEvent := .call (.stage ⟨"v", "/stage", some ⟨false, true, false⟩⟩ none)

def publishing : NodeEvent :=
  .call (.publish ⟨"v", "/target", "/stage", some ⟨false, true, false⟩, some "/mnt/v"⟩
    ⟨.error "", .missing, none, .missing, none, none⟩)

def unpublishing : NodeEvent := .call (.unpublish ⟨"v", "/target"⟩ ⟨.answers, none, none, none⟩)

theorem published_matches_once :
    Along (step sampleConfig) (Reports sampleConfig) (start [sampleVolume])
      [staging, publishing, unpublishing, publishing] :=
  published_matches (by decide) (by decide) (by decide +kernel)

/-- The driver after the node has started again, with the path in its list. -/
def rebooted : Driver :=
  ⟨[{ sampleVolume with nodeID := "n", staged := ["/stage"], published := ["/target"] }],
    [{ sampleVolume with nodeID := "n", staged := ["/stage"], published := ["/target"] }], false, ∅, none⟩

/-- Publishing again mounts the path and lists it once more. -/
theorem not_alwaysReports : ¬ AlwaysReports := by
  intro h
  have hall := h sampleConfig [sampleVolume] ([staging, publishing, .reboot] ++ [publishing])
    (by decide) (by decide)
  have hrun : run (step sampleConfig) (start [sampleVolume]) [staging, publishing, .reboot] =
      some rebooted := by
    decide +kernel
  obtain ⟨hlast, -⟩ := Along.of_append hall hrun
  obtain ⟨-, v, hfind, hcount⟩ := hlast ⟨⟨false, true, false⟩, rfl, .inr rfl⟩ (by decide +kernel)
  have htwice : (find Volume.volID "v" (serve sampleConfig rebooted
      (.publish ⟨"v", "/target", "/stage", some ⟨false, true, false⟩, some "/mnt/v"⟩
        ⟨.error "", .missing, none, .missing, none, none⟩)).2.volumes).map
        (fun v => v.published.count "/target") = some 2 := by
    decide +kernel
  rw [hfind, Option.map_some, hcount] at htwice
  cases htwice

end IOIsolation.Csi.PublishedMounts
