import IOIsolation.Sched.RDT

/-!
# Sched.RDTClasses

The classes of the RDT-quantity handler: what one `AddPod` and one `RemovePod` do to them, and when
the second takes back the first.

* `addPod_cases`, `removePod_of_class` — everything the two calls can do.
* `undone_iff` — when `RemovePod` restores the classes.
-/

namespace IOIsolation.Sched

open Lib Finmap Outcome

namespace RDTQuantity

variable {classes : Dict String ClassInfo} {name : String} {ps' : Resource} {res : AddResult}
  {order : List String} {r : Except String Unit}

theorem adjustBE_done {sign : ℚ} {r : RdtResource} {classes' : Dict String ClassInfo}
    (h : adjustBE sign r classes = .done classes') :
    ∃ be, classes.lookup BE = some be ∧ classes' = classes.insert BE { be with
      limits := ⟨be.limits.l3 + sign * r.l3, be.limits.mb + sign * r.mb⟩
      requests := ⟨be.requests.l3 + sign * r.l3, be.requests.mb + sign * r.mb⟩ } := by
  simp only [adjustBE, bind_eq_done, ofOption_eq_done] at h
  obtain ⟨be, hbe, h⟩ := h
  cases h
  exact ⟨be, hbe, rfl⟩

theorem newClass_undone {uid : String} {a : Amounts} (hname : name ≠ BE)
    {added removed : Dict String ClassInfo}
    (hadd : adjustBE (-1) a.requests (classes.insert name ⟨a.requests, a.limits, [uid]⟩) =
      .done added) (hrem : adjustBE 1 a.requests (added.erase name) = .done removed) :
    removed = classes.erase name := by
  obtain ⟨be, hbe, rfl⟩ := adjustBE_done hadd
  rw [Dict.lookup_insert_ite, if_neg hname.symm] at hbe
  obtain ⟨be', hbe', rfl⟩ := adjustBE_done hrem
  rw [Dict.lookup_erase_ite, if_neg hname.symm, lookup_insert, Option.some.injEq] at hbe'
  subst hbe'
  apply ext_lookup
  intro k
  simp only [Dict.lookup_insert_ite, Dict.lookup_erase_ite]
  by_cases hk : k = BE
  · subst hk
    simp [hname.symm, hbe]
  by_cases hkn : k = name
  · simp [hkn, hname]
  · simp [hk, hkn]

variable {pod : Pod} {ps : Resource}

theorem addPod_cases {r : IOResourceRequest} (h : addPod ps pod (some r) = .done (ps', res)) :
    ∃ d, r.devRequest = some d ∧
      ((∃ c, ps.info.classes.lookup d.devName = some c ∧
          (d.devName = BE ∨ d.devName ≠ BE ∧ amountsOf d = some ⟨c.requests, c.limits⟩) ∧
          ps' = ps.setClasses (ps.info.classes.insert d.devName
            { c with podList := c.podList ++ [pod.uid] })) ∨
        ∃ a classes, amountsOf d = some a ∧
          (∀ c, ps.info.classes.lookup d.devName = some c →
            d.devName ≠ BE ∧ a ≠ ⟨c.requests, c.limits⟩) ∧
          adjustBE (-1) a.requests
            (ps.info.classes.insert d.devName ⟨a.requests, a.limits, [pod.uid]⟩) =
              .done classes ∧
          ps' = ps.setClasses classes) := by
  simp only [addPod, bind_eq_done, ofOption_eq_done] at h
  obtain ⟨d, hd, h⟩ := h
  refine ⟨d, hd, ?_⟩
  cases hc : ps.info.classes.lookup d.devName with
  | none =>
    simp only [hc, bind_eq_done, ofOption_eq_done] at h
    obtain ⟨a, ha, classes, hcl, h⟩ := h
    cases h
    exact .inr ⟨a, classes, ha, fun c h => (by cases h), hcl, rfl⟩
  | some c =>
    simp only [hc] at h
    by_cases hbe : d.devName = BE
    · rw [if_pos hbe] at h
      cases h
      exact .inl ⟨c, rfl, .inl hbe, by rw [hbe]⟩
    rw [if_neg hbe] at h
    simp only [bind_eq_done, ofOption_eq_done] at h
    obtain ⟨a, ha, h⟩ := h
    by_cases hsame : a.limits = c.limits ∧ a.requests = c.requests
    · rw [if_pos hsame] at h
      cases h
      refine .inl ⟨c, rfl, .inr ⟨hbe, ?_⟩, rfl⟩
      rw [ha, ← hsame.1, ← hsame.2]
    rw [if_neg hsame] at h
    simp only [bind_eq_done] at h
    obtain ⟨classes, hcl, h⟩ := h
    cases h
    refine .inr ⟨a, classes, ha, fun c' hc' => ⟨hbe, fun heq => ?_⟩, hcl, rfl⟩
    rw [Option.some.injEq] at hc'
    subst hc'
    exact hsame ⟨by rw [heq], by rw [heq]⟩

theorem removePod_of_class {c : ClassInfo} (hc : ps.info.classes.lookup name = some c)
    (hu : pod.uid ∈ c.podList)
    (honly : ∀ k c', ps.info.classes.lookup k = some c' → pod.uid ∈ c'.podList → k = name)
    (hord : name ∈ order) (h : removePod ps pod order = .done (ps', r)) :
    (c.podList.erase pod.uid = [] ∧ name ≠ BE ∧
        ∃ classes, adjustBE 1 c.requests (ps.info.classes.erase name) = .done classes ∧
          ps' = ps.setClasses classes) ∨
      ¬ (c.podList.erase pod.uid = [] ∧ name ≠ BE) ∧
        ps' = ps.setClasses (ps.info.classes.insert name
          { c with podList := c.podList.erase pod.uid }) := by
  unfold removePod at h
  rw [classOf_eq_some hc hu honly hord] at h
  dsimp only at h
  split_ifs at h with hlast
  · simp only [bind_eq_done] at h
    obtain ⟨classes, hcl, h⟩ := h
    cases h
    exact .inl ⟨hlast.1, hlast.2, classes, hcl, rfl⟩
  · cases h
    exact .inr ⟨hlast, rfl⟩

theorem setClasses_eq_self_iff (ps : Resource) (classes : Dict String ClassInfo) :
    ps.setClasses classes = ps ↔ classes = ps.info.classes := by
  refine ⟨fun h => congrArg (fun p => p.info.classes) h, ?_⟩
  rintro rfl
  rfl

/-- When `RemovePod` takes back what `AddPod` did. -/
theorem undone_iff {ps₁ ps₂ : Resource} {q : IOResourceRequest}
    (hnew : ∀ k c, ps.info.classes.lookup k = some c → pod.uid ∉ c.podList)
    (hadd : addPod ps pod (some q) = .done (ps₁, res)) (horder : ∀ k ∈ ps₁.info.classes, k ∈ order)
    (hrem : removePod ps₁ pod order = .done (ps₂, r)) :
    ps₂ = ps ↔ ∀ d, q.devRequest = some d →
      match ps.info.classes.lookup d.devName with
      | none => d.devName ≠ BE
      | some c => d.devName = BE ∨
          amountsOf d = some ⟨c.requests, c.limits⟩ ∧ c.podList ≠ [] := by
  obtain ⟨d, hd, hcases⟩ := addPod_cases hadd
  simp only [hd, Option.some.injEq, forall_eq']
  obtain ⟨c, hc, hkind, rfl⟩ | ⟨a, classes, ha, hother, hcl, rfl⟩ := hcases
  · -- one more pod in a class that exists
    rw [hc]
    have huid := hnew _ c hc
    have herase : (c.podList ++ [pod.uid]).erase pod.uid = c.podList := by
      rw [List.erase_append_right _ huid]
      simp
    have hl : (ps.setClasses (ps.info.classes.insert d.devName
        { c with podList := c.podList ++ [pod.uid] })).info.classes.lookup d.devName =
          some { c with podList := c.podList ++ [pod.uid] } := lookup_insert _
    have honly : ∀ k c', (ps.setClasses (ps.info.classes.insert d.devName
        { c with podList := c.podList ++ [pod.uid] })).info.classes.lookup k = some c' →
          pod.uid ∈ c'.podList → k = d.devName := by
      intro k c' hk hu
      by_contra hne
      have hk' : ps.info.classes.lookup k = some c' := by
        rw [← hk]
        exact (lookup_insert_of_ne _ hne).symm
      exact hnew k c' hk' hu
    rcases removePod_of_class hl (by simp) honly
      (horder _ (mem_of_lookup_eq_some hl)) hrem with
      ⟨hnil, hname, classes, hcl, rfl⟩ | ⟨hnot, rfl⟩
    · -- the class had no other pod and is dropped with this one
      rw [herase] at hnil
      refine iff_of_false (fun heq => ?_) ?_
      · have hgone := congrArg (fun p => p.info.classes.lookup d.devName) heq
        obtain ⟨be, -, rfl⟩ := adjustBE_done hcl
        simp only [Resource.setClasses, Dict.lookup_insert_ite, if_neg hname,
          Dict.lookup_erase_ite, if_true, hc] at hgone
        cases hgone
      · rintro (h | ⟨-, h⟩)
        · exact hname h
        · exact h hnil
    · rw [herase] at hnot
      refine iff_of_true ?_ ?_
      · have hsame : ({ c with podList := (c.podList ++ [pod.uid]).erase pod.uid } : ClassInfo) = c := by
          rw [herase]
        simp only [Resource.setClasses, insert_insert]
        rw [hsame, Dict.insert_lookup hc]
      · rcases hkind with h | ⟨hname, hamount⟩
        · exact .inl h
        · exact .inr ⟨hamount, fun h => hnot ⟨h, hname⟩⟩
  · -- a new class, or one that replaces a class with other amounts
    obtain ⟨be, hbe, hclasses⟩ := adjustBE_done hcl
    by_cases hname : d.devName = BE
    · have hnone : ps.info.classes.lookup d.devName = none := by
        cases hc : ps.info.classes.lookup d.devName with
        | none => rfl
        | some c => exact absurd hname (hother c hc).1
      refine iff_of_false (fun heq => ?_) fun h => ?_
      · rw [hname, lookup_insert, Option.some.injEq] at hbe
        subst hbe
        have hl : (ps.setClasses classes).info.classes.lookup BE = some ⟨⟨a.requests.l3 +
            -1 * a.requests.l3, a.requests.mb + -1 * a.requests.mb⟩, ⟨a.limits.l3 +
            -1 * a.requests.l3, a.limits.mb + -1 * a.requests.mb⟩, [pod.uid]⟩ := by
          rw [hclasses]
          exact lookup_insert _
        have honly : ∀ k c', (ps.setClasses classes).info.classes.lookup k = some c' →
            pod.uid ∈ c'.podList → k = BE := by
          intro k c' hk hu
          by_contra hne
          have hk' : ps.info.classes.lookup k = some c' := by
            rw [← hk, hclasses, hname]
            simp [Resource.setClasses, hne]
          exact hnew k c' hk' hu
        rcases removePod_of_class hl List.mem_cons_self honly
          (horder _ (mem_of_lookup_eq_some hl)) hrem with ⟨-, h, -⟩ | ⟨-, rfl⟩
        · exact h rfl
        have hgone := congrArg (fun p => p.info.classes.lookup BE) heq
        rw [hname] at hnone
        simp only [Resource.setClasses, lookup_insert, hnone] at hgone
        cases hgone
      · rw [hnone] at h
        exact h hname
    · have hne : BE ≠ d.devName := fun h => hname h.symm
      have hl : (ps.setClasses classes).info.classes.lookup d.devName =
          some ⟨a.requests, a.limits, [pod.uid]⟩ := by
        rw [hclasses]
        simp [Resource.setClasses, hname]
      have honly : ∀ k c', (ps.setClasses classes).info.classes.lookup k = some c' →
          pod.uid ∈ c'.podList → k = d.devName := by
        intro k c' hk hu
        by_contra hkd
        rw [Dict.lookup_insert_ite, if_neg hne] at hbe
        rw [hclasses] at hk
        simp only [Resource.setClasses, Dict.lookup_insert_ite] at hk
        split_ifs at hk with hkbe
        · rw [Option.some.injEq] at hk
          subst hk
          exact hnew BE be hbe hu
        · exact hnew k c' hk hu
      have hsingle : List.erase [pod.uid] pod.uid = [] := by simp
      rcases removePod_of_class hl List.mem_cons_self honly
        (horder _ (mem_of_lookup_eq_some hl)) hrem with
        ⟨-, -, removed, hrm, rfl⟩ | ⟨hnot, -⟩
      · have hback := newClass_undone hname hcl hrm
        have hset : ((ps.setClasses classes).setClasses removed = ps) ↔
            removed = ps.info.classes := setClasses_eq_self_iff ps removed
        rw [hset, hback]
        cases hc : ps.info.classes.lookup d.devName with
        | none =>
          exact iff_of_true (Dict.erase_of_lookup_none hc) hname
        | some c =>
          refine iff_of_false (fun heq => ?_) fun h => ?_
          · have hgone := congrArg (Finmap.lookup d.devName) heq
            rw [lookup_erase, hc] at hgone
            cases hgone
          rcases h with h | ⟨h, -⟩
          · exact hname h
          · rw [ha, Option.some.injEq] at h
            exact (hother c hc).2 h
      · exact absurd ⟨hsingle, hname⟩ hnot

end RDTQuantity

end IOIsolation.Sched
