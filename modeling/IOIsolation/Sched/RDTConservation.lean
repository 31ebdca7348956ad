import IOIsolation.Sched.RDTQuantity
import IOIsolation.Lib.Run

/-!
# Sched.RDTConservation

The classes of the RDT-quantity handler over whole runs. `Describes` says what the classes of a node
are for a given set of reserved pods: amounts only move between classes, a class exists exactly as
long as it has a pod, and all its pods ask for its amounts. The classes are determined by this up
to the order of the pods in a class (`Describes.unique`).

* `Describes.enter`, `Describes.leave` — `AddPod` of an accepted request and `RemovePod` keep it.
* `describes_initPods`                 — the loop of `InitNodeStatus` establishes it, in any order.
* `describes_rebuild`                  — the entry built from the list of reserved pods.
-/

namespace IOIsolation.Sched.RDTQuantity

open Lib Finmap Dict Outcome Option List

/-! ## What the classes are -/

def InClass (classes : Dict String ClassInfo) (k uid : String) : Prop :=
  ∃ c, classes.lookup k = some c ∧ uid ∈ c.podList

/-- Cache and memory bandwidth as one sum. -/
def RdtResource.pair (r : RdtResource) : ℚ × ℚ := (r.l3, r.mb)

def assigned (classes : Dict String ClassInfo) : ℚ × ℚ :=
  Dict.total (fun _ c => c.requests.pair) classes

/-- The classes of a node of the given capacity whose reserved pods ask for `members`. -/
structure Describes (capacity : ℚ × ℚ) (members : Dict String DeviceRequirement)
    (classes : Dict String ClassInfo) : Prop where
  be : ∃ be, classes.lookup BE = some be ∧ be.limits = be.requests
  conserved : assigned classes = capacity
  inhabited : ∀ k c, classes.lookup k = some c → k ≠ BE → c.podList ≠ []
  amounts : ∀ uid d c, members.lookup uid = some d → d.devName ≠ BE →
    classes.lookup d.devName = some c → amountsOf d = some ⟨c.requests, c.limits⟩
  member : ∀ k uid, InClass classes k uid ↔ ∃ d, members.lookup uid = some d ∧ d.devName = k
  nodup : ∀ k c, classes.lookup k = some c → c.podList.Nodup

variable {capacity : ℚ × ℚ} {members : Dict String DeviceRequirement}
  {classes classes' : Dict String ClassInfo} {k uid : String} {d : DeviceRequirement} {c : ClassInfo}

namespace Describes

section

variable (h : Describes capacity members classes)
include h

theorem mem_of_inClass (hin : InClass classes k uid) : uid ∈ members := by
  obtain ⟨d, hd, -⟩ := (h.member k uid).mp hin
  exact mem_of_lookup_eq_some hd

theorem inClass_unique {k' : String} (hk : InClass classes k uid) (hk' : InClass classes k' uid) :
    k = k' := by
  obtain ⟨d, hd, rfl⟩ := (h.member k uid).mp hk
  obtain ⟨d', hd', rfl⟩ := (h.member k' uid).mp hk'
  rw [hd, some.injEq] at hd'
  rw [hd']

theorem exists_member (hc : classes.lookup k = some c) (hk : k ≠ BE) :
    ∃ uid d, members.lookup uid = some d ∧ d.devName = k ∧
      amountsOf d = some ⟨c.requests, c.limits⟩ := by
  obtain ⟨uid, hu⟩ := exists_mem_of_ne_nil _ (h.inhabited k c hc hk)
  obtain ⟨d, hd, rfl⟩ := (h.member k uid).mp ⟨c, hc, hu⟩
  exact ⟨uid, d, hd, rfl, h.amounts uid d c hd hk hc⟩

end

end Describes

theorem describes_empty (capacity : ℚ × ℚ) :
    Describes capacity ∅ (Finmap.singleton BE
      ⟨⟨capacity.1, capacity.2⟩, ⟨capacity.1, capacity.2⟩, []⟩) := by
  have hlookup : ∀ k c, (Finmap.singleton BE
      ⟨⟨capacity.1, capacity.2⟩, ⟨capacity.1, capacity.2⟩, []⟩ : Dict String ClassInfo).lookup k =
        some c → k = BE ∧ c.podList = [] := by
    intro k c hc
    obtain ⟨rfl, rfl⟩ := eq_of_lookup_singleton hc
    exact ⟨rfl, rfl⟩
  constructor
  · exact ⟨_, lookup_singleton_eq, rfl⟩
  · simp [assigned, total, Finmap.singleton, RdtResource.pair]
  · intro k c hc hk
    exact absurd (hlookup k c hc).1 hk
  · intro uid d c hd
    simp at hd
  · intro k uid
    constructor
    · rintro ⟨c, hc, hu⟩
      rw [(hlookup k c hc).2] at hu
      cases hu
    · rintro ⟨d, hd, -⟩
      simp at hd
  · intro k c hc
    rw [(hlookup k c hc).2]
    exact nodup_nil

/-! ## A pod enters -/

section Enter

variable (h : Describes capacity members classes)
include h

theorem Describes.setPods {members' : Dict String DeviceRequirement} {pods : List String}
    (hc : classes.lookup k = some c) (hpods : k ≠ BE → pods ≠ []) (hnodup : pods.Nodup)
    (hmem : ∀ u, u ∈ pods ↔ ∃ d, members'.lookup u = some d ∧ d.devName = k)
    (hsame : ∀ u d, members'.lookup u = some d → d.devName = k → k ≠ BE →
      amountsOf d = some ⟨c.requests, c.limits⟩)
    (hother : ∀ u d, d.devName ≠ k → (members'.lookup u = some d ↔ members.lookup u = some d)) :
    Describes capacity members' (classes.insert k { c with podList := pods }) := by
  have hlookup := lookup_insert_ite k (m := classes) (v := { c with podList := pods })
  constructor
  · obtain ⟨be, hbe, heq⟩ := h.be
    by_cases hk : BE = k
    · rw [hlookup, if_pos hk]
      rw [← hk, hbe, some.injEq] at hc
      subst hc
      exact ⟨_, rfl, heq⟩
    · rw [hlookup, if_neg hk]
      exact ⟨be, hbe, heq⟩
  · have htotal := total_replace (f := fun _ c => c.requests.pair) hc
      { c with podList := pods }
    rw [sub_add_cancel] at htotal
    exact htotal.trans h.conserved
  · intro k' c' hk' hne
    rw [hlookup] at hk'
    split_ifs at hk' with heq
    · cases hk'
      exact hpods (heq ▸ hne)
    · exact h.inhabited k' c' hk' hne
  · intro u d c' hd hne hc'
    rw [hlookup] at hc'
    split_ifs at hc' with heq
    · cases hc'
      exact hsame u d hd heq (heq ▸ hne)
    · exact h.amounts u d c' ((hother u d heq).mp hd) hne hc'
  · intro k' u
    simp only [InClass, hlookup]
    by_cases heq : k' = k
    · subst heq
      simp only [if_true, some.injEq, exists_eq_left']
      exact hmem u
    simp only [if_neg heq]
    refine (h.member k' u).trans ⟨?_, ?_⟩
    · rintro ⟨d, hd, rfl⟩
      exact ⟨d, (hother u d heq).mpr hd, rfl⟩
    · rintro ⟨d, hd, rfl⟩
      exact ⟨d, (hother u d heq).mp hd, rfl⟩
  · intro k' c' hk'
    rw [hlookup] at hk'
    split_ifs at hk' with heq
    · cases hk'
      exact hnodup
    · exact h.nodup k' c' hk'

theorem Describes.mem_podList {u : String} (hc : classes.lookup k = some c) :
    u ∈ c.podList ↔ ∃ d, members.lookup u = some d ∧ d.devName = k := by
  rw [← h.member k u]
  refine ⟨fun hu => ⟨c, hc, hu⟩, ?_⟩
  rintro ⟨c', hc', hu⟩
  rw [hc, some.injEq] at hc'
  rwa [hc']

theorem Describes.share (hnew : uid ∉ members) (hc : classes.lookup d.devName = some c)
    (hsame : d.devName ≠ BE → amountsOf d = some ⟨c.requests, c.limits⟩) :
    Describes capacity (members.insert uid d)
      (classes.insert d.devName { c with podList := c.podList ++ [uid] }) := by
  have hfresh : uid ∉ c.podList := fun hu => hnew (h.mem_of_inClass ⟨c, hc, hu⟩)
  refine h.setPods hc (fun _ => by simp)
    ((h.nodup _ c hc).append (nodup_singleton uid) (by simpa using hfresh)) ?_ ?_ ?_
  · intro u
    rw [List.mem_append, List.mem_singleton, h.mem_podList hc, lookup_insert_ite]
    by_cases hu : u = uid
    · simp [hu]
    · simp [hu]
  · intro u d' hd' hname hne
    rw [lookup_insert_ite] at hd'
    split_ifs at hd' with hu
    · cases hd'
      exact hsame hne
    · exact h.amounts u d' c hd' (hname ▸ hne) (hname ▸ hc)
  · intro u d' hname
    rw [lookup_insert_ite]
    split_ifs with hu
    · subst hu
      rw [lookup_eq_none.mpr hnew, some.injEq]
      refine iff_of_false ?_ (by simp)
      rintro rfl
      exact hname rfl
    · rfl

/-- A class of its own, carved out of the best-effort class. -/
theorem Describes.carve (hnew : uid ∉ members) {a : Amounts} (ha : amountsOf d = some a)
    (hc : classes.lookup d.devName = none)
    (hadj : adjustBE (-1) a.requests
      (classes.insert d.devName ⟨a.requests, a.limits, [uid]⟩) = .done classes') :
    Describes capacity (members.insert uid d) classes' := by
  obtain ⟨be, hbe, heq⟩ := h.be
  have hne : d.devName ≠ BE := by
    intro hk
    rw [hk, hbe] at hc
    cases hc
  obtain ⟨be', hbe', rfl⟩ := adjustBE_done hadj
  have hbe'' := hbe'
  rw [lookup_insert_ite, if_neg hne.symm, hbe, some.injEq] at hbe'
  subst hbe'
  simp only [neg_mul, one_mul, ← sub_eq_add_neg] at *
  set newBe : ClassInfo := ⟨⟨be.requests.l3 - a.requests.l3, be.requests.mb - a.requests.mb⟩,
    ⟨be.limits.l3 - a.requests.l3, be.limits.mb - a.requests.mb⟩, be.podList⟩ with hnewBe
  have hlookup : ∀ k, ((classes.insert d.devName ⟨a.requests, a.limits, [uid]⟩).insert BE
      newBe).lookup k = if k = BE then some newBe else if k = d.devName then
        some ⟨a.requests, a.limits, [uid]⟩ else classes.lookup k := by
    intro k
    rw [lookup_insert_ite, lookup_insert_ite]
  -- every pod was in another class: the new one did not exist
  have hother : ∀ k u, u ≠ uid →
      ((∃ c', (if k = BE then some newBe else if k = d.devName then
        some (⟨a.requests, a.limits, [uid]⟩ : ClassInfo) else classes.lookup k) = some c' ∧
          u ∈ c'.podList) ↔ InClass classes k u) := by
    intro k u hu
    constructor
    · rintro ⟨c', hk, hmem⟩
      split_ifs at hk with hkb hkd
      · cases hk
        exact ⟨be, hkb ▸ hbe, hmem⟩
      · cases hk
        exact absurd (List.mem_singleton.mp hmem) hu
      · exact ⟨c', hk, hmem⟩
    · rintro ⟨c', hk, hmem⟩
      by_cases hkb : k = BE
      · subst hkb
        obtain rfl := mem_unique hbe hk
        exact ⟨newBe, if_pos rfl, hmem⟩
      have hkd : k ≠ d.devName := by
        rintro rfl
        rw [hc] at hk
        cases hk
      exact ⟨c', by rw [if_neg hkb, if_neg hkd, hk], hmem⟩
  constructor
  · exact ⟨newBe, by rw [hlookup, if_pos rfl], by rw [hnewBe, heq]⟩
  · unfold assigned
    rw [total_replace hbe'', total_insert (lookup_eq_none.mp hc)]
    have hold : total (fun _ c => c.requests.pair) classes = capacity := h.conserved
    rw [hold]
    ext <;> simp [RdtResource.pair, hnewBe]
  · intro k c' hk hkb
    rw [hlookup, if_neg hkb] at hk
    split_ifs at hk with hkd
    · cases hk
      simp
    · exact h.inhabited k c' hk hkb
  · intro u d' c' hd' hkb hc'
    rw [hlookup, if_neg hkb] at hc'
    rw [lookup_insert_ite] at hd'
    split_ifs at hd' with hu
    · cases hd'
      rw [if_pos rfl] at hc'
      cases hc'
      exact ha
    split_ifs at hc' with hkd
    · -- no other pod asked for this class
      obtain ⟨c'', hc'', -⟩ := (h.member d'.devName u).mpr ⟨d', hd', rfl⟩
      rw [hkd, hc] at hc''
      cases hc''
    · exact h.amounts u d' c' hd' hkb hc'
  · intro k u
    simp only [InClass, hlookup, lookup_insert_ite]
    by_cases hu : u = uid
    · subst hu
      simp only [if_true, some.injEq, exists_eq_left']
      constructor
      · rintro ⟨c', hk, hmem⟩
        split_ifs at hk with hkb hkd
        · cases hk
          exact absurd (h.mem_of_inClass ⟨be, hbe, hmem⟩) hnew
        · exact hkd.symm
        · exact absurd (h.mem_of_inClass ⟨c', hk, hmem⟩) hnew
      · rintro rfl
        exact ⟨_, by rw [if_neg hne, if_pos rfl], mem_singleton_self _⟩
    · simp only [if_neg hu]
      rw [hother k u hu, h.member k u]
  · intro k c' hk
    rw [hlookup] at hk
    split_ifs at hk with hkb hkd
    · cases hk
      exact h.nodup BE be hbe
    · cases hk
      exact nodup_singleton uid
    · exact h.nodup k c' hk

/-- A pod whose class exists only with the amounts it asks for can always enter. -/
theorem Describes.enter (hnew : uid ∉ members)
    (hok : d.devName = BE ∨ d.devName ≠ BE ∧ ∃ a, amountsOf d = some a ∧
      ∀ c, classes.lookup d.devName = some c → a = ⟨c.requests, c.limits⟩) :
    ∃ classes', enterClass uid d classes = .done classes' ∧
      Describes capacity (members.insert uid d) classes' := by
  obtain ⟨be, hbe, -⟩ := h.be
  rcases hok with hname | ⟨hname, a, ha, hsame⟩
  · have hc : classes.lookup d.devName = some be := hname ▸ hbe
    refine ⟨_, ?_, h.share hnew hc fun hne => absurd hname hne⟩
    simp only [enterClass, hc, if_pos hname, pure_eq]
    rw [hname]
  cases hc : classes.lookup d.devName with
  | some c =>
    have hac := hsame c hc
    refine ⟨_, ?_, h.share hnew hc fun _ => by rw [ha, hac]⟩
    simp only [enterClass, hc, if_neg hname, ha, ofOption_some, done_bind]
    rw [if_pos (by rw [hac]; exact ⟨rfl, rfl⟩), pure_eq]
  | none =>
    have hbe' : (classes.insert d.devName ⟨a.requests, a.limits, [uid]⟩).lookup BE = some be := by
      rw [lookup_insert_ite, if_neg hname.symm, hbe]
    have hadj : ∃ classes', adjustBE (-1) a.requests
        (classes.insert d.devName ⟨a.requests, a.limits, [uid]⟩) = .done classes' := by
      simp [adjustBE, hbe']
    obtain ⟨classes', hadj⟩ := hadj
    refine ⟨classes', ?_, h.carve hnew ha hc hadj⟩
    simp only [enterClass, hc, ha, ofOption_some, done_bind]
    exact hadj

end Enter

/-! ## A pod leaves -/

section Leave

variable (h : Describes capacity members classes) (hd : members.lookup uid = some d)
  (hc : classes.lookup d.devName = some c)
include h hd hc

theorem Describes.unshare (hstays : ¬ (c.podList.erase uid = [] ∧ d.devName ≠ BE)) :
    Describes capacity (members.erase uid)
      (classes.insert d.devName { c with podList := c.podList.erase uid }) := by
  have hnodup := h.nodup _ c hc
  refine h.setPods hc (fun hne hnil => hstays ⟨hnil, hne⟩) (hnodup.erase uid) ?_ ?_ ?_
  · intro u
    rw [hnodup.mem_erase_iff, h.mem_podList hc, lookup_erase_ite]
    by_cases hu : u = uid
    · simp [hu]
    · simp [hu]
  · intro u d' hd' hname hne
    rw [lookup_erase_ite] at hd'
    split_ifs at hd'
    exact h.amounts u d' c hd' (hname ▸ hne) (hname ▸ hc)
  · intro u d' hname
    rw [lookup_erase_ite]
    split_ifs with hu
    · subst hu
      rw [hd, some.injEq]
      refine iff_of_false (by simp) ?_
      rintro rfl
      exact hname rfl
    · rfl

/-- The last pod of a class takes the class with it. -/
theorem Describes.drop (hlast : c.podList.erase uid = []) (hne : d.devName ≠ BE)
    (hadj : adjustBE 1 c.requests (classes.erase d.devName) = .done classes') :
    Describes capacity (members.erase uid) classes' := by
  obtain ⟨be, hbe, heq⟩ := h.be
  obtain ⟨be', hbe', rfl⟩ := adjustBE_done hadj
  have hbe'' := hbe'
  rw [lookup_erase_ite, if_neg hne.symm, hbe, some.injEq] at hbe'
  subst hbe'
  simp only [one_mul] at *
  set newBe : ClassInfo := ⟨⟨be.requests.l3 + c.requests.l3, be.requests.mb + c.requests.mb⟩,
    ⟨be.limits.l3 + c.requests.l3, be.limits.mb + c.requests.mb⟩, be.podList⟩ with hnewBe
  have hlookup : ∀ k, ((classes.erase d.devName).insert BE newBe).lookup k =
      if k = BE then some newBe else if k = d.devName then none else classes.lookup k := by
    intro k
    rw [lookup_insert_ite, lookup_erase_ite]
  -- only the leaving pod was in the class
  have hemptied : ∀ u d', (members.erase uid).lookup u = some d' → d'.devName ≠ d.devName := by
    intro u d' hd' hname
    rw [lookup_erase_ite] at hd'
    split_ifs at hd' with hu
    have hmem : u ∈ c.podList.erase uid := by
      rw [(h.nodup _ c hc).mem_erase_iff]
      exact ⟨hu, (h.mem_podList hc).mpr ⟨d', hd', hname⟩⟩
    rw [hlast] at hmem
    cases hmem
  constructor
  · exact ⟨newBe, by rw [hlookup, if_pos rfl], by rw [hnewBe, heq]⟩
  · unfold assigned
    rw [total_replace hbe'', total_erase hc]
    have hold : total (fun _ c => c.requests.pair) classes = capacity := h.conserved
    rw [hold]
    ext <;> simp [RdtResource.pair, hnewBe] <;> ring
  · intro k c' hk hkb
    rw [hlookup, if_neg hkb] at hk
    split_ifs at hk
    exact h.inhabited k c' hk hkb
  · intro u d' c' hd' hkb hc'
    rw [hlookup, if_neg hkb, if_neg (hemptied u d' hd')] at hc'
    rw [lookup_erase_ite] at hd'
    split_ifs at hd'
    exact h.amounts u d' c' hd' hkb hc'
  · intro k u
    have hold := h.member k u
    simp only [InClass, hlookup]
    constructor
    · rintro ⟨c', hk, hmem⟩
      have hin : InClass classes k u ∧ k ≠ d.devName := by
        split_ifs at hk with hkb hkd
        · cases hk
          subst hkb
          exact ⟨⟨be, hbe, hmem⟩, hne.symm⟩
        · exact ⟨⟨c', hk, hmem⟩, hkd⟩
      obtain ⟨d', hd', hname⟩ := hold.mp hin.1
      refine ⟨d', ?_, hname⟩
      rw [lookup_erase_ite, if_neg, hd']
      rintro rfl
      obtain rfl := mem_unique hd hd'
      exact hin.2 hname.symm
    · rintro ⟨d', hd', rfl⟩
      have hkd := hemptied u d' hd'
      rw [lookup_erase_ite] at hd'
      split_ifs at hd'
      obtain ⟨c', hk, hmem⟩ := hold.mpr ⟨d', hd', rfl⟩
      by_cases hkb : d'.devName = BE
      · rw [hkb, hbe, some.injEq] at hk
        subst hk
        exact ⟨newBe, if_pos hkb, hmem⟩
      · exact ⟨c', by rw [if_neg hkb, if_neg hkd, hk], hmem⟩
  · intro k c' hk
    rw [hlookup] at hk
    split_ifs at hk with hkb hkd
    · cases hk
      exact h.nodup BE be hbe
    · exact h.nodup k c' hk

end Leave

/-- `RemovePod` of any pod, with the classes in any order. -/
theorem Describes.leave {ps : Resource} {order : List String}
    (h : Describes capacity members ps.info.classes) (pod : Pod)
    (horder : ∀ k ∈ ps.info.classes, k ∈ order) :
    ∃ classes r, removePod ps pod order = .done (ps.setClasses classes, r) ∧
      Describes capacity (members.erase pod.uid) classes := by
  cases hd : members.lookup pod.uid with
  | none =>
    have hnone : classOf ps.info.classes pod.uid order = none := by
      apply classOf_eq_none
      intro k c hc hu
      exact lookup_eq_none.mp hd (h.mem_of_inClass ⟨c, hc, hu⟩)
    refine ⟨ps.info.classes, .error s!"pod {pod.name} not found in cache", ?_,
      by rw [erase_of_lookup_none hd]; exact h⟩
    simp only [removePod, hnone]
    rfl
  | some d =>
    obtain ⟨c, hc, hu⟩ := (h.member d.devName pod.uid).mpr ⟨d, hd, rfl⟩
    have hfound := classOf_eq_some hc hu
      (fun k c' hk hu' => h.inClass_unique ⟨c', hk, hu'⟩ ⟨c, hc, hu⟩)
      (horder _ (mem_of_lookup_eq_some hc))
    by_cases hlast : c.podList.erase pod.uid = [] ∧ d.devName ≠ BE
    · obtain ⟨be, hbe, -⟩ := h.be
      have hbe' : (ps.info.classes.erase d.devName).lookup BE = some be := by
        rw [lookup_erase_ite, if_neg hlast.2.symm, hbe]
      have hadj : ∃ classes', adjustBE 1 c.requests (ps.info.classes.erase d.devName) =
          .done classes' := by
        simp [adjustBE, hbe']
      obtain ⟨classes', hadj⟩ := hadj
      refine ⟨classes', .ok (), ?_, h.drop hd hc hlast.1 hlast.2 hadj⟩
      simp only [removePod, hfound, if_pos hlast, hadj, done_bind, pure_eq]
    · refine ⟨_, .ok (), ?_, h.unshare hd hc hlast⟩
      simp only [removePod, hfound, if_neg hlast]

/-! ## The classes are determined by the pods -/

def SameClass (c c' : ClassInfo) : Prop :=
  c.requests = c'.requests ∧ c.limits = c'.limits ∧ c.podList.Perm c'.podList

/-- The same classes, up to the order of the pods in a class. -/
def SameClasses (classes classes' : Dict String ClassInfo) : Prop :=
  ∀ k, Option.Rel SameClass (classes.lookup k) (classes'.lookup k)

namespace Describes

section

variable (h : Describes capacity members classes) (h' : Describes capacity members classes')
include h h'

theorem isSome_lookup (hc : classes.lookup k = some c) : ∃ c', classes'.lookup k = some c' := by
  by_cases hk : k = BE
  · obtain ⟨be, hbe, -⟩ := h'.be
    exact ⟨be, hk ▸ hbe⟩
  obtain ⟨uid, d, hd, hname, -⟩ := h.exists_member hc hk
  obtain ⟨c', hc', -⟩ := (h'.member k uid).mpr ⟨d, hd, hname⟩
  exact ⟨c', hc'⟩

theorem amounts_eq {c' : ClassInfo} (hc : classes.lookup k = some c)
    (hc' : classes'.lookup k = some c') (hk : k ≠ BE) :
    c.requests = c'.requests ∧ c.limits = c'.limits := by
  obtain ⟨uid, d, hd, rfl, ha⟩ := h.exists_member hc hk
  have ha' := h'.amounts uid d c' hd hk hc'
  rw [ha, some.injEq, Amounts.mk.injEq] at ha'
  exact ha'

theorem be_eq {be be' : ClassInfo} (hbe : classes.lookup BE = some be)
    (hbe' : classes'.lookup BE = some be') : be.requests = be'.requests := by
  have hrest : total (fun _ (c : ClassInfo) => c.requests.pair) (classes.erase BE) =
      total (fun _ c => c.requests.pair) (classes'.erase BE) := by
    apply total_eq_of_lookup
    intro k
    rw [lookup_erase_ite, lookup_erase_ite]
    split_ifs with hk
    · rfl
    cases hc : classes.lookup k with
    | some c =>
      obtain ⟨c', hc'⟩ := h.isSome_lookup h' hc
      rw [hc', map_some, map_some, (h.amounts_eq h' hc hc' hk).1]
    | none =>
      cases hc' : classes'.lookup k with
      | none => rfl
      | some c' =>
        obtain ⟨c, hc''⟩ := h'.isSome_lookup h hc'
        rw [hc] at hc''
        cases hc''
  have htotal := h.conserved.trans h'.conserved.symm
  unfold assigned at htotal
  rw [total_eq_erase hbe, total_eq_erase hbe', hrest, add_right_cancel_iff] at htotal
  obtain ⟨⟨l3, mb⟩, limits, pods⟩ := be
  obtain ⟨⟨l3', mb'⟩, limits', pods'⟩ := be'
  simpa [RdtResource.pair] using htotal

theorem unique : SameClasses classes classes' := by
  intro k
  cases hc : classes.lookup k with
  | none =>
    cases hc' : classes'.lookup k with
    | none => exact .none
    | some c' =>
      obtain ⟨c, hc''⟩ := h'.isSome_lookup h hc'
      rw [hc] at hc''
      cases hc''
  | some c =>
    obtain ⟨c', hc'⟩ := h.isSome_lookup h' hc
    rw [hc']
    refine .some ?_
    have hpods : c.podList.Perm c'.podList := by
      rw [perm_ext_iff_of_nodup (h.nodup k c hc) (h'.nodup k c' hc')]
      intro u
      rw [h.mem_podList hc, h'.mem_podList hc']
    by_cases hk : k = BE
    · subst hk
      have hreq := h.be_eq h' hc hc'
      obtain ⟨be, hbe, hlim⟩ := h.be
      obtain ⟨be', hbe', hlim'⟩ := h'.be
      rw [hc, some.injEq] at hbe
      rw [hc', some.injEq] at hbe'
      subst hbe hbe'
      exact ⟨hreq, by rw [hlim, hlim', hreq], hpods⟩
    · obtain ⟨hreq, hlim⟩ := h.amounts_eq h' hc hc' hk
      exact ⟨hreq, hlim, hpods⟩

end

end Describes

/-! ## The rebuilt classes -/

def entryClass (e : PodRequest) : Option DeviceRequirement :=
  match classRequest e.request none with
  | .done found => found
  | _ => none

def membersOf (pods : Dict String PodRequest) : Dict String DeviceRequirement :=
  Dict.filterMapVals (fun _ e => entryClass e) pods

/-- Every pod of the list asks for one class. -/
def Classed (pods : Dict String PodRequest) : Prop :=
  ∀ uid e, pods.lookup uid = some e → ∃ d, classRequest e.request none = .done (some d)

variable {pods : Dict String PodRequest} {order : List String}

theorem Classed.lookup_membersOf (h : Classed pods) {e : PodRequest} (he : pods.lookup uid = some e) :
    ∃ d, classRequest e.request none = .done (some d) ∧ (membersOf pods).lookup uid = some d := by
  obtain ⟨d, hd⟩ := h uid e he
  exact ⟨d, hd, by simp [membersOf, lookup_filterMapVals, he, entryClass, hd]⟩

theorem lookup_membersOf_none (h : pods.lookup uid = none) :
    (membersOf pods).lookup uid = none := by
  simp [membersOf, lookup_filterMapVals, h]

/-- Pods that ask for the same class ask for the same amounts. -/
def Compatible (members : Dict String DeviceRequirement) : Prop :=
  ∀ uid d, members.lookup uid = some d → d.devName ≠ BE → ∃ a, ∀ uid' d',
    members.lookup uid' = some d' → d'.devName = d.devName → amountsOf d' = some a

theorem Describes.compatible (h : Describes capacity members classes) : Compatible members := by
  intro uid d hd hne
  obtain ⟨c, hc, -⟩ := (h.member d.devName uid).mpr ⟨d, hd, rfl⟩
  refine ⟨⟨c.requests, c.limits⟩, ?_⟩
  intro uid' d' hd' hname
  exact h.amounts uid' d' c hd' (hname ▸ hne) (hname ▸ hc)

/-- The loop of `InitNodeStatus` over some of the pods, by induction on the order of the loop. `seen`
are the pods it has entered. -/
theorem describes_initPods (hclassed : Classed pods) (hcompat : Compatible (membersOf pods))
    (hnodup : order.Nodup) {seen : Dict String DeviceRequirement}
    (h : Describes capacity seen classes)
    (hsub : ∀ u d, seen.lookup u = some d → (membersOf pods).lookup u = some d)
    (hnew : ∀ u ∈ order, u ∉ seen) :
    ∃ classes' seen', initPods pods order classes = .done classes' ∧
      Describes capacity seen' classes' ∧
      ∀ u, seen'.lookup u = if u ∈ order then (membersOf pods).lookup u else seen.lookup u := by
  induction order generalizing seen classes with
  | nil => exact ⟨classes, seen, rfl, h, fun u => by simp⟩
  | cons puid order ih =>
    rw [nodup_cons] at hnodup
    have hpuid := hnew puid mem_cons_self
    have htail : ∀ u ∈ order, u ∉ seen := fun u hu => hnew u (mem_cons_of_mem _ hu)
    cases he : pods.lookup puid with
    | none =>
      obtain ⟨classes', seen', hinit, hdesc, hseen⟩ := ih hnodup.2 h hsub htail
      refine ⟨classes', seen', by simp only [initPods, he, hinit], hdesc, ?_⟩
      intro u
      rw [hseen u]
      by_cases hu : u = puid
      · subst hu
        rw [if_neg hnodup.1, if_pos mem_cons_self, lookup_membersOf_none he,
          lookup_eq_none.mpr hpuid]
      · simp [hu]
    | some e =>
      obtain ⟨d, hreq, hd⟩ := hclassed.lookup_membersOf he
      have hok : d.devName = BE ∨ d.devName ≠ BE ∧ ∃ a, amountsOf d = some a ∧
          ∀ c, classes.lookup d.devName = some c → a = ⟨c.requests, c.limits⟩ := by
        by_cases hbe : d.devName = BE
        · exact .inl hbe
        obtain ⟨a, ha⟩ := hcompat puid d hd hbe
        refine .inr ⟨hbe, a, ha puid d hd rfl, fun c hc => ?_⟩
        -- the class has a pod the loop has seen, with the same amounts
        obtain ⟨u, d', hd', hname, hamt⟩ := h.exists_member hc hbe
        rw [ha u d' (hsub u d' hd') hname, some.injEq] at hamt
        exact hamt
      obtain ⟨classes₁, henter, hdesc₁⟩ := h.enter hpuid hok
      have hsub₁ : ∀ u d', (seen.insert puid d).lookup u = some d' →
          (membersOf pods).lookup u = some d' := by
        intro u d' hd'
        rw [lookup_insert_ite] at hd'
        split_ifs at hd' with hu
        · cases hd'
          rw [hu, hd]
        · exact hsub u d' hd'
      have hnew₁ : ∀ u ∈ order, u ∉ seen.insert puid d := by
        intro u hu hmem
        rcases mem_insert.mp hmem with rfl | hmem
        · exact hnodup.1 hu
        · exact htail u hu hmem
      obtain ⟨classes', seen', hinit, hdesc, hseen⟩ := ih hnodup.2 hdesc₁ hsub₁ hnew₁
      refine ⟨classes', seen', ?_, hdesc, ?_⟩
      · simp only [initPods, he, hreq, done_bind, henter, hinit]
      intro u
      rw [hseen u, lookup_insert_ite]
      by_cases hu : u = puid
      · subst hu
        rw [if_neg hnodup.1, if_pos rfl, if_pos mem_cons_self, hd]
      · simp [hu]

/-- `AddCacheNodeInfo` and `InitNodeStatus` from a list of pods that ask for compatible amounts. -/
theorem describes_rebuild {nodeName : String} (rc : ResourceConfigSpec) {ctx : ResourceIOContext}
    {l : PodList} (hl : ctx.getReservedPods nodeName = .ok l) (hclassed : Classed l.podList)
    (hcompat : Compatible (membersOf l.podList)) (hnodup : order.Nodup)
    (horder : ∀ u, u ∈ order ↔ u ∈ l.podList) :
    ∃ ps, initNodeStatus (addCacheNodeInfo nodeName rc) ctx order = .done ps ∧
      Describes (capacityOf rc L3, capacityOf rc MB) (membersOf l.podList) ps.info.classes := by
  obtain ⟨classes, seen, hinit, hdesc, hseen⟩ := describes_initPods hclassed hcompat hnodup
    (describes_empty (capacityOf rc L3, capacityOf rc MB)) (fun u d hd => by simp at hd)
    (fun u _ => notMem_empty)
  have hall : seen = membersOf l.podList := by
    apply ext_lookup
    intro u
    rw [hseen u]
    split_ifs with hu
    · rfl
    · rw [horder, ← lookup_eq_none] at hu
      rw [lookup_membersOf_none hu, lookup_empty]
  refine ⟨(addCacheNodeInfo nodeName rc).setClasses classes, ?_, hall ▸ hdesc⟩
  have hname : (addCacheNodeInfo nodeName rc).nodeName = nodeName := rfl
  have hclasses : (addCacheNodeInfo nodeName rc).info.classes = Finmap.singleton BE
      ⟨⟨capacityOf rc L3, capacityOf rc MB⟩, ⟨capacityOf rc L3, capacityOf rc MB⟩, []⟩ := rfl
  simp only [initNodeStatus, hname, hl, hclasses, hinit, done_bind, pure_eq]

end IOIsolation.Sched.RDTQuantity
