import IOIsolation.Lib.Run
import IOIsolation.Aggr.NodeStatus

/-!
# Aggr.CacheFollows

The entry of a node in the aggregator's status cache, over the notifications about its custom resource.
The handlers look for differences by counting I/O types and disks, so the entry follows the resource only
through some changes.

* `inSync_iff`       — no history makes a handler use an entry that is not there, and the entry has the
  types and the disks of the latest status as long as no type goes away and no disk is replaced.
* `not_alwaysInSync` — a type that goes away stays in the cache.
-/

namespace IOIsolation.Aggr.CacheFollows

open Lib Finmap Dict Option Finset

/-! ## Types and disks -/

def disks (m : AllocatableBandwidth) : Finset String := ((m.lookup .blockIo).getD ∅).keys

def SameShape (m n : AllocatableBandwidth) : Prop := m.keys = n.keys ∧ disks m = disks n

instance (m n : AllocatableBandwidth) : Decidable (SameShape m n) :=
  inferInstanceAs (Decidable (_ ∧ _))

variable {m n : AllocatableBandwidth} {c : NodeIOStatusStatus} {cache : Option NodeIOStatusStatus}
  {obj : NodeIOStatus}

theorem disks_of_lookup {devices : Dict String (Dict WorkloadQoSType IOStatus)}
    (h : m.lookup .blockIo = some devices) : disks m = devices.keys := by
  rw [disks, h, getD_some]

theorem disks_of_notMem (h : .blockIo ∉ m) : disks m = ∅ := by
  rw [disks, lookup_eq_none.mpr h]
  rfl

theorem SameShape.mem_iff (h : SameShape m n) (t : WorkloadIOType) : t ∈ m ↔ t ∈ n := by
  rw [← mem_keys, ← mem_keys, h.1]

theorem SameShape.trans {l : AllocatableBandwidth} (h : SameShape l m) (h' : SameShape m n) :
    SameShape l n :=
  ⟨h.1.trans h'.1, h.2.trans h'.2⟩

theorem SameShape.symm (h : SameShape m n) : SameShape n m :=
  ⟨h.1.symm, h.2.symm⟩

theorem disks_union (a m : AllocatableBandwidth) :
    disks (a ∪ m) = if .blockIo ∈ a then disks a else disks m := by
  rw [disks, lookup_union_ite]
  split_ifs <;> rfl

theorem SameShape.union (h : SameShape m n) (a : AllocatableBandwidth) :
    SameShape (a ∪ m) (a ∪ n) :=
  ⟨by rw [keys_union, keys_union, h.1], by rw [disks_union, disks_union, h.2]⟩

/-! ## The disks of an entry -/

def addDisks (addDev : Dict String (Dict WorkloadQoSType IOStatus)) (c : NodeIOStatusStatus) :
    NodeIOStatusStatus :=
  if addDev ≠ ∅ then addDeviceToCache .blockIo addDev c else c

def delDisks (delDev : Dict String (Dict WorkloadQoSType IOStatus)) (c : NodeIOStatusStatus) :
    NodeIOStatusStatus :=
  if delDev ≠ ∅ then delDeviceToCache .blockIo delDev c else c

def changeDisks (old new : AllocatableBandwidth) (c : NodeIOStatusStatus) : NodeIOStatusStatus :=
  match new.lookup .blockIo, old.lookup .blockIo with
  | some ninfo, some oinfo =>
    if ninfo.keys.card = oinfo.keys.card then c
    else delDisks (Dict.without oinfo ninfo) (addDisks (Dict.without ninfo oinfo) c)
  | _, _ => c

theorem onEntry_some (p : Prop) [Decidable p] (f : NodeIOStatusStatus → NodeIOStatusStatus)
    (c : NodeIOStatusStatus) : onEntry p f (some c) = .done (some (if p then f c else c)) := by
  unfold onEntry
  by_cases h : p
  · simp only [h, decide_true, if_true]
    rfl
  · simp only [h, decide_false, if_false, Bool.false_eq_true]

theorem updateDisks_some (old new : AllocatableBandwidth) (c : NodeIOStatusStatus) :
    updateDisks old new (some c) = .done (some (changeDisks old new c)) := by
  unfold updateDisks changeDisks
  cases new.lookup .blockIo with
  | none => rfl
  | some ninfo =>
    cases old.lookup .blockIo with
    | none => rfl
    | some oinfo =>
      dsimp only
      split_ifs
      · rfl
      · simp only [onEntry_some, Outcome.done_bind]
        rfl

theorem keys_addDeviceToCache (h : .blockIo ∈ c.allocatableBandwidth)
    (addDev : Dict String (Dict WorkloadQoSType IOStatus)) :
    (addDeviceToCache .blockIo addDev c).allocatableBandwidth.keys = c.allocatableBandwidth.keys :=
  keys_insert_of_mem h _

theorem disks_addDeviceToCache (addDev : Dict String (Dict WorkloadQoSType IOStatus))
    (c : NodeIOStatusStatus) :
    disks (addDeviceToCache .blockIo addDev c).allocatableBandwidth =
      addDev.keys ∪ disks c.allocatableBandwidth := by
  rw [addDeviceToCache, disks, lookup_insert, getD_some, keys_union, disks]

theorem keys_delDeviceToCache (delDev : Dict String (Dict WorkloadQoSType IOStatus))
    (c : NodeIOStatusStatus) :
    (delDeviceToCache .blockIo delDev c).allocatableBandwidth.keys = c.allocatableBandwidth.keys :=
  keys_adjust _ _ _

theorem disks_delDeviceToCache (delDev : Dict String (Dict WorkloadQoSType IOStatus))
    (c : NodeIOStatusStatus) :
    disks (delDeviceToCache .blockIo delDev c).allocatableBandwidth =
      disks c.allocatableBandwidth \ delDev.keys := by
  rw [delDeviceToCache, disks, lookup_adjust_self, disks]
  cases c.allocatableBandwidth.lookup .blockIo with
  | none => simp
  | some devices => rw [map_some, getD_some, keys_without, getD_some]

theorem addDisks_shape (h : .blockIo ∈ c.allocatableBandwidth)
    (addDev : Dict String (Dict WorkloadQoSType IOStatus)) :
    (addDisks addDev c).allocatableBandwidth.keys = c.allocatableBandwidth.keys ∧
      disks (addDisks addDev c).allocatableBandwidth =
        addDev.keys ∪ disks c.allocatableBandwidth := by
  unfold addDisks
  split_ifs with hne
  · exact ⟨keys_addDeviceToCache h addDev, disks_addDeviceToCache addDev c⟩
  · rw [not_not.mp hne, keys_empty, Finset.empty_union]
    exact ⟨rfl, rfl⟩

theorem delDisks_shape (delDev : Dict String (Dict WorkloadQoSType IOStatus))
    (c : NodeIOStatusStatus) :
    (delDisks delDev c).allocatableBandwidth.keys = c.allocatableBandwidth.keys ∧
      disks (delDisks delDev c).allocatableBandwidth =
        disks c.allocatableBandwidth \ delDev.keys := by
  unfold delDisks
  split_ifs with hne
  · exact ⟨keys_delDeviceToCache delDev c, disks_delDeviceToCache delDev c⟩
  · rw [not_not.mp hne, keys_empty, sdiff_empty]
    exact ⟨rfl, rfl⟩

variable {old : AllocatableBandwidth}

theorem changeDisks_shape (new : AllocatableBandwidth) (h : SameShape c.allocatableBandwidth old) :
    (changeDisks old new c).allocatableBandwidth.keys = old.keys ∧
      disks (changeDisks old new c).allocatableBandwidth =
        if .blockIo ∈ old ∧ .blockIo ∈ new ∧ (disks old).card ≠ (disks new).card then disks new
        else disks old := by
  unfold changeDisks
  cases hn : new.lookup .blockIo with
  | none =>
    rw [if_neg fun hc => lookup_eq_none.mp hn hc.2.1]
    exact h
  | some ninfo =>
    cases ho : old.lookup .blockIo with
    | none =>
      rw [if_neg fun hc => lookup_eq_none.mp ho hc.1]
      exact h
    | some oinfo =>
      have hnew := disks_of_lookup hn
      have hold := disks_of_lookup ho
      have hmem : .blockIo ∈ c.allocatableBandwidth :=
        (h.mem_iff _).mpr (mem_of_lookup_eq_some ho)
      dsimp only
      by_cases hcard : ninfo.keys.card = oinfo.keys.card
      · rw [if_pos hcard, if_neg fun hc => hc.2.2 (by rw [hold, hnew, hcard])]
        exact h
      rw [if_neg hcard, if_pos ⟨mem_of_lookup_eq_some ho, mem_of_lookup_eq_some hn,
        by rw [hold, hnew]; exact fun heq => hcard heq.symm⟩]
      obtain ⟨hkeys₁, hdisks₁⟩ := addDisks_shape hmem (without ninfo oinfo)
      obtain ⟨hkeys₂, hdisks₂⟩ := delDisks_shape (without oinfo ninfo)
        (addDisks (without ninfo oinfo) c)
      refine ⟨hkeys₂.trans (hkeys₁.trans h.1), ?_⟩
      rw [hdisks₂, hdisks₁, h.2, hold, hnew, keys_without, keys_without]
      ext dev
      simp only [Finset.mem_sdiff, Finset.mem_union]
      tauto

theorem keys_subset_changeDisks (old new : AllocatableBandwidth) (c : NodeIOStatusStatus) :
    c.allocatableBandwidth.keys ⊆ (changeDisks old new c).allocatableBandwidth.keys := by
  have hadd : ∀ addDev,
      c.allocatableBandwidth.keys ⊆ (addDisks addDev c).allocatableBandwidth.keys := by
    intro addDev t ht
    unfold addDisks
    split_ifs
    · exact mem_insert.mpr (.inr ht)
    · exact ht
  unfold changeDisks
  split
  · split_ifs
    · exact subset_rfl
    · rw [(delDisks_shape _ _).1]
      exact hadd _
  · exact subset_rfl

/-! ## One update -/

/-- No I/O type goes away, and the disks stay, or their number changes in an update that brings no
new type, or meets an entry that is the status of the old object. -/
def Kept (shared : Bool) (old new : AllocatableBandwidth) : Prop :=
  old = ∅ ∨ old.keys ⊆ new.keys ∧
    (.blockIo ∈ old → disks old = disks new ∨
      (disks old).card ≠ (disks new).card ∧ (shared ∨ old.keys.card = new.keys.card))

instance (shared : Bool) (old new : AllocatableBandwidth) : Decidable (Kept shared old new) :=
  inferInstanceAs (Decidable (_ ∨ _))

def follow (shared : Bool) (old new : AllocatableBandwidth) (c : NodeIOStatusStatus) :
    NodeIOStatusStatus :=
  if (oldStatusAfter shared old new).keys.card = new.keys.card then
    changeDisks (oldStatusAfter shared old new) new (withTypes old new c)
  else withTypes old new c

theorem updateNodeIOStatusCR_follow (shared : Bool) (oldObj newObj : NodeIOStatus)
    (c : NodeIOStatusStatus) :
    updateNodeIOStatusCR shared oldObj newObj (some c) =
      .done (some (follow shared oldObj.status.allocatableBandwidth
        newObj.status.allocatableBandwidth c)) := by
  rw [updateNodeIOStatusCR_some, follow]
  dsimp only
  split_ifs
  · exact updateDisks_some _ _ _
  · rfl

theorem keys_subset_follow (shared : Bool) (old new : AllocatableBandwidth) (c : NodeIOStatusStatus) :
    c.allocatableBandwidth.keys ⊆ (follow shared old new c).allocatableBandwidth.keys := by
  have htypes : c.allocatableBandwidth.keys ⊆ (withTypes old new c).allocatableBandwidth.keys := by
    unfold withTypes
    split_ifs
    · rw [addResourcetoCache, keys_union]
      exact subset_union_right
    · exact subset_rfl
  unfold follow
  split_ifs
  · exact htypes.trans (keys_subset_changeDisks _ _ _)
  · exact htypes

theorem grown_shape (old new : AllocatableBandwidth) :
    (without new old ∪ old).keys = new.keys ∪ old.keys ∧
      disks (without new old ∪ old) = if .blockIo ∈ old then disks old else disks new := by
  refine ⟨by rw [keys_union, keys_without, sdiff_union_self_eq_union], ?_⟩
  rw [disks, lookup_union_ite]
  by_cases hold : .blockIo ∈ old
  · have hout : .blockIo ∉ without new old := by
      rw [← lookup_eq_none, lookup_without, if_pos hold]
    rw [if_neg hout, if_pos hold, disks]
  rw [if_neg hold, lookup_without, if_neg hold, lookup_eq_none.mpr hold, disks]
  split_ifs with hnew
  · rfl
  have hnone : new.lookup .blockIo = none := by
    rw [← lookup_eq_none, lookup_without, if_neg hold] at hnew
    exact hnew
  rw [hnone]

theorem disks_eq_of_keys (hkeys : m.keys = n.keys) (hm : .blockIo ∉ m) : disks m = disks n := by
  have hn : .blockIo ∉ n := by rwa [← mem_keys, ← hkeys, mem_keys]
  rw [disks_of_notMem hm, disks_of_notMem hn]

theorem changeDisks_sameShape_iff {new : AllocatableBandwidth}
    (h : SameShape c.allocatableBandwidth old) :
    SameShape (changeDisks old new c).allocatableBandwidth new ↔
      old.keys = new.keys ∧ (disks old = disks new ∨ (disks old).card ≠ (disks new).card) := by
  obtain ⟨hkeys, hdisks⟩ := changeDisks_shape new h
  rw [SameShape, hkeys, hdisks]
  refine and_congr_right fun hsame => ?_
  by_cases hcard : (disks old).card = (disks new).card
  · simp [hcard]
  -- disks in different numbers: the type is there before and after
  have hold : .blockIo ∈ old := by
    by_contra hout
    exact hcard (congrArg card (disks_eq_of_keys hsame hout))
  have hnew : .blockIo ∈ new := by rwa [← mem_keys, ← hsame, mem_keys]
  simp [hold, hnew, hcard]

section Follow

variable {shared : Bool} {new : AllocatableBandwidth}
  (h : SameShape c.allocatableBandwidth old) (hne : old ≠ ∅)

include h

theorem follow_equal (hcard : old.keys.card = new.keys.card) :
    SameShape (follow shared old new c).allocatableBandwidth new ↔
      old.keys ⊆ new.keys ∧
        (.blockIo ∈ old → disks old = disks new ∨ (disks old).card ≠ (disks new).card) := by
  have hlt : ¬ (old ≠ ∅ ∧ old.keys.card < new.keys.card) := fun hc => hc.2.ne hcard
  have hafter : oldStatusAfter shared old new = old := if_neg fun hc => hlt hc.2
  rw [follow, hafter, if_pos hcard, withTypes, if_neg hlt, changeDisks_sameShape_iff h]
  constructor
  · rintro ⟨hkeys, hdisks⟩
    exact ⟨hkeys.subset, fun _ => hdisks⟩
  · rintro ⟨hsub, hdisks⟩
    have hkeys := eq_of_subset_of_card_le hsub hcard.ge
    refine ⟨hkeys, ?_⟩
    by_cases hold : .blockIo ∈ old
    · exact hdisks hold
    · exact .inl (disks_eq_of_keys hkeys hold)

theorem follow_fewer (hcard : new.keys.card < old.keys.card) :
    ¬ SameShape (follow shared old new c).allocatableBandwidth new := by
  have hlt : ¬ (old ≠ ∅ ∧ old.keys.card < new.keys.card) := fun hc => hc.2.not_gt hcard
  have hafter : oldStatusAfter shared old new = old := if_neg fun hc => hlt hc.2
  rw [follow, hafter, if_neg hcard.ne', withTypes, if_neg hlt]
  intro hsame
  exact hcard.ne (by rw [← hsame.1, h.1])

include hne

theorem follow_more (hcard : old.keys.card < new.keys.card) :
    SameShape (follow shared old new c).allocatableBandwidth new ↔
      old.keys ⊆ new.keys ∧ (.blockIo ∈ old → disks old = disks new ∨
        (disks old).card ≠ (disks new).card ∧ shared) := by
  obtain ⟨hgrown, hgrownDisks⟩ := grown_shape old new
  have htypes : SameShape (withTypes old new c).allocatableBandwidth (without new old ∪ old) := by
    rw [withTypes, if_pos ⟨hne, hcard⟩]
    exact h.union _
  have hunion : (without new old ∪ old).keys = new.keys ↔ old.keys ⊆ new.keys := by
    rw [hgrown, union_eq_left]
  cases shared with
  | false =>
    have hafter : oldStatusAfter false old new = old := if_neg fun hc => Bool.false_ne_true hc.1
    rw [follow, hafter, if_neg hcard.ne]
    have hiff : SameShape (withTypes old new c).allocatableBandwidth new ↔
        SameShape (without new old ∪ old) new := ⟨htypes.symm.trans, htypes.trans⟩
    rw [hiff, SameShape, hunion, hgrownDisks]
    refine and_congr_right fun _ => ?_
    by_cases hold : .blockIo ∈ old <;> simp [hold]
  | true =>
    have hafter : oldStatusAfter true old new = without new old ∪ old := if_pos ⟨rfl, hne, hcard⟩
    rw [follow, hafter]
    by_cases hsub : old.keys ⊆ new.keys
    · have hkeys := hunion.mpr hsub
      rw [if_pos (by rw [hkeys]), changeDisks_sameShape_iff htypes, hgrownDisks]
      by_cases hold : .blockIo ∈ old <;> simp [hold, hkeys, hsub]
    have hcard' : (without new old ∪ old).keys.card ≠ new.keys.card := by
      rw [hgrown]
      intro heq
      have hsame := eq_of_subset_of_card_le subset_union_left heq.le
      exact hsub (hsame ▸ subset_union_right)
    rw [if_neg hcard']
    refine iff_of_false (fun hsame => hsub ?_) fun hc => hsub hc.1
    exact hunion.mp (htypes.1.symm.trans hsame.1)

/-- An entry that had the shape of the old status has that of the new one exactly if the update is one
of those that are followed. -/
theorem follow_sameShape_iff :
    SameShape (follow shared old new c).allocatableBandwidth new ↔ Kept shared old new := by
  unfold Kept
  rw [or_iff_right hne]
  rcases lt_trichotomy old.keys.card new.keys.card with hcard | hcard | hcard
  · rw [follow_more h hne hcard]
    simp [hcard.ne]
  · rw [follow_equal h hcard]
    simp [hcard]
  · refine iff_of_false (follow_fewer h hcard) fun hc => ?_
    exact hcard.not_ge (card_le_card hc.1)

end Follow

/-! ## Histories -/

structure State where
  /-- `latestGeneration` of the node in `nodeInfo4Agent`. -/
  agent : Option Int
  cache : Option NodeIOStatusStatus
  latest : Option NodeIOStatus
  /-- The entry is the status of that object itself. -/
  shared : Bool
  deriving DecidableEq

inductive Event where
  | add (obj : NodeIOStatus)
  | update (obj : NodeIOStatus)
  | addNode
  | deleteNode
  | report (req : UpdateNodeIOStatusRequest)
  deriving DecidableEq

/-- The handlers, and the merge of a report. A nil dereference ends the run, and there is no update
before the first addition. -/
def step (s : State) : Event → Option State
  | .add obj =>
    some
      { agent := some (s.agent.getD obj.spec.generation)
        cache := addNodeIOStatusCR obj s.cache
        latest := some obj
        shared := obj.status.allocatableBandwidth ≠ ∅ }
  | .update obj =>
    match s.latest with
    | some old =>
      match updateNodeIOStatusCR s.shared old obj s.cache with
      | .done cache =>
        some { s with cache := cache, latest := some obj, shared := Registers old obj s.cache }
      | _ => none
    | none => none
  | .addNode => some { s with agent := some (s.agent.getD 0) }
  | .deleteNode => some { s with agent := none }
  | .report req => some { s with cache := s.cache.map (updateNodeIOStatusCache req) }

def start (agent : Option Int) : State := ⟨agent, none, none, false⟩

def State.entry (s : State) : AllocatableBandwidth :=
  (s.cache.map (·.allocatableBandwidth)).getD ∅

def State.status (s : State) : AllocatableBandwidth :=
  (s.latest.map (·.status.allocatableBandwidth)).getD ∅

/-- The cache has for the node the I/O types and the disks of the latest status. -/
def InSync (s : State) : Prop := SameShape s.entry s.status

instance (s : State) : Decidable (InSync s) := inferInstanceAs (Decidable (SameShape _ _))

/-- An event the entry follows. A status without types is only followed at the beginning. -/
def KeptStep (s : State) : Event → Prop
  | .add obj => obj.status.allocatableBandwidth ≠ ∅ ∨ s.status = ∅
  | .update obj => Kept s.shared s.status obj.status.allocatableBandwidth
  | .addNode => True
  | .deleteNode => True
  | .report _ => True

/-- There is no entry as long as there was no type, and no entry without types. -/
structure Inv (s : State) : Prop where
  none : s.cache = none → s.status = ∅
  some : ∀ c, s.cache = some c → c.allocatableBandwidth ≠ ∅

theorem inv_start (agent : Option Int) : Inv (start agent) := ⟨fun _ => rfl, by simp [start]⟩

theorem updateNodeIOStatusCache_shape (req : UpdateNodeIOStatusRequest) (c : NodeIOStatusStatus) :
    SameShape (updateNodeIOStatusCache req c).allocatableBandwidth c.allocatableBandwidth := by
  have hone : ∀ (m : AllocatableBandwidth) (bw : IOBandwidth), SameShape (mergeType m bw) m := by
    intro m bw
    unfold mergeType
    split
    · refine ⟨keys_adjust _ _ _, ?_⟩
      rw [disks, lookup_adjust, disks]
      split_ifs with ht
      · subst ht
        cases m.lookup .blockIo with
        | none => rfl
        | some devices =>
          rw [map_some, getD_some, getD_some]
          exact keys_mapVals _ devices
      · rfl
    · exact ⟨rfl, rfl⟩
  have hall : ∀ (parts : List IOBandwidth) (m : AllocatableBandwidth),
      SameShape (parts.foldl mergeType m) m := by
    intro parts
    induction parts with
    | nil => intro m; exact ⟨rfl, rfl⟩
    | cons bw rest ih => intro m; exact (ih _).trans (hone m bw)
  exact hall req.ioBw c.allocatableBandwidth

variable {s : State}

/-- What an update does with the entry. Without one, it does what an addition does. -/
theorem update_cases (hi : Inv s) {old : NodeIOStatus} (hl : s.latest = some old)
    (obj : NodeIOStatus) :
    (s.cache = none ∧
      updateNodeIOStatusCR s.shared old obj s.cache = .done (addNodeIOStatusCR obj none)) ∨
    ∃ c, s.cache = some c ∧ updateNodeIOStatusCR s.shared old obj s.cache =
      .done (some (follow s.shared s.status obj.status.allocatableBandwidth c)) := by
  have hstatus : s.status = old.status.allocatableBandwidth := by
    rw [State.status, hl, map_some, getD_some]
  cases hc : s.cache with
  | some c => exact .inr ⟨c, rfl, by rw [hstatus, updateNodeIOStatusCR_follow]⟩
  | none =>
    have hold : old.status.allocatableBandwidth = ∅ := hstatus ▸ hi.none hc
    refine .inl ⟨rfl, ?_⟩
    by_cases hnew : obj.status.allocatableBandwidth = ∅
    · have hreg : ¬ Registers old obj none := fun hreg => hreg.2.2 hnew
      rw [updateNodeIOStatusCR_unregistered hreg, addNodeIOStatusCR, if_neg (not_not.mpr hnew), hold,
        hnew]
      simp [oldStatusAfter, updateDisks]
    · rw [updateNodeIOStatusCR_registers ⟨rfl, hold, hnew⟩, addNodeIOStatusCR, if_pos hnew]

theorem inv_added (hc : s.cache = addNodeIOStatusCR obj cache) (hl : s.latest = some obj)
    (hcache : ∀ c, cache = some c → c.allocatableBandwidth ≠ ∅) : Inv s := by
  have hstatus : s.status = obj.status.allocatableBandwidth := by
    rw [State.status, hl, map_some, getD_some]
  rw [addNodeIOStatusCR] at hc
  constructor
  · intro hnone
    rw [hstatus]
    by_contra hne
    rw [if_pos hne, hnone] at hc
    cases hc
  · intro c hsome
    rw [hsome] at hc
    split_ifs at hc with hne
    · cases hc
      exact hne
    · exact hcache c hc.symm

theorem inSync_added (hc : s.cache = addNodeIOStatusCR obj cache) (hl : s.latest = some obj)
    (hcache : ∀ c, cache = some c → c.allocatableBandwidth ≠ ∅) :
    InSync s ↔ obj.status.allocatableBandwidth ≠ ∅ ∨ cache = none := by
  have hstatus : s.status = obj.status.allocatableBandwidth := by
    rw [State.status, hl, map_some, getD_some]
  rw [InSync, State.entry, hc, hstatus, addNodeIOStatusCR]
  by_cases hne : obj.status.allocatableBandwidth ≠ ∅
  · rw [if_pos hne]
    exact iff_of_true ⟨rfl, rfl⟩ (.inl hne)
  rw [if_neg hne, or_iff_right hne, not_not.mp hne]
  constructor
  · rintro ⟨hkeys, -⟩
    by_contra hsome
    obtain ⟨c, rfl⟩ := ne_none_iff_exists'.mp hsome
    refine hcache c rfl (keys_card_eq_zero.mp ?_)
    rw [map_some, getD_some] at hkeys
    rw [hkeys]
    rfl
  · rintro rfl
    exact ⟨rfl, rfl⟩

theorem cache_none_iff (hi : Inv s) (hs : InSync s) : s.cache = none ↔ s.status = ∅ := by
  refine ⟨hi.none, fun hempty => ?_⟩
  by_contra hsome
  obtain ⟨c, hc⟩ := ne_none_iff_exists'.mp hsome
  refine hi.some c hc (keys_card_eq_zero.mp ?_)
  have hkeys := hs.1
  rw [State.entry, hc, map_some, getD_some, hempty] at hkeys
  rw [hkeys]
  rfl

variable {e : Event} {s' : State}

theorem inv_step (h : step s e = some s') (hi : Inv s) : Inv s' := by
  cases e with
  | add obj =>
    cases h
    exact inv_added rfl rfl hi.some
  | update obj =>
    rw [step] at h
    split at h
    · rename_i old hl
      rcases update_cases hi hl obj with ⟨-, hup⟩ | ⟨c, hc, hup⟩
      · rw [hup] at h
        cases h
        exact inv_added rfl rfl (by simp)
      rw [hup] at h
      cases h
      refine ⟨fun hnone => absurd hnone (some_ne_none _), fun c' hc' hempty => ?_⟩
      cases hc'
      have hsub := keys_subset_follow s.shared s.status obj.status.allocatableBandwidth c
      rw [hempty] at hsub
      exact hi.some c hc (keys_card_eq_zero.mp (card_eq_zero.mpr (subset_empty.mp hsub)))
    · cases h
  | addNode | deleteNode =>
    cases h
    exact ⟨hi.none, hi.some⟩
  | report req =>
    cases h
    refine ⟨fun hnone => hi.none (map_eq_none_iff.mp hnone), fun c' hc' => ?_⟩
    obtain ⟨c, hc, rfl⟩ := map_eq_some_iff.mp hc'
    intro hempty
    refine hi.some c hc (keys_card_eq_zero.mp ?_)
    rw [← (updateNodeIOStatusCache_shape req c).1, hempty]
    rfl

theorem inSync_step (h : step s e = some s') (hi : Inv s) (hs : InSync s) :
    InSync s' ↔ KeptStep s e := by
  cases e with
  | add obj =>
    cases h
    rw [inSync_added rfl rfl hi.some, cache_none_iff hi hs]
    rfl
  | update obj =>
    rw [step] at h
    split at h
    · rename_i old hl
      rcases update_cases hi hl obj with ⟨hnone, hup⟩ | ⟨c, hc, hup⟩
      · rw [hup] at h
        cases h
        rw [inSync_added rfl rfl (by simp)]
        exact iff_of_true (.inr rfl) (.inl (hi.none hnone))
      rw [hup] at h
      cases h
      have hshape : SameShape c.allocatableBandwidth s.status := by
        rw [InSync, State.entry, hc, map_some, getD_some] at hs
        exact hs
      have hne : s.status ≠ ∅ := by
        rw [Ne, ← cache_none_iff hi hs, hc]
        simp
      exact follow_sameShape_iff hshape hne
    · cases h
  | addNode | deleteNode =>
    cases h
    exact iff_of_true hs trivial
  | report req =>
    cases h
    refine iff_of_true ?_ trivial
    cases hc : s.cache with
    | none =>
      rw [InSync, State.entry, hc] at hs
      exact hs
    | some c =>
      rw [InSync, State.entry, hc, map_some, getD_some] at hs
      exact (updateNodeIOStatusCache_shape req c).trans hs

theorem step_update {old : NodeIOStatus} (hl : s.latest = some old)
    (hup : updateNodeIOStatusCR s.shared old obj s.cache = .done cache) :
    step s (.update obj) =
      some { s with cache := cache, latest := some obj, shared := Registers old obj s.cache } := by
  simp only [step, hl, hup]

theorem step_defined (hi : Inv s) (hl : s.latest.isSome) (e : Event) :
    ∃ s', step s e = some s' ∧ s'.latest.isSome := by
  cases e with
  | add obj => exact ⟨_, rfl, rfl⟩
  | update obj =>
    obtain ⟨old, hold⟩ := isSome_iff_exists.mp hl
    rcases update_cases hi hold obj with ⟨-, hup⟩ | ⟨c, -, hup⟩
    · exact ⟨_, step_update hold hup, rfl⟩
    · exact ⟨_, step_update hold hup, rfl⟩
  | addNode | deleteNode | report => exact ⟨_, rfl, hl⟩

theorem run_defined (hi : Inv s) (hl : s.latest.isSome) (es : List Event) :
    ∃ t, run step s es = some t := by
  induction es generalizing s with
  | nil => exact ⟨s, rfl⟩
  | cons e es ih =>
    obtain ⟨s', hs', hl'⟩ := step_defined hi hl e
    rw [run_cons hs']
    exact ih (inv_step hs' hi) hl'

/-- Every history runs through, and after each notification the cache has the I/O types and the disks of
the latest status exactly if all events are ones that are followed. -/
theorem inSync_iff (agent : Option Int) (obj : NodeIOStatus) (es : List Event) :
    (∃ s, run step (start agent) (.add obj :: es) = some s) ∧
      ((∀ pre s, pre <+: .add obj :: es → run step (start agent) pre = some s → InSync s) ↔
        Along step KeptStep (start agent) (.add obj :: es)) := by
  constructor
  · have hadd : step (start agent) (.add obj) = some _ := rfl
    exact run_defined (inv_step hadd (inv_start agent)) rfl es
  · refine always_iff_along (I := Inv) (fun s e s' h hi hs => inSync_step h hi hs)
      (fun s e s' h _ hi _ => inv_step h hi) (fun s e h hi => ?_) (inv_start agent) ⟨rfl, rfl⟩
    -- only an update before the first addition does not happen
    cases hl : s.latest with
    | some old =>
      obtain ⟨s', hs', -⟩ := step_defined hi (by rw [hl]; rfl) e
      rw [h] at hs'
      cases hs'
    | none =>
      cases e with
      | update obj => exact .inl (by rw [State.status, hl]; rfl)
      | add obj => cases h
      | addNode | deleteNode | report => trivial

def AlwaysInSync : Prop :=
  ∀ (agent : Option Int) (obj : NodeIOStatus) (es : List Event) (s : State),
    run step (start agent) (.add obj :: es) = some s → InSync s

def diskOnly : AllocatableBandwidth := Finmap.singleton .blockIo (Finmap.singleton "sda" ∅)

theorem not_alwaysInSync : ¬ AlwaysInSync := by
  intro h
  let both : NodeIOStatus := ⟨⟨"n", 0, ∅⟩, ⟨0, diskOnly.insert .networkIo (Finmap.singleton "eth0" ∅)⟩⟩
  let fewer : NodeIOStatus := ⟨⟨"n", 0, ∅⟩, ⟨0, diskOnly⟩⟩
  obtain ⟨s, hs, hsync⟩ : ∃ s ∈ run step (start none) [.add both, .update fewer], ¬ InSync s := by
    decide +kernel
  exact hsync (h none both [.update fewer] s hs)

end IOIsolation.Aggr.CacheFollows
