import IOIsolation.Agent.Registration

/-!
# Agent.Rendezvous

Runs of an engine over runtime events and pod lists in any order. What the two sides have said so
far is kept beside the engine (`Words`), so that its commands and its table can be compared with it.

* `rendezvous_holds` — pods are registered and unregistered on both sides' word, if neither side takes
  a pod back up while its stop still waits for the other side.
* `tables_bounded`   — the table holds pods that are alive or reserved only, if a list names each pod
  before the runtime stops it.
-/

namespace IOIsolation.Agent

open Lib Finmap Option Finset

def WorkloadGroup.empty : WorkloadGroup := ⟨∅, ∅, ∅, ∅, ∅, ∅, ∅⟩

def PodEngine.fresh (nsWhitelist : Finset String) (devices : List String)
    (majorMinors : Dict String String) (nodeIps : List String) : PodEngine :=
  { nsWhitelist := nsWhitelist
    wgDevices := devices.foldl (fun wgs dev => wgs.insert dev fun _ => .empty) ∅
    podRegInfos := ∅
    majorMinors := majorMinors
    nodeIps := nodeIps
    calls := [] }

def PodEventList.names (l : PodEventList) : Finset String := (l.pods.map ListedPod.podId).toFinset

theorem visited_subset_names (e : PodEngine) (l : PodEventList) : visited e l ⊆ l.names := by
  intro podId h
  simp only [visited, PodEventList.names, List.mem_toFinset, List.mem_map] at h ⊢
  obtain ⟨p, hp, rfl⟩ := h
  exact ⟨p, (List.mem_filter.mp hp).1, rfl⟩

namespace Registration

/-- What the two sides have said: the pods the runtime reported at all, those it reported running,
those it reported stopped last, those some list named, and those the latest list names. -/
structure Words where
  seen : Finset String
  ran : Finset String
  stopped : Finset String
  named : Finset String
  latest : Finset String
  deriving DecidableEq

structure State where
  engine : PodEngine
  words : Words

inductive Event where
  | nri (podId : String) (info : NriInfo) (order : List String)
  | podList (l : PodEventList) (order : List String)

def start (e : PodEngine) : State := ⟨e, ⟨∅, ∅, ∅, ∅, ∅⟩⟩

def Words.hearNri (w : Words) (podId : String) (op : Operation) : Words :=
  { w with
    seen := insert podId w.seen
    ran := if op = .runPod then insert podId w.ran else w.ran
    stopped := match op with
      | .stopPod => insert podId w.stopped
      | .runPod => w.stopped.erase podId
      | .stopContainer => w.stopped }

def Words.hearList (w : Words) (l : PodEventList) : Words :=
  { w with named := w.named ∪ l.names, latest := l.names }

def step (k : Kind) (s : State) : Event → Option State
  | .nri podId info order =>
    (processNriData k podId info order { s.engine with calls := [] }).map fun e =>
      ⟨e, s.words.hearNri podId info.operation⟩
  | .podList l order =>
    (processCrData k l order { s.engine with calls := [] }).map fun e => ⟨e, s.words.hearList l⟩

/-! ## Both sides agree -/

def Agreed (w : Words) : Call → Prop
  | .register podId _ => podId ∈ w.ran ∧ podId ∈ w.named
  | .unregister podId => podId ∈ w.stopped ∧ podId ∉ w.latest

instance (w : Words) : ∀ c, Decidable (Agreed w c)
  | .register _ _ => inferInstanceAs (Decidable (_ ∧ _))
  | .unregister _ => inferInstanceAs (Decidable (_ ∧ _))

def Rendezvous (s : State) : Prop := ∀ c ∈ s.engine.calls, Agreed s.words c

/-- Neither side takes a pod back up while its own stop is still pending, and a list names only
pods it has, with a name, on a profiled device. -/
def InTurn (s : State) : Event → Prop
  | .nri podId info _ => info.operation = .runPod →
      ∀ r ∈ s.engine.podRegInfos.lookup podId, .stopPod ∉ r.nriOperation
  | .podList l _ => ∀ podId ∈ l.names, podId ∈ visited s.engine l ∧
      ∀ r ∈ s.engine.podRegInfos.lookup podId, .stopPod ∉ r.crOperation

instance (s : State) : ∀ ev, Decidable (InTurn s ev)
  | .nri podId info _ => inferInstanceAs (Decidable (info.operation = .runPod →
      ∀ r ∈ s.engine.podRegInfos.lookup podId, .stopPod ∉ r.nriOperation))
  | .podList _ _ => inferInstanceAs (Decidable (∀ podId ∈ PodEventList.names _, _))

/-- Each operation in a table has been said by its side, and a stop is its last word. -/
def Backed (w : Words) (e : PodEngine) : Prop :=
  ∀ podId r, e.podRegInfos.lookup podId = some r →
    (.runPod ∈ r.nriOperation → podId ∈ w.ran) ∧ (.runPod ∈ r.crOperation → podId ∈ w.named) ∧
      (.stopPod ∈ r.nriOperation → podId ∈ w.stopped) ∧
      (.stopPod ∈ r.crOperation → podId ∉ w.latest)

variable {k : Kind} {e : PodEngine} {w : Words} {podId : String} {info : NriInfo} {s : State}
  {e' : PodEngine} {order : List String} {op : Operation} {x : String} {l : PodEventList}
  {ev : Event} {s' : State}

/-- The loop acts on what both sides have said, and only drops operations. -/
theorem registerPod_backed (h : registerPod k order e = some e') (hcalls : e.calls = [])
    (hb : Backed w e) : Backed w e' ∧ ∀ c ∈ e'.calls, Agreed w c := by
  constructor
  · intro podId r' hr'
    rw [registerPod_lookup h] at hr'
    obtain ⟨r, hr, hsettle⟩ := bind_eq_some_iff.mp hr'
    obtain ⟨hnri, hcr, -⟩ := PodRegInfo.settle_some hsettle
    obtain ⟨h₁, h₂, h₃, h₄⟩ := hb podId r hr
    exact ⟨fun hm => h₁ (hnri hm), fun hm => h₂ (hcr hm), fun hm => h₃ (hnri hm),
      fun hm => h₄ (hcr hm)⟩
  · intro c hc
    rcases registerPod_calls h hc with hc | ⟨podId, r, hr, -, hop⟩
    · rw [hcalls] at hc
      cases hc
    obtain ⟨h₁, h₂, h₃, h₄⟩ := hb podId r hr
    rcases hop with ⟨hmem, rfl⟩ | ⟨hmem, rfl⟩
    · obtain ⟨hnri, hcr⟩ := mem_inter.mp hmem
      exact ⟨h₁ hnri, h₂ hcr⟩
    · obtain ⟨hnri, hcr⟩ := mem_inter.mp hmem
      exact ⟨h₃ hnri, h₄ hcr⟩

theorem mem_hearNri_stopped (h : x ≠ podId) : x ∈ (w.hearNri podId op).stopped ↔ x ∈ w.stopped := by
  cases op <;> simp [Words.hearNri, h]

theorem mem_hearNri_ran : x ∈ (w.hearNri podId op).ran ↔ x ∈ w.ran ∨ op = .runPod ∧ x = podId := by
  unfold Words.hearNri
  by_cases hop : op = .runPod <;> simp [hop, or_comm]

/-- A runtime event that is in turn keeps the table backed, whether the pod is entered or not. -/
theorem backed_hearNri (hb : Backed w e)
    (hok : info.operation = .runPod → ∀ r ∈ e.podRegInfos.lookup podId, .stopPod ∉ r.nriOperation) :
    Backed (w.hearNri podId info.operation) e := by
  intro x r hr
  obtain ⟨h₁, h₂, h₃, h₄⟩ := hb x r hr
  refine ⟨fun hm => mem_hearNri_ran.mpr (.inl (h₁ hm)), h₂, fun hm => ?_, h₄⟩
  by_cases hx : x = podId
  · subst hx
    have hstop := h₃ hm
    cases hop : info.operation with
    | stopPod => exact mem_insert_self _ _
    | runPod => exact absurd hm (hok hop r hr)
    | stopContainer => exact hstop
  · exact (mem_hearNri_stopped hx).mpr (h₃ hm)

theorem backed_nriEntry (hb : Backed (w.hearNri podId info.operation) e) :
    Backed (w.hearNri podId info.operation) { e with
      podRegInfos := e.podRegInfos.insert podId (nriEntry k info (e.podRegInfos.lookup podId)) } := by
  intro x r hr
  by_cases hx : x = podId
  · subst hx
    rw [lookup_insert, some.injEq] at hr
    subst hr
    obtain ⟨-, -, hnri, hcr, -⟩ := nriEntry_eq k info (e.podRegInfos.lookup x)
    rw [hnri, hcr]
    -- what the entry had before, if there was one
    have hold : (.runPod ∈ ((e.podRegInfos.lookup x).getD .blank).nriOperation →
          x ∈ (w.hearNri x info.operation).ran) ∧
        (.runPod ∈ ((e.podRegInfos.lookup x).getD .blank).crOperation →
          x ∈ (w.hearNri x info.operation).named) ∧
        (.stopPod ∈ ((e.podRegInfos.lookup x).getD .blank).nriOperation →
          x ∈ (w.hearNri x info.operation).stopped) ∧
        (.stopPod ∈ ((e.podRegInfos.lookup x).getD .blank).crOperation →
          x ∉ (w.hearNri x info.operation).latest) := by
      cases hr : e.podRegInfos.lookup x with
      | none => simp [PodRegInfo.blank]
      | some r => exact hb x r hr
    obtain ⟨h₁, h₂, h₃, h₄⟩ := hold
    refine ⟨fun hm => ?_, h₂, fun hm => ?_, h₄⟩
    · rcases mem_union.mp hm with hm | hm
      · exact h₁ hm
      · exact mem_hearNri_ran.mpr (.inr ⟨(mem_singleton.mp hm).symm, rfl⟩)
    rcases mem_union.mp hm with hm | hm
    · exact h₃ hm
    · rw [← mem_singleton.mp hm]
      exact mem_insert_self _ _
  · rw [lookup_insert_of_ne _ hx] at hr
    exact hb x r hr

theorem backed_takeList (hb : Backed w e) (hok : ∀ podId ∈ l.names, podId ∈ visited e l ∧
      ∀ r ∈ e.podRegInfos.lookup podId, .stopPod ∉ r.crOperation) :
    Backed (w.hearList l) (takeList k l e) := by
  intro x r hr
  obtain ⟨hout, hin⟩ := takeList_lookup k l e x
  by_cases hx : x ∈ visited e l
  · have hname := visited_subset_names e l hx
    obtain ⟨r', hr', -, -, -, hnri, hcr, -⟩ := hin hx
    obtain rfl := mem_unique hr hr'
    rw [hnri, hcr]
    have hrun : x ∈ (w.hearList l).named := mem_union_right _ hname
    cases hold : e.podRegInfos.lookup x with
    | none => simp [PodRegInfo.blank, hrun]
    | some r₀ =>
      obtain ⟨h₁, -, h₃, -⟩ := hb x r₀ hold
      refine ⟨h₁, fun _ => hrun, h₃, fun hm => ?_⟩
      rcases mem_union.mp hm with hm | hm
      · exact absurd hm ((hok x hname).2 r₀ hold)
      · cases mem_singleton.mp hm
  · rw [hout hx] at hr
    obtain ⟨r₀, hold, rfl⟩ := map_eq_some_iff.mp hr
    obtain ⟨h₁, h₂, h₃, -⟩ := hb x r₀ hold
    refine ⟨h₁, fun hm => ?_, h₃, fun _ hname => hx (hok x hname).1⟩
    rcases mem_union.mp hm with hm | hm
    · exact mem_union_left _ (h₂ hm)
    · cases mem_singleton.mp hm

theorem step_backed (h : step k s ev = some s') (hok : InTurn s ev) (hs : Backed s.words s.engine) :
    Backed s'.words s'.engine ∧ Rendezvous s' := by
  cases ev with
  | nri podId info order =>
    obtain ⟨e, he, rfl⟩ := map_eq_some_iff.mp h
    have hb := backed_hearNri (e := { s.engine with calls := [] }) hs hok
    unfold processNriData at he
    split_ifs at he with hwhite
    · cases k with
      | disk => exact registerPod_backed he rfl hb
      | net =>
        cases he
        exact ⟨hb, fun c hc => by cases hc⟩
    · exact registerPod_backed he rfl (backed_nriEntry hb)
  | podList l order =>
    obtain ⟨e, he, rfl⟩ := map_eq_some_iff.mp h
    unfold processCrData at he
    split_ifs at he with htyped
    exact registerPod_backed he (takeList_frame k l _).2.1
      (backed_takeList (e := { s.engine with calls := [] }) hs hok)

/-- Pods are registered only after both sides asked for it and unregistered only while both sides
have the pod stopped, in every run in which the events are in turn. -/
theorem rendezvous_holds (k : Kind) (whitelist : Finset String) (devices : List String)
    (majorMinors : Dict String String) (nodeIps : List String) (evs : List Event) (s : State)
    (hturn : Along (step k) InTurn (start (.fresh whitelist devices majorMinors nodeIps)) evs)
    (hrun : run (step k) (start (.fresh whitelist devices majorMinors nodeIps)) evs = some s) :
    Rendezvous s := by
  refine (run_invariant (I := fun s => Backed s.words s.engine ∧ Rendezvous s) (C := InTurn)
    (fun _ _ _ hstep hok hs => step_backed hstep hok hs.1) ⟨?_, ?_⟩ hturn hrun).2
  · intro podId r hr
    cases hr
  · intro c hc
    cases hc

def podOn (dev : String) : PodEventList :=
  (∅ : PodEventList).insert dev ((∅ : AList fun _ : String => PodRunInfo).insert "p"
    { request := ⟨10, 10, 0, 0⟩
      limit := ⟨10, 10, 0, 0⟩
      rawRequest := ⟨10, 10, 0, 0⟩
      rawLimit := ⟨10, 10, 0, 0⟩
      workloadType := .gaIndex
      podName := "web" })

def nriOf (op : Operation) : NriInfo := ⟨op, "default", [("network", "/run/netns/p")], "/kubepods/p"⟩

/-- A list that comes before the one with the new pod leaves a stop in its entry; when the runtime
stops the pod, it is unregistered although the latest list has it. -/
theorem not_rendezvous :
    ¬ ∀ (whitelist : Finset String) (devices : List String) (majorMinors : Dict String String)
      (nodeIps : List String) (evs : List Event) (s : State),
      run (step .disk) (start (.fresh whitelist devices majorMinors nodeIps)) evs = some s →
        Rendezvous s := by
  intro h
  obtain ⟨s, hs, hcall, hlatest⟩ : ∃ s ∈ run (step .disk) (start (.fresh ∅ ["sda"] ∅ []))
      [.nri "p" (nriOf .runPod) ["p"], .podList ∅ ["p"], .podList (podOn "sda") ["p"],
        .nri "p" (nriOf .stopPod) ["p"]],
      .unregister "p" ∈ s.engine.calls ∧ "p" ∈ s.words.latest := by
    decide +kernel
  exact (h _ _ _ _ _ s hs (.unregister "p") hcall).2 hlatest

theorem rendezvous_holds_pod :
    ∃ s, run (step .disk) (start (.fresh ∅ ["sda"] ∅ []))
        [.nri "p" (nriOf .runPod) ["p"], .podList (podOn "sda") ["p"],
          .nri "p" (nriOf .stopPod) ["p"], .podList ∅ ["p"]] = some s ∧
      s.engine.calls = [.unregister "p"] ∧ Rendezvous s := by
  exact exists_run (by decide +kernel) fun s hs _ =>
    rendezvous_holds .disk ∅ ["sda"] ∅ [] _ s (by decide +kernel) hs

/-! ## The table stays bounded -/

/-- The table holds pods that are alive or reserved only. -/
structure Bounded (s : State) : Prop where
  /-- No pod both sides have given up. -/
  noStale : ∀ podId ∈ s.engine.podRegInfos, ¬ (podId ∈ s.words.stopped ∧ podId ∉ s.words.latest)
  /-- A pod the latest list omits runs on the node. -/
  alive : ∀ podId ∈ s.engine.podRegInfos, podId ∉ s.words.latest →
    podId ∈ s.words.seen ∧ podId ∉ s.words.stopped

/-- The runtime reports the end of a pod only once a list has named it, and a container of a stopped
pod only while the pod has its entry; the network engine has learnt the network namespace. A list
leaves out only pods the runtime has reported. -/
def ListedBeforeStop (k : Kind) (s : State) : Event → Prop
  | .nri podId info _ =>
    if info.ns ∈ s.engine.nsWhitelist then podId ∉ s.engine.podRegInfos
    else (info.operation = .stopPod →
        ((s.engine.podRegInfos.lookup podId).getD .blank).devIds ≠ []) ∧
      (info.operation = .stopContainer →
        ((s.engine.podRegInfos.lookup podId).getD .blank).cgroupPath ≠ "" ∨
          podId ∉ s.words.stopped) ∧
      (k = .net → netNs k info ≠ "" ∨ ((s.engine.podRegInfos.lookup podId).getD .blank).ns ≠ "")
  | .podList l _ => ∀ podId ∈ s.engine.podRegInfos.keys, podId ∉ visited s.engine l →
      ∀ r ∈ s.engine.podRegInfos.lookup podId, r.cgroupPath ≠ ""

instance (k : Kind) (s : State) : ∀ ev, Decidable (ListedBeforeStop k s ev)
  | .nri podId info _ => inferInstanceAs (Decidable (if info.ns ∈ s.engine.nsWhitelist then
      podId ∉ s.engine.podRegInfos
    else _ ∧ _ ∧ _))
  | .podList _ _ => inferInstanceAs (Decidable (∀ podId ∈ s.engine.podRegInfos.keys, _))

/-- What each entry of a table says of its pod, before the loop of `RegisterPod`. -/
def Kept (k : Kind) (w : Words) (e : PodEngine) : Prop :=
  ∀ podId r, e.podRegInfos.lookup podId = some r →
    (r.devIds ≠ [] → k = .net → r.group ≠ "") ∧ (r.devIds = [] → podId ∉ w.stopped) ∧
      (r.cgroupPath ≠ "" → podId ∈ w.seen ∧ (podId ∈ w.stopped → .stopPod ∈ r.nriOperation) ∧
        (k = .net → r.ns ≠ "")) ∧
      (podId ∉ w.latest → r.cgroupPath ≠ "" ∧ (r.devIds ≠ [] → .stopPod ∈ r.crOperation))

/-- The loop has dropped the entries that both sides have stopped. -/
def Swept (e : PodEngine) : Prop :=
  ∀ podId r, e.podRegInfos.lookup podId = some r → r.cgroupPath ≠ "" → r.devIds ≠ [] →
    ¬ (.stopPod ∈ r.nriOperation ∧ .stopPod ∈ r.crOperation)

theorem ready_of_kept {r : PodRegInfo} (h : Kept k w e) (hr : e.podRegInfos.lookup podId = some r)
    (hpath : r.cgroupPath ≠ "") (hdev : r.devIds ≠ []) : r.Ready k := by
  obtain ⟨hgroup, -, hseen, -⟩ := h podId r hr
  cases k with
  | disk => exact ⟨hpath, hdev⟩
  | net => exact ⟨hgroup hdev rfl, (hseen hpath).2.2 rfl, hpath, hdev⟩

theorem registerPod_kept (h : registerPod k order e = some e') (hk : Kept k w e) :
    Kept k w e' ∧ Swept e' := by
  have hentry : ∀ {podId r'}, e'.podRegInfos.lookup podId = some r' →
      ∃ r, e.podRegInfos.lookup podId = some r ∧ r.settle k = some r' := by
    intro podId r' hr'
    rw [registerPod_lookup h] at hr'
    exact bind_eq_some_iff.mp hr'
  constructor
  · intro podId r' hr'
    obtain ⟨r, hr, hsettle⟩ := hentry hr'
    obtain ⟨-, -, hpath, hns, hdev, hgroup, hnri, hcr⟩ := PodRegInfo.settle_some hsettle
    obtain ⟨h₁, h₂, h₃, h₄⟩ := hk podId r hr
    rw [hpath, hns, hdev, hgroup]
    refine ⟨h₁, h₂, fun hp => ?_, fun hl => ⟨(h₄ hl).1, fun hd => hcr ((h₄ hl).2 hd)⟩⟩
    obtain ⟨hseen, hstop, hnet⟩ := h₃ hp
    exact ⟨hseen, fun hs => hnri (hstop hs), hnet⟩
  · intro podId r' hr' hpath' hdev' hboth
    obtain ⟨r, hr, hsettle⟩ := hentry hr'
    obtain ⟨hnri, hcr, hpath, -, hdev, -⟩ := PodRegInfo.settle_some hsettle
    exact PodRegInfo.not_stopped_of_settle hsettle
      (ready_of_kept hk hr (hpath ▸ hpath') (hdev ▸ hdev')) ⟨hnri hboth.1, hcr hboth.2⟩

theorem bounded_of_kept (hk : Kept k s.words s.engine) (hs : Swept s.engine) : Bounded s := by
  have halive : ∀ podId ∈ s.engine.podRegInfos, podId ∉ s.words.latest →
      podId ∈ s.words.seen ∧ podId ∉ s.words.stopped := by
    intro podId hmem hl
    obtain ⟨r, hr⟩ := isSome_iff_exists.mp (lookup_isSome.mpr hmem)
    obtain ⟨-, hlone, hseen, homit⟩ := hk podId r hr
    obtain ⟨hpath, hcr⟩ := homit hl
    refine ⟨(hseen hpath).1, fun hstop => ?_⟩
    have hdev : r.devIds ≠ [] := fun hnil => hlone hnil hstop
    exact hs podId r hr hpath hdev ⟨(hseen hpath).2.1 hstop, hcr hdev⟩
  exact ⟨fun podId hmem hboth => (halive podId hmem hboth.2).2 hboth.1, halive⟩

theorem cgroupPath_ne_empty (path : String) : podPrefix ++ path ≠ "" := by
  intro h
  have hlen := congrArg String.length h
  rw [String.length_append] at hlen
  have hpos : podPrefix.length = 14 := by decide
  simp only [String.length_empty] at hlen
  omega

theorem Kept.erase (hk : Kept k w e) (podId : String) :
    Kept k w { e with podRegInfos := e.podRegInfos.erase podId } := by
  intro x r hr
  rw [Dict.lookup_erase_ite] at hr
  split_ifs at hr
  exact hk x r hr

theorem kept_hearNri (op : Operation) (hk : Kept k w e) (hnot : podId ∉ e.podRegInfos) :
    Kept k (w.hearNri podId op) e := by
  intro x r hr
  have hx : x ≠ podId := by
    rintro rfl
    exact hnot (mem_of_lookup_eq_some hr)
  obtain ⟨h₁, h₂, h₃, h₄⟩ := hk x r hr
  refine ⟨h₁, fun hnil hm => h₂ hnil ((mem_hearNri_stopped hx).mp hm), fun hp => ?_, h₄⟩
  obtain ⟨hseen, hstop, hns⟩ := h₃ hp
  exact ⟨mem_insert_of_mem hseen, fun hm => hstop ((mem_hearNri_stopped hx).mp hm), hns⟩

theorem hearNri_stopped_self (h : x ∈ (w.hearNri x op).stopped) :
    op = .stopPod ∨ op = .stopContainer ∧ x ∈ w.stopped := by
  cases op with
  | runPod => exact absurd rfl (mem_erase.mp h).1
  | stopPod => exact .inl rfl
  | stopContainer => exact .inr ⟨rfl, h⟩

theorem kept_nriEntry (hk : Kept k w e)
    (hstop : info.operation = .stopPod → ((e.podRegInfos.lookup podId).getD .blank).devIds ≠ [])
    (hcontainer : info.operation = .stopContainer →
      ((e.podRegInfos.lookup podId).getD .blank).cgroupPath ≠ "" ∨ podId ∉ w.stopped)
    (hnet : k = .net →
      netNs k info ≠ "" ∨ ((e.podRegInfos.lookup podId).getD .blank).ns ≠ "") :
    Kept k (w.hearNri podId info.operation) { e with
      podRegInfos := e.podRegInfos.insert podId (nriEntry k info (e.podRegInfos.lookup podId)) } := by
  intro x r hr
  by_cases hx : x = podId
  · subst hx
    rw [lookup_insert, some.injEq] at hr
    subst hr
    obtain ⟨hpath, hns, hnri, hcr, hdev, hgroup⟩ := nriEntry_eq k info (e.podRegInfos.lookup x)
    rw [hpath, hns, hnri, hcr, hdev, hgroup]
    generalize hr₀ : (e.podRegInfos.lookup x).getD .blank = r₀ at *
    -- what the entry said before, if there was one
    obtain ⟨h₁, h₂, h₃, h₄⟩ : (r₀.devIds ≠ [] → k = .net → r₀.group ≠ "") ∧
        (r₀.cgroupPath ≠ "" → r₀.devIds = [] → x ∉ w.stopped) ∧
        (r₀.cgroupPath ≠ "" → x ∈ w.stopped → .stopPod ∈ r₀.nriOperation) ∧
        (x ∉ w.latest → r₀.devIds ≠ [] → .stopPod ∈ r₀.crOperation) := by
      cases hold : e.podRegInfos.lookup x with
      | none =>
        rw [hold] at hr₀
        subst hr₀
        exact ⟨fun h => absurd rfl h, fun h => absurd rfl h, fun h => absurd rfl h,
          fun _ h => absurd rfl h⟩
      | some r =>
        rw [hold] at hr₀
        subst hr₀
        obtain ⟨h₁, h₂, h₃, h₄⟩ := hk x r hold
        exact ⟨h₁, fun _ => h₂, fun hp => (h₃ hp).2.1, fun hl => (h₄ hl).2⟩
    -- a container event of a stopped pod finds the entry of the pod
    have hentry : info.operation = .stopContainer → x ∈ w.stopped → r₀.cgroupPath ≠ "" :=
      fun hop hs => (hcontainer hop).resolve_right (not_not.mpr hs)
    refine ⟨h₁, fun hnil hs => ?_, fun _ => ⟨mem_insert_self _ _, fun hs => ?_, fun hk => ?_⟩,
      fun hl => ⟨cgroupPath_ne_empty _, h₄ hl⟩⟩
    · rcases hearNri_stopped_self hs with hop | ⟨hop, hs⟩
      · exact hstop hop hnil
      · exact h₂ (hentry hop hs) hnil hs
    · rcases hearNri_stopped_self hs with hop | ⟨hop, hs⟩
      · rw [hop]
        exact mem_union_right _ (mem_singleton_self _)
      · exact mem_union_left _ (h₃ (hentry hop hs) hs)
    · split_ifs with hempty
      · exact hempty
      · exact (hnet hk).resolve_left hempty
  · -- the other pods do not see what happens to this entry
    rw [lookup_insert_of_ne _ hx, ← lookup_erase_ne hx] at hr
    exact kept_hearNri info.operation (hk.erase podId) notMem_erase_self x r hr

theorem kept_takeList (hk : Kept k w e) (homit : ∀ podId ∈ e.podRegInfos.keys, podId ∉ visited e l →
      ∀ r ∈ e.podRegInfos.lookup podId, r.cgroupPath ≠ "") :
    Kept k (w.hearList l) (takeList k l e) := by
  intro x r hr
  obtain ⟨hout, hin⟩ := takeList_lookup k l e x
  by_cases hx : x ∈ visited e l
  · obtain ⟨r', hr', hdev, hpath, hns, hnri, hcr, hgroup⟩ := hin hx
    obtain rfl := mem_unique hr hr'
    rw [hdev, hpath, hns, hnri]
    have hne := List.append_ne_nil_of_right_ne_nil
      ((e.podRegInfos.lookup x).getD .blank).devIds
      (show (entriesOf e x l.pods).map ListedPod.dev ≠ [] by simpa using mem_visited.mp hx)
    refine ⟨fun _ => hgroup, fun hnil => absurd hnil hne, ?_,
      fun hl => absurd (visited_subset_names e l hx) hl⟩
    cases hold : e.podRegInfos.lookup x with
    | none => exact fun hp => absurd rfl hp
    | some r₀ => exact (hk x r₀ hold).2.2.1
  · rw [hout hx] at hr
    obtain ⟨r₀, hold, rfl⟩ := map_eq_some_iff.mp hr
    obtain ⟨h₁, h₂, h₃, -⟩ := hk x r₀ hold
    have hmem : x ∈ e.podRegInfos.keys := mem_keys.mpr (mem_of_lookup_eq_some hold)
    exact ⟨h₁, h₂, h₃, fun _ => ⟨homit x hmem hx r₀ hold,
      fun _ => mem_union_right _ (mem_singleton_self _)⟩⟩

theorem step_kept (h : step k s ev = some s') (hok : ListedBeforeStop k s ev)
    (hk : Kept k s.words s.engine) (hs : Swept s.engine) :
    Kept k s'.words s'.engine ∧ Swept s'.engine := by
  cases ev with
  | nri podId info order =>
    obtain ⟨e, he, rfl⟩ := map_eq_some_iff.mp h
    simp only [ListedBeforeStop] at hok
    unfold processNriData at he
    split_ifs at he hok with hwhite
    · have hk' := kept_hearNri info.operation (e := { s.engine with calls := [] }) hk hok
      cases k with
      | disk => exact registerPod_kept he hk'
      | net =>
        cases he
        exact ⟨hk', hs⟩
    · exact registerPod_kept he
        (kept_nriEntry (e := { s.engine with calls := [] }) hk hok.1 hok.2.1 hok.2.2)
  | podList l order =>
    obtain ⟨e, he, rfl⟩ := map_eq_some_iff.mp h
    unfold processCrData at he
    split_ifs at he with htyped
    exact registerPod_kept he
      (kept_takeList (e := { s.engine with calls := [] }) hk hok)

/-- The table holds pods that are alive or reserved only, in every run in which pods are listed before
they are stopped. -/
theorem tables_bounded (k : Kind) (whitelist : Finset String) (devices : List String)
    (majorMinors : Dict String String) (nodeIps : List String) (evs : List Event) (s : State)
    (hfirst : Along (step k) (ListedBeforeStop k)
      (start (.fresh whitelist devices majorMinors nodeIps)) evs)
    (hrun : run (step k) (start (.fresh whitelist devices majorMinors nodeIps)) evs = some s) :
    Bounded s := by
  have hstart : Kept k ⟨∅, ∅, ∅, ∅, ∅⟩ (.fresh whitelist devices majorMinors nodeIps) ∧
      Swept (.fresh whitelist devices majorMinors nodeIps) := by
    refine ⟨?_, ?_⟩
    · intro podId r hr
      cases hr
    · intro podId r hr
      cases hr
  obtain ⟨hk, hs⟩ := run_invariant (I := fun s => Kept k s.words s.engine ∧ Swept s.engine)
    (C := ListedBeforeStop k) (fun _ _ _ hstep hok hs => step_kept hstep hok hs.1 hs.2)
    hstart hfirst hrun
  exact bounded_of_kept hk hs

/-- A pod no list has ever named stays in the table for good. -/
theorem not_bounded :
    ¬ ∀ (k : Kind) (whitelist : Finset String) (devices : List String)
      (majorMinors : Dict String String) (nodeIps : List String) (evs : List Event) (s : State),
      run (step k) (start (.fresh whitelist devices majorMinors nodeIps)) evs = some s →
        ∀ podId ∈ s.engine.podRegInfos,
          ¬ (podId ∈ s.words.stopped ∧ podId ∉ s.words.latest) := by
  intro h
  obtain ⟨s, hs, hmem, hwords⟩ : ∃ s ∈ run (step .disk) (start (.fresh ∅ ["sda"] ∅ []))
      [.nri "p" (nriOf .runPod) ["p"], .nri "p" (nriOf .stopPod) ["p"], .podList ∅ ["p"]],
      "p" ∈ s.engine.podRegInfos ∧ "p" ∈ s.words.stopped ∧ "p" ∉ s.words.latest := by
    decide +kernel
  exact h _ _ _ _ _ _ s hs "p" hmem hwords

/-- The runtime reports a pod before it is listed; the network engine forgets the pod when it is gone. -/
theorem tables_bounded_pod :
    ∃ s, run (step .net) (start (.fresh ∅ ["eth0"] ∅ []))
        [.nri "p" (nriOf .runPod) ["p"], .podList (podOn "eth0") ["p"], .podList ∅ ["p"],
          .nri "p" (nriOf .stopPod) ["p"]] = some s ∧
      s.engine.podRegInfos.keys = ∅ ∧ Bounded s := by
  exact exists_run (by decide +kernel) fun s hs _ =>
    tables_bounded .net ∅ ["eth0"] ∅ [] _ s (by decide +kernel) hs

end Registration

end IOIsolation.Agent
