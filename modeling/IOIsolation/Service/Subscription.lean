import IOIsolation.Lib.Dict
import IOIsolation.Lib.Run
import Mathlib

/-!
# Service.Subscription

The bandwidth subscription of the disk engine: every few seconds a sample of all bandwidths is turned
into a message, and a filter decides whether the subscriber is sent it. The filter looks at the
previous sample, whether or not that one was sent.

A bandwidth is an exact number, and reading a formatted number gives it back. A sample has its pods
and devices in the order in which the loops over the maps visit them.

* `filterData_complete` — what the filter answers on messages that carry every block size.
* `fresh_step`          — from a state in which the subscriber is up to date: when it still is after
  one more sample.
* `fresh_iff_tracked`   — the samples under which the subscriber is up to date all the time.
-/

namespace IOIsolation.Service

open Lib List Option

namespace Subscription

/-! ## Samples and messages -/

/-- Where the samples come from: the eBPF counters, or the cgroup files. -/
inductive Collector where
  | ebpf
  | cgroup
  deriving DecidableEq

/-- How many bandwidths a sample has for one device and direction. -/
def Collector.slots : Collector → Nat
  | .ebpf => 10
  | .cgroup => 6

abbrev Bdata (c : Collector) : Type := Fin c.slots → ℚ

structure RW (c : Collector) where
  r : AList fun _ : String => Bdata c
  w : AList fun _ : String => Bdata c

abbrev Data (c : Collector) : Type := AList fun _ : String => RW c

structure BandwidthInfo where
  id : String
  isRead : Bool
  bandwidths : Dict String ℚ

abbrev AppBwInfo : Type := AList fun _ : String => List BandwidthInfo

/-- `diskIoBw` is the disk payload, if the message carries that one. -/
structure AppsBandwidth where
  ioiType : Int
  diskIoBw : Option AppBwInfo

def bsList : List String := ["512b", "1k", "4k", "8k", "16k", "32k"]

/-- The six bandwidths of a message out of the slots of a sample. -/
def bandwidthsOf : (c : Collector) → Bdata c → Dict String ℚ
  | .ebpf, re =>
    ((((((∅ : Dict String ℚ).insert "512b" (re (0 : Fin 10))).insert "1k"
      (re (1 : Fin 10) + re (2 : Fin 10))).insert "4k" (re (3 : Fin 10))).insert "8k"
      (re (4 : Fin 10))).insert "16k" (re (5 : Fin 10))).insert "32k"
      (re (6 : Fin 10) + (re (7 : Fin 10) + re (8 : Fin 10)))
  | .cgroup, re =>
    ((((((∅ : Dict String ℚ).insert "512b" (re (0 : Fin 6))).insert "1k" (re (1 : Fin 6))).insert "4k"
      (re (2 : Fin 6))).insert "8k" (re (3 : Fin 6))).insert "16k" (re (4 : Fin 6))).insert "32k"
      (re (5 : Fin 6))

def bwInfoOf {c : Collector} (rw : RW c) : List BandwidthInfo :=
  (rw.r.entries.map fun x => ⟨x.1, true, bandwidthsOf c x.2⟩) ++
    rw.w.entries.map fun x => ⟨x.1, false, bandwidthsOf c x.2⟩

/-- What a sample says, in the form of a message. -/
def contents {c : Collector} (data : Data c) : AppBwInfo := Dict.mapEntries bwInfoOf data

def createMsg {c : Collector} (ioiType : Int) (data : Data c) : Option AppsBandwidth :=
  if ioiType = 1 then some ⟨ioiType, some (contents data)⟩ else none

def diskCreateMsgEbpf (ioiType : Int) (data : Data .ebpf) : Option AppsBandwidth :=
  createMsg ioiType data

def diskCreateMsgCgroup (ioiType : Int) (data : Data .cgroup) : Option AppsBandwidth :=
  createMsg ioiType data

/-- The choice that `Send` makes by `EbpfEnabled`. -/
def diskCreateMsg : (c : Collector) → Int → Data c → Option AppsBandwidth
  | .ebpf => diskCreateMsgEbpf
  | .cgroup => diskCreateMsgCgroup

theorem diskCreateMsg_one (c : Collector) (data : Data c) :
    diskCreateMsg c 1 data = some ⟨1, some (contents data)⟩ := by
  cases c <;> rfl

/-! ## The filter -/

def filterDataValue : ℚ := 1024

/-- Both lists of pod names, sorted, are the same. -/
def comparePodList (prev cur : AppBwInfo) : Bool :=
  prev.keys.insertionSort (· ≤ ·) == cur.keys.insertionSort (· ≤ ·)

/-- A key that the map does not have reads as the empty text, which is no number. -/
def parseFloat (bw : Option ℚ) : Except String ℚ :=
  match bw with
  | some v => .ok v
  | none => .error "strconv.ParseFloat: parsing \"\": invalid syntax"

def bsMoved (bw prevBw : BandwidthInfo) (bs : String) : Except String Bool := do
  let curBsBw ← parseFloat (bw.bandwidths.lookup bs)
  let preBsBw ← parseFloat (prevBw.bandwidths.lookup bs)
  return decide (filterDataValue < |curBsBw - preBsBw|)

/-- The loop over the block sizes, for two entries of one device and direction. -/
def entryMoved (bw prevBw : BandwidthInfo) : Except String Bool :=
  if prevBw.isRead = bw.isRead ∧ bw.id = prevBw.id then bsList.anyM (bsMoved bw prevBw)
  else .ok false

def podMoved (prevAppBwInfo : AppBwInfo) (po : String) (bwInfo : List BandwidthInfo) :
    Except String Bool :=
  match prevAppBwInfo.lookup po with
  | some prevBwInfo => bwInfo.anyM fun bw => prevBwInfo.anyM (entryMoved bw)
  | none => .ok false

def filterData (prev cur : Option AppsBandwidth) : Except String Bool :=
  match cur with
  | none => .error "cur is nil"
  | some cur =>
    match prev with
    | none => .ok true
    | some prev =>
      match prev.diskIoBw with
      | none => .error "prevAppBw is nil"
      | some prevAppBwInfo =>
        match cur.diskIoBw with
        | none => .error "curAppBw is nil"
        | some curAppBwInfo =>
          if comparePodList prevAppBwInfo curAppBwInfo = false then .ok true
          else curAppBwInfo.entries.anyM fun x => podMoved prevAppBwInfo x.1 x.2

/-! ## Sending -/

/-- What a call of `Send` leaves behind: the engine's previous message, the message handed to the
stream, and the error it returns. -/
structure Sending where
  prevMsg : Option AppsBandwidth
  message : Option AppsBandwidth
  error : Option String

/-- The stream takes the message or answers with an error. -/
def send {c : Collector} (prevMsg : Option AppsBandwidth) (ioiType : Int) (data : Data c)
    (stream : Except String Unit) : Sending :=
  if data.entries.length = 0 then ⟨prevMsg, none, none⟩
  else
    let curMsg := diskCreateMsg c ioiType data
    match filterData prevMsg curMsg with
    | .error err => ⟨prevMsg, none, some err⟩
    | .ok false => ⟨curMsg, none, none⟩
    | .ok true =>
      match stream with
      | .ok _ => ⟨curMsg, curMsg, none⟩
      | .error err => ⟨curMsg, none, some err⟩

/-- The engine and its subscriber. `sent` is the last message the subscriber was sent, `current` the
last sample since it subscribed. -/
structure State (c : Collector) where
  prevMsg : Option AppsBandwidth
  sent : Option AppsBandwidth
  current : Option (Data c)
  subscribed : Bool

inductive Event (c : Collector) where
  | subscribe
  | sample (data : Data c) (stream : Except String Unit)

/-- `Subscribe` takes samples until `Send` returns an error; the engine keeps its previous message for
the next subscriber. -/
def step {c : Collector} (s : State c) : Event c → Option (State c)
  | .subscribe =>
    if s.subscribed then none else some ⟨s.prevMsg, none, none, true⟩
  | .sample data stream =>
    if s.subscribed then
      let r := send s.prevMsg 1 data stream
      some ⟨r.prevMsg, (r.message.or s.sent), some data, r.error.isNone⟩
    else none

/-- The engine after its start, which reads the cgroup files once if it is not to use eBPF. -/
def start (c : Collector) (boot : Data c) : State c :=
  match c with
  | .ebpf => ⟨none, none, none, false⟩
  | .cgroup => ⟨diskCreateMsgCgroup 1 boot, none, none, false⟩

/-! ## What it means to be up to date -/

namespace AppBwInfo

def entriesOf (info : AppBwInfo) (po : String) : List BandwidthInfo := (info.lookup po).getD []

def SamePods (a b : AppBwInfo) : Prop := ∀ po, po ∈ a ↔ po ∈ b

def Names (info : AppBwInfo) (po : String) (isRead : Bool) (id : String) : Prop :=
  ∃ bw ∈ entriesOf info po, bw.isRead = isRead ∧ bw.id = id

def SameDevices (a b : AppBwInfo) : Prop := ∀ po isRead id, Names a po isRead id ↔ Names b po isRead id

/-- No bandwidth that both have differs by more than the threshold. -/
def Within (a b : AppBwInfo) : Prop :=
  ∀ po, ∀ x ∈ entriesOf a po, ∀ y ∈ entriesOf b po, x.isRead = y.isRead → y.id = x.id →
    ∀ bs ∈ bsList, ∀ u v, x.bandwidths.lookup bs = some u → y.bandwidths.lookup bs = some v →
      |v - u| ≤ filterDataValue

/-- Every entry has a number for every block size. -/
def Complete (info : AppBwInfo) : Prop :=
  ∀ po, ∀ bw ∈ entriesOf info po, ∀ bs ∈ bsList, ∃ v, bw.bandwidths.lookup bs = some v

variable {a b : AppBwInfo} {d : AppBwInfo}

theorem SamePods.trans (h : SamePods a b) (h' : SamePods b d) : SamePods a d :=
  fun po => (h po).trans (h' po)

theorem SameDevices.trans (h : SameDevices a b) (h' : SameDevices b d) : SameDevices a d :=
  fun po isRead id => (h po isRead id).trans (h' po isRead id)

theorem SameDevices.symm (h : SameDevices a b) : SameDevices b a :=
  fun po isRead id => (h po isRead id).symm

end AppBwInfo

open AppBwInfo

/-- The subscriber has been sent the pods and devices of the current sample, with bandwidths that are
at most the threshold away. -/
def State.Fresh {c : Collector} (s : State c) : Prop :=
  s.subscribed = true → ∀ data, s.current = some data →
    ∃ m info, s.sent = some m ∧ m.diskIoBw = some info ∧
      SamePods info (contents data) ∧ SameDevices info (contents data) ∧ Within info (contents data)

/-- The filter lets the sample pass: there is no previous one, or the pods changed, or a bandwidth
moved by more than the threshold since then. -/
def Reported (prev : Option AppsBandwidth) (cur : AppBwInfo) : Prop :=
  ∀ p info, prev = some p → p.diskIoBw = some info → ¬ (SamePods info cur ∧ Within info cur)

/-- What the samples have to be like: none is empty, and one that the filter holds back comes after a
message, has the devices of the sample before, and has not crept away from that message. -/
structure Tracked {c : Collector} (s : State c) (data : Data c) : Prop where
  nonempty : data.entries.length ≠ 0
  sameDevices : ¬ Reported s.prevMsg (contents data) →
    ∃ p info, s.prevMsg = some p ∧ p.diskIoBw = some info ∧ SameDevices info (contents data)
  noCreep : ¬ Reported s.prevMsg (contents data) →
    ∃ m info, s.sent = some m ∧ m.diskIoBw = some info ∧ Within info (contents data)

def TrackedStep {c : Collector} (s : State c) : Event c → Prop
  | .subscribe => True
  | .sample data _ => s.subscribed = true → Tracked s data

/-! ## The filter on complete messages -/

variable {c : Collector} {prev : Option AppsBandwidth} {stream : Except String Unit}

theorem complete_contents (data : Data c) : Complete (contents data) := by
  intro po bw hbw bs hbs
  have hof : ∃ d : Bdata c, bw.bandwidths = bandwidthsOf c d := by
    rw [entriesOf, contents, Dict.lookup_mapEntries] at hbw
    cases hl : data.lookup po with
    | none => simp [hl] at hbw
    | some rw' =>
      simp only [hl, map_some, getD_some, bwInfoOf, mem_append, List.mem_map] at hbw
      rcases hbw with ⟨x, -, rfl⟩ | ⟨x, -, rfl⟩
      · exact ⟨x.2, rfl⟩
      · exact ⟨x.2, rfl⟩
  obtain ⟨d, hd⟩ := hof
  rw [hd]
  cases c <;>
    simp only [bsList, mem_cons, not_mem_nil, or_false] at hbs <;>
    rcases hbs with rfl | rfl | rfl | rfl | rfl | rfl <;>
    simp [bandwidthsOf]

/-- The loop ends without an error, with the answer to a question. -/
def Answers (r : Except String Bool) (P : Prop) : Prop := ∃ b, r = .ok b ∧ (b = true ↔ P)

theorem Answers.congr {r : Except String Bool} {P Q : Prop} (h : Answers r P) (hPQ : P ↔ Q) :
    Answers r Q := by
  obtain ⟨b, hr, hb⟩ := h
  exact ⟨b, hr, hb.trans hPQ⟩

theorem answers_anyM {α : Type} {f : α → Except String Bool} {l : List α} {P : α → Prop}
    (h : ∀ x ∈ l, Answers (f x) (P x)) : Answers (l.anyM f) (∃ x ∈ l, P x) := by
  induction l with
  | nil => exact ⟨false, rfl, by simp⟩
  | cons a l ih =>
    obtain ⟨b, ha, hb⟩ := h a mem_cons_self
    obtain ⟨d, hl, hd⟩ := ih fun x hx => h x (mem_cons_of_mem a hx)
    refine ⟨b || d, ?_, by simp [hb, hd]⟩
    rw [anyM_cons, ha, hl]
    cases b <;> rfl

variable {bw prevBw : BandwidthInfo} {v : ℚ} {cur : AppBwInfo} {data : Data c} {s s' : State c}
  {e : Event c}

theorem bsMoved_answers {bs : String} {u : ℚ} (hu : prevBw.bandwidths.lookup bs = some u)
    (hv : bw.bandwidths.lookup bs = some v) :
    Answers (bsMoved bw prevBw bs) (¬ |v - u| ≤ filterDataValue) := by
  refine ⟨decide (filterDataValue < |v - u|), ?_, by simp⟩
  rw [bsMoved, hu, hv]
  rfl

/-- Two entries of one device and direction, with a block size at which they are far apart. -/
def EntryMoved (bw prevBw : BandwidthInfo) : Prop :=
  prevBw.isRead = bw.isRead ∧ bw.id = prevBw.id ∧ ∃ bs ∈ bsList, ∃ u v,
    prevBw.bandwidths.lookup bs = some u ∧ bw.bandwidths.lookup bs = some v ∧
      ¬ |v - u| ≤ filterDataValue

theorem entryMoved_answers (hb : ∀ bs ∈ bsList, ∃ v, bw.bandwidths.lookup bs = some v)
    (hp : ∀ bs ∈ bsList, ∃ u, prevBw.bandwidths.lookup bs = some u) :
    Answers (entryMoved bw prevBw) (EntryMoved bw prevBw) := by
  by_cases hsame : prevBw.isRead = bw.isRead ∧ bw.id = prevBw.id
  · rw [entryMoved, if_pos hsame]
    have hall : ∀ bs ∈ bsList, Answers (bsMoved bw prevBw bs) (∃ u v,
        prevBw.bandwidths.lookup bs = some u ∧ bw.bandwidths.lookup bs = some v ∧
          ¬ |v - u| ≤ filterDataValue) := by
      intro bs hbs
      obtain ⟨v, hv⟩ := hb bs hbs
      obtain ⟨u, hu⟩ := hp bs hbs
      refine (bsMoved_answers hu hv).congr ⟨fun h => ⟨u, v, hu, hv, h⟩, ?_⟩
      rintro ⟨u', v', hu', hv', h⟩
      rw [hu] at hu'; rw [hv] at hv'
      cases hu'; cases hv'
      exact h
    exact (answers_anyM hall).congr
      ⟨fun h => ⟨hsame.1, hsame.2, h⟩, fun h => h.2.2⟩
  · rw [entryMoved, if_neg hsame]
    exact ⟨false, rfl, by simp [EntryMoved, ← and_assoc, hsame]⟩

theorem podMoved_answers {prev : AppBwInfo} (hprev : Complete prev) (hcur : Complete cur)
    (po : String) : Answers (podMoved prev po (entriesOf cur po))
      (∃ bw ∈ entriesOf cur po, ∃ prevBw ∈ entriesOf prev po, EntryMoved bw prevBw) := by
  cases hl : prev.lookup po with
  | none =>
    rw [podMoved, hl]
    exact ⟨false, rfl, by simp [entriesOf, hl]⟩
  | some prevBwInfo =>
    have hof : entriesOf prev po = prevBwInfo := by simp [entriesOf, hl]
    rw [podMoved, hl]
    refine answers_anyM fun bw hbw => ?_
    rw [hof]
    refine answers_anyM fun prevBw hp => ?_
    exact entryMoved_answers (hcur po bw hbw) (hprev po prevBw (hof ▸ hp))

theorem comparePodList_iff (a b : AppBwInfo) : comparePodList a b = true ↔ SamePods a b := by
  rw [comparePodList, beq_iff_eq]
  have hperm : a.keys.insertionSort (· ≤ ·) = b.keys.insertionSort (· ≤ ·) ↔ a.keys.Perm b.keys := by
    constructor
    · intro h
      exact (perm_insertionSort _ a.keys).symm.trans
        (h ▸ perm_insertionSort _ b.keys)
    · intro h
      refine Perm.eq_of_pairwise' (pairwise_insertionSort _ _)
        (pairwise_insertionSort _ _) ?_
      exact (perm_insertionSort _ _).trans (h.trans (perm_insertionSort _ _).symm)
  rw [hperm, perm_ext_iff_of_nodup a.keys_nodup b.keys_nodup]
  exact Iff.rfl

theorem entriesOf_eq {info : AppBwInfo} {x : (_ : String) × List BandwidthInfo}
    (h : x ∈ info.entries) : entriesOf info x.1 = x.2 := by
  have hl : info.lookup x.1 = some x.2 := AList.mem_lookup_iff.mpr h
  simp [entriesOf, hl]

theorem moved_iff_not_within (prev cur : AppBwInfo) :
    (∃ x ∈ cur.entries, ∃ bw ∈ entriesOf cur x.1, ∃ prevBw ∈ entriesOf prev x.1,
      EntryMoved bw prevBw) ↔ ¬ Within prev cur := by
  constructor
  · rintro ⟨x, -, bw, hbw, prevBw, hp, hread, hid, bs, hbs, u, v, hu, hv, hfar⟩ hw
    exact hfar (hw x.1 prevBw hp bw hbw hread hid bs hbs u v hu hv)
  · intro hw
    simp only [Within, not_forall] at hw
    obtain ⟨po, prevBw, hp, bw, hbw, hread, hid, bs, hbs, u, v, hu, hv, hfar⟩ := hw
    obtain ⟨l, hl⟩ : ∃ l, cur.lookup po = some l := by
      cases hl : cur.lookup po with
      | none => simp [entriesOf, hl] at hbw
      | some l => exact ⟨l, rfl⟩
    exact ⟨⟨po, l⟩, AList.mem_lookup_iff.mp hl, bw, hbw, prevBw, hp, hread, hid, bs, hbs, u, v, hu,
      hv, hfar⟩

theorem filterData_complete {p q : AppsBandwidth} {prev : AppBwInfo} (hp : p.diskIoBw = some prev)
    (hq : q.diskIoBw = some cur) (hprev : Complete prev) (hcur : Complete cur) :
    Answers (filterData (some p) (some q)) (¬ (SamePods prev cur ∧ Within prev cur)) := by
  cases hpods : comparePodList prev cur with
  | false =>
    refine ⟨true, by simp [filterData, hp, hq, hpods], ?_⟩
    have hne : ¬ SamePods prev cur := by
      rw [← comparePodList_iff, hpods]
      exact Bool.false_ne_true
    simp [hne]
  | true =>
    have hsame := (comparePodList_iff prev cur).mp hpods
    have hloop : filterData (some p) (some q) =
        cur.entries.anyM fun x => podMoved prev x.1 x.2 := by
      simp [filterData, hp, hq, hpods]
    have hall : ∀ x ∈ cur.entries, Answers (podMoved prev x.1 x.2)
        (∃ bw ∈ entriesOf cur x.1, ∃ prevBw ∈ entriesOf prev x.1, EntryMoved bw prevBw) := by
      intro x hx
      have hof := entriesOf_eq hx
      rw [← hof]
      exact podMoved_answers hprev hcur x.1
    rw [hloop]
    exact (answers_anyM hall).congr
      ((moved_iff_not_within prev cur).trans (by simp [hsame]))

/-! ## One sample -/

/-- The engine's previous message is complete, if there is one. -/
def CompleteMsg (m : Option AppsBandwidth) : Prop :=
  ∀ p, m = some p → ∃ info, p.diskIoBw = some info ∧ Complete info

theorem completeMsg_create (data : Data c) : CompleteMsg (diskCreateMsg c 1 data) := by
  intro p hp
  rw [diskCreateMsg_one, some.injEq] at hp
  subst hp
  exact ⟨contents data, rfl, complete_contents data⟩

theorem filterData_reported (hprev : CompleteMsg prev) (data : Data c) :
    Answers (filterData prev (diskCreateMsg c 1 data)) (Reported prev (contents data)) := by
  rw [diskCreateMsg_one]
  cases prev with
  | none => exact ⟨true, rfl, by simp [Reported]⟩
  | some p =>
    obtain ⟨info, hp, hinfo⟩ := hprev p rfl
    refine (filterData_complete hp rfl hinfo (complete_contents data)).congr ⟨?_, ?_⟩
    · intro h q info' hq hinfo'
      cases hq
      rw [hp] at hinfo'
      cases hinfo'
      exact h
    · intro h
      exact h p info rfl hp

theorem send_empty (h : data.entries.length = 0) (stream : Except String Unit) :
    send prev 1 data stream = ⟨prev, none, none⟩ := by
  simp [send, h]

theorem send_reported (hprev : CompleteMsg prev) (h : data.entries.length ≠ 0)
    (hrep : Reported prev (contents data)) (stream : Except String Unit) :
    send prev 1 data stream =
      match stream with
      | .ok _ => ⟨diskCreateMsg c 1 data, diskCreateMsg c 1 data, none⟩
      | .error err => ⟨diskCreateMsg c 1 data, none, some err⟩ := by
  obtain ⟨b, hf, hb⟩ := filterData_reported hprev data
  rw [hb.mpr hrep] at hf
  simp [send, h, hf]

theorem send_heldBack (hprev : CompleteMsg prev) (h : data.entries.length ≠ 0)
    (hrep : ¬ Reported prev (contents data)) (stream : Except String Unit) :
    send prev 1 data stream = ⟨diskCreateMsg c 1 data, none, none⟩ := by
  obtain ⟨b, hf, hb⟩ := filterData_reported hprev data
  rw [Bool.eq_false_iff.mpr fun h => hrep (hb.mp h)] at hf
  simp [send, h, hf]

/-- What the engine and its subscriber keep while all samples are tracked. -/
structure Inv {c : Collector} (s : State c) : Prop where
  complete : CompleteMsg s.prevMsg
  previous : ∀ data, s.current = some data → s.prevMsg = diskCreateMsg c 1 data
  unsent : s.current = none → s.sent = none
  nonempty : ∀ m info, s.sent = some m → m.diskIoBw = some info → ∃ po, po ∈ info

theorem inv_start (c : Collector) (boot : Data c) : Inv (start c boot) := by
  cases c with
  | ebpf =>
    exact ⟨by simp [start, CompleteMsg], by simp [start], fun _ => rfl, by simp [start]⟩
  | cgroup => exact ⟨completeMsg_create boot, by simp [start], fun _ => rfl, by simp [start]⟩

theorem mem_contents (po : String) : po ∈ contents data ↔ po ∈ data := by
  rw [← AList.lookup_isSome, ← AList.lookup_isSome, contents, Dict.lookup_mapEntries, isSome_map]

theorem exists_pod (h : data.entries.length ≠ 0) : ∃ po, po ∈ contents data := by
  obtain ⟨x, hx⟩ := exists_mem_of_length_pos (Nat.pos_of_ne_zero h)
  refine ⟨x.1, (mem_contents x.1).mpr ?_⟩
  exact AList.lookup_isSome.mp (isSome_iff_exists.mpr ⟨x.2, AList.mem_lookup_iff.mpr hx⟩)

theorem bwInfoOf_unique {rw : RW c} {x y : BandwidthInfo} (hx : x ∈ bwInfoOf rw)
    (hy : y ∈ bwInfoOf rw) (hread : x.isRead = y.isRead) (hid : y.id = x.id) : x = y := by
  have hkey : ∀ (m : AList fun _ : String => Bdata c) a b, a ∈ m.entries → b ∈ m.entries →
      b.1 = a.1 → a = b := by
    rintro m ⟨k, u⟩ ⟨k', v⟩ ha hb rfl
    have hu : m.lookup k' = some u := AList.mem_lookup_iff.mpr ha
    have hv : m.lookup k' = some v := AList.mem_lookup_iff.mpr hb
    rw [hu, some.injEq] at hv
    rw [hv]
  simp only [bwInfoOf, mem_append, List.mem_map] at hx hy
  rcases hx with ⟨a, ha, rfl⟩ | ⟨a, ha, rfl⟩ <;> rcases hy with ⟨b, hb, rfl⟩ | ⟨b, hb, rfl⟩
  · rw [hkey _ a b ha hb hid]
  · cases hread
  · cases hread
  · rw [hkey _ a b ha hb hid]

theorem within_self (data : Data c) : Within (contents data) (contents data) := by
  intro po x hx y hy hread hid bs _ u v hu hv
  obtain ⟨rw', hx, hy⟩ : ∃ rw' : RW c, x ∈ bwInfoOf rw' ∧ y ∈ bwInfoOf rw' := by
    rw [entriesOf, contents, Dict.lookup_mapEntries] at hx hy
    cases hl : data.lookup po with
    | none => simp [hl] at hx
    | some rw' =>
      simp only [hl, map_some, getD_some] at hx hy
      exact ⟨rw', hx, hy⟩
  obtain rfl := bwInfoOf_unique hx hy hread hid
  obtain rfl := mem_unique hu hv
  rw [sub_self, abs_zero, filterDataValue]
  decide

/-- A sample that goes through the filter: the subscriber has it, or the subscription has ended. -/
theorem fresh_of_reported (hi : Inv s) (hne : data.entries.length ≠ 0)
    (hrep : Reported s.prevMsg (contents data)) (h : step s (.sample data stream) = some s') :
    s'.Fresh ∧ Inv s' := by
  simp only [step, send_reported hi.complete hne hrep stream] at h
  split at h
  · cases stream with
    | error err =>
      simp only [some.injEq] at h
      subst h
      refine ⟨fun hsub => by simp at hsub, completeMsg_create data, ?_, by simp, hi.nonempty⟩
      intro d hd
      simp only [some.injEq] at hd
      rw [hd]
    | ok _ =>
      simp only [some.injEq, diskCreateMsg_one, some_or] at h
      subst h
      refine ⟨fun _ d hd => ?_, ?_, ?_, by simp, ?_⟩
      · simp only [some.injEq] at hd
        subst hd
        exact ⟨_, contents data, rfl, rfl, fun _ => Iff.rfl, fun _ _ _ => Iff.rfl, within_self data⟩
      · rw [← diskCreateMsg_one]
        exact completeMsg_create data
      · intro d hd
        simp only [some.injEq] at hd
        rw [diskCreateMsg_one, hd]
      intro m info hm hinfo
      simp only [some.injEq] at hm
      subst hm
      simp only [some.injEq] at hinfo
      subst hinfo
      exact exists_pod hne
  · cases h

/-- A sample that the filter holds back leaves the subscriber with what it was sent before. -/
theorem step_heldBack (hi : Inv s) (hne : data.entries.length ≠ 0)
    (hrep : ¬ Reported s.prevMsg (contents data)) (h : step s (.sample data stream) = some s') :
    s' = ⟨diskCreateMsg c 1 data, s.sent, some data, true⟩ := by
  simp only [step, send_heldBack hi.complete hne hrep stream] at h
  split at h
  · simpa using h.symm
  · cases h

/-- Held back after a message that was up to date: it still is if the devices are the same and no
bandwidth has crept away. -/
theorem fresh_iff_of_heldBack (hi : Inv s) (hs : s.Fresh) (hsub : s.subscribed = true)
    (hne : data.entries.length ≠ 0) (hrep : ¬ Reported s.prevMsg (contents data)) :
    (State.mk (diskCreateMsg c 1 data) s.sent (some data) true).Fresh ↔ Tracked s data := by
  obtain ⟨p, prev, hp, hprev, hpods, -⟩ : ∃ p info, s.prevMsg = some p ∧ p.diskIoBw = some info ∧
      SamePods info (contents data) ∧ Within info (contents data) := by
    simpa only [Reported, not_forall, exists_prop, not_not] using hrep
  cases hcur : s.current with
  | none =>
    have hsent := hi.unsent hcur
    constructor
    · intro hfresh
      obtain ⟨m, info, hm, -⟩ := hfresh rfl data rfl
      simp [hsent] at hm
    · intro htracked
      obtain ⟨m, info, hm, -⟩ := htracked.noCreep hrep
      simp [hsent] at hm
  | some before =>
    -- the previous message is the sample that the last message agrees with
    obtain ⟨m, info, hm, hinfo, hmpods, hmdevs, -⟩ := hs hsub before hcur
    have hbefore : prev = contents before := by
      have hcreate := hi.previous before hcur
      rw [hp, diskCreateMsg_one, some.injEq] at hcreate
      rw [hcreate, some.injEq] at hprev
      exact hprev.symm
    constructor
    · intro hfresh
      obtain ⟨m', info', hm', hinfo', -, hdevs, hwithin⟩ := hfresh rfl data rfl
      simp only [hm, some.injEq] at hm'
      subst hm'
      obtain rfl := mem_unique hinfo hinfo'
      refine ⟨hne, fun _ => ⟨p, prev, hp, hprev, ?_⟩, fun _ => ⟨m, info, hm, hinfo, hwithin⟩⟩
      exact hbefore ▸ hmdevs.symm.trans hdevs
    · intro htracked _ d hd
      simp only [some.injEq] at hd
      subst hd
      obtain ⟨p', prev', hp', hprev', hdevs⟩ := htracked.sameDevices hrep
      obtain rfl := mem_unique hp hp'
      obtain rfl := mem_unique hprev hprev'
      obtain ⟨m', info', hm', hinfo', hwithin⟩ := htracked.noCreep hrep
      obtain rfl := mem_unique hm hm'
      obtain rfl := mem_unique hinfo hinfo'
      exact ⟨m, info, hm, hinfo, hmpods.trans (hbefore ▸ hpods),
        hmdevs.trans (hbefore ▸ hdevs), hwithin⟩

/-- An empty sample is not sent, and no message that was sent is empty. -/
theorem not_fresh_of_empty (hi : Inv s) (hempty : data.entries.length = 0)
    (h : step s (.sample data stream) = some s') : ¬ s'.Fresh := by
  simp only [step, send_empty hempty stream] at h
  split at h
  · simp only [none_or, isNone_none, some.injEq] at h
    subst h
    intro hfresh
    obtain ⟨m, info, hm, hinfo, hpods, -⟩ := hfresh rfl data rfl
    obtain ⟨po, hpo⟩ := hi.nonempty m info hm hinfo
    have hmem := (mem_contents po).mp ((hpods po).mp hpo)
    rw [AList.mem_keys, AList.keys] at hmem
    simp [length_eq_zero_iff.mp hempty] at hmem
  · cases h

theorem fresh_step (h : step s e = some s') (hi : Inv s) (hs : s.Fresh) :
    s'.Fresh ↔ TrackedStep s e := by
  cases e with
  | subscribe =>
    simp only [step] at h
    split at h
    · cases h
    simp only [some.injEq] at h
    subst h
    exact ⟨fun _ => trivial, fun _ _ d hd => by simp at hd⟩
  | sample data stream =>
    have hsub : s.subscribed = true := by
      by_contra hno
      simp [step, hno] at h
    rw [TrackedStep, imp_iff_right hsub]
    by_cases hne : data.entries.length = 0
    · exact ⟨fun hfresh => absurd hfresh (not_fresh_of_empty hi hne h),
        fun htracked => absurd hne htracked.nonempty⟩
    by_cases hrep : Reported s.prevMsg (contents data)
    · exact ⟨fun _ => ⟨hne, fun hno => absurd hrep hno, fun hno => absurd hrep hno⟩,
        fun _ => (fresh_of_reported hi hne hrep h).1⟩
    · rw [step_heldBack hi hne hrep h]
      exact fresh_iff_of_heldBack hi hs hsub hne hrep

theorem inv_step (h : step s e = some s') (hc : TrackedStep s e) (hi : Inv s) : Inv s' := by
  cases e with
  | subscribe =>
    simp only [step] at h
    split at h
    · cases h
    simp only [some.injEq] at h
    subst h
    exact ⟨hi.complete, by simp, fun _ => rfl, by simp⟩
  | sample data stream =>
    have hsub : s.subscribed = true := by
      by_contra hno
      simp [step, hno] at h
    have hne := (hc hsub).nonempty
    by_cases hrep : Reported s.prevMsg (contents data)
    · exact (fresh_of_reported hi hne hrep h).2
    rw [step_heldBack hi hne hrep h]
    refine ⟨completeMsg_create data, ?_, by simp, hi.nonempty⟩
    intro d hd
    simp only [some.injEq] at hd
    rw [hd]

theorem trackedStep_of_stuck (h : step s e = none) : TrackedStep s e := by
  cases e with
  | subscribe => trivial
  | sample data stream =>
    intro hsub
    simp [step, hsub] at h

/-- The subscriber is up to date at every moment of a run exactly if every sample is tracked. -/
theorem fresh_iff_tracked (c : Collector) (boot : Data c) (es : List (Event c)) :
    (∀ pre t, pre <+: es → run step (start c boot) pre = some t → t.Fresh) ↔
      Along step TrackedStep (start c boot) es := by
  have hfresh : (start c boot).Fresh := by
    intro hsub
    cases c <;> simp [start] at hsub
  exact always_iff_along (I := Inv) (fun s e s' h hi hs => fresh_step h hi hs)
    (fun s e s' h hc hi _ => inv_step h hc hi) (fun s e h _ => trackedStep_of_stuck h)
    (inv_start c boot) hfresh

/-! ## A bandwidth that creeps up -/

/-- One pod that reads from one disk, all with the smallest block size. -/
def reading (bw : ℚ) : Data .cgroup :=
  AList.singleton "pod" ⟨AList.singleton "8:0" ![bw, 0, 0, 0, 0, 0],
    AList.singleton "8:0" ![0, 0, 0, 0, 0, 0]⟩

def creeping : List (Event .cgroup) :=
  [.subscribe, .sample (reading 2000) (.ok ()), .sample (reading 3000) (.ok ()),
    .sample (reading 4000) (.ok ())]

/-- The first entry that a message has for the pod, with its bandwidth for small blocks. -/
def firstEntry (m : AppsBandwidth) : Option (Bool × String × ℚ) :=
  m.diskIoBw.bind fun info => (entriesOf info "pod").head?.bind fun bw =>
    (bw.bandwidths.lookup "512b").map fun v => (bw.isRead, bw.id, v)

theorem firstEntry_some {m : AppsBandwidth} {isRead : Bool} {id : String}
    (h : firstEntry m = some (isRead, id, v)) : ∃ info, m.diskIoBw = some info ∧
      ∃ bw ∈ entriesOf info "pod", bw.isRead = isRead ∧ bw.id = id ∧
        bw.bandwidths.lookup "512b" = some v := by
  obtain ⟨info, hinfo, h⟩ := bind_eq_some_iff.mp h
  obtain ⟨bw, hbw, h⟩ := bind_eq_some_iff.mp h
  obtain ⟨u, hu, h⟩ := map_eq_some_iff.mp h
  simp only [Prod.mk.injEq] at h
  obtain ⟨hread, hid, rfl⟩ := h
  exact ⟨info, hinfo, bw, mem_of_mem_head? hbw, hread, hid, hu⟩

theorem not_alwaysCurrent : ¬ ∀ (c : Collector) (boot : Data c) (es : List (Event c)) (t : State c),
    run step (start c boot) es = some t → t.Fresh := by
  intro hall
  obtain ⟨t, ht, hsub, ⟨m, hm, hfirst⟩, data, hdata, hlast⟩ :
      ∃ t ∈ run step (start .cgroup ∅) creeping, t.subscribed = true ∧
        (∃ m ∈ t.sent, firstEntry m = some (true, "8:0", 2000)) ∧
        ∃ d ∈ t.current, firstEntry ⟨1, some (contents d)⟩ = some (true, "8:0", 4000) := by
    decide +kernel
  obtain ⟨info, hinfo, x, hx, hxread, hxid, hxbw⟩ := firstEntry_some hfirst
  obtain ⟨_, hcontents, y, hy, hyread, hyid, hybw⟩ := firstEntry_some hlast
  cases hcontents
  obtain ⟨m', info', hm', hinfo', -, -, hwithin⟩ := hall .cgroup ∅ creeping t ht hsub data hdata
  obtain rfl := mem_unique hm hm'
  obtain rfl := mem_unique hinfo hinfo'
  have hle := hwithin "pod" x hx y hy (hxread.trans hyread.symm) (hyid.trans hxid.symm) "512b"
    (by decide) 2000 4000 hxbw hybw
  exact absurd hle (by decide +kernel)

end Subscription
end IOIsolation.Service
