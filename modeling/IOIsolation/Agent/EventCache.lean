import IOIsolation.Lib.Run
import Mathlib.Data.Fintype.Card
import Mathlib.Data.List.Sort

/-!
# Agent.EventCache

The event cache every data engine of the node agent embeds. An event names the flags it expects:
`handleEvent` runs its handler if they are all set and caches the event otherwise, and `setFlag`
goes through the cache when a new flag is set. Handlers call `setFlag` themselves, so it can be
entered again while its loop is under way; the loop goes on over the cache as it was.

* `setFlag_eq`      — the bound on nested calls is never felt: `setFlag` meets its own recursion.
* `setFlag_quiet`   — one pass over a cache whose handlers set no new flag.
* `runs_once`       — exactly-once execution, if only such events are ever cached.
-/

namespace IOIsolation.Agent

open Lib List

/-! ## The engine -/

inductive Flag where
  | profileFlag
  | policyFlag
  | adminFlag
  deriving DecidableEq

instance : Fintype Flag :=
  ⟨{.profileFlag, .policyFlag, .adminFlag}, fun flag => by cases flag <;> decide⟩

/-- A set of flags, as the code keeps them in the bits of an `int`. -/
abbrev Flags : Type := Finset Flag

def expectPolicy : Flags := ∅
def expectPodData : Flags := {.profileFlag, .policyFlag, .adminFlag}
def expectAdmin : Flags := ∅
def expectProfile : Flags := {.adminFlag}

/-- A stretch of a handler up to a call of `SetFlag`: it sees the flags and the fields of its
engine, changes the fields, and calls `SetFlag` with the flags it returns. To call it with no flag
does nothing. -/
abbrev Action (σ : Type) : Type := Flags → σ → σ × Flags

/-- An event with its handler; `ident` numbers the events in the order they arrive. -/
structure CacheData (σ : Type) where
  ident : Nat
  expect : Flags
  f : List (Action σ)

/-- The start of a handler, with the flags that were set. -/
structure Execution where
  ident : Nat
  flag : Flags
  deriving DecidableEq

/-- `own` are the fields of the engine that embeds the cache. -/
structure IOEngine (σ : Type) where
  flag : Flags
  cacheDatas : List (CacheData σ)
  own : σ
  executed : List Execution

/-- The events in the order their handlers were started. -/
def IOEngine.order {σ : Type} (e : IOEngine σ) : List Nat := e.executed.map (·.ident)

section Handlers

variable {σ : Type} (set : Flags → IOEngine σ → IOEngine σ)

/-- The stretches of a handler, each followed by its call of `SetFlag`. -/
def runHandler : List (Action σ) → IOEngine σ → IOEngine σ
  | [], e => e
  | a :: rest, e => runHandler rest (set (a e.flag e.own).2 { e with own := (a e.flag e.own).1 })

def execute (c : CacheData σ) (e : IOEngine σ) : IOEngine σ :=
  runHandler set c.f { e with executed := e.executed ++ [⟨c.ident, e.flag⟩] }

/-- The loop of `SetFlag`; what the handlers do to `cacheDatas` is overwritten at its end. -/
def drain : List (CacheData σ) → List (CacheData σ) → IOEngine σ → IOEngine σ
  | [], newCache, e => { e with cacheDatas := newCache }
  | c :: rest, newCache, e =>
    if c.expect ⊆ e.flag then drain rest newCache (execute set c e)
    else drain rest (newCache ++ [c]) e

end Handlers

/-- `SetFlag` with a bound on the calls inside each other. -/
def setFlagN {σ : Type} : Nat → Flags → IOEngine σ → IOEngine σ
  | 0, _, e => e
  | n + 1, flag, e =>
    if flag ⊆ e.flag then e
    else drain (setFlagN n) e.cacheDatas [] { e with flag := e.flag ∪ flag }

/-- Each call that goes through the cache sets one of the three flags. -/
def setFlag {σ : Type} (flag : Flags) (e : IOEngine σ) : IOEngine σ := setFlagN 3 flag e

def handleEvent {σ : Type} (c : CacheData σ) (e : IOEngine σ) : IOEngine σ :=
  if c.expect ⊆ e.flag then execute setFlag c e
  else { e with cacheDatas := e.cacheDatas ++ [c] }

/-! ## The bound on nested calls -/

section Bound

variable {σ : Type} {S T : Flags → IOEngine σ → IOEngine σ} {Q : Flags → Prop}

section

variable (hset : ∀ fl e, Q e.flag → S fl e = T fl e) (hQ : ∀ fl e, Q e.flag → Q (S fl e).flag)
include hset hQ

/-- Handlers that start with `Q` cannot tell two functions apart that agree there and keep it. -/
theorem runHandler_congr :
    ∀ (f : List (Action σ)) (e : IOEngine σ), Q e.flag →
      runHandler S f e = runHandler T f e ∧ Q (runHandler S f e).flag := by
  intro f
  induction f with
  | nil => intro e h; exact ⟨rfl, h⟩
  | cons a rest ih =>
    intro e h
    simp only [runHandler]
    rw [← hset _ { e with own := (a e.flag e.own).1 } h]
    exact ih _ (hQ _ _ h)

theorem drain_congr :
    ∀ (cache newCache : List (CacheData σ)) (e : IOEngine σ), Q e.flag →
      drain S cache newCache e = drain T cache newCache e ∧
        Q (drain S cache newCache e).flag := by
  intro cache
  induction cache with
  | nil => intro newCache e h; exact ⟨rfl, h⟩
  | cons c rest ih =>
    intro newCache e h
    simp only [drain]
    split_ifs with hc
    · obtain ⟨heq, hq⟩ := runHandler_congr hset hQ c.f
        { e with executed := e.executed ++ [⟨c.ident, e.flag⟩] } h
      rw [execute, execute, ← heq]
      exact ih _ _ hq
    · exact ih _ _ h

end

/-- A bound that covers the flags not set yet gives the same as any other such bound. By induction
on the bound; a call that goes on has set one more flag. -/
theorem setFlagN_congr : ∀ (n m : Nat) (flag : Flags) (e : IOEngine σ), e.flagᶜ.card ≤ n →
    e.flagᶜ.card ≤ m → setFlagN n flag e = setFlagN m flag e ∧
      (setFlagN n flag e).flagᶜ.card ≤ e.flagᶜ.card := by
  intro n
  induction n with
  | zero =>
    intro m flag e hn hm
    have hall : flag ⊆ e.flag := by
      intro x _
      by_contra hx
      exact absurd (Finset.card_pos.mpr ⟨x, Finset.mem_compl.mpr hx⟩) (by omega)
    refine ⟨?_, le_refl _⟩
    cases m with
    | zero => rfl
    | succ m => simp [setFlagN, hall]
  | succ n ih =>
    intro m flag e hn hm
    by_cases hflag : flag ⊆ e.flag
    · cases m with
      | zero | succ => simp [setFlagN, hflag]
    obtain ⟨x, hx, hxe⟩ := Finset.not_subset.mp hflag
    have hlt : (e.flag ∪ flag)ᶜ.card < e.flagᶜ.card := by
      refine Finset.card_lt_card (Finset.ssubset_iff_subset_ne.mpr ⟨?_, fun h => ?_⟩)
      · exact Finset.compl_subset_compl.mpr Finset.subset_union_left
      · have hmem : x ∈ (e.flag ∪ flag)ᶜ := h ▸ Finset.mem_compl.mpr hxe
        exact Finset.mem_compl.mp hmem (Finset.mem_union_right _ hx)
    cases m with
    | zero => omega
    | succ m =>
      simp only [setFlagN, if_neg hflag]
      obtain ⟨heq, hle⟩ := drain_congr (S := setFlagN n) (T := setFlagN m)
        (Q := fun fl => flᶜ.card ≤ (e.flag ∪ flag)ᶜ.card)
        (fun fl e' h => (ih m fl e' (by omega) (by omega)).1)
        (fun fl e' h => ((ih n fl e' (by omega) (by omega)).2).trans h)
        e.cacheDatas [] { e with flag := e.flag ∪ flag } (le_refl _)
      exact ⟨heq, hle.trans hlt.le⟩

theorem card_unset_le (e : IOEngine σ) : e.flagᶜ.card ≤ 3 :=
  (Finset.card_le_univ _).trans (by decide)

theorem setFlag_eq (flag : Flags) (e : IOEngine σ) :
    setFlag flag e =
      if flag ⊆ e.flag then e
      else drain setFlag e.cacheDatas [] { e with flag := e.flag ∪ flag } := by
  rw [setFlag, (setFlagN_congr 3 4 flag e (card_unset_le e)
    ((card_unset_le e).trans (by decide))).1]
  rfl

end Bound

/-! ## Handlers that set no new flag -/

section Quiet

variable {σ : Type}

/-- The handler sets no flag beyond those its event expects, and these are set when it runs. -/
def Quiet (expect : Flags) (f : List (Action σ)) : Prop :=
  ∀ a ∈ f, ∀ flag own, (a flag own).2 ⊆ expect

variable {e : IOEngine σ}

theorem setFlag_of_subset {flag : Flags} (h : flag ⊆ e.flag) : setFlag flag e = e := by
  rw [setFlag_eq, if_pos h]

theorem runHandler_quiet {expect : Flags} :
    ∀ {f : List (Action σ)} {e : IOEngine σ}, Quiet expect f → expect ⊆ e.flag →
      ∃ own, runHandler setFlag f e = { e with own := own } := by
  intro f
  induction f with
  | nil => intro e _ _; exact ⟨e.own, rfl⟩
  | cons a rest ih =>
    intro e hq hexp
    have hsub : (a e.flag e.own).2 ⊆ e.flag := (hq a mem_cons_self _ _).trans hexp
    simp only [runHandler]
    rw [setFlag_of_subset (e := { e with own := (a e.flag e.own).1 }) hsub]
    exact ih (fun b hb => hq b (mem_cons_of_mem _ hb)) hexp

theorem drain_quiet :
    ∀ (cache newCache : List (CacheData σ)) (e : IOEngine σ),
      (∀ c ∈ cache, Quiet c.expect c.f) →
      ∃ own, drain setFlag cache newCache e =
        { flag := e.flag
          cacheDatas := newCache ++ cache.filter fun c => ¬ c.expect ⊆ e.flag
          own := own
          executed := e.executed ++
            (cache.filter fun c => c.expect ⊆ e.flag).map fun c => ⟨c.ident, e.flag⟩ } := by
  intro cache
  induction cache with
  | nil => intro newCache e _; exact ⟨e.own, by simp [drain]⟩
  | cons c rest ih =>
    intro newCache e hq
    have hrest : ∀ x ∈ rest, Quiet x.expect x.f := fun x hx => hq x (mem_cons_of_mem _ hx)
    by_cases hc : c.expect ⊆ e.flag
    · obtain ⟨own, hrun⟩ := runHandler_quiet (hq c mem_cons_self)
        (e := { e with executed := e.executed ++ [⟨c.ident, e.flag⟩] }) hc
      obtain ⟨own', hdrain⟩ := ih newCache
        { e with own := own, executed := e.executed ++ [⟨c.ident, e.flag⟩] } hrest
      refine ⟨own', ?_⟩
      rw [drain, if_pos hc, execute, hrun, hdrain]
      simp [hc]
    · obtain ⟨own, hdrain⟩ := ih (newCache ++ [c]) e hrest
      refine ⟨own, ?_⟩
      rw [drain, if_neg hc, hdrain]
      simp [hc]

/-- A new flag runs exactly the cached events it makes ready, in the order of the cache. -/
theorem setFlag_quiet (flag : Flags) (hq : ∀ c ∈ e.cacheDatas, Quiet c.expect c.f)
    (hwait : ∀ c ∈ e.cacheDatas, ¬ c.expect ⊆ e.flag) :
    ∃ own, setFlag flag e =
      { flag := e.flag ∪ flag
        cacheDatas := e.cacheDatas.filter fun c => ¬ c.expect ⊆ e.flag ∪ flag
        own := own
        executed := e.executed ++
          (e.cacheDatas.filter fun c => c.expect ⊆ e.flag ∪ flag).map
            fun c => ⟨c.ident, e.flag ∪ flag⟩ } := by
  by_cases h : flag ⊆ e.flag
  · refine ⟨e.own, ?_⟩
    rw [setFlag_of_subset h, Finset.union_eq_left.mpr h]
    have hall : (e.cacheDatas.filter fun c => ¬ c.expect ⊆ e.flag) = e.cacheDatas :=
      filter_eq_self.mpr fun c hc => by simpa using hwait c hc
    have hnone : (e.cacheDatas.filter fun c => c.expect ⊆ e.flag) = [] :=
      filter_eq_nil_iff.mpr fun c hc => by simpa using hwait c hc
    rw [hall, hnone, map_nil, append_nil]
  · obtain ⟨own, hdrain⟩ := drain_quiet e.cacheDatas [] { e with flag := e.flag ∪ flag } hq
    refine ⟨own, ?_⟩
    rw [setFlag_eq, if_neg h, hdrain]
    rfl

end Quiet

/-! ## Runs -/

/-- What is known of an event that arrived: the flags it expects and those set at the time. -/
structure Arrival where
  expect : Flags
  flag : Flags
  deriving DecidableEq

def Arrival.Cached (a : Arrival) : Prop := ¬ a.expect ⊆ a.flag

instance (a : Arrival) : Decidable a.Cached := inferInstanceAs (Decidable (¬ _))

namespace EventCache

variable {σ : Type}

/-- `arrived` are all events so far; an event is numbered by its place there. -/
structure State (σ : Type) where
  engine : IOEngine σ
  arrived : List Arrival

structure Event (σ : Type) where
  expect : Flags
  f : List (Action σ)

def start (own : σ) : State σ := ⟨⟨∅, [], own, []⟩, []⟩

def step (s : State σ) (ev : Event σ) : Option (State σ) :=
  some
    { engine := handleEvent ⟨s.arrived.length, ev.expect, ev.f⟩ s.engine
      arrived := s.arrived ++ [⟨ev.expect, s.engine.flag⟩] }

/-- Exactly-once execution, as seen after an event has been handled. -/
structure RunsOnce (s : State σ) : Prop where
  /-- An event has run once if its flags are set, and not at all otherwise. -/
  once : ∀ i a, s.arrived[i]? = some a →
    s.engine.order.count i = if a.expect ⊆ s.engine.flag then 1 else 0
  /-- An event that has not run is in the cache. -/
  kept : ∀ i a, s.arrived[i]? = some a → ¬ a.expect ⊆ s.engine.flag →
    ∃ c ∈ s.engine.cacheDatas, c.ident = i
  /-- No handler was started before the flags its event expects were set. -/
  expected : ∀ x ∈ s.engine.executed, ∃ a, s.arrived[x.ident]? = some a ∧ a.expect ⊆ x.flag
  /-- Events cached under the same expectation ran in the order they arrived. -/
  ordered : ∀ i j a b, s.arrived[i]? = some a → s.arrived[j]? = some b → a.Cached → b.Cached →
    a.expect = b.expect → i < j → a.expect ⊆ s.engine.flag → [i, j].Sublist s.engine.order

/-- Of two events with the same expectation, the first to arrive is the first in the list. -/
def Ordered (arrived : List Arrival) (order : List Nat) : Prop :=
  ∀ i j a b, arrived[i]? = some a → arrived[j]? = some b → a.expect = b.expect → i < j →
    i ∈ order → j ∈ order → [i, j].Sublist order

/-- What the cache and the log of executions say of the events that arrived. -/
structure Sound (arrived : List Arrival) (e : IOEngine σ) : Prop where
  quiet : ∀ c ∈ e.cacheDatas, Quiet c.expect c.f
  sorted : (e.cacheDatas.map (·.ident)).Pairwise (· < ·)
  known : ∀ c ∈ e.cacheDatas, ∃ a, arrived[c.ident]? = some a ∧ a.expect = c.expect
  waiting : ∀ c ∈ e.cacheDatas, ¬ c.expect ⊆ e.flag
  nodup : e.order.Nodup
  ready : ∀ x ∈ e.executed, x.flag ⊆ e.flag ∧
    ∃ a, arrived[x.ident]? = some a ∧ a.expect ⊆ x.flag
  ordered : Ordered arrived e.order

/-- Every event that arrived has run or is in the cache. -/
def Complete (arrived : List Arrival) (e : IOEngine σ) : Prop :=
  ∀ i < arrived.length, i ∈ e.order ∨ ∃ c ∈ e.cacheDatas, c.ident = i

variable {arrived : List Arrival} {e : IOEngine σ}

theorem Ordered.append {order more : List Nat} (h : Ordered arrived order)
    (hmore : more.Pairwise (· < ·))
    (hlate : ∀ i ∈ more, ∀ j ∈ order, ∀ a b, arrived[i]? = some a → arrived[j]? = some b →
      a.expect = b.expect → ¬ i < j) :
    Ordered arrived (order ++ more) := by
  intro i j a b ha hb hexp hlt hi hj
  rcases mem_append.mp hi with hi | hi
  · rcases mem_append.mp hj with hj | hj
    · exact (h i j a b ha hb hexp hlt hi hj).trans (sublist_append_left _ _)
    · exact (singleton_sublist.mpr hi).append (singleton_sublist.mpr hj)
  rcases mem_append.mp hj with hj | hj
  · exact absurd hlt (hlate i hi j hj a b ha hb hexp)
  refine Sublist.trans ?_ (sublist_append_right _ _)
  have hsub : [i, j].Subperm more :=
    subperm_of_subset (by simp [hlt.ne]) (by simp [hi, hj])
  exact sublist_of_subperm_of_pairwise hsub (by simp [hlt]) hmore

namespace Sound

variable {i : Nat}

theorem arrived_of_mem_order (h : Sound arrived e) (hi : i ∈ e.order) :
    ∃ a, arrived[i]? = some a := by
  obtain ⟨x, hx, rfl⟩ := mem_map.mp hi
  obtain ⟨-, a, ha, -⟩ := h.ready x hx
  exact ⟨a, ha⟩

variable {a : Arrival}

section

variable (h : Sound arrived e)
include h

theorem expect_of_mem_order (hi : i ∈ e.order) (ha : arrived[i]? = some a) : a.expect ⊆ e.flag := by
  obtain ⟨x, hx, rfl⟩ := mem_map.mp hi
  obtain ⟨hflag, b, hb, hexp⟩ := h.ready x hx
  obtain rfl := Option.mem_unique ha hb
  exact hexp.trans hflag

theorem not_mem_order {c : CacheData σ} (hc : c ∈ e.cacheDatas) : c.ident ∉ e.order := by
  intro hi
  obtain ⟨a, ha, hexp⟩ := h.known c hc
  exact h.waiting c hc (hexp ▸ h.expect_of_mem_order hi ha)

theorem pass {flag : Flags} (hflag : e.flag ⊆ flag) (own : σ) :
    Sound arrived
      { flag := flag
        cacheDatas := e.cacheDatas.filter fun c => ¬ c.expect ⊆ flag
        own := own
        executed := e.executed ++
          (e.cacheDatas.filter fun c => c.expect ⊆ flag).map fun c => ⟨c.ident, flag⟩ } := by
  have horder : (((e.cacheDatas.filter fun c => c.expect ⊆ flag).map
      fun c => (⟨c.ident, flag⟩ : Execution)).map (·.ident)) =
      (e.cacheDatas.filter fun c => c.expect ⊆ flag).map (·.ident) := by
    rw [map_map]; rfl
  have hsorted := h.sorted.sublist
    ((filter_sublist (p := fun c : CacheData σ => c.expect ⊆ flag)).map (·.ident))
  -- an event that becomes ready now expected a flag that was not set before
  have hnew : ∀ i ∈ (e.cacheDatas.filter fun c => c.expect ⊆ flag).map (·.ident),
      ∃ c ∈ e.cacheDatas, c.ident = i ∧ c.expect ⊆ flag := by
    intro i hi
    obtain ⟨c, hc, rfl⟩ := mem_map.mp hi
    obtain ⟨hc, hexp⟩ := mem_filter.mp hc
    exact ⟨c, hc, rfl, by simpa using hexp⟩
  refine ⟨fun c hc => h.quiet c (mem_filter.mp hc).1, ?_,
    fun c hc => h.known c (mem_filter.mp hc).1,
    fun c hc => by simpa using (mem_filter.mp hc).2, ?_, ?_, ?_⟩
  · exact h.sorted.sublist
      ((filter_sublist (p := fun c : CacheData σ => ¬ c.expect ⊆ flag)).map (·.ident))
  · rw [IOEngine.order, map_append, horder]
    refine nodup_append'.mpr ⟨h.nodup, hsorted.imp (fun hlt => hlt.ne), ?_⟩
    intro i hi hi'
    obtain ⟨c, hc, rfl, -⟩ := hnew i hi'
    exact h.not_mem_order hc hi
  · intro x hx
    rcases mem_append.mp hx with hx | hx
    · obtain ⟨hx, a, ha, hexp⟩ := h.ready x hx
      exact ⟨hx.trans hflag, a, ha, hexp⟩
    obtain ⟨c, hc, rfl⟩ := mem_map.mp hx
    obtain ⟨hc, hexp⟩ := mem_filter.mp hc
    obtain ⟨a, ha, haexp⟩ := h.known c hc
    exact ⟨Finset.Subset.refl _, a, ha, haexp ▸ by simpa using hexp⟩
  · rw [IOEngine.order, map_append, horder]
    refine h.ordered.append hsorted ?_
    intro i hi j hj a b ha hb hexp _
    obtain ⟨c, hc, rfl, -⟩ := hnew i hi
    obtain ⟨a', ha', hcexp⟩ := h.known c hc
    obtain rfl := Option.mem_unique ha ha'
    refine h.waiting c hc ?_
    rw [← hcexp, hexp]
    exact h.expect_of_mem_order hj hb

theorem started (ha : arrived[i]? = some a) (hexp : a.expect ⊆ e.flag)
    (hlast : ∀ j ∈ e.order, j < i) :
    Sound arrived { e with executed := e.executed ++ [⟨i, e.flag⟩] } := by
  have horder : (e.executed ++ [(⟨i, e.flag⟩ : Execution)]).map (·.ident) = e.order ++ [i] := by
    simp [IOEngine.order]
  refine ⟨h.quiet, h.sorted, h.known, h.waiting, ?_, ?_, ?_⟩
  · rw [IOEngine.order, horder]
    refine nodup_append'.mpr ⟨h.nodup, nodup_singleton i, ?_⟩
    intro j hj hj'
    rw [mem_singleton] at hj'
    exact (hlast j hj).ne hj'
  · intro x hx
    rcases mem_append.mp hx with hx | hx
    · exact h.ready x hx
    rw [mem_singleton] at hx
    subst hx
    exact ⟨Finset.Subset.refl _, a, ha, hexp⟩
  · rw [IOEngine.order, horder]
    refine h.ordered.append (pairwise_singleton _ _) ?_
    intro k hk j hj _ _ _ _ _
    rw [mem_singleton] at hk
    exact hk ▸ Nat.not_lt.mpr (hlast j hj).le

theorem arrive (a : Arrival) : Sound (arrived ++ [a]) e := by
  have hkeep : ∀ {i : Nat} {b : Arrival}, arrived[i]? = some b → (arrived ++ [a])[i]? = some b := by
    intro i b hb
    rw [getElem?_append_left (List.getElem?_eq_some_iff.mp hb).1, hb]
  refine ⟨h.quiet, h.sorted, fun c hc => ?_, h.waiting, h.nodup, fun x hx => ?_, ?_⟩
  · obtain ⟨b, hb, hexp⟩ := h.known c hc
    exact ⟨b, hkeep hb, hexp⟩
  · obtain ⟨hflag, b, hb, hexp⟩ := h.ready x hx
    exact ⟨hflag, b, hkeep hb, hexp⟩
  intro i j b c hb hc hexp hlt hi hj
  obtain ⟨b', hb'⟩ := h.arrived_of_mem_order hi
  obtain ⟨c', hc'⟩ := h.arrived_of_mem_order hj
  rw [hkeep hb', Option.some.injEq] at hb
  rw [hkeep hc', Option.some.injEq] at hc
  exact h.ordered i j b' c' hb' hc' (by rw [hb, hc, hexp]) hlt hi hj

end

end Sound

def Handled (arrived : List Arrival) (e : IOEngine σ) : Prop := Sound arrived e ∧ Complete arrived e

theorem Handled.set (h : Handled arrived e) (flag : Flags) :
    Handled arrived (setFlag flag e) := by
  obtain ⟨hs, hc⟩ := h
  obtain ⟨own, heq⟩ := setFlag_quiet flag hs.quiet hs.waiting
  rw [heq]
  refine ⟨hs.pass Finset.subset_union_left own, fun i hi => ?_⟩
  rcases hc i hi with hrun | ⟨c, hc, rfl⟩
  · exact .inl (by simpa [IOEngine.order] using .inl (by simpa [IOEngine.order] using hrun))
  by_cases hexp : c.expect ⊆ e.flag ∪ flag
  · refine .inl ?_
    simp only [IOEngine.order, map_append, map_map, mem_append]
    exact .inr (mem_map_of_mem (mem_filter.mpr ⟨hc, by simpa using hexp⟩))
  · exact .inr ⟨c, mem_filter.mpr ⟨hc, by simpa using hexp⟩, rfl⟩

theorem Handled.withOwn (h : Handled arrived e) (own : σ) :
    Handled arrived { e with own := own } :=
  ⟨⟨h.1.quiet, h.1.sorted, h.1.known, h.1.waiting, h.1.nodup, h.1.ready, h.1.ordered⟩, h.2⟩

theorem Handled.runHandler {f : List (Action σ)} :
    ∀ {e : IOEngine σ}, Handled arrived e → Handled arrived (runHandler setFlag f e) := by
  induction f with
  | nil => exact id
  | cons a rest ih => exact fun h => ih ((h.withOwn _).set _)

/-- An event that would be cached has a handler that sets no new flag. -/
def CachesQuiet (s : State σ) (ev : Event σ) : Prop :=
  ev.expect ⊆ s.engine.flag ∨ Quiet ev.expect ev.f

variable {s : State σ}

theorem step_handled {s' : State σ} {ev : Event σ} (h : step s ev = some s')
    (hev : CachesQuiet s ev) (hs : Handled s.arrived s.engine) : Handled s'.arrived s'.engine := by
  simp only [step, Option.some.injEq] at h
  subst h
  obtain ⟨hsound, hcomplete⟩ := hs
  have hlen : (s.arrived ++ [(⟨ev.expect, s.engine.flag⟩ : Arrival)])[s.arrived.length]? =
      some ⟨ev.expect, s.engine.flag⟩ := by simp
  have hlast : ∀ j ∈ s.engine.order, j < s.arrived.length := by
    intro j hj
    obtain ⟨a, ha⟩ := hsound.arrived_of_mem_order hj
    exact (List.getElem?_eq_some_iff.mp ha).1
  have harrive := hsound.arrive ⟨ev.expect, s.engine.flag⟩
  dsimp only [handleEvent]
  split_ifs with hexp
  · refine Handled.runHandler ⟨harrive.started hlen hexp hlast, fun i hi => ?_⟩
    rw [length_append, length_singleton] at hi
    simp only [IOEngine.order, map_append, mem_append]
    rcases Nat.lt_succ_iff_lt_or_eq.mp hi with hi | rfl
    · rcases hcomplete i hi with hrun | hcached
      · exact .inl (.inl hrun)
      · exact .inr hcached
    · exact .inl (.inr (by simp))
  have hquiet : Quiet ev.expect ev.f := hev.resolve_left hexp
  refine ⟨⟨?_, ?_, ?_, ?_, harrive.nodup, harrive.ready, harrive.ordered⟩, fun i hi => ?_⟩
  · intro c hc
    rcases mem_append.mp hc with hc | hc
    · exact hsound.quiet c hc
    · rw [mem_singleton] at hc
      exact hc ▸ hquiet
  · rw [map_append]
    refine pairwise_append.mpr ⟨hsound.sorted, by simp, fun i hi j hj => ?_⟩
    obtain ⟨c, hc, rfl⟩ := mem_map.mp hi
    obtain ⟨a, ha, -⟩ := hsound.known c hc
    simp only [map_cons, map_nil, mem_singleton] at hj
    exact hj ▸ (List.getElem?_eq_some_iff.mp ha).1
  · intro c hc
    rcases mem_append.mp hc with hc | hc
    · exact harrive.known c hc
    rw [mem_singleton] at hc
    subst hc
    exact ⟨_, hlen, rfl⟩
  · intro c hc
    rcases mem_append.mp hc with hc | hc
    · exact hsound.waiting c hc
    rw [mem_singleton] at hc
    subst hc
    exact hexp
  · rw [length_append, length_singleton] at hi
    rcases Nat.lt_succ_iff_lt_or_eq.mp hi with hi | rfl
    · rcases hcomplete i hi with hrun | ⟨c, hc, rfl⟩
      · exact .inl hrun
      · exact .inr ⟨c, mem_append_left _ hc, rfl⟩
    · exact .inr ⟨_, mem_append_right _ mem_cons_self, rfl⟩

/-- An event with its flags set has run, the others are in the cache. -/
theorem Handled.mem_order (h : Handled arrived e) {i : Nat} {a : Arrival}
    (ha : arrived[i]? = some a) : i ∈ e.order ↔ a.expect ⊆ e.flag := by
  refine ⟨fun hi => h.1.expect_of_mem_order hi ha, fun hexp => ?_⟩
  rcases h.2 i (List.getElem?_eq_some_iff.mp ha).1 with hi | ⟨c, hc, rfl⟩
  · exact hi
  obtain ⟨b, hb, hcexp⟩ := h.1.known c hc
  rw [ha, Option.some.injEq] at hb
  exact absurd (hcexp ▸ hb ▸ hexp) (h.1.waiting c hc)

theorem Handled.runsOnce (h : Handled s.arrived s.engine) : RunsOnce s := by
  refine ⟨fun i a ha => ?_, fun i a ha hexp => ?_, fun x hx => (h.1.ready x hx).2, ?_⟩
  · rw [h.1.nodup.count]
    exact if_congr (h.mem_order ha) rfl rfl
  · refine (h.2 i (List.getElem?_eq_some_iff.mp ha).1).resolve_left fun hi => ?_
    exact hexp ((h.mem_order ha).mp hi)
  · intro i j a b ha hb _ _ hexp hlt hready
    exact h.1.ordered i j a b ha hb hexp hlt ((h.mem_order ha).mpr hready)
      ((h.mem_order hb).mpr (hexp ▸ hready))

theorem start_handled (own : σ) : Handled (start own).arrived (start own).engine :=
  ⟨⟨by simp [start], by simp [start], by simp [start], by simp [start],
    by simp [start, IOEngine.order], by simp [start],
    fun i j a b _ _ _ _ hi _ => by simp [start, IOEngine.order] at hi⟩, by simp [Complete, start]⟩

/-- Every event runs exactly once, in every run in which only events are cached whose handlers set
no new flag. -/
theorem runs_once (own : σ) (evs : List (Event σ)) (s : State σ)
    (hquiet : Along step CachesQuiet (start own) evs)
    (hrun : run step (start own) evs = some s) : RunsOnce s :=
  (run_invariant (I := fun s => Handled s.arrived s.engine) (C := CachesQuiet)
    (fun _ _ _ hstep hev hs => step_handled hstep hev hs) (start_handled own) hquiet hrun).runsOnce

end EventCache

end IOIsolation.Agent
