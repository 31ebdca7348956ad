import Mathlib.Logic.Basic

/-!
# Lib.Run

Runs of a labelled transition system given by a partial step function. An event that is not
enabled in a state yields `none`, so a run is a list of events that can all be taken.

* `run step s es`     — the state after the events `es`, if all of them are enabled in turn.
* `Along step C s es` — every event of the run meets `C` in the state it is taken from.
* `run_invariant`     — what one step preserves under `C`, a run along `C` preserves.
* `run_established`   — what one kind of event establishes and all steps keep.
* `always_iff_along`  — a property of every state on the way, as a condition on every step.
-/

namespace IOIsolation.Lib

variable {σ ε : Type}

/-- Take the events one after the other; `none` as soon as one is not enabled. -/
def run (step : σ → ε → Option σ) : σ → List ε → Option σ
  | s, [] => some s
  | s, e :: es =>
    match step s e with
    | some s' => run step s' es
    | none => none

/-- Every event of the run meets `C` in the state before it. -/
def Along (step : σ → ε → Option σ) (C : σ → ε → Prop) : σ → List ε → Prop
  | _, [] => True
  | s, e :: es =>
    C s e ∧ match step s e with
      | some s' => Along step C s' es
      | none => True

instance Along.decidable (step : σ → ε → Option σ) (C : σ → ε → Prop)
    [∀ s e, Decidable (C s e)] : ∀ s es, Decidable (Along step C s es)
  | _, [] => isTrue trivial
  | s, e :: es =>
    match h : step s e with
    | some s' =>
      have := Along.decidable step C s' es
      decidable_of_iff (C s e ∧ Along step C s' es) (by simp [Along, h])
    | none => decidable_of_iff (C s e) (by simp [Along, h])

variable {step : σ → ε → Option σ} {C D : σ → ε → Prop} {I : σ → Prop} {e : ε} {s : σ} {s' : σ}
  {es : List ε}

theorem run_cons (h : step s e = some s') (es : List ε) :
    run step s (e :: es) = run step s' es := by
  simp [run, h]

theorem run_cons_some {t : σ} (h : run step s (e :: es) = some t) :
    ∃ s', step s e = some s' ∧ run step s' es = some t := by
  simp only [run] at h
  split at h
  · rename_i s' hs; exact ⟨s', hs, h⟩
  · cases h

/-- A state with `Q` at the end of a run is found by evaluation, what else holds of it by proof. -/
theorem exists_run {o : Option σ} {P Q : σ → Prop} (h : ∃ s ∈ o, Q s)
    (hP : ∀ s, o = some s → Q s → P s) : ∃ s, o = some s ∧ Q s ∧ P s := by
  obtain ⟨s, hs, hq⟩ := h
  exact ⟨s, hs, hq, hP s hs hq⟩

theorem along_cons (hs : step s e = some s') :
    Along step C s (e :: es) ↔ C s e ∧ Along step C s' es := by
  simp [Along, hs]

/-- The invariant rule, by induction on the events. -/
theorem run_invariant (hstep : ∀ s e s', step s e = some s' → C s e → I s → I s') :
    ∀ {es : List ε} {s t : σ}, I s → Along step C s es → run step s es = some t → I t := by
  intro es
  induction es with
  | nil =>
    intro s t hi _ hr
    simp only [run, Option.some.injEq] at hr
    subst hr; exact hi
  | cons e es ih =>
    intro s t hi ha hr
    obtain ⟨s', hs, hr'⟩ := run_cons_some hr
    obtain ⟨hc, ha'⟩ := (along_cons hs).mp ha
    exact ih (hstep s e s' hs hc hi) ha' hr'

/-- What one kind of event establishes and every step keeps, holds at the end of each run with
such an event. -/
theorem run_established {J : σ → Prop} {E : ε → Prop}
    (hI : ∀ s e s', step s e = some s' → C s e → I s → I s')
    (hE : ∀ s e s', step s e = some s' → C s e → I s → E e → J s')
    (hJ : ∀ s e s', step s e = some s' → C s e → I s → J s → J s') :
    ∀ {es : List ε} {s t : σ}, I s → Along step C s es → run step s es = some t →
      (∃ e ∈ es, E e) → J t := by
  intro es
  induction es with
  | nil => rintro s t - - - ⟨e, he, -⟩; cases he
  | cons e es ih =>
    rintro s t hi ha hr ⟨x, hx, hEx⟩
    obtain ⟨s', hs, hr'⟩ := run_cons_some hr
    obtain ⟨hc, ha'⟩ := (along_cons hs).mp ha
    have hi' := hI s e s' hs hc hi
    rcases List.mem_cons.mp hx with rfl | hx
    · have hboth := run_invariant (I := fun s => I s ∧ J s)
        (fun a b c h hc hab => ⟨hI a b c h hc hab.1, hJ a b c h hc hab.1 hab.2⟩)
        ⟨hi', hE s x s' hs hc hi hEx⟩ ha' hr'
      exact hboth.2
    · exact ih hi' ha' hr' ⟨x, hx, hEx⟩

theorem Along.of_append :
    ∀ {es fs : List ε} {s t : σ}, Along step C s (es ++ fs) → run step s es = some t →
      Along step C t fs := by
  intro es
  induction es with
  | nil =>
    intro fs s t ha hr
    simp only [run, Option.some.injEq] at hr
    exact hr ▸ ha
  | cons e es ih =>
    intro fs s t ha hr
    obtain ⟨s', hs, hr'⟩ := run_cons_some hr
    exact ih ((along_cons hs).mp ha).2 hr'

theorem along_true (step : σ → ε → Option σ) (s : σ) (es : List ε) :
    Along step (fun _ _ => True) s es := by
  induction es generalizing s with
  | nil => trivial
  | cons e es ih =>
    refine ⟨trivial, ?_⟩
    cases step s e with
    | none => trivial
    | some s' => exact ih s'

theorem along_of_forall {C : ε → Prop} :
    ∀ {es : List ε} (s : σ), (∀ e ∈ es, C e) → Along step (fun _ e => C e) s es := by
  intro es
  induction es with
  | nil => intro s _; trivial
  | cons e es ih =>
    intro s h
    refine ⟨h e List.mem_cons_self, ?_⟩
    cases step s e with
    | none => trivial
    | some s' => exact ih s' fun x hx => h x (List.mem_cons_of_mem e hx)

theorem Along.and :
    ∀ {es : List ε} {s : σ}, Along step C s es → Along step D s es →
      Along step (fun s e => C s e ∧ D s e) s es := by
  intro es
  induction es with
  | nil => intro s _ _; trivial
  | cons e es ih =>
    intro s hc hd
    refine ⟨⟨hc.1, hd.1⟩, ?_⟩
    cases hs : step s e with
    | none => trivial
    | some s' => exact ih ((along_cons hs).mp hc).2 ((along_cons hs).mp hd).2

theorem along_of_invariant (hstep : ∀ s e s', step s e = some s' → C s e → I s → I s')
    (hD : ∀ s e, C s e → I s → D s e) :
    ∀ {es : List ε} {s : σ}, I s → Along step C s es → Along step D s es := by
  intro es
  induction es with
  | nil => intro s _ _; trivial
  | cons e es ih =>
    intro s hi ha
    refine ⟨hD s e ha.1 hi, ?_⟩
    cases hs : step s e with
    | none => trivial
    | some s' =>
      obtain ⟨hc, ha'⟩ := (along_cons hs).mp ha
      exact ih (hstep s e s' hs hc hi) ha'

/-- If a step from a good state reaches a good state exactly under `C`, then all states on the way of
a run are good exactly if the run is one along `C`. -/
theorem always_iff_along {P : σ → Prop}
    (hP : ∀ s e s', step s e = some s' → I s → P s → (P s' ↔ C s e))
    (hI : ∀ s e s', step s e = some s' → C s e → I s → P s → I s')
    (hstuck : ∀ s e, step s e = none → I s → C s e) :
    ∀ {es : List ε} {s : σ}, I s → P s →
      ((∀ pre t, pre <+: es → run step s pre = some t → P t) ↔ Along step C s es) := by
  intro es
  induction es with
  | nil =>
    intro s _ hs
    refine ⟨fun _ => trivial, fun _ pre t hpre hr => ?_⟩
    obtain rfl := List.prefix_nil.mp hpre
    simp only [run, Option.some.injEq] at hr
    exact hr ▸ hs
  | cons e es ih =>
    intro s hi hs
    cases h : step s e with
    | none =>
      simp only [Along, h, and_true]
      refine ⟨fun _ => hstuck s e h hi, fun _ pre t hpre hr => ?_⟩
      cases pre with
      | nil =>
        simp only [run, Option.some.injEq] at hr
        exact hr ▸ hs
      | cons f pre =>
        obtain ⟨rfl, -⟩ := List.cons_prefix_cons.mp hpre
        simp [run, h] at hr
    | some s' =>
      rw [along_cons h]
      constructor
      · intro hall
        have hs' : P s' := hall [e] s' ⟨es, rfl⟩ (by simp [run, h])
        have hc := (hP s e s' h hi hs).mp hs'
        refine ⟨hc, (ih (hI s e s' h hc hi hs) hs').mp fun pre t hpre hr => ?_⟩
        exact hall (e :: pre) t (List.cons_prefix_cons.mpr ⟨rfl, hpre⟩) (run_cons h pre ▸ hr)
      · rintro ⟨hc, ha⟩ pre t hpre hr
        have hs' := (hP s e s' h hi hs).mpr hc
        cases pre with
        | nil =>
          simp only [run, Option.some.injEq] at hr
          exact hr ▸ hs
        | cons f pre =>
          obtain ⟨rfl, hpre'⟩ := List.cons_prefix_cons.mp hpre
          exact (ih (hI s f s' h hc hi hs) hs').mpr ha pre t hpre' (run_cons h pre ▸ hr)

end IOIsolation.Lib
