import Mathlib.Algebra.Ring.Nat
import Mathlib.Data.List.Basic
import Mathlib.Data.List.Infix

/-!
# StepRun — runs of a guarded step function

A system is a step function `step : σ → ε → Option σ`: `step s e = some s'` when event `e` is
possible in state `s` and leads to `s'`.  This module defines

* `run`      : the state after a list of events (`none` when one of them is impossible);
* `trace`    : what an observer of type `ο` records along the run;
* `StepsMeet`: every step of the run satisfies a condition on its state and event;
* `Visits`   : the run passes through a given state;

and the induction rules that carry an invariant, or an invariant over the recorded history, from
one step to whole runs.
-/

namespace StepRun

variable {σ ε ο : Type*}

/-! ## Runs -/

/-- The state after the events `es`, if all of them are possible. -/
def run (step : σ → ε → Option σ) : σ → List ε → Option σ
  | s, [] => some s
  | s, e :: es => (step s e).bind (fun s' => run step s' es)

/-- What the observer `obs` records along the run. -/
def trace (step : σ → ε → Option σ) (obs : σ → ε → List ο) : σ → List ε → List ο
  | _, [] => []
  | s, e :: es =>
      obs s e ++
        match step s e with
        | some s' => trace step obs s' es
        | none => []

/-- Every step of the run satisfies `ok`. -/
def StepsMeet (step : σ → ε → Option σ) (ok : σ → ε → Prop) : σ → List ε → Prop
  | _, [] => True
  | s, e :: es => ok s e ∧ ∀ s', step s e = some s' → StepsMeet step ok s' es

/-- The run of `es` from `s` passes through `s'`. -/
def Visits (step : σ → ε → Option σ) (s : σ) (es : List ε) (s' : σ) : Prop :=
  ∃ es₁, es₁ <+: es ∧ run step s es₁ = some s'

variable {step : σ → ε → Option σ}

@[simp] theorem run_nil (s : σ) : run step s [] = some s := rfl

theorem run_cons (s : σ) (e : ε) (es : List ε) :
    run step s (e :: es) = (step s e).bind (fun s' => run step s' es) := rfl

theorem run_cons_eq_some {s s' : σ} {e : ε} {es : List ε} :
    run step s (e :: es) = some s' ↔ ∃ s₁, step s e = some s₁ ∧ run step s₁ es = some s' := by
  simp [run_cons, Option.bind_eq_some_iff]

theorem run_append (s : σ) (es₁ es₂ : List ε) :
    run step s (es₁ ++ es₂) = (run step s es₁).bind (fun s' => run step s' es₂) := by
  induction es₁ generalizing s with
  | nil =>
      simp
  | cons e es₁ ih =>
      rw [List.cons_append, run_cons, run_cons]
      cases step s e with
      | none => rfl
      | some s₁ => simpa using ih s₁

theorem run_append_eq_some {s s' : σ} {es₁ es₂ : List ε} :
    run step s (es₁ ++ es₂) = some s' ↔
      ∃ s₁, run step s es₁ = some s₁ ∧ run step s₁ es₂ = some s' := by
  simp [run_append, Option.bind_eq_some_iff]

theorem run_singleton {s s' : σ} {e : ε} : run step s [e] = some s' ↔ step s e = some s' := by
  simp [run_cons_eq_some]

@[simp] theorem trace_nil (obs : σ → ε → List ο) (s : σ) : trace step obs s [] = [] := rfl

theorem trace_cons_of_step (obs : σ → ε → List ο) {s s' : σ} {e : ε} (h : step s e = some s')
    (es : List ε) : trace step obs s (e :: es) = obs s e ++ trace step obs s' es := by
  simp [trace, h]

theorem stepsMeet_cons {ok : σ → ε → Prop} {s : σ} {e : ε} {es : List ε} :
    StepsMeet step ok s (e :: es) ↔ ok s e ∧ ∀ s' ∈ step s e, StepsMeet step ok s' es :=
  Iff.rfl

instance decidableStepsMeet (ok : σ → ε → Prop) [∀ s e, Decidable (ok s e)] :
    (s : σ) → (es : List ε) → Decidable (StepsMeet step ok s es)
  | _, [] => .isTrue trivial
  | _, _ :: es =>
      have : ∀ s', Decidable (StepsMeet step ok s' es) := fun s' => decidableStepsMeet ok s' es
      decidable_of_iff _ stepsMeet_cons.symm

/-- A condition on the events alone. -/
theorem stepsMeet_of_forall {ok : ε → Prop} (s : σ) {es : List ε} (h : ∀ e ∈ es, ok e) :
    StepsMeet step (fun _ e => ok e) s es := by
  induction es generalizing s with
  | nil =>
      trivial
  | cons e es ih =>
      exact ⟨h e (by simp), fun s' _ => ih s' (fun e' he' => h e' (List.mem_cons_of_mem e he'))⟩

/-- A run whose steps do not all satisfy `ok` comes to one that does not. -/
theorem exists_step_of_not_stepsMeet {ok : σ → ε → Prop} {s : σ} {es : List ε}
    (h : ¬ StepsMeet step ok s es) :
    ∃ es₁ e t, es₁ ++ [e] <+: es ∧ run step s es₁ = some t ∧ ¬ ok t e := by
  induction es generalizing s with
  | nil => exact absurd trivial h
  | cons e es ih =>
      by_cases hok : ok s e
      · obtain ⟨s₁, he, hrest⟩ : ∃ s₁, step s e = some s₁ ∧ ¬ StepsMeet step ok s₁ es := by
          by_contra hnone
          push Not at hnone
          exact h ⟨hok, hnone⟩
        obtain ⟨es₁, e', t, hpre, ht, hnot⟩ := ih hrest
        exact ⟨e :: es₁, e', t, List.cons_prefix_cons.mpr ⟨rfl, hpre⟩,
          run_cons_eq_some.mpr ⟨s₁, he, ht⟩, hnot⟩
      · exact ⟨[], e, s, List.cons_prefix_cons.mpr ⟨rfl, List.nil_prefix⟩, rfl, hok⟩

/-! ## Visited states -/

theorem visits_start (s : σ) (es : List ε) : Visits step s es s :=
  ⟨[], List.nil_prefix, rfl⟩

theorem Visits.cons {s s₁ s' : σ} {e : ε} {es : List ε} (he : step s e = some s₁)
    (h : Visits step s₁ es s') : Visits step s (e :: es) s' := by
  rcases h with ⟨es₁, hpre, hrun⟩
  exact ⟨e :: es₁, List.cons_prefix_cons.mpr ⟨rfl, hpre⟩, run_cons_eq_some.mpr ⟨s₁, he, hrun⟩⟩

/-! ## Induction rules -/

/-- An invariant kept by every step that meets `ok` holds after every run of such steps. -/
theorem run_invariant {ok : σ → ε → Prop} {Inv : σ → Prop}
    (hstep : ∀ s e s', Inv s → ok s e → step s e = some s' → Inv s')
    {s s' : σ} {es : List ε} (hs : Inv s) (hok : StepsMeet step ok s es)
    (hrun : run step s es = some s') : Inv s' := by
  induction es generalizing s with
  | nil =>
      cases hrun
      exact hs
  | cons e es ih =>
      rcases run_cons_eq_some.mp hrun with ⟨s₁, he, hrest⟩
      exact ih (hstep s e s₁ hs hok.1 he) (hok.2 s₁ he) hrest

/-- `run_invariant` for steps without a side condition. -/
theorem run_invariant_of_step {Inv : σ → Prop}
    (hstep : ∀ s e s', Inv s → step s e = some s' → Inv s')
    {s s' : σ} {es : List ε} (hs : Inv s) (hrun : run step s es = some s') : Inv s' := by
  induction es generalizing s with
  | nil =>
      cases hrun
      exact hs
  | cons e es ih =>
      rcases run_cons_eq_some.mp hrun with ⟨s₁, he, hrest⟩
      exact ih (hstep s e s₁ hs he) hrest

/-- `run_invariant` for a side condition on the events. -/
theorem run_invariant_of_forall {ok : ε → Prop} {Inv : σ → Prop}
    (hstep : ∀ s e s', Inv s → ok e → step s e = some s' → Inv s')
    {s s' : σ} {es : List ε} (hs : Inv s) (hok : ∀ e ∈ es, ok e) (hrun : run step s es = some s') :
    Inv s' :=
  run_invariant hstep hs (stepsMeet_of_forall s hok) hrun

/-- An invariant over the state and everything recorded so far. -/
theorem run_history_invariant {obs : σ → ε → List ο} (ok : σ → ε → Prop)
    (Inv : List ο → σ → Prop)
    (hstep : ∀ tr s e s', Inv tr s → ok s e → step s e = some s' → Inv (tr ++ obs s e) s')
    {s s' : σ} {es : List ε} {tr : List ο} (hs : Inv tr s) (hok : StepsMeet step ok s es)
    (hrun : run step s es = some s') : Inv (tr ++ trace step obs s es) s' := by
  induction es generalizing s tr with
  | nil =>
      cases hrun
      simpa using hs
  | cons e es ih =>
      rcases run_cons_eq_some.mp hrun with ⟨s₁, he, hrest⟩
      have hnext := ih (hstep tr s e s₁ hs hok.1 he) (hok.2 s₁ he) hrest
      rw [trace_cons_of_step obs he]
      simpa [List.append_assoc] using hnext

/-- `run_history_invariant` for steps without a side condition, from an empty record on. -/
theorem run_history_of_step {obs : σ → ε → List ο} (Inv : List ο → σ → Prop)
    (hstep : ∀ tr s e s', Inv tr s → step s e = some s' → Inv (tr ++ obs s e) s')
    {s s' : σ} {es : List ε} (hs : Inv [] s) (hrun : run step s es = some s') :
    Inv (trace step obs s es) s' :=
  run_history_invariant (fun _ _ => True) Inv (fun tr s e s' h _ he => hstep tr s e s' h he) hs
    (stepsMeet_of_forall s (fun _ _ => trivial)) hrun

/-- Let `rank` fall with every step that stays in `P`.  Then a run longer than the rank of its first
state leaves `P`. -/
theorem exists_leaving_step {good : ε → Prop} {Inv P : σ → Prop} (rank : σ → Nat)
    (hstep : ∀ s e s', Inv s → good e → step s e = some s' → Inv s')
    (hrank : ∀ s e s', Inv s → P s → good e → step s e = some s' → P s' → rank s' < rank s)
    {s s' : σ} {es : List ε} (hs : Inv s) (hP : P s) (hgood : ∀ e ∈ es, good e)
    (hrun : run step s es = some s') (hlen : rank s < es.length) :
    ∃ es₁ e t t', es₁ ++ [e] <+: es ∧ run step s es₁ = some t ∧ Inv t ∧ P t ∧
      step t e = some t' ∧ ¬ P t' := by
  induction es generalizing s with
  | nil =>
      simp at hlen
  | cons e es ih =>
      rcases run_cons_eq_some.mp hrun with ⟨s₁, he, hrest⟩
      have hgoode : good e := hgood e (by simp)
      have hgoodes : ∀ e' ∈ es, good e' := fun e' he' => hgood e' (List.mem_cons_of_mem e he')
      by_cases hP₁ : P s₁
      · have hlow := hrank s e s₁ hs hP hgoode he hP₁
        have hlen₁ : rank s₁ < es.length := by
          simp only [List.length_cons] at hlen
          omega
        obtain ⟨es₁, e', t, t', hpre, ht, hinv, hPt, ht', hout⟩ :=
          ih (hstep s e s₁ hs hgoode he) hP₁ hgoodes hrest hlen₁
        exact ⟨e :: es₁, e', t, t', List.cons_prefix_cons.mpr ⟨rfl, hpre⟩,
          run_cons_eq_some.mpr ⟨s₁, he, ht⟩, hinv, hPt, ht', hout⟩
      · exact ⟨[], e, s, s₁, List.cons_prefix_cons.mpr ⟨rfl, List.nil_prefix⟩, rfl, hs, hP, he, hP₁⟩

/-- Among the events `good`, let a step lead from an invariant state with the property to a state
with the property exactly if it meets `ok`.  Then a run visits only states with the property exactly
if all its steps meet `ok`. -/
theorem visits_iff_stepsMeet {good : ε → Prop} {ok : σ → ε → Prop} (Inv P : σ → Prop)
    (hstep : ∀ s e s', Inv s → good e → step s e = some s' → Inv s')
    (hexact : ∀ s e s', Inv s → P s → good e → step s e = some s' → (P s' ↔ ok s e))
    {s s' : σ} {es : List ε} (hs : Inv s) (hP : P s) (hgood : ∀ e ∈ es, good e)
    (hrun : run step s es = some s') :
    (∀ t, Visits step s es t → P t) ↔ StepsMeet step ok s es := by
  induction es generalizing s with
  | nil =>
      constructor
      · intro _
        trivial
      · rintro - t ⟨es₁, hpre, ht⟩
        rw [List.prefix_nil.mp hpre] at ht
        cases ht
        exact hP
  | cons e es ih =>
      rcases run_cons_eq_some.mp hrun with ⟨s₁, he, hrest⟩
      have hgoode : good e := hgood e (by simp)
      have hgoodes : ∀ e' ∈ es, good e' := fun e' he' => hgood e' (List.mem_cons_of_mem e he')
      have hs₁ : Inv s₁ := hstep s e s₁ hs hgoode he
      constructor
      -- The state after the first step is visited, so the step meets `ok`.
      · intro hall
        have hP₁ : P s₁ := hall s₁ (Visits.cons he (visits_start s₁ es))
        refine ⟨(hexact s e s₁ hs hP hgoode he).mp hP₁, ?_⟩
        intro s₂ hs₂
        rw [he] at hs₂
        cases hs₂
        exact (ih hs₁ hP₁ hgoodes hrest).mp (fun t ht => hall t (Visits.cons he ht))
      · rintro ⟨hoke, hokrest⟩ t ⟨es₁, hpre, ht⟩
        have hP₁ : P s₁ := (hexact s e s₁ hs hP hgoode he).mpr hoke
        -- A visited state is the first one, or it is visited by the rest of the run.
        cases es₁ with
        | nil =>
            cases ht
            exact hP
        | cons e' es₁ =>
            rcases List.cons_prefix_cons.mp hpre with ⟨rfl, hpre'⟩
            rcases run_cons_eq_some.mp ht with ⟨s₂, hs₂, ht'⟩
            rw [he] at hs₂
            cases hs₂
            exact (ih hs₁ hP₁ hgoodes hrest).mpr (hokrest s₁ he) t ⟨es₁, hpre', ht'⟩

/-- Let every event, from an invariant state, lead to a state with the property for that event
exactly if the step meets `ok`.  Then all steps of a run lead to such states exactly if all of them
meet `ok`. -/
theorem steps_iff_stepsMeet {good : ε → Prop} (Inv : σ → Prop) (P : ε → σ → Prop)
    (ok : σ → ε → Prop) (hstep : ∀ s e s', Inv s → good e → step s e = some s' → Inv s')
    (hexact : ∀ s e s', Inv s → good e → step s e = some s' → (P e s' ↔ ok s e))
    {s s' : σ} {es : List ε} (hs : Inv s) (hgood : ∀ e ∈ es, good e)
    (hrun : run step s es = some s') :
    (∀ es₁ e t, es₁ ++ [e] <+: es → run step s (es₁ ++ [e]) = some t → P e t) ↔
      StepsMeet step ok s es := by
  induction es generalizing s with
  | nil =>
      refine iff_of_true ?_ trivial
      intro es₁ e t hpre
      simp at hpre
  | cons e es ih =>
      rcases run_cons_eq_some.mp hrun with ⟨s₁, he, hrest⟩
      have hgoode : good e := hgood e (by simp)
      have hgoodes : ∀ e' ∈ es, good e' := fun e' he' => hgood e' (List.mem_cons_of_mem e he')
      have hnext := ih (hstep s e s₁ hs hgoode he) hgoodes hrest
      constructor
      · intro hall
        have hfirst : [e] <+: e :: es := List.cons_prefix_cons.mpr ⟨rfl, List.nil_prefix⟩
        refine ⟨(hexact s e s₁ hs hgoode he).mp (hall [] e s₁ hfirst (run_singleton.mpr he)), ?_⟩
        intro s₂ hs₂
        rw [he] at hs₂
        cases hs₂
        refine hnext.mp ?_
        intro es₁ e' t hpre ht
        exact hall (e :: es₁) e' t (List.cons_prefix_cons.mpr ⟨rfl, hpre⟩)
          (run_cons_eq_some.mpr ⟨s₁, he, ht⟩)
      · rintro ⟨hok, hokrest⟩ es₁ e' t hpre ht
        cases es₁ with
        | nil =>
            obtain rfl : e' = e := (List.cons_prefix_cons.mp hpre).1
            rw [List.nil_append, run_singleton, he] at ht
            cases ht
            exact (hexact s e' s₁ hs hgoode he).mpr hok
        | cons e₁ es₁ =>
            rcases List.cons_prefix_cons.mp hpre with ⟨rfl, hpre'⟩
            rcases run_cons_eq_some.mp ht with ⟨s₂, hs₂, ht'⟩
            rw [he] at hs₂
            cases hs₂
            exact hnext.mpr (hokrest s₁ he) es₁ e' t hpre' ht'

/-- What every step from an invariant state records. -/
theorem forall_mem_trace {obs : σ → ε → List ο} {P : ο → Prop} (Inv : σ → Prop)
    (hstep : ∀ s e s', Inv s → step s e = some s' → Inv s')
    (hobs : ∀ s e, Inv s → ∀ x ∈ obs s e, P x) {s : σ} (hs : Inv s) (es : List ε) :
    ∀ x ∈ trace step obs s es, P x := by
  induction es generalizing s with
  | nil => simp
  | cons e es ih =>
      intro x hx
      rcases List.mem_append.mp hx with hhead | htail
      · exact hobs s e hs x hhead
      · cases he : step s e with
        | none => simp [he] at htail
        | some s' =>
            rw [he] at htail
            exact ih (hstep s e s' hs he) x htail

/-- What every step that meets `ok` records in a run of such steps. -/
theorem forall_mem_trace_of_stepsMeet {obs : σ → ε → List ο} {P : ο → Prop} {ok : σ → ε → Prop}
    (Inv : σ → Prop) (hstep : ∀ s e s', Inv s → ok s e → step s e = some s' → Inv s')
    (hobs : ∀ s e s', Inv s → ok s e → step s e = some s' → ∀ x ∈ obs s e, P x)
    {s s' : σ} {es : List ε} (hs : Inv s) (hok : StepsMeet step ok s es)
    (hrun : run step s es = some s') : ∀ x ∈ trace step obs s es, P x := by
  induction es generalizing s with
  | nil => simp
  | cons e es ih =>
      rcases run_cons_eq_some.mp hrun with ⟨s₁, he, hrest⟩
      rw [trace_cons_of_step obs he, List.forall_mem_append]
      exact ⟨hobs s e s₁ hs hok.1 he, ih (hstep s e s₁ hs hok.1 he) (hok.2 s₁ he) hrest⟩

/-- Two observations that record equally much in every step. -/
theorem length_trace_congr {ο' : Type*} {obs : σ → ε → List ο} {obs' : σ → ε → List ο'}
    (h : ∀ s e, (obs s e).length = (obs' s e).length) (s : σ) (es : List ε) :
    (trace step obs s es).length = (trace step obs' s es).length := by
  induction es generalizing s with
  | nil => rfl
  | cons e es ih =>
      unfold trace
      rw [List.length_append, List.length_append, h s e]
      cases step s e with
      | none => rfl
      | some s' => exact congrArg _ (ih s')

/-- Let a step from an invariant state record only what has the property exactly if it meets `ok`.
Then a run records only such things exactly if all its steps meet `ok`. -/
theorem forall_trace_iff {obs : σ → ε → List ο} {P : ο → Prop} {ok : σ → ε → Prop} (Inv : σ → Prop)
    (hstep : ∀ s e s', Inv s → step s e = some s' → Inv s')
    (hexact : ∀ s e, Inv s → ((∀ x ∈ obs s e, P x) ↔ ok s e))
    {s s' : σ} {es : List ε} (hs : Inv s) (hrun : run step s es = some s') :
    (∀ x ∈ trace step obs s es, P x) ↔ StepsMeet step ok s es := by
  induction es generalizing s with
  | nil =>
      simp [StepsMeet]
  | cons e es ih =>
      rcases run_cons_eq_some.mp hrun with ⟨s₁, he, hrest⟩
      rw [trace_cons_of_step obs he, List.forall_mem_append, hexact s e hs,
        ih (hstep s e s₁ hs he) hrest]
      refine and_congr_right (fun _ => ⟨?_, fun h => h s₁ he⟩)
      intro h s₂ hs₂
      rw [he] at hs₂
      cases hs₂
      exact h

/-! ## Potentials -/

/-- An observer that only looks at the events. -/
theorem trace_of_event (f : ε → List ο) {s s' : σ} {es : List ε} (hrun : run step s es = some s') :
    trace step (fun _ e => f e) s es = es.flatMap f := by
  induction es generalizing s with
  | nil => rfl
  | cons e es ih =>
      rcases run_cons_eq_some.mp hrun with ⟨s₁, he, hrest⟩
      rw [trace_cons_of_step _ he, ih hrest, List.flatMap_cons]

/-- An invariant over the state, the events so far and everything recorded so far. -/
theorem run_events_of_step {obs : σ → ε → List ο} (Inv : List ε → List ο → σ → Prop)
    (hstep : ∀ es tr s e s', Inv es tr s → step s e = some s' → Inv (es ++ [e]) (tr ++ obs s e) s')
    {s s' : σ} {es : List ε} (hs : Inv [] [] s) (hrun : run step s es = some s') :
    Inv es (trace step obs s es) s' := by
  -- The run goes on after the events `before`.
  suffices hfrom : ∀ before tr, Inv before tr s →
      Inv (before ++ es) (tr ++ trace step obs s es) s' from hfrom [] [] hs
  clear hs
  induction es generalizing s with
  | nil =>
      obtain rfl := Option.some.inj hrun
      intro before tr hs
      simpa using hs
  | cons e es ih =>
      intro before tr hs
      rcases run_cons_eq_some.mp hrun with ⟨s₁, he, hrest⟩
      have hnext := ih hrest (before ++ [e]) (tr ++ obs s e) (hstep before tr s e s₁ hs he)
      rw [trace_cons_of_step obs he]
      simpa [List.append_assoc] using hnext

/-- Let the potential pay for everything a step records, and let an event add at most its gain.
Then a run records no more than its first potential and its gains pay for. -/
theorem trace_length_le_of_potential {obs : σ → ε → List ο} {Inv : σ → Prop} (Φ : σ → Nat)
    (gain : ε → Nat) (hstep : ∀ s e s', Inv s → step s e = some s' → Inv s')
    (hpay : ∀ s e s', Inv s → step s e = some s' → Φ s' + (obs s e).length ≤ Φ s + gain e)
    {s s' : σ} {es : List ε} (hs : Inv s) (hrun : run step s es = some s') :
    Φ s' + (trace step obs s es).length ≤ Φ s + (es.map gain).sum := by
  induction es generalizing s with
  | nil =>
      obtain rfl := Option.some.inj hrun
      simp
  | cons e es ih =>
      rcases run_cons_eq_some.mp hrun with ⟨s₁, he, hrest⟩
      have hhead := hpay s e s₁ hs he
      have htail := ih (hstep s e s₁ hs he) hrest
      rw [trace_cons_of_step obs he, List.length_append, List.map_cons, List.sum_cons]
      omega

/-- From a state where a good event is possible unless the goal is reached, and where good events
lower the potential, good events lead to the goal. -/
theorem exists_run_of_potential {good : ε → Prop} {Inv Goal : σ → Prop} (Φ : σ → Nat)
    (hstep : ∀ s e s', Inv s → step s e = some s' → Inv s')
    (hlower : ∀ s e s', Inv s → good e → step s e = some s' → Φ s' < Φ s)
    (hprogress : ∀ s, Inv s → ¬ Goal s → ∃ e s', good e ∧ step s e = some s')
    {s : σ} (hs : Inv s) :
    ∃ es s', (∀ e ∈ es, good e) ∧ es.length ≤ Φ s ∧ run step s es = some s' ∧ Goal s' := by
  induction hΦ : Φ s using Nat.strongRecOn generalizing s with
  | ind n ih =>
      by_cases hgoal : Goal s
      · exact ⟨[], s, by simp, Nat.zero_le _, rfl, hgoal⟩
      · obtain ⟨e, s₁, hgood, he⟩ := hprogress s hs hgoal
        have hlow := hlower s e s₁ hs hgood he
        obtain ⟨es, s', hall, hlength, hrun, hreached⟩ :=
          ih (Φ s₁) (hΦ ▸ hlow) (hstep s e s₁ hs he) rfl
        refine ⟨e :: es, s', List.forall_mem_cons.mpr ⟨hgood, hall⟩, ?_,
          run_cons_eq_some.mpr ⟨s₁, he, hrun⟩, hreached⟩
        rw [List.length_cons]
        omega

/-! ## Simulation -/

/-- Let the other system answer every step with a list of its own events, such that the relation
holds again.  Then it answers every run with a run. -/
theorem exists_run_of_simulation {τ δ : Type*} {step' : τ → δ → Option τ}
    (R : List δ → σ → τ → Prop)
    (hstep : ∀ ds s t e s', R ds s t → step s e = some s' →
      ∃ ds' t', run step' t ds' = some t' ∧ R (ds ++ ds') s' t')
    {ds : List δ} {s s' : σ} {t : τ} {es : List ε} (h : R ds s t)
    (hrun : run step s es = some s') :
    ∃ ds' t', run step' t ds' = some t' ∧ R (ds ++ ds') s' t' := by
  induction es generalizing ds s t with
  | nil =>
      obtain rfl := Option.some.inj hrun
      exact ⟨[], t, rfl, by rwa [List.append_nil]⟩
  | cons e es ih =>
      obtain ⟨s₁, he, hrest⟩ := run_cons_eq_some.mp hrun
      obtain ⟨ds₁, t₁, hrun₁, h₁⟩ := hstep ds s t e s₁ h he
      obtain ⟨ds₂, t₂, hrun₂, h₂⟩ := ih h₁ hrest
      refine ⟨ds₁ ++ ds₂, t₂, run_append_eq_some.mpr ⟨t₁, hrun₁, hrun₂⟩, ?_⟩
      rwa [← List.append_assoc]

/-! ## The system with its record -/

/-- The step function on states that carry everything recorded so far. -/
def recorded (step : σ → ε → Option σ) (obs : σ → ε → List ο) (s : List ο × σ) (e : ε) :
    Option (List ο × σ) :=
  (step s.2 e).map (fun s' => (s.1 ++ obs s.2 e, s'))

theorem recorded_eq_some {obs : σ → ε → List ο} {tr tr' : List ο} {s s' : σ} {e : ε} :
    recorded step obs (tr, s) e = some (tr', s') ↔ step s e = some s' ∧ tr' = tr ++ obs s e := by
  simp only [recorded, Option.map_eq_some_iff, Prod.mk.injEq]
  constructor
  · rintro ⟨s₁, hs₁, rfl, rfl⟩
    exact ⟨hs₁, rfl⟩
  · rintro ⟨hs', rfl⟩
    exact ⟨s', hs', rfl, rfl⟩

/-- A recorded run is a run with its trace. -/
theorem run_recorded (obs : σ → ε → List ο) (tr : List ο) (s : σ) (es : List ε) :
    run (recorded step obs) (tr, s) es =
      (run step s es).map (fun s' => (tr ++ trace step obs s es, s')) := by
  induction es generalizing tr s with
  | nil =>
      simp
  | cons e es ih =>
      rw [run_cons, run_cons, recorded]
      cases hstep : step s e with
      | none => rfl
      | some s₁ =>
          simp only [Option.map_some, Option.bind_some, ih, trace_cons_of_step obs hstep,
            List.append_assoc]

end StepRun
