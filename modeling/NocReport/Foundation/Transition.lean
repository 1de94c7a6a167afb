import Mathlib.Data.List.Basic

set_option relaxedAutoImplicit false
set_option autoImplicit false

/-!
# Runs of a partial step function

A transition system given by a partial step function `step : σ → α → Option σ`: the action `a`
is *enabled* in `s` when `step s a` is defined. A run is a list of actions, taken one after
the other; properties of runs are stated about every state or every step on the way.

## Main definitions

* `Transition.run` — the state after a list of actions, if each of them was enabled.
* `Transition.EveryStep` — a condition on the state and the action of each step of a run.
* `Transition.StaysTrue` — once a property holds in a run it holds in every later state.
* `Transition.EveryState` — a property of every state that a run goes through.
* `Transition.CanReach` — some run leads to a state with a property.
* `Transition.countSteps` — how many steps of a run satisfy a condition.
* `Transition.Loop` — a loop over a list whose turns are given by a relation.

## Main results

* `Transition.run_invariant` — an invariant preserved by the steps that satisfy a condition
  holds after every run all of whose steps satisfy it.
* `Transition.staysTrue_of_everyStep`, `Transition.everyStep_of_staysTrue` — a property stays
  true along a run exactly when no step of the run falsifies it.
* `Transition.everyState_of_everyStep` — what an invariant implies holds in every state.
* `Transition.exists_turn` — what holds at the end of a run but not at its start began with a step.
* `Transition.CanReach.backward` — what can reach a property has what goes back from it step by step.
* `Transition.countSteps_ledger` — the difference of two counts is that of a quantity.
* `Transition.countSteps_bound` — a quantity that grows with some steps only is bounded by their
  number.
* `Transition.length_le_of_growth` — a run is no longer than a quantity that grows with each step.
-/

namespace Transition

variable {σ α : Type}

/-- The state reached from `s` by the actions `as`, or `none` if one of them is not enabled. -/
def run (step : σ → α → Option σ) : σ → List α → Option σ
  | s, [] => some s
  | s, a :: as => (step s a).bind fun t => run step t as

variable {step : σ → α → Option σ}

@[simp] lemma run_nil (s : σ) : run step s [] = some s := rfl

@[simp] lemma run_cons (s : σ) (a : α) (as : List α) :
    run step s (a :: as) = (step s a).bind fun t => run step t as := rfl

/-- A run of `as ++ bs` is a run of `as` followed by a run of `bs`. -/
lemma run_append (s : σ) (as bs : List α) :
    run step s (as ++ bs) = (run step s as).bind fun t => run step t bs := by
  induction as generalizing s with
  | nil => rfl
  | cons a as ih =>
    simp only [List.cons_append, run_cons, Option.bind_assoc]
    congr 1
    funext t
    exact ih t

/-- `P` holds of the state before, and of the action of, each step of the run `as` from `s`. -/
def EveryStep (step : σ → α → Option σ) (P : σ → α → Prop) (s : σ) (as : List α) : Prop :=
  ∀ pre a post t, as = pre ++ a :: post → run step s pre = some t → P t a

/-- Once `Q` holds in the run `as` from `s`, it holds in every later state of the run. -/
def StaysTrue (step : σ → α → Option σ) (Q : σ → Prop) (s : σ) (as : List α) : Prop :=
  ∀ pre mid post t t', as = pre ++ mid ++ post → run step s pre = some t →
    run step t mid = some t' → Q t → Q t'

/-- `Q` holds in every state that the run `as` from `s` goes through. -/
def EveryState (step : σ → α → Option σ) (Q : σ → Prop) (s : σ) (as : List α) : Prop :=
  ∀ pre post t, as = pre ++ post → run step s pre = some t → Q t

lemma everyStep_nil {P : σ → α → Prop} (s : σ) : EveryStep step P s [] := by
  intro pre a post t has
  simp at has

/-- A run satisfies a condition when its first step does and the rest of the run does. -/
lemma everyStep_cons {P : σ → α → Prop} {s : σ} {a : α} {as : List α} (h : P s a)
    (hs : ∀ t, step s a = some t → EveryStep step P t as) : EveryStep step P s (a :: as) := by
  intro pre b post u has hu
  cases pre with
  | nil =>
    simp only [List.nil_append, List.cons.injEq] at has
    obtain ⟨rfl, -⟩ := has
    cases hu
    exact h
  | cons c pre =>
    simp only [List.cons_append, List.cons.injEq] at has
    obtain ⟨rfl, has⟩ := has
    rw [run_cons] at hu
    obtain ⟨t, ht, hu⟩ := Option.bind_eq_some_iff.mp hu
    exact hs t ht pre b post u has hu

lemma EveryStep.head {P : σ → α → Prop} {s : σ} {a : α} {as : List α}
    (h : EveryStep step P s (a :: as)) : P s a :=
  h [] a as s rfl rfl

lemma EveryStep.tail {P : σ → α → Prop} {s t : σ} {a : α} {as : List α}
    (h : EveryStep step P s (a :: as)) (hs : step s a = some t) : EveryStep step P t as := by
  intro pre b post u has hu
  refine h (a :: pre) b post u (by rw [has]; rfl) ?_
  rw [run_cons, hs]
  exact hu

/-- A condition on the steps of a run holds on each segment of the run. -/
lemma EveryStep.segment {P : σ → α → Prop} {s t : σ} {pre mid post : List α}
    (h : EveryStep step P s (pre ++ mid ++ post)) (ht : run step s pre = some t) :
    EveryStep step P t mid := by
  intro pre' b post' u hmid hu
  refine h (pre ++ pre') b (post' ++ post) u (by rw [hmid]; simp) ?_
  rw [run_append, ht]
  exact hu

/-- A run satisfies a condition exactly when its first step and, where that is enabled, the rest
of the run do. -/
lemma everyStep_cons_iff {P : σ → α → Prop} {s : σ} {a : α} {as : List α} :
    EveryStep step P s (a :: as) ↔ P s a ∧ ∀ t, step s a = some t → EveryStep step P t as :=
  ⟨fun h => ⟨h.head, fun _ ht => h.tail ht⟩, fun h => everyStep_cons h.1 h.2⟩

/-- A decidable condition on the steps of a run can be checked by taking them. -/
instance EveryStep.decidable {P : σ → α → Prop} [∀ s a, Decidable (P s a)] :
    ∀ (as : List α) (s : σ), Decidable (EveryStep step P s as)
  | [], s => .isTrue (everyStep_nil s)
  | a :: as, s =>
    haveI : Decidable (∀ t, step s a = some t → EveryStep step P t as) :=
      match h : step s a with
      | none => .isTrue fun _ ht => by cases ht
      | some t =>
        match EveryStep.decidable as t with
        | .isTrue ht => .isTrue fun u hu => by cases hu; exact ht
        | .isFalse ht => .isFalse fun hall => ht (hall t rfl)
    decidable_of_iff _ everyStep_cons_iff.symm

lemma EveryStep.mono {P R : σ → α → Prop} {s : σ} {as : List α} (h : EveryStep step P s as)
    (hPR : ∀ t a, P t a → R t a) : EveryStep step R s as :=
  fun pre a post t has ht => hPR t a (h pre a post t has ht)

/-- **The invariant rule.** If `I` is preserved by every step that satisfies `P`, it is
preserved by every run all of whose steps satisfy `P`. -/
theorem run_invariant {I : σ → Prop} {P : σ → α → Prop}
    (hstep : ∀ s a t, I s → P s a → step s a = some t → I t) {s t : σ} {as : List α}
    (hs : I s) (hP : EveryStep step P s as) (hr : run step s as = some t) : I t := by
  induction as generalizing s with
  | nil => exact Option.some.inj hr ▸ hs
  | cons a as ih =>
    rw [run_cons] at hr
    obtain ⟨u, hu, hr⟩ := Option.bind_eq_some_iff.mp hr
    exact ih (hstep s a u hs hP.head hu) (hP.tail hu) hr

/-- If the steps that satisfy `P` preserve `I`, and falsify `Q` in no state of the invariant `I`,
then `Q` stays true along a run of such steps. -/
theorem staysTrue_of_everyStep {I Q : σ → Prop} {P : σ → α → Prop}
    (hI : ∀ s a t, I s → P s a → step s a = some t → I t)
    (hQ : ∀ s a t, I s → P s a → step s a = some t → Q s → Q t) {s : σ} {as : List α}
    (hs : I s) (hP : EveryStep step P s as) : StaysTrue step Q s as := by
  intro pre mid post t t' has ht ht' hQt
  rw [has] at hP
  have hpre : EveryStep step P s ([] ++ pre ++ (mid ++ post)) := by
    rwa [List.nil_append, ← List.append_assoc]
  have hIt : I t := run_invariant hI hs (hpre.segment rfl) ht
  have hPt : EveryStep step P t mid := hP.segment ht
  have key : I t' ∧ Q t' :=
    run_invariant (I := fun u => I u ∧ Q u) (P := P)
      (fun u a v hu hPu hv => ⟨hI u a v hu.1 hPu hv, hQ u a v hu.1 hPu hv hu.2⟩) ⟨hIt, hQt⟩
      hPt ht'
  exact key.2

/-- If `Q` stays true along a run, no step of the run falsifies it. -/
theorem everyStep_of_staysTrue {Q : σ → Prop} {s : σ} {as : List α}
    (h : StaysTrue step Q s as) :
    EveryStep step (fun t a => ∀ t', step t a = some t' → Q t → Q t') s as := by
  intro pre a post t has ht t' hstep hQ
  refine h pre [a] post t t' (by rw [has]; simp) ht ?_ hQ
  rw [run_cons, hstep]
  rfl

/-- If the steps that satisfy `P` preserve `I`, and `I` implies `Q`, then `Q` holds in every state
of a run of such steps. -/
theorem everyState_of_everyStep {I Q : σ → Prop} {P : σ → α → Prop}
    (hI : ∀ s a t, I s → P s a → step s a = some t → I t) (hQ : ∀ s, I s → Q s) {s : σ}
    {as : List α} (hs : I s) (hP : EveryStep step P s as) : EveryState step Q s as := by
  intro pre post t has ht
  have hpre : EveryStep step P s pre := by
    have hseg : EveryStep step P s ([] ++ pre ++ post) := by simpa [← has] using hP
    exact hseg.segment rfl
  exact hQ t (run_invariant hI hs hpre ht)

/-- What holds in every state of a run holds after each of its steps. -/
lemma EveryState.next {Q : σ → Prop} {s t t' : σ} {as pre post : List α} {a : α}
    (h : EveryState step Q s as) (has : as = pre ++ a :: post) (ht : run step s pre = some t)
    (hstep : step t a = some t') : Q t' := by
  refine h (pre ++ [a]) post t' (by simp [has]) ?_
  simp [run_append, ht, hstep]

/-- **The turning point.** A run that leads to where `Q` holds, from where it does not, has a step
with which `Q` begins to hold. -/
theorem exists_turn {Q : σ → Prop} {s t : σ} {as : List α} (hs : ¬ Q s)
    (hr : run step s as = some t) (ht : Q t) :
    ∃ pre a post u v, as = pre ++ a :: post ∧ run step s pre = some u ∧ ¬ Q u ∧
      step u a = some v ∧ Q v := by
  induction as generalizing s with
  | nil =>
    cases hr
    exact absurd ht hs
  | cons a as ih =>
    rw [run_cons] at hr
    obtain ⟨u, hu, hr⟩ := Option.bind_eq_some_iff.mp hr
    by_cases hturn : Q u
    · exact ⟨[], a, as, s, u, rfl, rfl, hs, hu, hturn⟩
    · obtain ⟨pre, b, post, v, w, rfl, hv, hnot, hw, hQ⟩ := ih hturn hr
      refine ⟨a :: pre, b, post, v, w, rfl, ?_, hnot, hw, hQ⟩
      rw [run_cons, hu]
      exact hv

/-! ## Reachability -/

/-- Some run from `s` leads to a state that satisfies `Q`. -/
def CanReach (step : σ → α → Option σ) (Q : σ → Prop) (s : σ) : Prop :=
  ∃ as t, run step s as = some t ∧ Q t

namespace CanReach

variable {Q : σ → Prop} {s t : σ} {a : α}

lemma now (h : Q s) : CanReach step Q s := ⟨[], s, rfl, h⟩

lemma of_step (hs : step s a = some t) (h : CanReach step Q t) : CanReach step Q s := by
  obtain ⟨as, u, hr, hu⟩ := h
  refine ⟨a :: as, u, ?_, hu⟩
  rw [run_cons, hs]
  exact hr

/-- **The backward rule.** If `D` holds wherever `Q` does, and before each step after which it
holds, as long as the invariant `I` does, then a state that can reach `Q` satisfies `D`. -/
theorem backward {I D : σ → Prop} (hI : ∀ s a t, I s → step s a = some t → I t)
    (hQ : ∀ s, I s → Q s → D s) (hD : ∀ s a t, I s → step s a = some t → D t → D s)
    (hs : I s) (h : CanReach step Q s) : D s := by
  obtain ⟨as, u, hr, hu⟩ := h
  induction as generalizing s with
  | nil =>
    cases hr
    exact hQ _ hs hu
  | cons a as ih =>
    rw [run_cons] at hr
    obtain ⟨t, ht, hr⟩ := Option.bind_eq_some_iff.mp hr
    exact hD s a t hs ht (ih (hI s a t hs ht) hr)

end CanReach

/-! ## Counting steps -/

/-- How many steps of the run `as` from `s` satisfy `P`. -/
def countSteps (step : σ → α → Option σ) (P : σ → α → Prop) [∀ s a, Decidable (P s a)] :
    σ → List α → ℕ
  | _, [] => 0
  | s, a :: as =>
    (if P s a then 1 else 0) + (step s a).elim 0 fun t => countSteps step P t as

/-- **The ledger rule.** If each step takes from a quantity `φ` what it satisfies of `Q`, and adds
what it satisfies of `P`, then so does each run. -/
theorem countSteps_ledger {I : σ → Prop} {φ : σ → ℕ} {P Q : σ → α → Prop}
    [∀ s a, Decidable (P s a)] [∀ s a, Decidable (Q s a)]
    (hI : ∀ s a t, I s → step s a = some t → I t)
    (hφ : ∀ s a t, I s → step s a = some t →
      φ s + (if P s a then 1 else 0) = φ t + if Q s a then 1 else 0)
    {s t : σ} {as : List α} (hs : I s) (hr : run step s as = some t) :
    φ s + countSteps step P s as = φ t + countSteps step Q s as := by
  induction as generalizing s with
  | nil =>
    cases hr
    rfl
  | cons a as ih =>
    rw [run_cons] at hr
    obtain ⟨u, hu, hr⟩ := Option.bind_eq_some_iff.mp hr
    have hfirst := hφ s a u hs hu
    have hrest := ih (hI s a u hs hu) hr
    simp only [countSteps, hu, Option.elim_some]
    omega

/-- A quantity that grows by one at most, and only with the steps that satisfy `P`. -/
theorem countSteps_bound {I : σ → Prop} {φ : σ → ℕ} {P : σ → α → Prop} [∀ s a, Decidable (P s a)]
    (hI : ∀ s a t, I s → step s a = some t → I t)
    (hφ : ∀ s a t, I s → step s a = some t → φ t ≤ φ s + if P s a then 1 else 0) {s t : σ}
    {as : List α} (hs : I s) (hr : run step s as = some t) :
    φ t ≤ φ s + countSteps step P s as := by
  induction as generalizing s with
  | nil =>
    cases hr
    exact Nat.le_refl _
  | cons a as ih =>
    rw [run_cons] at hr
    obtain ⟨u, hu, hr⟩ := Option.bind_eq_some_iff.mp hr
    have hfirst := hφ s a u hs hu
    have hrest := ih (hI s a u hs hu) hr
    simp only [countSteps, hu, Option.elim_some]
    omega

/-- **The growth rule.** A quantity that grows with each step bounds the length of the runs. -/
theorem length_le_of_growth {φ : σ → ℕ} (hφ : ∀ s a t, step s a = some t → φ s + 1 ≤ φ t)
    {s t : σ} {as : List α} (hr : run step s as = some t) : φ s + as.length ≤ φ t := by
  induction as generalizing s with
  | nil =>
    cases hr
    exact Nat.le_refl _
  | cons a as ih =>
    rw [run_cons] at hr
    obtain ⟨u, hu, hr⟩ := Option.bind_eq_some_iff.mp hr
    have hfirst := hφ s a u hu
    have hrest := ih hr
    rw [List.length_cons]
    omega

/-! ## Loops over a list -/

/-- A loop over a list from a state to another, where `turn s a t` says that the turn of `a` ends
and leads from `s` to `t`. -/
inductive Loop (turn : σ → α → σ → Prop) : σ → List α → σ → Prop
  | nil (s : σ) : Loop turn s [] s
  | cons {s t u : σ} {a : α} {as : List α} (h : turn s a t) (hrest : Loop turn t as u) :
      Loop turn s (a :: as) u

namespace Loop

variable {turn : σ → α → σ → Prop} {s t u : σ} {as bs : List α}

lemma append (h : Loop turn s as t) (h' : Loop turn t bs u) : Loop turn s (as ++ bs) u := by
  induction h with
  | nil => exact h'
  | cons hturn _ ih => exact .cons hturn (ih h')

lemma single {a : α} (h : turn s a t) : Loop turn s [a] t := .cons h (.nil t)

/-- A loop whose turns end in one way only ends in one way only. -/
lemma unique (hturn : ∀ s a t t', turn s a t → turn s a t' → t = t') (h : Loop turn s as t)
    (h' : Loop turn s as u) : t = u := by
  induction h with
  | nil =>
    cases h'
    rfl
  | cons hfirst _ ih =>
    cases h' with
    | cons hfirst' hrest' =>
      cases hturn _ _ _ _ hfirst hfirst'
      exact ih hrest'

end Loop

end Transition
