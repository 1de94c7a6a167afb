import Mathlib.Data.List.Basic

set_option relaxedAutoImplicit false
set_option autoImplicit false

/-!
# Computations with a state and errors

An error keeps the state as it is where it is raised: nothing is rolled back.

## Main definitions

* `EStateM.reading` — a computation that only reads the state.
* `EStateM.MovesBy` — the states before and after a computation are related, however it ends.

## Main results

* `EStateM.bind_eq_ok` — how a computation that succeeds has gone.
* `EStateM.foldlM_rel` — a relation between states that every turn of a loop respects holds
  between the states before and after it.
* `EStateM.MovesBy.bind`, `EStateM.MovesBy.foldlM` — related states, step by step.
-/

namespace EStateM

variable {ε σ α β : Type}

/-- A computation that only reads the state. -/
def reading (f : σ → Except ε α) : EStateM ε σ α := fun s =>
  match f s with
  | .ok a => .ok a s
  | .error e => .error e s

lemma reading_eq_ok {f : σ → Except ε α} {s s' : σ} {a : α} :
    reading f s = .ok a s' ↔ f s = .ok a ∧ s = s' := by
  unfold reading
  cases f s <;> simp

lemma bind_eq_ok {x : EStateM ε σ α} {f : α → EStateM ε σ β} {s s' : σ} {b : β} :
    (x >>= f) s = .ok b s' ↔ ∃ a t, x s = .ok a t ∧ f a t = .ok b s' := by
  simp only [bind, EStateM.bind]
  cases x s <;> simp

lemma pure_eq_ok {a b : α} {s s' : σ} :
    (pure a : EStateM ε σ α) s = .ok b s' ↔ a = b ∧ s = s' := by
  simp [pure, EStateM.pure]

lemma throw_ne_ok {e : ε} {s s' : σ} {a : α} : (throw e : EStateM ε σ α) s ≠ .ok a s' := by
  change (Result.error e s : Result ε σ α) ≠ .ok a s'
  simp

lemma get_eq_ok {s s' t : σ} : (get : EStateM ε σ σ) s = .ok t s' ↔ s = t ∧ s = s' := by
  change (Result.ok s s : Result ε σ σ) = .ok t s' ↔ _
  simp

lemma get_bind_apply (f : σ → EStateM ε σ β) (s : σ) : (get >>= f) s = f s s := rfl

lemma set_eq_ok {s s' t : σ} {u : PUnit} : (set t : EStateM ε σ PUnit) s = .ok u s' ↔ t = s' := by
  change (Result.ok _ t : Result ε σ PUnit) = .ok u s' ↔ _
  simp

lemma modify_eq_ok {f : σ → σ} {s s' : σ} {u : PUnit} :
    (modify f : EStateM ε σ PUnit) s = .ok u s' ↔ f s = s' := by
  change (Result.ok _ (f s) : Result ε σ PUnit) = .ok u s' ↔ _
  simp

/-- A relation between states that every turn of a loop respects holds between the states before
and after it. -/
lemma foldlM_rel {R : σ → σ → Prop} (hrefl : ∀ s, R s s)
    (htrans : ∀ s t u, R s t → R t u → R s u) {f : β → α → EStateM ε σ β} {xs : List α}
    (hstep : ∀ b a s c t, f b a s = .ok c t → R s t) {b c : β} {s s' : σ}
    (h : xs.foldlM f b s = .ok c s') : R s s' := by
  induction xs generalizing b s with
  | nil =>
    rw [List.foldlM_nil, pure_eq_ok] at h
    exact h.2 ▸ hrefl s
  | cons x xs ih =>
    rw [List.foldlM_cons, bind_eq_ok] at h
    obtain ⟨d, t, hd, h⟩ := h
    exact htrans s t s' (hstep b x s d t hd) (ih h)

/-! ## However a computation ends -/

/-- The state after a computation. -/
def Result.state : Result ε σ α → σ
  | .ok _ s => s
  | .error _ s => s

/-- The error that a computation ends with. -/
def Result.error? : Result ε σ α → Option ε
  | .ok _ _ => none
  | .error e _ => some e

lemma bind_eq_error {x : EStateM ε σ α} {f : α → EStateM ε σ β} {s s' : σ} {e : ε} :
    (x >>= f) s = .error e s' ↔
      x s = .error e s' ∨ ∃ a t, x s = .ok a t ∧ f a t = .error e s' := by
  simp only [bind, EStateM.bind]
  cases x s <;> simp

lemma reading_eq_error {f : σ → Except ε α} {s s' : σ} {e : ε} :
    reading f s = .error e s' ↔ f s = .error e ∧ s = s' := by
  unfold reading
  cases f s <;> simp

lemma throw_eq_error {e e' : ε} {s s' : σ} :
    (throw e : EStateM ε σ α) s = .error e' s' ↔ e = e' ∧ s = s' := by
  change (Result.error e s : Result ε σ α) = .error e' s' ↔ _
  simp

lemma pure_ne_error {a : α} {s s' : σ} {e : ε} :
    (pure a : EStateM ε σ α) s ≠ .error e s' := by
  simp [pure, EStateM.pure]

lemma get_ne_error {s s' : σ} {e : ε} : (get : EStateM ε σ σ) s ≠ .error e s' := by
  change (Result.ok s s : Result ε σ σ) ≠ .error e s'
  simp

lemma set_ne_error {s s' t : σ} {e : ε} : (set t : EStateM ε σ PUnit) s ≠ .error e s' := by
  change (Result.ok _ t : Result ε σ PUnit) ≠ .error e s'
  simp

lemma modify_ne_error {f : σ → σ} {s s' : σ} {e : ε} :
    (modify f : EStateM ε σ PUnit) s ≠ .error e s' := by
  change (Result.ok _ (f s) : Result ε σ PUnit) ≠ .error e s'
  simp

/-- The states before and after a computation are related, however it ends. -/
def MovesBy (R : σ → σ → Prop) (x : EStateM ε σ α) : Prop := ∀ s, R s (x s).state

namespace MovesBy

variable {R : σ → σ → Prop} {x : EStateM ε σ α}

lemma of_ok (h : MovesBy R x) {s s' : σ} {a : α} (hx : x s = .ok a s') : R s s' := by
  have hs := h s
  rwa [hx] at hs

lemma of_error (h : MovesBy R x) {s s' : σ} {e : ε} (hx : x s = .error e s') : R s s' := by
  have hs := h s
  rwa [hx] at hs

lemma pure (hrefl : ∀ s, R s s) (a : α) : MovesBy R (pure a : EStateM ε σ α) := hrefl

lemma throw (hrefl : ∀ s, R s s) (e : ε) : MovesBy R (throw e : EStateM ε σ α) := hrefl

lemma reading (hrefl : ∀ s, R s s) (f : σ → Except ε α) : MovesBy R (reading f) := by
  intro s
  unfold EStateM.reading
  cases f s <;> exact hrefl s

lemma bind (htrans : ∀ s t u, R s t → R t u → R s u) {f : α → EStateM ε σ β} (h : MovesBy R x)
    (hf : ∀ a, MovesBy R (f a)) : MovesBy R (x >>= f) := by
  intro s
  have hx := h s
  simp only [Bind.bind, EStateM.bind]
  cases hs : x s with
  | ok a t =>
    rw [hs] at hx
    exact htrans s t _ hx (hf a t)
  | error e t =>
    rw [hs] at hx
    exact hx

lemma foldlM (hrefl : ∀ s, R s s) (htrans : ∀ s t u, R s t → R t u → R s u)
    {f : β → α → EStateM ε σ β} {xs : List α} (h : ∀ b a, MovesBy R (f b a)) (b : β) :
    MovesBy R (xs.foldlM f b) := by
  induction xs generalizing b with
  | nil => exact pure hrefl b
  | cons x xs ih =>
    rw [List.foldlM_cons]
    exact bind htrans (h b x) ih

end MovesBy

end EStateM
