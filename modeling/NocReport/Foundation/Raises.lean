import NocReport.Foundation.Python

set_option relaxedAutoImplicit false
set_option autoImplicit false

/-!
# Which exceptions are raised

What the exceptions of a computation have in common, and where a loop raises one.

## Main definitions

* `Except.Raises` — all exceptions of a computation satisfy a predicate.
* `Except.Reaches` — a loop gets to an element, in some state.

## Main results

* `Except.foldlM_eq_error_iff` — a loop raises what its body raises on an element it reaches.
* `Except.Raises.foldlM`, `Except.Raises.forM` — what all turns of a loop raise, the loop does.
-/

namespace Except

variable {ε α β : Type}

/-- Every exception of the computation satisfies `p`. -/
def Raises (p : ε → Prop) (x : Except ε α) : Prop := ∀ e, x = .error e → p e

/-- The loop over `xs` from the state `b` gets to `x`, in the state `c`. -/
def Reaches (f : β → α → Except ε β) (b : β) (xs : List α) (c : β) (x : α) : Prop :=
  ∃ before after, xs = before ++ x :: after ∧ before.foldlM f b = .ok c

lemma bind_eq_error {x : Except ε α} {f : α → Except ε β} {e : ε} :
    (x >>= f) = .error e ↔ x = .error e ∨ ∃ a, x = .ok a ∧ f a = .error e := by
  cases x with
  | error e' => simp [bind, Except.bind]
  | ok a => simp [bind, Except.bind]

lemma throw_eq_error {e e' : ε} : (throw e : Except ε α) = .error e' ↔ e = e' := by
  simp [throw, throwThe, MonadExceptOf.throw]

lemma pure_ne_error {a : α} {e : ε} : (pure a : Except ε α) ≠ .error e := by
  simp [pure, Except.pure]

section Raises

variable {p q : ε → Prop} {x : Except ε α}

lemma Raises.ok (a : α) : Raises p (.ok a) := by
  intro e h
  cases h

lemma Raises.pure (a : α) : Raises p (pure a) := .ok a

lemma Raises.throw {e : ε} (h : p e) : Raises p (throw e : Except ε α) := by
  intro e' he
  exact throw_eq_error.mp he ▸ h

lemma Raises.mono (h : Raises p x) (hpq : ∀ e, p e → q e) : Raises q x :=
  fun e he => hpq e (h e he)

lemma Raises.bind {f : α → Except ε β} (h : Raises p x)
    (hf : ∀ a, x = .ok a → Raises p (f a)) : Raises p (x >>= f) := by
  intro e he
  rcases bind_eq_error.mp he with he | ⟨a, ha, he⟩
  · exact h e he
  · exact hf a ha e he

lemma Raises.foldlM {f : β → α → Except ε β} {xs : List α}
    (h : ∀ b, ∀ x ∈ xs, Raises p (f b x)) (b : β) : Raises p (xs.foldlM f b) := by
  induction xs generalizing b with
  | nil => exact .pure b
  | cons x xs ih =>
    rw [List.foldlM_cons]
    exact (h b x List.mem_cons_self).bind fun c _ =>
      ih (fun c y hy => h c y (List.mem_cons_of_mem _ hy)) c

lemma Raises.forM {f : α → Except ε PUnit} {xs : List α} (h : ∀ x ∈ xs, Raises p (f x)) :
    Raises p (xs.forM f) := by
  induction xs with
  | nil => exact .pure _
  | cons x xs ih =>
    rw [List.forM_eq_forM, List.forM_cons]
    exact (h x List.mem_cons_self).bind fun _ _ => ih fun y hy => h y (List.mem_cons_of_mem _ hy)

lemma Raises.mapM {f : α → Except ε β} {xs : List α} (h : ∀ x ∈ xs, Raises p (f x)) :
    Raises p (xs.mapM f) := by
  induction xs with
  | nil => exact .pure _
  | cons x xs ih =>
    rw [List.mapM_cons]
    exact (h x List.mem_cons_self).bind fun _ _ =>
      (ih fun y hy => h y (List.mem_cons_of_mem _ hy)).bind fun _ _ => .pure _

lemma Raises.filterM {f : α → Except ε Bool} {xs : List α} (h : ∀ x ∈ xs, Raises p (f x)) :
    Raises p (xs.filterM f) := by
  have hloop : ∀ (xs acc : List α), (∀ x ∈ xs, Raises p (f x)) → Raises p (xs.filterAuxM f acc) := by
    intro xs
    induction xs with
    | nil => exact fun acc _ => .pure _
    | cons x xs ih =>
      intro acc h
      rw [List.filterAuxM]
      exact (h x List.mem_cons_self).bind fun _ _ =>
        ih _ fun y hy => h y (List.mem_cons_of_mem _ hy)
  exact (hloop xs [] h).bind fun _ _ => .pure _

end Raises

/-- A filter succeeds when its calls do. -/
lemma exists_filterM_eq_ok {f : α → Except ε Bool} {xs : List α} :
    (∃ ys, xs.filterM f = .ok ys) ↔ ∀ x ∈ xs, ∃ b, f x = .ok b := by
  have hloop : ∀ (xs acc : List α),
      (∃ ys, xs.filterAuxM f acc = .ok ys) ↔ ∀ x ∈ xs, ∃ b, f x = .ok b := by
    intro xs
    induction xs with
    | nil => simp [List.filterAuxM, Pure.pure, Except.pure]
    | cons x xs ih =>
      intro acc
      rw [List.filterAuxM, exists_bind_eq_ok, List.forall_mem_cons]
      simp only [ih, exists_and_right]
  rw [← hloop xs [], List.filterM, exists_bind_eq_ok]
  exact exists_congr fun ys => and_iff_left ⟨_, rfl⟩

/-- A filter that keeps nothing. -/
lemma filterM_eq_nil {f : α → Except ε Bool} {xs : List α} (h : ∀ x ∈ xs, f x = .ok false) :
    xs.filterM f = .ok [] := by
  obtain ⟨ys, hys⟩ := exists_filterM_eq_ok.mpr fun x hx => ⟨false, h x hx⟩
  rw [hys]
  cases ys with
  | nil => rfl
  | cons y ys =>
    obtain ⟨hy, htrue⟩ := (filterM_eq_ok hys).1 y List.mem_cons_self
    rw [h y hy] at htrue
    cases htrue

section Reaches

variable {f : β → α → Except ε β} {b c : β} {x y : α} {xs : List α}

lemma Reaches.mem (h : Reaches f b xs c x) : x ∈ xs := by
  obtain ⟨before, after, rfl, -⟩ := h
  exact List.mem_append_right _ List.mem_cons_self

lemma Reaches.head (f : β → α → Except ε β) (b : β) (x : α) (xs : List α) :
    Reaches f b (x :: xs) b x :=
  ⟨[], xs, rfl, rfl⟩

lemma Reaches.cons {d : β} (hy : f b y = .ok d) (h : Reaches f d xs c x) :
    Reaches f b (y :: xs) c x := by
  obtain ⟨before, after, rfl, hbefore⟩ := h
  refine ⟨y :: before, after, rfl, ?_⟩
  rw [List.foldlM_cons, hy, ok_bind]
  exact hbefore

/-- **Where a loop raises an exception.** -/
lemma foldlM_eq_error_iff {e : ε} :
    xs.foldlM f b = .error e ↔ ∃ c x, Reaches f b xs c x ∧ f c x = .error e := by
  constructor
  · intro h
    induction xs generalizing b with
    | nil => exact absurd h pure_ne_error
    | cons y xs ih =>
      rw [List.foldlM_cons, bind_eq_error] at h
      rcases h with h | ⟨d, hd, h⟩
      · exact ⟨b, y, .head f b y xs, h⟩
      · obtain ⟨c, x, hreach, hx⟩ := ih h
        exact ⟨c, x, hreach.cons hd, hx⟩
  · rintro ⟨c, x, ⟨before, after, rfl, hbefore⟩, hx⟩
    rw [List.foldlM_append, hbefore, ok_bind, List.foldlM_cons, hx]
    rfl

end Reaches

end Except
