import NocReport.Foundation.Stateful

set_option relaxedAutoImplicit false
set_option autoImplicit false

/-!
# Computations that run out of fuel

A recursion with fuel raises an error of its own when the fuel is used up; with more fuel it does
what it did before, unless it ran out.

## Main definitions

* `EStateM.UpTo` — a computation does what another does, or raises a certain error.

## Main results

* `EStateM.UpTo.bind`, `EStateM.UpTo.foldlM` — sequences and loops of such computations.
* `EStateM.foldlM_append_eq_ok`, `EStateM.foldlM_eq_error` — how a loop has gone.
-/

namespace EStateM

variable {ε σ α β : Type}

/-- Where `x` does not raise `e`, it does what `y` does. -/
def UpTo (e : ε) (x y : EStateM ε σ α) : Prop := ∀ s, (∃ t, x s = .error e t) ∨ x s = y s

namespace UpTo

variable {e : ε} {x y z : EStateM ε σ α} {s s' : σ}

lemma refl (e : ε) (x : EStateM ε σ α) : UpTo e x x := fun _ => .inr rfl

lemma trans (h : UpTo e x y) (h' : UpTo e y z) : UpTo e x z := by
  intro s
  rcases h s with hx | hx
  · exact .inl hx
  · rw [hx]
    exact h' s

lemma of_ok (h : UpTo e x y) {a : α} (hx : x s = .ok a s') : y s = .ok a s' := by
  rcases h s with ⟨t, ht⟩ | heq
  · rw [hx] at ht
    cases ht
  · rw [← heq, hx]

/-- Where the second succeeds, the first does, or runs out. -/
lemma ok_or_error (h : UpTo e x y) {a : α} (hy : y s = .ok a s') :
    (∃ t, x s = .error e t) ∨ x s = .ok a s' :=
  (h s).imp_right fun heq => heq.trans hy

lemma bind {f g : α → EStateM ε σ β} (h : UpTo e x y) (hfg : ∀ a, UpTo e (f a) (g a)) :
    UpTo e (x >>= f) (y >>= g) := by
  intro s
  simp only [Bind.bind, EStateM.bind]
  rcases h s with ⟨t, ht⟩ | heq
  · rw [ht]
    exact .inl ⟨t, rfl⟩
  · rw [heq]
    cases y s with
    | ok a t => exact hfg a t
    | error e' t => exact .inr rfl

lemma foldlM {f g : β → α → EStateM ε σ β} (h : ∀ b a, UpTo e (f b a) (g b a)) (xs : List α)
    (b : β) : UpTo e (xs.foldlM f b) (xs.foldlM g b) := by
  induction xs generalizing b with
  | nil => exact refl e _
  | cons x xs ih =>
    rw [List.foldlM_cons, List.foldlM_cons]
    exact bind (h b x) ih

/-- Computations that do alike with more fuel have one result. -/
lemma unique {f : ℕ → EStateM ε σ α} (h : ∀ m n, m ≤ n → UpTo e (f m) (f n)) {m n : ℕ} {a b : α}
    {t : σ} (hm : f m s = .ok a s') (hn : f n s = .ok b t) : a = b ∧ s' = t := by
  rcases Nat.le_total m n with hle | hle
  · have hsame := (h m n hle).of_ok hm
    rw [hn] at hsame
    cases hsame
    exact ⟨rfl, rfl⟩
  · have hsame := (h n m hle).of_ok hn
    rw [hm] at hsame
    cases hsame
    exact ⟨rfl, rfl⟩

end UpTo

/-! ## How a loop has gone -/

section Loops

variable {f : β → α → EStateM ε σ β} {xs ys : List α} {b c : β} {s s' : σ}

lemma foldlM_nil_eq_ok : ([] : List α).foldlM f b s = .ok c s' ↔ b = c ∧ s = s' := by
  rw [List.foldlM_nil]
  exact pure_eq_ok

lemma foldlM_cons_eq_ok {x : α} :
    (x :: xs).foldlM f b s = .ok c s' ↔
      ∃ d t, f b x s = .ok d t ∧ xs.foldlM f d t = .ok c s' := by
  rw [List.foldlM_cons]
  exact bind_eq_ok

lemma foldlM_append_eq_ok :
    (xs ++ ys).foldlM f b s = .ok c s' ↔
      ∃ d t, xs.foldlM f b s = .ok d t ∧ ys.foldlM f d t = .ok c s' := by
  rw [List.foldlM_append]
  exact bind_eq_ok

/-- A loop that raises does so in one of its turns. -/
lemma foldlM_eq_error {e : ε} (h : xs.foldlM f b s = .error e s') :
    ∃ before x after d t, xs = before ++ x :: after ∧ before.foldlM f b s = .ok d t ∧
      f d x t = .error e s' := by
  induction xs generalizing b s with
  | nil =>
    rw [List.foldlM_nil] at h
    exact absurd h pure_ne_error
  | cons x xs ih =>
    rw [List.foldlM_cons] at h
    rcases bind_eq_error.mp h with h | ⟨d, t, hd, h⟩
    · exact ⟨[], x, xs, b, s, rfl, foldlM_nil_eq_ok.mpr ⟨rfl, rfl⟩, h⟩
    · obtain ⟨before, y, after, d', t', rfl, hbefore, hy⟩ := ih h
      exact ⟨x :: before, y, after, d', t', rfl,
        foldlM_cons_eq_ok.mpr ⟨d, t, hd, hbefore⟩, hy⟩

/-- And where a turn raises, the loop does. -/
lemma foldlM_error_of_turn {e : ε} {before after : List α} {x : α} {d : β} {t : σ}
    (hbefore : before.foldlM f b s = .ok d t) (hx : f d x t = .error e s') :
    (before ++ x :: after).foldlM f b s = .error e s' := by
  rw [List.foldlM_append]
  refine bind_eq_error.mpr (.inr ⟨d, t, hbefore, ?_⟩)
  rw [List.foldlM_cons]
  exact bind_eq_error.mpr (.inl hx)

/-- A loop that raises before some of its elements raises with them. -/
lemma foldlM_append_error {e : ε} (h : xs.foldlM f b s = .error e s') :
    (xs ++ ys).foldlM f b s = .error e s' := by
  rw [List.foldlM_append]
  exact bind_eq_error.mpr (.inl h)

end Loops

end EStateM
