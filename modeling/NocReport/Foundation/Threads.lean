import Mathlib.Algebra.GroupWithZero.Nat
import Mathlib.Data.List.Basic
import Mathlib.Tactic.Common

set_option relaxedAutoImplicit false
set_option autoImplicit false

/-!
# What the threads of a process hold

The threads of a process are a list, and a step replaces one of them. What each thread holds, if
anything, is given by a function: the list of what all of them hold, and a sum over them, change by
what the one thread gives back and takes.

## Main results

* `Threads.count_held_set` — how often a thing is held after a thread has gone on.
* `Threads.sum_set` — a sum over the threads after one of them has gone on.
* `Threads.forall_set` — what holds of each thread when one of them has gone on.
* `Threads.eq_some_of_append` — the threads when one of them has been added.
-/

namespace Threads

variable {τ β : Type} {threads : List τ} {r : ℕ} {x : τ}

/-- What the threads hold, once for each thread. -/
def held (f : τ → Option β) (threads : List τ) : List β := threads.filterMap f

@[simp] lemma held_nil (f : τ → Option β) : held f [] = [] := rfl

/-- A new thread that holds nothing. -/
lemma held_append (f : τ → Option β) (h : f x = none) :
    held f (threads ++ [x]) = held f threads := by
  simp [held, h]

lemma held_eq_nil {f : τ → Option β} (h : ∀ x ∈ threads, f x = none) : held f threads = [] :=
  List.filterMap_eq_nil_iff.mpr h

lemma mem_held {f : τ → Option β} {b : β} (hx : threads[r]? = some x) (hb : f x = some b) :
    b ∈ held f threads :=
  List.mem_filterMap.mpr ⟨x, List.mem_of_getElem? hx, hb⟩

/-- Whatever is held is held by a thread. -/
lemma exists_of_mem_held {f : τ → Option β} {b : β} (h : b ∈ held f threads) :
    ∃ (r : ℕ) (x : τ), threads[r]? = some x ∧ f x = some b := by
  obtain ⟨x, hx, hb⟩ := List.mem_filterMap.mp h
  obtain ⟨r, hr⟩ := List.mem_iff_getElem?.mp hx
  exact ⟨r, x, hr, hb⟩

section Counting

variable [DecidableEq β]

lemma count_held_cons (f : τ → Option β) (x : τ) (threads : List τ) (b : β) :
    (held f (x :: threads)).count b = (if f x = some b then 1 else 0) + (held f threads).count b := by
  cases hx : f x with
  | none => simp [held, hx]
  | some c => by_cases hc : c = b <;> simp [held, hx, hc, Nat.add_comm]

/-- When a thread goes on, a thing is held as often as before, but for what the thread gives back
and takes. -/
lemma count_held_set (f : τ → Option β) (hx : threads[r]? = some x) (y : τ) (b : β) :
    (held f (threads.set r y)).count b + (if f x = some b then 1 else 0) =
      (held f threads).count b + if f y = some b then 1 else 0 := by
  induction threads generalizing r with
  | nil => simp at hx
  | cons z threads ih =>
    cases r with
    | zero =>
      cases hx
      rw [List.set_cons_zero, count_held_cons, count_held_cons]
      omega
    | succ r =>
      have hrest := ih hx
      rw [List.set_cons_succ, count_held_cons, count_held_cons]
      omega

/-- What is held only by those who hold something else is held no more often. -/
lemma count_held_le {f g : τ → Option β} {b : β} (h : ∀ x, f x = some b → g x = some b)
    (threads : List τ) : (held f threads).count b ≤ (held g threads).count b := by
  rw [held, held, List.count_filterMap, List.count_filterMap]
  refine List.countP_mono_left fun x _ hx => ?_
  exact beq_iff_eq.mpr (h x (beq_iff_eq.mp hx))

end Counting

/-- A sum over the threads changes by what one of them adds to it. -/
lemma sum_set (f : τ → ℕ) (hx : threads[r]? = some x) (y : τ) :
    ((threads.set r y).map f).sum + f x = (threads.map f).sum + f y := by
  induction threads generalizing r with
  | nil => simp at hx
  | cons z threads ih =>
    cases r with
    | zero =>
      cases hx
      simp only [List.set_cons_zero, List.map_cons, List.sum_cons]
      omega
    | succ r =>
      have hrest := ih hx
      simp only [List.set_cons_succ, List.map_cons, List.sum_cons]
      omega

/-- When one thread goes on, the others are as they were. -/
lemma eq_some_of_set {y x' : τ} {r' : ℕ} (h : (threads.set r y)[r']? = some x') :
    r' = r ∧ x' = y ∨ threads[r']? = some x' := by
  by_cases hr : r' = r
  · rw [hr] at h
    have hlt : r < threads.length := by
      simpa using (List.getElem?_eq_some_iff.mp h).1
    have heq := (List.getElem?_set_self hlt).symm.trans h
    exact .inl ⟨hr, (Option.some.inj heq).symm⟩
  · exact .inr ((List.getElem?_set_ne (Ne.symm hr)).symm.trans h)

/-- What holds of each thread holds when one of them has gone on to where it holds. -/
lemma forall_set {P : ℕ → τ → Prop} {y : τ}
    (h : ∀ (r : ℕ) (x : τ), threads[r]? = some x → P r x) (hy : P r y) (r' : ℕ) (x' : τ)
    (hx' : (threads.set r y)[r']? = some x') : P r' x' := by
  rcases eq_some_of_set hx' with ⟨rfl, rfl⟩ | hold
  · exact hy
  · exact h r' x' hold

/-- A thread is an old one, or the one that has been added. -/
lemma eq_some_of_append {y : τ} (h : (threads ++ [x])[r]? = some y) :
    threads[r]? = some y ∨ r = threads.length ∧ y = x := by
  rcases Nat.lt_or_ge r threads.length with hr | hr
  · exact .inl ((List.getElem?_append_left hr).symm.trans h)
  · rw [List.getElem?_append_right hr, List.getElem?_singleton] at h
    split at h
    · exact .inr ⟨by omega, (Option.some.inj h).symm⟩
    · cases h

end Threads
