import Mathlib.Algebra.Order.Group.Nat
import Mathlib.Data.Nat.Notation
import Mathlib.Logic.Function.Basic
import Mathlib.Logic.Function.Iterate

set_option relaxedAutoImplicit false
set_option autoImplicit false

/-!
# Union-find with path halving

Disjoint sets of natural numbers as a forest of parent pointers, without ranks. The forests here
are those in which a parent is never smaller than its child, which is what linking every new
element above the roots it meets leads to; in such a forest below `n` a walk to the root takes
fewer than `n` steps.

## Main definitions

* `UnionFind.find`, `UnionFind.union` — the two operations, with fuel for the loop.
* `UnionFind.Finds`, `UnionFind.Unions` — the two operations as loops without a bound.
* `UnionFind.Rising` — the forests below `n` in which parents never decrease.
* `UnionFind.root` — the root of an element.

## Main results

* `UnionFind.find_spec` — `find` returns the root, and halving the path changes no root.
* `UnionFind.union_spec` — `union` merges the sets of its arguments and no others.
* `UnionFind.finds_find`, `UnionFind.unions_union` — the loops end, and as the operations with fuel.
* `UnionFind.Finds.unique`, `UnionFind.Unions.unique` — they end in one way only.
-/

namespace UnionFind

/-- The root above `i`, each second element of the path linked to its grandparent on the way. -/
def find : ℕ → (ℕ → ℕ) → ℕ → ℕ × (ℕ → ℕ)
  | 0, parent, i => (i, parent)
  | fuel + 1, parent, i =>
    if parent i = i then (i, parent)
    else
      let parent := Function.update parent i (parent (parent i))
      find fuel parent (parent i)

/-- Link the root above `right` to the root above `left`. -/
def union (fuel : ℕ) (parent : ℕ → ℕ) (left right : ℕ) : ℕ → ℕ :=
  let (leftRoot, parent) := find fuel parent left
  let (rightRoot, parent) := find fuel parent right
  if leftRoot = rightRoot then parent else Function.update parent rightRoot leftRoot

/-- The loop of `find`, with no bound on its turns: from `i` it ends at the root with the forest
`parent'`. -/
inductive Finds : (ℕ → ℕ) → ℕ → ℕ → (ℕ → ℕ) → Prop
  | root {parent : ℕ → ℕ} {i : ℕ} (h : parent i = i) : Finds parent i i parent
  | halve {parent parent' : ℕ → ℕ} {i j : ℕ} (h : parent i ≠ i)
      (hrest : Finds (Function.update parent i (parent (parent i)))
        (Function.update parent i (parent (parent i)) i) j parent') : Finds parent i j parent'

/-- `union`, whose two loops end. -/
def Unions (parent : ℕ → ℕ) (left right : ℕ) (parent' : ℕ → ℕ) : Prop :=
  ∃ leftRoot rightRoot parent₁ parent₂, Finds parent left leftRoot parent₁ ∧
    Finds parent₁ right rightRoot parent₂ ∧
      parent' = if leftRoot = rightRoot then parent₂
        else Function.update parent₂ rightRoot leftRoot

/-- A forest below `n` in which parents never decrease. -/
structure Rising (n : ℕ) (parent : ℕ → ℕ) : Prop where
  le : ∀ i, i ≤ parent i
  lt : ∀ i, i < n → parent i < n

/-- The root above `i` in a forest below `n`. -/
def root (n : ℕ) (parent : ℕ → ℕ) (i : ℕ) : ℕ := parent^[n] i

variable {n : ℕ} {parent : ℕ → ℕ}

lemma rising_id (n : ℕ) : Rising n id := ⟨fun _ => le_refl _, fun _ h => h⟩

namespace Rising

variable {i j : ℕ}

lemma iterate_lt (h : Rising n parent) (hi : i < n) (k : ℕ) : parent^[k] i < n := by
  induction k with
  | zero => exact hi
  | succ k ih =>
    rw [Function.iterate_succ_apply']
    exact h.lt _ ih

/-- Each step goes up until the root is reached. -/
lemma iterate_ge (h : Rising n parent) (k : ℕ) :
    i + k ≤ parent^[k] i ∨ parent (parent^[k] i) = parent^[k] i := by
  induction k with
  | zero => exact .inl (le_refl _)
  | succ k ih =>
    rw [Function.iterate_succ_apply']
    rcases ih with ih | ih
    · by_cases hfix : parent (parent^[k] i) = parent^[k] i
      · right
        rw [hfix, hfix]
      · left
        have := h.le (parent^[k] i)
        omega
    · right
      rw [ih, ih]

/-- A root is its own parent. -/
lemma parent_root (h : Rising n parent) (hi : i < n) :
    parent (root n parent i) = root n parent i := by
  rcases h.iterate_ge (i := i) n with hge | hfix
  · have hlt := h.iterate_lt hi n
    omega
  · exact hfix

lemma root_lt (h : Rising n parent) (hi : i < n) : root n parent i < n := h.iterate_lt hi n

lemma root_of_fixed (hi : parent i = i) : root n parent i = i :=
  Function.iterate_fixed hi n

/-- An element and its parent have the same root. -/
lemma root_parent (h : Rising n parent) (hi : i < n) :
    root n parent (parent i) = root n parent i := by
  have hstep : root n parent (parent i) = parent (root n parent i) := by
    rw [root, root, ← Function.iterate_succ_apply, Function.iterate_succ_apply']
  rw [hstep, h.parent_root hi]

lemma le_root (h : Rising n parent) : i ≤ root n parent i := by
  have hle : ∀ k, i ≤ parent^[k] i := by
    intro k
    induction k with
    | zero => exact le_refl _
    | succ k ih =>
      rw [Function.iterate_succ_apply']
      exact ih.trans (h.le _)
  exact hle n

/-- Redirecting `i` to an element above it gives a forest of the same kind. -/
lemma update (h : Rising n parent) (hij : i ≤ j) (hj : j < n) :
    Rising n (Function.update parent i j) where
  le := by
    intro k
    by_cases hk : k = i
    · subst hk
      rwa [Function.update_self]
    · rw [Function.update_of_ne hk]
      exact h.le k
  lt := by
    intro k hk
    by_cases hki : k = i
    · subst hki
      rwa [Function.update_self]
    · rw [Function.update_of_ne hki]
      exact h.lt k hk

/-- Redirecting `i` to an element with the same root changes no root.

**Proof sketch.** Induction on the distance to `n`: an element that is not a root has a larger
parent, which has the same root before and after. -/
lemma root_update_of_root_eq (h : Rising n parent) (hij : i < j) (hj : j < n)
    (hroot : root n parent j = root n parent i) (hfix : parent i ≠ i) :
    ∀ k < n, root n (Function.update parent i j) k = root n parent k := by
  have h' := h.update (i := i) hij.le hj
  intro k
  induction hd : n - k using Nat.strong_induction_on generalizing k with
  | _ d ih =>
    intro hk
    rw [← h'.root_parent hk]
    by_cases hki : k = i
    · subst hki
      rw [Function.update_self, ih (n - j) (by omega) j rfl hj, hroot]
    · rw [Function.update_of_ne hki]
      by_cases hkfix : parent k = k
      · rw [hkfix, root_of_fixed hkfix, root_of_fixed]
        rw [Function.update_of_ne hki, hkfix]
      · have hlt := h.le k
        rw [ih (n - parent k) (by omega) (parent k) rfl (h.lt k hk), h.root_parent hk]

/-- Linking the root `i` to the larger root `j` moves the set of `i` to `j`. -/
lemma root_update_of_roots (h : Rising n parent) (hij : i < j) (hj : j < n)
    (hi : parent i = i) (hjroot : parent j = j) :
    ∀ k < n, root n (Function.update parent i j) k =
      if root n parent k = i then j else root n parent k := by
  have h' := h.update (i := i) hij.le hj
  have hjfix : Function.update parent i j j = j := by
    rw [Function.update_of_ne (by omega), hjroot]
  intro k
  induction hd : n - k using Nat.strong_induction_on generalizing k with
  | _ d ih =>
    intro hk
    rw [← h'.root_parent hk]
    by_cases hki : k = i
    · subst hki
      rw [Function.update_self, root_of_fixed hjfix, root_of_fixed hi, if_pos rfl]
    · rw [Function.update_of_ne hki]
      by_cases hkfix : parent k = k
      · rw [hkfix, root_of_fixed hkfix, if_neg hki, root_of_fixed]
        rw [Function.update_of_ne hki, hkfix]
      · have hlt := h.le k
        rw [ih (n - parent k) (by omega) (parent k) rfl (h.lt k hk), h.root_parent hk]

end Rising

/-- **What `find` does.** With fuel for the way up it returns the root, and the forest after it
has the same roots. -/
theorem find_spec (fuel : ℕ) {i : ℕ} (h : Rising n parent) (hi : i < n) (hfuel : n - i ≤ fuel) :
    (find fuel parent i).1 = root n parent i ∧ Rising n (find fuel parent i).2 ∧
      ∀ k < n, root n (find fuel parent i).2 k = root n parent k := by
  induction fuel generalizing parent i with
  | zero => omega
  | succ fuel ih =>
    rw [find]
    split
    · next hfix => exact ⟨(Rising.root_of_fixed hfix).symm, h, fun _ _ => rfl⟩
    · next hfix =>
      have h1 := h.le i
      have h2 := h.le (parent i)
      have hlt1 := h.lt i hi
      have hlt2 := h.lt _ hlt1
      have hup : i < parent (parent i) := by omega
      have hsame : root n parent (parent (parent i)) = root n parent i := by
        rw [h.root_parent hlt1, h.root_parent hi]
      have hroots := h.root_update_of_root_eq hup hlt2 hsame hfix
      have hrising := h.update (i := i) hup.le hlt2
      dsimp only
      rw [Function.update_self]
      obtain ⟨hroot, hrising', hroots'⟩ := ih hrising hlt2 (by omega)
      refine ⟨?_, hrising', fun k hk => ?_⟩
      · rw [hroot, hroots _ hlt2, hsame]
      · rw [hroots' k hk, hroots k hk]

/-- **What `union` does.** If the root above `right` is not larger than the one above `left`, its
set is moved to that root, and no other root changes. -/
theorem union_spec (fuel : ℕ) {left right : ℕ} (h : Rising n parent) (hl : left < n) (hr : right < n)
    (hfuel : n ≤ fuel) (hle : root n parent right ≤ root n parent left) :
    Rising n (union fuel parent left right) ∧
      ∀ k < n, root n (union fuel parent left right) k =
        if root n parent k = root n parent right then root n parent left
        else root n parent k := by
  obtain ⟨hroot₁, hrising₁, hroots₁⟩ := find_spec fuel h hl (by omega)
  obtain ⟨hroot₂, hrising₂, hroots₂⟩ := find_spec fuel hrising₁ hr (by omega)
  have hroots : ∀ k < n, root n (find fuel (find fuel parent left).2 right).2 k =
      root n parent k := fun k hk => (hroots₂ k hk).trans (hroots₁ k hk)
  unfold union
  dsimp only
  rw [hroot₂, hroot₁, hroots₁ right hr]
  split
  · next heq =>
    refine ⟨hrising₂, fun k hk => ?_⟩
    rw [hroots k hk]
    split
    · next hk' => rw [hk', heq]
    · rfl
  · next hne =>
    have hlt : root n parent right < root n parent left := lt_of_le_of_ne hle (Ne.symm hne)
    have hleft := h.root_lt hl
    have hfixed : ∀ k < n, (find fuel (find fuel parent left).2 right).2 (root n parent k) =
        root n parent k := by
      intro k hk
      rw [← hroots k hk]
      exact hrising₂.parent_root hk
    refine ⟨hrising₂.update hlt.le hleft, fun k hk => ?_⟩
    rw [hrising₂.root_update_of_roots hlt hleft (hfixed right hr) (hfixed left hl) k hk,
      hroots k hk]

/-! ## The loops end -/

section Loops

variable {i : ℕ}

/-- **The loop of `find` ends** in a forest whose parents never decrease. -/
theorem finds_find (fuel : ℕ) (h : Rising n parent) (hi : i < n) (hfuel : n - i ≤ fuel) :
    Finds parent i (find fuel parent i).1 (find fuel parent i).2 := by
  induction fuel generalizing parent i with
  | zero => omega
  | succ fuel ih =>
    rw [find]
    split
    · next hfix => exact .root hfix
    · next hfix =>
      have h1 := h.le i
      have h2 := h.le (parent i)
      have hlt := h.lt _ (h.lt i hi)
      refine .halve hfix ?_
      dsimp only
      rw [Function.update_self]
      exact ih (h.update (i := i) (by omega) hlt) hlt (by omega)

lemma Finds.unique {j j' : ℕ} {parent₁ parent₂ : ℕ → ℕ} (h : Finds parent i j parent₁)
    (h' : Finds parent i j' parent₂) : j = j' ∧ parent₁ = parent₂ := by
  induction h with
  | root hfix =>
    cases h' with
    | root => exact ⟨rfl, rfl⟩
    | halve hne => exact absurd hfix hne
  | halve hne _ ih =>
    cases h' with
    | root hfix => exact absurd hfix hne
    | halve _ hrest => exact ih hrest

/-- The loops of `union` end too. -/
theorem unions_union (fuel : ℕ) {left right : ℕ} (h : Rising n parent) (hl : left < n)
    (hr : right < n) (hfuel : n ≤ fuel) :
    Unions parent left right (union fuel parent left right) := by
  have hrising := (find_spec fuel h hl (by omega)).2.1
  exact ⟨_, _, _, _, finds_find fuel h hl (by omega), finds_find fuel hrising hr (by omega), rfl⟩

lemma Unions.unique {left right : ℕ} {parent₁ parent₂ : ℕ → ℕ}
    (h : Unions parent left right parent₁) (h' : Unions parent left right parent₂) :
    parent₁ = parent₂ := by
  obtain ⟨leftRoot, rightRoot, p, q, hleft, hright, rfl⟩ := h
  obtain ⟨leftRoot', rightRoot', p', q', hleft', hright', rfl⟩ := h'
  obtain ⟨rfl, rfl⟩ := hleft.unique hleft'
  obtain ⟨rfl, rfl⟩ := hright.unique hright'
  rfl

end Loops

end UnionFind
