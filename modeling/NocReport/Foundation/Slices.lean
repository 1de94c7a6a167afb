import Mathlib.Data.Int.Notation
import Mathlib.Data.List.Basic
import Mathlib.Data.List.TakeDrop

set_option relaxedAutoImplicit false
set_option autoImplicit false

/-!
# Indices and slices

Python indexes a sequence by an integer, and a negative one counts from the end. An index outside
the sequence raises `IndexError`; the bound of a slice is cut to the sequence instead.

## Main definitions

* `List.pyGet?` — `xs[i]`.
* `List.sliceTo`, `List.sliceFrom` — `xs[:stop]` and `xs[start:]`.

## Main results

* `List.mem_of_pyGet?_eq_some` — what an index finds is in the list.
* `List.length_sliceTo`, `List.length_sliceFrom` — the lengths of slices within the list.
* `List.eq_sliceTo_append_sliceFrom` — a short head and a short tail do not overlap.
-/

namespace List

variable {α : Type}

/-- The place a bound or an index stands for: a negative one counts from the end. -/
def pyOffset (xs : List α) (i : ℤ) : ℤ := if 0 ≤ i then i else xs.length + i

/-- `xs[i]`; `none` for an `IndexError`. -/
def pyGet? (xs : List α) (i : ℤ) : Option α :=
  if 0 ≤ xs.pyOffset i then xs[(xs.pyOffset i).toNat]? else none

/-- `xs[:stop]`. -/
def sliceTo (xs : List α) (stop : ℤ) : List α := xs.take (xs.pyOffset stop).toNat

/-- `xs[start:]`. -/
def sliceFrom (xs : List α) (start : ℤ) : List α := xs.drop (xs.pyOffset start).toNat

variable {xs : List α} {i : ℤ}

/-- What an index finds is in the list. -/
lemma mem_of_pyGet?_eq_some {x : α} (h : xs.pyGet? i = some x) : x ∈ xs := by
  unfold pyGet? at h
  split at h
  · exact List.mem_of_getElem? h
  · cases h

/-- An index that is not below minus one finds something in a list that it is not beyond. -/
lemma exists_pyGet?_eq_some (hne : xs ≠ []) (hlow : -1 ≤ i) (hhigh : i < xs.length) :
    ∃ x, xs.pyGet? i = some x := by
  have hpos : 0 < xs.length := List.length_pos_iff.mpr hne
  have hoffset : 0 ≤ xs.pyOffset i ∧ (xs.pyOffset i).toNat < xs.length := by
    unfold pyOffset
    split
    · omega
    · omega
  refine ⟨xs[(xs.pyOffset i).toNat], ?_⟩
  rw [pyGet?, if_pos hoffset.1]
  exact List.getElem?_eq_getElem hoffset.2

/-- So the last of a number of elements is found, where none of them stand for all. -/
lemma exists_pyGet?_min (hne : xs ≠ []) (n : ℕ) :
    ∃ x, xs.pyGet? (min (n : ℤ) xs.length - 1) = some x := by
  have hpos : 0 < xs.length := List.length_pos_iff.mpr hne
  exact exists_pyGet?_eq_some hne (by omega) (by omega)

/-- What an index finds stands at the place it stands for. -/
lemma pyGet?_eq_some_iff {x : α} :
    xs.pyGet? i = some x ↔ ∃ n : ℕ, (n : ℤ) = xs.pyOffset i ∧ xs[n]? = some x := by
  unfold pyGet?
  split
  · next h =>
    refine ⟨fun hx => ⟨_, Int.toNat_of_nonneg h, hx⟩, ?_⟩
    rintro ⟨n, hn, hx⟩
    rwa [← hn, Int.toNat_natCast]
  · next h =>
    simp only [reduceCtorEq, false_iff, not_exists, not_and]
    omega

/-- In a list that rises, the elements up to one of them are those that do not stand after it. -/
lemma filter_le_of_getElem? {xs : List ℕ} (h : xs.Pairwise (· < ·)) {n x : ℕ}
    (hx : xs[n]? = some x) : xs.filter (· ≤ x) = xs.take (n + 1) := by
  obtain ⟨hn, rfl⟩ := List.getElem?_eq_some_iff.mp hx
  rw [List.pairwise_iff_getElem] at h
  have hbefore : (xs.take (n + 1)).filter (· ≤ xs[n]) = xs.take (n + 1) := by
    refine List.filter_eq_self.mpr fun y hy => ?_
    obtain ⟨j, hj, rfl⟩ := List.getElem_of_mem hy
    rw [List.length_take] at hj
    rw [List.getElem_take]
    rcases Nat.lt_or_ge j n with hlt | hge
    · simpa using Nat.le_of_lt (h j n (by omega) hn hlt)
    · simp [show j = n by omega]
  have hafter : (xs.drop (n + 1)).filter (· ≤ xs[n]) = [] := by
    refine List.filter_eq_nil_iff.mpr fun y hy => ?_
    obtain ⟨j, hj, rfl⟩ := List.getElem_of_mem hy
    rw [List.length_drop] at hj
    rw [List.getElem_drop]
    simpa using h n (n + 1 + j) hn (by omega) (by omega)
  calc xs.filter (· ≤ xs[n]) = (xs.take (n + 1) ++ xs.drop (n + 1)).filter (· ≤ xs[n]) := by
        rw [List.take_append_drop]
    _ = xs.take (n + 1) := by rw [List.filter_append, hbefore, hafter, List.append_nil]

lemma length_sliceTo (h : 0 ≤ i) (hi : i ≤ xs.length) : (xs.sliceTo i).length = i.toNat := by
  rw [sliceTo, pyOffset, if_pos h, List.length_take]
  omega

/-- There is no negative zero: the slice from there is everything. -/
@[simp] lemma sliceFrom_zero (xs : List α) : xs.sliceFrom 0 = xs := rfl

lemma length_sliceFrom (h : i < 0) (hi : -i ≤ xs.length) :
    (xs.sliceFrom i).length = (-i).toNat := by
  rw [sliceFrom, pyOffset, if_neg (by omega), List.length_drop]
  omega

/-- A head of `head` elements and a tail of `tail` elements do not overlap in a list that has room
for both. -/
lemma eq_sliceTo_append_sliceFrom {head tail : ℤ} (hhead : 0 ≤ head) (htail : 0 < tail)
    (h : head + tail ≤ xs.length) :
    ∃ middle, xs = xs.sliceTo head ++ middle ++ xs.sliceFrom (-tail) := by
  have hto : xs.sliceTo head = xs.take head.toNat := by rw [sliceTo, pyOffset, if_pos hhead]
  have hfrom : xs.sliceFrom (-tail) = (xs.drop head.toNat).drop
      (xs.length - tail.toNat - head.toNat) := by
    rw [sliceFrom, pyOffset, if_neg (by omega), List.drop_drop]
    congr 1
    omega
  refine ⟨(xs.drop head.toNat).take (xs.length - tail.toNat - head.toNat), ?_⟩
  rw [hto, hfrom, List.append_assoc, List.take_append_drop, List.take_append_drop]

end List
