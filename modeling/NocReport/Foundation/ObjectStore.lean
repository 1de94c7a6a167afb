import Mathlib.Data.List.Basic
import Mathlib.Data.Nat.Notation
import Mathlib.Logic.Function.Basic
import Mathlib.Tactic.Simps.Basic

set_option relaxedAutoImplicit false
set_option autoImplicit false

/-!
# Versioned object storage

A bucket with versioning: to store an object under a name adds a version, the newest version is what
the name stands for, and a version is deleted by its id. A deletion without an id adds a delete
marker, which hides the versions below it.

## Main definitions

* `ObjectStore.Store` — the versions of each name; no id is given to two versions.
* `Store.put`, `Store.head?`, `Store.get?`, `Store.delete` — the operations.

## Main results

* `Store.get?_put`, `Store.get?_delete` — what is read after a version is added or deleted.
* `Store.get?_put_of_issued` — an id that was given once is never given again.
-/

namespace ObjectStore

/-- A version of an object, or a delete marker. -/
structure Version (Body : Type) where
  id : ℕ
  body : Option Body
  deriving DecidableEq, Repr

/-- A versioned bucket. -/
structure Store (Name Body : Type) where
  /-- the versions of a name, newest first -/
  versions : Name → List (Version Body)
  /-- the id of the next version -/
  next : ℕ
  issued : ∀ n, ∀ v ∈ versions n, v.id < next

namespace Store

variable {Name Body : Type}

/-- The empty bucket. -/
@[simps]
def empty : Store Name Body where
  versions _ := []
  next := 0
  issued := by simp

variable (S : Store Name Body) (n m : Name) (i j : ℕ)

/-- `head_object`: the newest version of a name, unless it is a delete marker. -/
def head? : Option (ℕ × Body) := (S.versions n).head?.bind fun v => v.body.map fun b => (v.id, b)

/-- `get_object` of a version. -/
def get? : Option Body := ((S.versions n).find? fun v => v.id = i).bind (·.body)

/-- `list_object_versions`: the ids of the versions and delete markers of a name. -/
def list : List ℕ := (S.versions n).map (·.id)

variable [DecidableEq Name]

/-- Add a version, or a delete marker. -/
@[simps]
def add (b : Option Body) : Store Name Body where
  versions := Function.update S.versions n (⟨S.next, b⟩ :: S.versions n)
  next := S.next + 1
  issued := by
    intro m v hv
    by_cases hm : m = n
    · subst hm
      rw [Function.update_self] at hv
      rcases List.mem_cons.mp hv with rfl | hv
      · exact Nat.lt_succ_self _
      · exact Nat.lt_succ_of_lt (S.issued m v hv)
    · rw [Function.update_of_ne hm] at hv
      exact Nat.lt_succ_of_lt (S.issued m v hv)

/-- `put_object`. -/
def put (b : Body) : Store Name Body := S.add n (some b)

/-- Delete a version for good. -/
@[simps]
def erase : Store Name Body where
  versions := Function.update S.versions n ((S.versions n).filter fun v => v.id ≠ i)
  next := S.next
  issued := by
    intro m v hv
    by_cases hm : m = n
    · subst hm
      rw [Function.update_self] at hv
      exact S.issued m v (List.mem_of_mem_filter hv)
    · rw [Function.update_of_ne hm] at hv
      exact S.issued m v hv

/-- `delete_object`, of a version when its id is given. -/
def delete : Option ℕ → Store Name Body
  | some i => S.erase n i
  | none => S.add n none

variable {S n m i j}

omit [DecidableEq Name] in
/-- The newest version is stored under its id. -/
lemma get?_of_head? {b : Body} (h : S.head? n = some (i, b)) : S.get? n i = some b := by
  obtain ⟨v, hv, hb⟩ := Option.bind_eq_some_iff.mp h
  obtain ⟨b', hb', heq⟩ := Option.map_eq_some_iff.mp hb
  cases heq
  obtain ⟨tl, htl⟩ := List.head?_eq_some_iff.mp hv
  simp [get?, htl, hb']

omit [DecidableEq Name] in
/-- What is stored under an id was stored there when the id was given. -/
lemma lt_next_of_get? {b : Body} (h : S.get? n i = some b) : i < S.next := by
  obtain ⟨v, hv, -⟩ := Option.bind_eq_some_iff.mp h
  have hid : v.id = i := by simpa using List.find?_some hv
  exact hid ▸ S.issued n v (List.mem_of_find?_eq_some hv)

/-- What is read after a version or a delete marker is added. -/
lemma get?_add (b : Option Body) :
    (S.add n b).get? m i = if m = n ∧ i = S.next then b else S.get? m i := by
  by_cases hm : m = n
  · subst hm
    by_cases hi : i = S.next
    · simp [get?, hi]
    · simp [get?, hi, Ne.symm hi]
  · simp [get?, hm]

/-- What is read after an object is stored. -/
lemma get?_put (b : Body) :
    (S.put n b).get? m i = if m = n ∧ i = S.next then some b else S.get? m i :=
  get?_add (some b)

/-- An id that was given once is never given again. -/
lemma get?_put_of_issued (b : Body) (hi : i < S.next) : (S.put n b).get? m i = S.get? m i := by
  rw [get?_put, if_neg]
  rintro ⟨-, rfl⟩
  omega

/-- What is read after a version is deleted. -/
lemma get?_erase : (S.erase n i).get? m j = if m = n ∧ j = i then none else S.get? m j := by
  by_cases hm : m = n
  · subst hm
    simp only [get?, erase_versions, Function.update_self, List.find?_filter, true_and]
    by_cases hj : j = i
    · subst hj
      rw [if_pos rfl, List.find?_eq_none.mpr]
      · rfl
      · intro v _
        simp
    · rw [if_neg hj]
      congr 2
      funext v
      by_cases hv : v.id = j
      · simp [hv, hj]
      · simp [hv]
  · simp [get?, hm]

/-- What is read after a deletion: only the version that it names is gone. -/
lemma get?_delete (v : Option ℕ) (hj : j < S.next) :
    (S.delete n v).get? m j = if m = n ∧ v = some j then none else S.get? m j := by
  cases v with
  | some i =>
    rw [delete, get?_erase]
    simp only [Option.some.injEq, eq_comm]
  | none =>
    rw [delete, get?_add, if_neg, if_neg]
    · simp
    · rintro ⟨-, rfl⟩
      omega

end Store

end ObjectStore
