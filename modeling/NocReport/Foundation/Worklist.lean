import Mathlib.Data.List.Sort
import NocReport.Foundation.Dict

set_option relaxedAutoImplicit false
set_option autoImplicit false

/-!
# Taking the rows of a table one at a time

A loop that asks in each turn for the first row, in some order, that still meets a condition, and
changes that row.

## Main definitions

* `Worklist.queue` — the rows that meet a condition, in order.
* `Worklist.first` — the first of them.
* `Worklist.modify` — a table in which a row is changed.
* `Worklist.modifyAll` — a table in which some rows are changed.
* `Worklist.loop` — turns of a loop that can break off.
* `Worklist.Settles` — a loop each turn of which settles the first row of its queue.

## Main results

* `Worklist.lt_of_not_mem_take` — what is left of a queue comes after what is taken from it.
* `Worklist.queue_modify` — once the first row no longer meets the condition, the others are left.
* `Worklist.loop_add` — turns after turns.
* `Worklist.Settles.loop` — so many turns settle as many rows from the front of the queue.
-/

namespace Worklist

variable {κ ρ ι : Type} [LinearOrder ι]

section Queries

variable (key : ρ → ι) (p : κ → ρ → Bool) (rows : Dict κ ρ)

/-- `ORDER BY`; rows with the same key are as they are in the table. -/
def inOrder : Dict κ ρ := rows.insertionSort fun a b => key a.2 ≤ key b.2

/-- The rows that meet a condition, in order. -/
def queue : Dict κ ρ := (inOrder key rows).filter fun r => p r.1 r.2

/-- `SELECT … WHERE … ORDER BY … LIMIT 1` -/
def first : Option (κ × ρ) := (inOrder key rows).find? fun r => p r.1 r.2

lemma first_eq_head? : first key p rows = (queue key p rows).head? := List.head?_filter.symm

variable {key p rows}

lemma perm_inOrder : (inOrder key rows).Perm rows := List.perm_insertionSort _ _

lemma mem_queue {r : κ × ρ} : r ∈ queue key p rows ↔ r ∈ rows ∧ p r.1 r.2 = true := by
  rw [queue, List.mem_filter, perm_inOrder.mem_iff]

lemma queue_keys_nodup (h : (rows.map (·.1)).Nodup) : ((queue key p rows).map (·.1)).Nodup := by
  have horder : ((inOrder key rows).map (·.1)).Nodup := (perm_inOrder.map _).nodup_iff.mpr h
  exact horder.sublist (List.filter_sublist.map _)

lemma length_queue : (queue key p rows).length = (rows.filter fun r => p r.1 r.2).length :=
  (perm_inOrder.filter _).length_eq

/-- The queue is in order. -/
lemma pairwise_queue : (queue key p rows).Pairwise fun a b => key a.2 ≤ key b.2 := by
  have htotal : Std.Total fun a b : κ × ρ => key a.2 ≤ key b.2 := ⟨fun a b => le_total _ _⟩
  have htrans : IsTrans (κ × ρ) fun a b => key a.2 ≤ key b.2 := ⟨fun _ _ _ => le_trans⟩
  exact (List.pairwise_insertionSort _ rows).sublist List.filter_sublist

/-- The queue is strictly in order where no two of its rows have the same key. -/
lemma pairwise_lt_queue (h : ((rows.filter fun r => p r.1 r.2).map fun r => key r.2).Nodup) :
    (queue key p rows).Pairwise fun a b => key a.2 < key b.2 := by
  have hnodup : ((queue key p rows).map fun r => key r.2).Nodup :=
    ((perm_inOrder.filter _).map _).nodup_iff.mpr h
  rw [List.Nodup, List.pairwise_map] at hnodup
  exact (pairwise_queue.and hnodup).imp fun hab => lt_of_le_of_ne hab.1 hab.2

/-- What is left of a queue comes after what is taken from it. -/
lemma lt_of_not_mem_take (h : (queue key p rows).Pairwise fun a b => key a.2 < key b.2) {n : ℕ}
    {r : κ × ρ} (hr : r ∈ queue key p rows) (hleft : r ∉ (queue key p rows).take n) :
    ∀ r' ∈ (queue key p rows).take n, key r'.2 < key r.2 := by
  rw [← List.take_append_drop n (queue key p rows)] at h hr
  have hdrop : r ∈ (queue key p rows).drop n := (List.mem_append.mp hr).resolve_left hleft
  exact fun r' hr' => (List.pairwise_append.mp h).2.2 r' hr' r hdrop

end Queries

variable [DecidableEq κ]

/-- The table with another value in the row with some key. -/
def modify (k : κ) (f : ρ → ρ) (rows : Dict κ ρ) : Dict κ ρ :=
  rows.map fun r => if r.1 = k then (r.1, f r.2) else r

lemma keys_modify (k : κ) (f : ρ → ρ) (rows : Dict κ ρ) :
    (modify k f rows).map (·.1) = rows.map (·.1) := by
  rw [modify, List.map_map]
  refine List.map_congr_left fun r _ => ?_
  simp only [Function.comp_apply]
  split_ifs <;> rfl

variable {key : ρ → ι} {p p' : κ → ρ → Bool} {rows rest : Dict κ ρ} {k : κ} {row : ρ} {f : ρ → ρ}

/-- The order of the rows when one of them is changed in what the order does not look at. -/
lemma inOrder_modify (hkey : ∀ r, key (f r) = key r) :
    inOrder key (modify k f rows) = modify k f (inOrder key rows) := by
  refine (List.map_insertionSort _ _ _ rows fun a _ b _ => ?_).symm
  split_ifs <;> simp only [hkey]

/-- **Once the first row no longer meets the condition, the others are left.** The row may be changed
and the condition may be narrowed, for this row only. -/
lemma queue_modify (hnodup : (rows.map (·.1)).Nodup) (hkey : ∀ r, key (f r) = key r)
    (hqueue : queue key p rows = (k, row) :: rest)
    (hothers : ∀ i r, i ≠ k → p' i r = p i r) (hdone : p' k (f row) = false) :
    queue key p' (modify k f rows) = rest := by
  have hkeys : ((queue key p rows).map (·.1)).Nodup := queue_keys_nodup hnodup
  rw [hqueue, List.map_cons, List.nodup_cons] at hkeys
  have hne : ∀ r ∈ rest, r.1 ≠ k := by
    intro r hr heq
    have hmem := List.mem_map_of_mem (f := fun r => r.1) hr
    rw [heq] at hmem
    exact hkeys.1 hmem
  have hrow : ∀ r ∈ inOrder key rows, r.1 = k → r = (k, row) := by
    intro r hr hk
    have hmem : (k, row) ∈ rows := (mem_queue.mp (hqueue ▸ List.mem_cons_self)).1
    exact List.inj_on_of_nodup_map hnodup (perm_inOrder.mem_iff.mp hr) hmem hk
  -- what is left of the rows in order are those of the queue with another key
  have hfilter : ∀ r ∈ inOrder key rows,
      p' (if r.1 = k then (r.1, f r.2) else r).1 (if r.1 = k then (r.1, f r.2) else r).2 =
        (p r.1 r.2 && decide (r.1 ≠ k)) := by
    intro r hr
    by_cases hk : r.1 = k
    · rw [hrow r hr hk]
      simp [hdone]
    · simp [hk, hothers _ _ hk]
  have hrest : rest.filter (fun r => decide (r.1 ≠ k)) = rest :=
    List.filter_eq_self.mpr fun r hr => decide_eq_true (hne r hr)
  have hleft : (inOrder key rows).filter (fun r => p r.1 r.2 && decide (r.1 ≠ k)) = rest := by
    rw [← List.filter_filter, List.filter_comm, ← queue, hqueue,
      List.filter_cons_of_neg (by simp), hrest]
  rw [queue, inOrder_modify hkey, modify, List.filter_map]
  simp only [Function.comp_def]
  rw [List.filter_congr hfilter, hleft]
  refine (List.map_congr_left fun r hr => ?_).trans (List.map_id _)
  rw [if_neg (hne r hr)]
  rfl

/-! ## Several rows -/

section Several

variable (g : κ → ρ → ρ)

/-- The table with other values in the rows of a batch. -/
def modifyAll (batch rows : Dict κ ρ) : Dict κ ρ :=
  rows.map fun r => if r.1 ∈ batch.map (·.1) then (r.1, g r.1 r.2) else r

variable {g}

@[simp] lemma modifyAll_nil (rows : Dict κ ρ) : modifyAll g [] rows = rows := List.map_id' rows

lemma keys_modifyAll (batch rows : Dict κ ρ) :
    (modifyAll g batch rows).map (·.1) = rows.map (·.1) := by
  rw [modifyAll, List.map_map]
  refine List.map_congr_left fun r _ => ?_
  simp only [Function.comp_apply]
  split_ifs <;> rfl

/-- One row is changed before the others. -/
lemma modifyAll_cons {r : κ × ρ} {batch : Dict κ ρ} (h : r.1 ∉ batch.map (·.1)) :
    modifyAll g (r :: batch) rows = modifyAll g batch (modifyAll g [r] rows) := by
  simp only [modifyAll, List.map_map]
  refine List.map_congr_left fun other _ => ?_
  simp only [Function.comp_apply, List.map_cons, List.map_nil, List.mem_cons, List.not_mem_nil,
    or_false]
  by_cases hr : other.1 = r.1
  · simp [hr, h]
  · simp only [hr, false_or, if_false]

/-- What an update writes to the row that is claimed. -/
lemma modify_eq_modifyAll (hnodup : (rows.map (·.1)).Nodup) (hmem : (k, row) ∈ rows)
    (hf : f row = g k row) : modify k f rows = modifyAll g [(k, row)] rows := by
  refine List.map_congr_left fun r hr => ?_
  by_cases hk : r.1 = k
  · obtain rfl : r = (k, row) := List.inj_on_of_nodup_map hnodup hr hmem hk
    simp [hf]
  · simp [hk]

/-- An update that writes what is there already. -/
lemma modify_id (k : κ) (rows : Dict κ ρ) : modify k (fun row => row) rows = rows := by
  refine (List.map_congr_left fun r _ => ?_).trans (List.map_id _)
  split_ifs <;> rfl

end Several

/-! ## Turns -/

section Turns

variable {σ : Type} {turn : σ → Option σ}

/-- `for _ in range(turns)`, broken off where `turn` returns nothing. -/
def loop (turn : σ → Option σ) : ℕ → σ → σ
  | 0, s => s
  | turns + 1, s =>
    match turn s with
    | none => s
    | some s' => loop turn turns s'

@[simp] lemma loop_zero (s : σ) : loop turn 0 s = s := rfl

/-- The loop has been broken off. -/
lemma loop_of_none {s : σ} (h : turn s = none) (turns : ℕ) : loop turn turns s = s := by
  cases turns with
  | zero => rfl
  | succ turns => rw [loop, h]

lemma loop_succ {s s' : σ} (h : turn s = some s') (turns : ℕ) :
    loop turn (turns + 1) s = loop turn turns s' := by
  rw [loop, h]

/-- Turns after turns. -/
lemma loop_add (m n : ℕ) (s : σ) : loop turn (m + n) s = loop turn n (loop turn m s) := by
  induction m generalizing s with
  | zero => rw [Nat.zero_add, loop_zero]
  | succ m ih =>
    cases h : turn s with
    | none => rw [loop_of_none h, loop_of_none h, loop_of_none h]
    | some s' => rw [Nat.add_right_comm, loop_succ h, loop_succ h, ih]

/-- A loop each turn of which settles the first row of its queue, if that row is good: it changes the
row, notes that it has attempted it, and counts it or does not. -/
structure Settles (turn : σ → Option σ) (rows queue : σ → Dict κ ρ) (attempted : σ → List κ)
    (completed : σ → ℕ) (g : κ → ρ → ρ) (counts : κ × ρ → Bool) (good : κ × ρ → Prop) : Prop where
  nodup : ∀ s, ((rows s).map (·.1)).Nodup → ((queue s).map (·.1)).Nodup
  stop : ∀ s, queue s = [] → turn s = none
  settle : ∀ s r rest, ((rows s).map (·.1)).Nodup → queue s = r :: rest → good r →
    ∃ s', turn s = some s' ∧ rows s' = modifyAll g [r] (rows s) ∧ queue s' = rest ∧
      attempted s' = attempted s ++ [r.1] ∧ completed s' = completed s + [r].countP counts

/-- **So many turns settle as many rows from the front of the queue**, where these are good. -/
theorem Settles.loop {rows queue : σ → Dict κ ρ} {attempted : σ → List κ} {completed : σ → ℕ}
    {g : κ → ρ → ρ} {counts : κ × ρ → Bool} {good : κ × ρ → Prop}
    (h : Settles turn rows queue attempted completed g counts good) (turns : ℕ) {s : σ}
    (hnodup : ((rows s).map (·.1)).Nodup) (hgood : ∀ r ∈ (queue s).take turns, good r) :
    rows (loop turn turns s) = modifyAll g ((queue s).take turns) (rows s) ∧
      queue (loop turn turns s) = (queue s).drop turns ∧
      attempted (loop turn turns s) = attempted s ++ ((queue s).take turns).map (·.1) ∧
      completed (loop turn turns s) = completed s + ((queue s).take turns).countP counts := by
  induction turns generalizing s with
  | zero => simp
  | succ turns ih =>
    cases hqueue : queue s with
    | nil =>
      rw [loop_of_none (h.stop s hqueue), hqueue]
      simp
    | cons r rest =>
      rw [hqueue, List.take_succ_cons, List.forall_mem_cons] at hgood
      obtain ⟨s', hturn, hrows, hrest, hattempted, hcompleted⟩ :=
        h.settle s r rest hnodup hqueue hgood.1
      have hkeys := h.nodup s hnodup
      rw [hqueue, List.map_cons, List.nodup_cons] at hkeys
      have hnotin : r.1 ∉ (rest.take turns).map (·.1) := fun hmem =>
        hkeys.1 (((List.take_sublist turns rest).map _).mem hmem)
      have hnodup' : ((rows s').map (·.1)).Nodup := by
        rw [hrows, keys_modifyAll]
        exact hnodup
      obtain ⟨ihrows, ihqueue, ihattempted, ihcompleted⟩ := ih hnodup' (hrest ▸ hgood.2)
      rw [hrest] at ihrows ihqueue ihattempted ihcompleted
      rw [loop_succ hturn, List.take_succ_cons, List.drop_succ_cons, modifyAll_cons hnotin]
      refine ⟨?_, ihqueue, ?_, ?_⟩
      · rw [ihrows, hrows]
      · rw [ihattempted, hattempted, List.append_assoc, List.map_cons, List.singleton_append]
      · have hcount : (r :: rest.take turns).countP counts =
            [r].countP counts + (rest.take turns).countP counts := by
          rw [← List.countP_append, List.singleton_append]
        rw [ihcompleted, hcompleted, hcount, Nat.add_assoc]

end Turns

end Worklist
