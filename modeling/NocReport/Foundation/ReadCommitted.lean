import Mathlib.Tactic.Simps.Basic
import NocReport.Foundation.Dict

set_option relaxedAutoImplicit false
set_option autoImplicit false

/-!
# Tables under READ COMMITTED

A table of a database whose transactions run at READ COMMITTED: the committed rows, the rows that
transactions in progress have written, and the row locks they hold until they end. A statement
reads what is committed when it runs and what its own transaction has written; a statement that
locks or writes a row waits until no other transaction holds a conflicting lock, and then sees the
row as it is at that time.

## Main definitions

* `ReadCommitted.LockMode` — how strong a row lock is, and which locks conflict.
* `ReadCommitted.Table` — a table; every row written is locked, and no two locks conflict.
* `Table.lock?`, `Table.update?`, `Table.insert?`, `Table.delete?` — the statements that lock.
* `Table.admits` — a unique index lets a row in.
* `Table.select` — a read by a predicate.
* `Table.lockAll?`, `Table.deleteWhere?` — statements about several rows.
* `Table.commit`, `Table.rollback` — the end of a transaction.
* `Table.Holds` — a transaction has locked a row against writes.
* `Table.MovedBy` — what the statements of one transaction leave to the others.

## Main results

* `Table.get?_commit` — what is committed after a commit.
* `Table.Holds.unique` — at most one transaction has locked a row against writes.
* `Table.Holds.get?_commit` — the commit of another transaction leaves a locked row alone.
-/

namespace ReadCommitted

/-- The strength of a row lock. -/
inductive LockMode
  /-- what a row that refers to this one by a foreign key takes when it is inserted -/
  | keyShare
  /-- an `UPDATE` that leaves the key alone -/
  | noKeyUpdate
  /-- `SELECT … FOR UPDATE`, `INSERT` and `DELETE` -/
  | update
  deriving DecidableEq, Repr

/-- Two transactions cannot hold these locks on one row. -/
def LockMode.conflicts : LockMode → LockMode → Bool
  | keyShare, update | update, keyShare => true
  | keyShare, _ | _, keyShare => false
  | _, _ => true

lemma LockMode.conflicts_comm (m n : LockMode) : m.conflicts n = n.conflicts m := by
  cases m <;> cases n <;> rfl

/-- The locks that a row is written under conflict with each other. -/
lemma LockMode.conflicts_of_ne {m n : LockMode} (hm : m ≠ keyShare) (hn : n ≠ keyShare) :
    m.conflicts n = true := by
  cases m <;> cases n <;> simp_all [conflicts]

/-- A row lock. -/
structure Lock (Tx Key : Type) where
  tx : Tx
  key : Key
  mode : LockMode
  deriving DecidableEq, Repr

/-- A row version that a transaction has written; no row is a deletion. -/
structure Write (Tx Key Row : Type) where
  tx : Tx
  key : Key
  row : Option Row
  deriving DecidableEq, Repr

/-- A table. -/
structure Table (Tx Key Row : Type) where
  committed : Dict Key Row
  /-- what the transactions in progress have written, newest first -/
  written : List (Write Tx Key Row)
  locks : List (Lock Tx Key)
  exclusive : ∀ l ∈ locks, ∀ l' ∈ locks, l.key = l'.key → l.tx ≠ l'.tx →
    l.mode.conflicts l'.mode = false
  locked : ∀ w ∈ written, ∃ l ∈ locks, l.tx = w.tx ∧ l.key = w.key ∧ l.mode ≠ .keyShare

namespace Table

variable {Tx Key Row : Type}

/-! ## Locks -/

section Locks

variable (T : Table Tx Key Row) (t u : Tx) (k i : Key) (m : LockMode)

/-- A lock on row `k` is granted to transaction `t` at once. -/
def Grants : Prop := ∀ l ∈ T.locks, l.key = k → l.tx ≠ t → m.conflicts l.mode = false

instance [DecidableEq Tx] [DecidableEq Key] : Decidable (T.Grants t k m) :=
  inferInstanceAs (Decidable (∀ l ∈ T.locks, _))

/-- Transaction `t` has locked row `k` against writes. -/
def Holds : Prop := ∃ l ∈ T.locks, l.tx = t ∧ l.key = k ∧ l.mode ≠ .keyShare

/-- Take a lock that is granted. -/
@[simps]
def lock (h : T.Grants t k m) : Table Tx Key Row where
  committed := T.committed
  written := T.written
  locks := ⟨t, k, m⟩ :: T.locks
  exclusive := by
    intro l hl l' hl' hkey hne
    rcases List.mem_cons.mp hl with rfl | hl
    · rcases List.mem_cons.mp hl' with rfl | hl'
      · exact absurd rfl hne
      · exact h l' hl' hkey.symm (Ne.symm hne)
    · rcases List.mem_cons.mp hl' with rfl | hl'
      · rw [LockMode.conflicts_comm]
        exact h l hl hkey hne
      · exact T.exclusive l hl l' hl' hkey hne
  locked := by
    intro w hw
    obtain ⟨l, hl, hrest⟩ := T.locked w hw
    exact ⟨l, List.mem_cons_of_mem _ hl, hrest⟩

/-- Write a row under a lock that is granted. -/
@[simps]
def write (row : Option Row) (h : T.Grants t k m) (hm : m ≠ .keyShare) : Table Tx Key Row where
  committed := T.committed
  written := ⟨t, k, row⟩ :: T.written
  locks := ⟨t, k, m⟩ :: T.locks
  exclusive := (T.lock t k m h).exclusive
  locked := by
    intro w hw
    rcases List.mem_cons.mp hw with rfl | hw
    · exact ⟨⟨t, k, m⟩, List.mem_cons_self, rfl, rfl, hm⟩
    · exact (T.lock t k m h).locked w hw

/-- A table with these rows, and no transaction in progress. -/
@[simps]
def ofRows (rows : Dict Key Row) : Table Tx Key Row where
  committed := rows
  written := []
  locks := []
  exclusive := by simp
  locked := by simp

/-- The table with the writes and locks of some transactions only. -/
@[simps]
def keep (rows : Dict Key Row) (p : Tx → Bool) : Table Tx Key Row where
  committed := rows
  written := T.written.filter fun w => p w.tx
  locks := T.locks.filter fun l => p l.tx
  exclusive := by
    intro l hl l' hl'
    exact T.exclusive l (List.mem_of_mem_filter hl) l' (List.mem_of_mem_filter hl')
  locked := by
    intro w hw
    obtain ⟨hw, hp⟩ := List.mem_filter.mp hw
    obtain ⟨l, hl, htx, hkey, hmode⟩ := T.locked w hw
    exact ⟨l, List.mem_filter.mpr ⟨hl, by rwa [htx]⟩, htx, hkey, hmode⟩

variable {T t u k i m}

/-- At most one transaction has locked a row against writes. -/
lemma Holds.unique (ht : T.Holds t k) (hu : T.Holds u k) : t = u := by
  obtain ⟨l, hl, rfl, rfl, hmode⟩ := ht
  obtain ⟨l', hl', rfl, hkey, hmode'⟩ := hu
  by_contra hne
  have hfree := T.exclusive l hl l' hl' hkey.symm hne
  rw [LockMode.conflicts_of_ne hmode hmode'] at hfree
  cases hfree

/-- A lock against writes is granted only where no other transaction has one. -/
lemma Grants.unique (h : T.Grants t k m) (hm : m ≠ .keyShare) (hu : T.Holds u k) : u = t := by
  obtain ⟨l, hl, rfl, rfl, hmode⟩ := hu
  by_contra hne
  have hfree := h l hl rfl hne
  rw [LockMode.conflicts_of_ne hm hmode] at hfree
  cases hfree

/-- A row that a transaction has written is locked by it. -/
lemma holds_of_mem_written {w : Write Tx Key Row} (h : w ∈ T.written) : T.Holds w.tx w.key := by
  obtain ⟨l, hl, htx, hkey, hmode⟩ := T.locked w h
  exact ⟨l, hl, htx, hkey, hmode⟩

lemma not_holds_ofRows {rows : Dict Key Row} :
    ¬ (ofRows rows : Table Tx Key Row).Holds t k := by
  simp [Holds]

lemma holds_lock {h : T.Grants t k m} :
    (T.lock t k m h).Holds u i ↔ (t = u ∧ k = i ∧ m ≠ .keyShare) ∨ T.Holds u i := by
  simp [Holds]

lemma holds_write {row : Option Row} {h : T.Grants t k m} {hm : m ≠ .keyShare} :
    (T.write t k m row h hm).Holds u i ↔ (t = u ∧ k = i) ∨ T.Holds u i := by
  simp [Holds, hm]

/-- A write gives no lock up. -/
lemma Holds.write {row : Option Row} (hi : T.Holds u i) (h : T.Grants t k m) (hm : m ≠ .keyShare) :
    (T.write t k m row h hm).Holds u i :=
  holds_write.mpr (.inr hi)

/-- A write holds the row that it writes. -/
lemma holds_write_self {row : Option Row} (h : T.Grants t k m) (hm : m ≠ .keyShare) :
    (T.write t k m row h hm).Holds t k :=
  holds_write.mpr (.inl ⟨rfl, rfl⟩)

lemma holds_lock_self (h : T.Grants t k m) (hm : m ≠ .keyShare) : (T.lock t k m h).Holds t k :=
  holds_lock.mpr (.inl ⟨rfl, rfl, hm⟩)

lemma holds_keep {rows : Dict Key Row} {p : Tx → Bool} :
    (T.keep rows p).Holds u i ↔ p u = true ∧ T.Holds u i := by
  simp only [Holds, keep_locks, List.mem_filter]
  constructor
  · rintro ⟨l, ⟨hl, hp⟩, rfl, hrest⟩
    exact ⟨hp, l, hl, rfl, hrest⟩
  · rintro ⟨hp, l, hl, rfl, hrest⟩
    exact ⟨l, ⟨hl, hp⟩, rfl, hrest⟩

variable (T) in
/-- Other rows are committed, by transactions that are not followed. -/
def withRows (rows : Dict Key Row) : Table Tx Key Row := T.keep rows fun _ => true

@[simp] lemma committed_withRows {rows : Dict Key Row} : (T.withRows rows).committed = rows := rfl

lemma holds_withRows {rows : Dict Key Row} : (T.withRows rows).Holds u i ↔ T.Holds u i := by
  rw [withRows, holds_keep]
  exact and_iff_right rfl

section Rollback

variable [DecidableEq Tx]

variable (T t) in
/-- `ROLLBACK`, or the loss of the connection. -/
def rollback : Table Tx Key Row := T.keep T.committed fun u => u ≠ t

@[simp] lemma committed_rollback : (T.rollback t).committed = T.committed := rfl

lemma holds_rollback : (T.rollback t).Holds u i ↔ u ≠ t ∧ T.Holds u i := by
  rw [rollback, holds_keep, decide_eq_true_iff]

end Rollback

end Locks

/-! ## What a transaction has written -/

/-- The rows after some writes, the newest of which comes first. -/
def applyWrites [DecidableEq Key] (rows : Dict Key Row) :
    List (Write Tx Key Row) → Dict Key Row
  | [] => rows
  | w :: ws =>
    match w.row with
    | some row => (applyWrites rows ws).set w.key row
    | none => (applyWrites rows ws).erase w.key

/-- What is left of a row after some writes is the newest of them. -/
lemma get?_applyWrites [DecidableEq Key] {k : Key} (rows : Dict Key Row)
    (ws : List (Write Tx Key Row)) :
    Dict.get? (applyWrites rows ws) k =
      ((ws.find? fun w => w.key = k).map (·.row)).getD (Dict.get? rows k) := by
  induction ws with
  | nil => rfl
  | cons w ws ih =>
    obtain ⟨v, key, row⟩ := w
    by_cases hk : key = k
    · subst hk
      cases row with
      | some row => simp [applyWrites]
      | none => simp [applyWrites, Dict.get?_erase]
    · cases row with
      | some row => simp [applyWrites, hk, ih, Dict.get?_set_of_ne _ _ (Ne.symm hk)]
      | none => simp [applyWrites, hk, ih, Dict.get?_erase, Ne.symm hk]

section Statements

variable [DecidableEq Tx] [DecidableEq Key] (T : Table Tx Key Row) (t u : Tx) (k i : Key)
  (m : LockMode)

/-- What transaction `t` has written to row `k`; the inner `none` is a deletion. -/
def pending : Option (Option Row) :=
  (T.written.find? fun w => w.tx = t ∧ w.key = k).map (·.row)

/-- Row `k` as a statement of transaction `t` reads it. -/
def read : Option Row := (T.pending t k).getD (Dict.get? T.committed k)

variable {T t u k i m}

lemma holds_of_pending {r : Option Row} (h : T.pending t k = some r) : T.Holds t k := by
  obtain ⟨w, hw, -⟩ := Option.map_eq_some_iff.mp h
  have hfound := List.find?_some hw
  simp only [decide_eq_true_eq] at hfound
  rw [← hfound.1, ← hfound.2]
  exact holds_of_mem_written (List.mem_of_find?_eq_some hw)

/-- No other transaction has written a row that a transaction has locked. -/
lemma Holds.pending_eq_none (h : T.Holds t k) (hne : u ≠ t) : T.pending u k = none := by
  cases hp : T.pending u k with
  | none => rfl
  | some r => exact absurd ((holds_of_pending hp).unique h) hne

@[simp] lemma pending_ofRows (rows : Dict Key Row) :
    (ofRows rows : Table Tx Key Row).pending t k = none := rfl

@[simp] lemma pending_lock (h : T.Grants t k m) : (T.lock t k m h).pending u i = T.pending u i :=
  rfl

/-- A write is what its transaction has last written to the row. -/
@[simp] lemma pending_write {row : Option Row} {h : T.Grants t k m} {hm : m ≠ .keyShare} :
    (T.write t k m row h hm).pending u i = if t = u ∧ k = i then some row else T.pending u i := by
  by_cases hui : t = u ∧ k = i
  · simp [pending, hui]
  · simp [pending, hui]

lemma pending_keep {rows : Dict Key Row} {p : Tx → Bool} :
    (T.keep rows p).pending u i = if p u then T.pending u i else none := by
  simp only [pending, keep_written, List.find?_filter]
  by_cases hp : p u = true
  · rw [if_pos hp]
    congr 2
    funext w
    by_cases hw : w.tx = u
    · simp [hw, hp]
    · simp [hw]
  · rw [if_neg hp, List.find?_eq_none.mpr]
    · rfl
    · intro w _ hw
      simp only [decide_eq_true_eq] at hw
      exact hp (hw.2.1 ▸ hw.1)

/-! ## Statements -/

variable (T) in
/-- `SELECT` of the keys whose rows satisfy `p`, by a transaction that has written none of them. -/
def select (p : Key → Row → Bool) : List Key :=
  (Dict.keys T.committed).filter fun k => (Dict.get? T.committed k).any (p k)

omit [DecidableEq Tx] in
lemma mem_select {p : Key → Row → Bool} :
    k ∈ T.select p ↔ ∃ row, Dict.get? T.committed k = some row ∧ p k row = true := by
  rw [select, List.mem_filter, Option.any_eq_true]
  constructor
  · exact fun h => h.2
  · rintro ⟨row, hrow, hp⟩
    refine ⟨?_, row, hrow, hp⟩
    by_contra hk
    rw [(Dict.get?_eq_none_iff _ _).mpr hk] at hrow
    cases hrow

variable (T t k m)

/-- `SELECT … FOR UPDATE`, or the check of a foreign key, once the lock is granted. -/
def lock? : Option (Table Tx Key Row) :=
  if h : T.Grants t k m then some (T.lock t k m h) else none

/-- A write, once its lock is granted. -/
def write? (row : Option Row) : Option (Table Tx Key Row) :=
  if h : T.Grants t k m ∧ m ≠ .keyShare then some (T.write t k m row h.1 h.2) else none

/-- `UPDATE … WHERE` the key is `k`, of a row that is there. -/
def update? (f : Row → Row) : Option (Table Tx Key Row) :=
  (T.read t k).bind fun row => T.write? t k .noKeyUpdate (some (f row))

/-- `INSERT` of a row whose key is not taken. -/
def insert? (row : Row) : Option (Table Tx Key Row) :=
  if T.read t k = none then T.write? t k .update (some row) else none

/-- `DELETE` of a row that is there. -/
def delete? : Option (Table Tx Key Row) :=
  (T.read t k).bind fun _ => T.write? t k .update none

variable {T t k m} {T' : Table Tx Key Row}

lemma lock?_eq_some : T.lock? t k m = some T' ↔ ∃ h, T.lock t k m h = T' := by
  simp [lock?, Option.dite_none_right_eq_some]

lemma write?_eq_some {row : Option Row} :
    T.write? t k m row = some T' ↔ ∃ h hm, T.write t k m row h hm = T' := by
  unfold write?
  split
  · next h => simp [h.1, h.2]
  · next h =>
    simp only [reduceCtorEq, false_iff]
    rintro ⟨hg, hm, -⟩
    exact h ⟨hg, hm⟩

lemma update?_eq_some {f : Row → Row} :
    T.update? t k f = some T' ↔ ∃ row, T.read t k = some row ∧
      ∃ h hm, T.write t k .noKeyUpdate (some (f row)) h hm = T' := by
  simp only [update?, Option.bind_eq_some_iff, write?_eq_some]

lemma insert?_eq_some {row : Row} :
    T.insert? t k row = some T' ↔ T.read t k = none ∧
      ∃ h hm, T.write t k .update (some row) h hm = T' := by
  unfold insert?
  split
  · next h => simp [write?_eq_some, h]
  · next h => simp [h]

lemma delete?_eq_some :
    T.delete? t k = some T' ↔ ∃ row, T.read t k = some row ∧
      ∃ h hm, T.write t k .update none h hm = T' := by
  simp only [delete?, Option.bind_eq_some_iff, write?_eq_some]

/-- A statement commits nothing. -/
lemma committed_lock? (h : T.lock? t k m = some T') : T'.committed = T.committed := by
  obtain ⟨hg, rfl⟩ := lock?_eq_some.mp h
  rfl

lemma committed_update? {f : Row → Row} (h : T.update? t k f = some T') :
    T'.committed = T.committed := by
  obtain ⟨row, -, hg, hm, rfl⟩ := update?_eq_some.mp h
  rfl

lemma committed_insert? {row : Row} (h : T.insert? t k row = some T') :
    T'.committed = T.committed := by
  obtain ⟨-, hg, hm, rfl⟩ := insert?_eq_some.mp h
  rfl

lemma committed_delete? (h : T.delete? t k = some T') : T'.committed = T.committed := by
  obtain ⟨row, -, hg, hm, rfl⟩ := delete?_eq_some.mp h
  rfl

/-! ## Unique indexes -/

section Unique

variable (T t) (p : Row → Bool)

/-- A unique index lets transaction `t` insert a row: no row that it sees satisfies `p`, and none
that another transaction has written. -/
def admits : Bool :=
  (T.committed.all fun e => (T.read t e.1).all fun row => !p row) &&
    T.written.all fun w =>
      if w.tx = t then (T.read t w.key).all fun row => !p row else w.row.all fun row => !p row

variable {T t p}

/-- What a unique index has checked. -/
lemma admits_spec (h : T.admits t p = true) :
    (∀ k row, T.read t k = some row → p row = false) ∧
      ∀ u ≠ t, ∀ k row, T.pending u k = some (some row) → p row = false := by
  obtain ⟨hcommitted, hwritten⟩ := Bool.and_eq_true_iff.mp h
  rw [List.all_eq_true] at hcommitted hwritten
  constructor
  · intro k row hrow
    cases hp : T.pending t k with
    | none =>
      have hk : Dict.get? T.committed k = some row := by
        rwa [read, hp] at hrow
      simpa [hrow] using hcommitted _ (Dict.mem_of_get?_eq_some hk)
    | some r =>
      obtain ⟨w, hw, -⟩ := Option.map_eq_some_iff.mp hp
      have hfound := List.find?_some hw
      simp only [decide_eq_true_eq] at hfound
      simpa [hfound.1, hfound.2, hrow] using hwritten w (List.mem_of_find?_eq_some hw)
  · intro u hu k row hrow
    obtain ⟨w, hw, hwrow⟩ := Option.map_eq_some_iff.mp hrow
    have hfound := List.find?_some hw
    simp only [decide_eq_true_eq] at hfound
    simpa [hfound.1, hu, hwrow] using hwritten w (List.mem_of_find?_eq_some hw)

end Unique

/-! ## The end of a transaction -/

variable (T t)

/-- `COMMIT`. -/
def commit : Table Tx Key Row :=
  T.keep (applyWrites T.committed (T.written.filter fun w => w.tx = t)) fun u => u ≠ t

variable {T t}

@[simp] lemma pending_commit :
    (T.commit t).pending u i = if u = t then none else T.pending u i := by
  rw [commit, pending_keep]
  by_cases h : u = t <;> simp [h]

@[simp] lemma pending_rollback :
    (T.rollback t).pending u i = if u = t then none else T.pending u i := by
  rw [rollback, pending_keep]
  by_cases h : u = t <;> simp [h]

lemma holds_commit : (T.commit t).Holds u i ↔ u ≠ t ∧ T.Holds u i := by
  rw [commit, holds_keep, decide_eq_true_iff]

/-- **What is committed after a commit** is what the transaction has written, and where it has
written nothing what was committed before. -/
theorem get?_commit :
    Dict.get? (T.commit t).committed k = (T.pending t k).getD (Dict.get? T.committed k) := by
  rw [commit, keep_committed, get?_applyWrites, pending, List.find?_filter]
  simp

/-- **A locked row** is left alone by the commit of another transaction. -/
theorem Holds.get?_commit (h : T.Holds u k) (hne : t ≠ u) :
    Dict.get? (T.commit t).committed k = Dict.get? T.committed k := by
  rw [Table.get?_commit, h.pending_eq_none hne]
  rfl

/-! ## Other transactions -/

/-- What the statements of transaction `t` leave to the others: their writes, their locks, and the
rows that they have locked. -/
structure MovedBy (t : Tx) (T T' : Table Tx Key Row) : Prop where
  pending : ∀ u ≠ t, ∀ k, T'.pending u k = T.pending u k
  holds : ∀ u ≠ t, ∀ k, T.Holds u k → T'.Holds u k
  committed : ∀ u ≠ t, ∀ k, T.Holds u k → Dict.get? T'.committed k = Dict.get? T.committed k

lemma MovedBy.refl : T.MovedBy t T :=
  ⟨fun _ _ _ => rfl, fun _ _ _ h => h, fun _ _ _ _ => rfl⟩

lemma MovedBy.trans {T'' : Table Tx Key Row} (h : MovedBy t T T') (h' : MovedBy t T' T'') :
    MovedBy t T T'' where
  pending u hu k := (h'.pending u hu k).trans (h.pending u hu k)
  holds u hu k hk := h'.holds u hu k (h.holds u hu k hk)
  committed u hu k hk := (h'.committed u hu k (h.holds u hu k hk)).trans (h.committed u hu k hk)

lemma movedBy_lock (h : T.Grants t k m) : MovedBy t T (T.lock t k m h) where
  pending _ _ _ := rfl
  holds _ _ _ hk := holds_lock.mpr (.inr hk)
  committed _ _ _ _ := rfl

lemma movedBy_write {row : Option Row} (h : T.Grants t k m) (hm : m ≠ .keyShare) :
    MovedBy t T (T.write t k m row h hm) where
  pending u hu i := by simp [Ne.symm hu]
  holds _ _ _ hk := holds_write.mpr (.inr hk)
  committed _ _ _ _ := rfl

lemma movedBy_commit : MovedBy t T (T.commit t) where
  pending u hu i := by simp [hu]
  holds u hu _ hk := holds_commit.mpr ⟨hu, hk⟩
  committed _ hu _ hk := hk.get?_commit (Ne.symm hu)

lemma movedBy_rollback : MovedBy t T (T.rollback t) where
  pending u hu i := by simp [hu]
  holds u hu _ hk := holds_rollback.mpr ⟨hu, hk⟩
  committed _ _ _ _ := rfl

/-! ## Statements about several rows -/

variable (t) in
/-- `SELECT … FOR UPDATE` of several rows, once every lock is granted. -/
def lockAll? (T : Table Tx Key Row) : List Key → Option (Table Tx Key Row)
  | [] => some T
  | k :: ks => (T.lock? t k .update).bind fun T => lockAll? T ks

variable (t) in
/-- `DELETE … WHERE` the key is one of some and the row satisfies `p`. -/
def deleteWhere? (p : Row → Bool) (T : Table Tx Key Row) : List Key → Option (Table Tx Key Row)
  | [] => some T
  | k :: ks =>
    if (T.read t k).any p then (T.delete? t k).bind fun T => deleteWhere? p T ks
    else deleteWhere? p T ks

/-- What a lock of several rows does. -/
lemma lockAll?_spec {ks : List Key} (h : T.lockAll? t ks = some T') :
    T'.committed = T.committed ∧ MovedBy t T T' ∧
      (∀ u k, T'.pending u k = T.pending u k) ∧ (∀ u k, T.Holds u k → T'.Holds u k) ∧
      ∀ k ∈ ks, T'.Holds t k := by
  induction ks generalizing T with
  | nil =>
    cases h
    exact ⟨rfl, .refl, fun _ _ => rfl, fun _ _ hk => hk, by simp⟩
  | cons i ks ih =>
    obtain ⟨T₁, hT₁, h⟩ := Option.bind_eq_some_iff.mp h
    obtain ⟨hg, rfl⟩ := lock?_eq_some.mp hT₁
    obtain ⟨hcommitted, hmoved, hpending, hkept, hholds⟩ := ih h
    have hmore : ∀ u k, T.Holds u k → (T.lock t i .update hg).Holds u k :=
      fun u k hk => holds_lock.mpr (.inr hk)
    refine ⟨hcommitted, (movedBy_lock hg).trans hmoved, hpending,
      fun u k hk => hkept u k (hmore u k hk), ?_⟩
    intro k hk
    rcases List.mem_cons.mp hk with rfl | hk
    · exact hkept t k (holds_lock_self hg (by decide))
    · exact hholds k hk

/-- What a deletion of several rows does. -/
lemma deleteWhere?_spec {p : Row → Bool} {ks : List Key} (h : T.deleteWhere? t p ks = some T') :
    T'.committed = T.committed ∧ MovedBy t T T' ∧
      (∀ u k, T.Holds u k → T'.Holds u k) ∧
      ∀ k, T'.pending t k =
        if k ∈ ks ∧ (T.read t k).any p = true then some none else T.pending t k := by
  induction ks generalizing T with
  | nil =>
    cases h
    exact ⟨rfl, .refl, fun _ _ hk => hk, by simp⟩
  | cons i ks ih =>
    rw [deleteWhere?] at h
    split at h
    · next hi =>
      obtain ⟨T₁, hT₁, h⟩ := Option.bind_eq_some_iff.mp h
      obtain ⟨row, -, hg, hm, rfl⟩ := delete?_eq_some.mp hT₁
      obtain ⟨hcommitted, hmoved, hkept, hpending⟩ := ih h
      refine ⟨hcommitted, (movedBy_write hg hm).trans hmoved,
        fun u k hk => hkept u k (hk.write hg hm), ?_⟩
      intro k
      rw [hpending k]
      by_cases hk : i = k
      · subst hk
        have hgone : (T.write t i .update none hg hm).read t i = none := by simp [read]
        simp [hgone, hi]
      · have hsame : (T.write t i .update none hg hm).read t k = T.read t k := by simp [read, hk]
        simp [hsame, hk, Ne.symm hk]
    · next hi =>
      obtain ⟨hcommitted, hmoved, hkept, hpending⟩ := ih h
      refine ⟨hcommitted, hmoved, hkept, ?_⟩
      intro k
      rw [hpending k]
      by_cases hk : k = i
      · subst hk
        simp [hi]
      · simp [hk]

end Statements

end Table

end ReadCommitted
