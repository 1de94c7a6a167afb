import Mathlib.Logic.Function.Basic
import NocReport.Foundation.ReadCommitted

set_option relaxedAutoImplicit false
set_option autoImplicit false

/-!
# What transactions write

Transactions that write one row of a table at most, as those of a request often do: then what the
table has pending for a transaction can be read off the phase that the transaction is in. And rows
that are told apart by a column with a unique index.

## Main definitions

* `Table.Inserting` — the transactions in progress insert one row each and write nothing else.
* `Table.Writing` — they write one row each, new or old.
* `Table.Locked` — a transaction has locked a row in some mode.
* `Table.Keyed` — no two rows, committed or not, agree in a column.
* `Table.Stores` — a row that is committed, or that a transaction in progress has written.

## Main results

* `Table.Inserting.committed_commit` — the rows are kept in the order of their commits.
* `Table.Writing.get?_commit` — what is committed after a commit.
* `Table.Keyed.insert` — an insertion that the unique index admits.
* `Table.admits_of_stores` — a unique index admits what no stored row agrees with.
-/

namespace ReadCommitted

namespace Table

variable {Tx Key Row : Type} [DecidableEq Tx] [DecidableEq Key] {T T' : Table Tx Key Row}
  {t u : Tx} {k : Key}

/-! ## Transactions that insert one row -/

variable (T t) in
/-- What transaction `t` has written, newest first. -/
def writtenBy : List (Write Tx Key Row) := T.written.filter fun w => w.tx = t

/-- Each transaction in progress has inserted the row of `q`, where it has one, and written nothing
else. -/
structure Inserting (T : Table Tx Key Row) (q : Tx → Option (Key × Row)) : Prop where
  writtenBy : ∀ t, T.writtenBy t = (q t).toList.map fun e => ⟨t, e.1, some e.2⟩
  fresh : ∀ t e, q t = some e → Dict.get? T.committed e.1 = none

variable {q : Tx → Option (Key × Row)} {row : Row}

lemma inserting_ofRows (rows : Dict Key Row) :
    (ofRows rows : Table Tx Key Row).Inserting fun _ => none :=
  ⟨fun _ => rfl, by simp⟩

/-- The row that a transaction has inserted is locked by it. -/
lemma Inserting.holds (h : T.Inserting q) {e : Key × Row} (he : q t = some e) :
    T.Holds t e.1 := by
  have hmem : (⟨t, e.1, some e.2⟩ : Write Tx Key Row) ∈ T.writtenBy t := by
    simp [h.writtenBy, he]
  exact holds_of_mem_written (List.mem_of_mem_filter hmem)

lemma Inserting.read (h : T.Inserting q) (hq : q t = none) :
    T.read t k = Dict.get? T.committed k := by
  have hnone : T.pending t k = none := by
    rw [pending, Option.map_eq_none_iff, List.find?_eq_none]
    intro w hw
    have hby := h.writtenBy t
    rw [hq, Option.toList_none, List.map_nil, Table.writtenBy, List.filter_eq_nil_iff] at hby
    have hne := hby w hw
    simp only [decide_eq_true_eq] at hne ⊢
    exact fun hand => hne hand.1
  rw [Table.read, hnone]
  rfl

lemma Inserting.insert? (h : T.Inserting q) (hq : q t = none) (hT : T.insert? t k row = some T') :
    T'.Inserting (Function.update q t (some (k, row))) := by
  obtain ⟨hnone, hg, hm, rfl⟩ := insert?_eq_some.mp hT
  rw [h.read hq] at hnone
  constructor
  · intro u
    have hold := h.writtenBy u
    by_cases hu : u = t
    · subst hu
      rw [hq, Table.writtenBy] at hold
      simpa [Table.writtenBy] using hold
    · rw [Table.writtenBy] at hold
      simpa [Table.writtenBy, hu, Ne.symm hu] using hold
  · intro u e he
    by_cases hu : u = t
    · subst hu
      rw [Function.update_self] at he
      cases he
      exact hnone
    · rw [Function.update_of_ne hu] at he
      exact h.fresh u e he

/-- A transaction that has ended has written nothing. -/
private lemma writtenBy_keep {rows : Dict Key Row} (h : T.Inserting q) (u : Tx) :
    (T.keep rows fun v => v ≠ t).writtenBy u =
      (Function.update q t none u).toList.map fun e => ⟨u, e.1, some e.2⟩ := by
  have hold := h.writtenBy u
  rw [Table.writtenBy] at hold
  simp only [Table.writtenBy, keep_written, List.filter_filter]
  by_cases hu : u = t
  · subst hu
    simp
  · rw [Function.update_of_ne hu, ← hold]
    congr 1
    funext w
    by_cases hw : w.tx = u
    · simp [hw, hu]
    · simp [hw]

lemma Inserting.rollback (h : T.Inserting q) :
    (T.rollback t).Inserting (Function.update q t none) where
  writtenBy := writtenBy_keep h
  fresh u e he := by
    by_cases hu : u = t
    · simp [hu] at he
    · exact h.fresh u e (by simpa [hu] using he)

/-- The commit of a transaction adds its row at the end. -/
lemma Inserting.committed_commit (h : T.Inserting q) :
    (T.commit t).committed = T.committed ++ (q t).toList := by
  have hold := h.writtenBy t
  rw [Table.writtenBy] at hold
  rw [commit, keep_committed, hold]
  cases hq : q t with
  | none => simp [applyWrites]
  | some e =>
    have hfresh := (Dict.get?_eq_none_iff _ _).mp (h.fresh t e hq)
    simpa [applyWrites] using Dict.set_of_notMem e.2 hfresh

/-- The keys stay different. -/
lemma Inserting.nodup_commit (h : T.Inserting q) (hd : (Dict.keys T.committed).Nodup) :
    (Dict.keys (T.commit t).committed).Nodup := by
  rw [Dict.keys, h.committed_commit, List.map_append]
  rw [Dict.keys] at hd
  cases hq : q t with
  | none => simpa using hd
  | some e =>
    have hfresh := (Dict.get?_eq_none_iff _ _).mp (h.fresh t e hq)
    rw [List.nodup_append]
    refine ⟨hd, by simp, ?_⟩
    rintro k hk i hi rfl
    rw [Option.toList_some, List.map_singleton, List.mem_singleton] at hi
    exact hfresh (hi ▸ hk)

lemma Inserting.commit (h : T.Inserting q) :
    (T.commit t).Inserting (Function.update q t none) where
  writtenBy := writtenBy_keep h
  fresh u e he := by
    by_cases hu : u = t
    · simp [hu] at he
    · have hq : q u = some e := by simpa [hu] using he
      rw [(h.holds hq).get?_commit (Ne.symm hu)]
      exact h.fresh u e hq

/-! A transaction is often in a phase, from which it can be read which row it has inserted. -/

section Phases

variable {Phase : Type} {f : Tx → Option Phase} {g : Phase → Option (Key × Row)} {p : Phase}

omit [DecidableEq Key] in
lemma bind_update (x : Option Phase) :
    (fun u => (Function.update f t x u).bind g) =
      Function.update (fun u => (f u).bind g) t (x.bind g) := by
  funext u
  by_cases hu : u = t
  · simp [hu]
  · simp [hu]

/-- A statement that does not insert into the table. -/
lemma Inserting.goOn (h : T.Inserting fun u => (f u).bind g) (hp : (f t).bind g = g p) :
    T.Inserting fun u => (Function.update f t (some p) u).bind g := by
  have hsame : Function.update (fun u => (f u).bind g) t (g p) = fun u => (f u).bind g := by
    rw [← hp]
    exact Function.update_eq_self t fun u => (f u).bind g
  rw [bind_update, Option.bind_some, hsame]
  exact h

/-- A statement that inserts into the table. -/
lemma Inserting.goOn_insert (h : T.Inserting fun u => (f u).bind g) (hf : (f t).bind g = none)
    (hT : T.insert? t k row = some T') (hp : g p = some (k, row)) :
    T'.Inserting fun u => (Function.update f t (some p) u).bind g := by
  rw [bind_update, Option.bind_some, hp]
  exact h.insert? hf hT

/-- The transaction ends; its process may go on, in a phase that has inserted nothing. -/
lemma Inserting.ends_commit {x : Option Phase} (h : T.Inserting fun u => (f u).bind g)
    (hx : x.bind g = none) : (T.commit t).Inserting fun u => (Function.update f t x u).bind g := by
  rw [bind_update, hx]
  exact h.commit

lemma Inserting.ends_rollback {x : Option Phase} (h : T.Inserting fun u => (f u).bind g)
    (hx : x.bind g = none) :
    (T.rollback t).Inserting fun u => (Function.update f t x u).bind g := by
  rw [bind_update, hx]
  exact h.rollback

end Phases

/-! ## Transactions that write one row -/

/-- Each transaction in progress has written the row of `q`, where it has one, and nothing else. -/
def Writing (T : Table Tx Key Row) (q : Tx → Option (Key × Row)) : Prop :=
  ∀ t k, T.pending t k = (q t).bind fun e => if e.1 = k then some (some e.2) else none

lemma writing_ofRows (rows : Dict Key Row) :
    (ofRows rows : Table Tx Key Row).Writing fun _ => none :=
  fun _ _ => rfl

/-- The row that a transaction has written is locked by it. -/
lemma Writing.holds (h : T.Writing q) {e : Key × Row} (he : q t = some e) : T.Holds t e.1 := by
  apply holds_of_pending (r := some e.2)
  simp [h t, he]

lemma Writing.pending_eq_none (h : T.Writing q) (hq : q t = none) (k : Key) :
    T.pending t k = none := by
  rw [h t, hq, Option.bind_none]

lemma Writing.read (h : T.Writing q) (hq : q t = none) :
    T.read t k = Dict.get? T.committed k := by
  rw [Table.read, h.pending_eq_none hq]
  rfl

/-- What is committed after a commit. -/
lemma Writing.get?_commit (h : T.Writing q) :
    Dict.get? (T.commit t).committed k =
      ((q t).bind fun e => if e.1 = k then some e.2 else none).or (Dict.get? T.committed k) := by
  rw [Table.get?_commit, h t k]
  cases q t with
  | none => rfl
  | some e =>
    by_cases hk : e.1 = k
    · simp [hk]
    · simp [hk]

/-- A statement that locks rows of the table. -/
lemma Writing.of_pending (h : T.Writing q) (hT : ∀ u k, T'.pending u k = T.pending u k) :
    T'.Writing q :=
  fun u k => (hT u k).trans (h u k)

/-- A statement that writes a row of the table. -/
lemma Writing.write {m : LockMode} (h : T.Writing q) (hg : T.Grants t k m) (hm : m ≠ .keyShare)
    (hq : q t = none) :
    (T.write t k m (some row) hg hm).Writing (Function.update q t (some (k, row))) := by
  intro u i
  rw [pending_write, h u i]
  by_cases hu : u = t
  · subst hu
    by_cases hk : k = i
    · simp [hk]
    · simp [hk, hq]
  · simp [hu, Ne.symm hu]

/-- The end of a transaction. -/
lemma Writing.ends (h : T.Writing q)
    (hT : ∀ u k, T'.pending u k = if u = t then none else T.pending u k) :
    T'.Writing (Function.update q t none) := by
  intro u k
  rw [hT, h u k]
  by_cases hu : u = t
  · simp [hu]
  · simp [hu]

section Phases

variable {Phase : Type} {f : Tx → Option Phase} {g : Phase → Option (Key × Row)} {p : Phase}

/-- A statement that does not write to the table. -/
lemma Writing.goOn (h : T.Writing fun u => (f u).bind g) (hp : (f t).bind g = g p) :
    T.Writing fun u => (Function.update f t (some p) u).bind g := by
  have hsame : Function.update (fun u => (f u).bind g) t (g p) = fun u => (f u).bind g := by
    rw [← hp]
    exact Function.update_eq_self t fun u => (f u).bind g
  rw [bind_update, Option.bind_some, hsame]
  exact h

/-- A statement that writes to the table. -/
lemma Writing.goOn_write {m : LockMode} (h : T.Writing fun u => (f u).bind g)
    (hg : T.Grants t k m) (hm : m ≠ .keyShare) (hf : (f t).bind g = none)
    (hp : g p = some (k, row)) :
    (T.write t k m (some row) hg hm).Writing fun u => (Function.update f t (some p) u).bind g := by
  rw [bind_update, Option.bind_some, hp]
  exact h.write hg hm hf

/-- The transaction ends; its process may go on, in a phase that has written nothing. -/
lemma Writing.ends_commit {x : Option Phase} (h : T.Writing fun u => (f u).bind g)
    (hx : x.bind g = none) :
    (T.commit t).Writing fun u => (Function.update f t x u).bind g := by
  rw [bind_update, hx]
  exact h.ends fun _ _ => pending_commit

lemma Writing.ends_rollback {x : Option Phase} (h : T.Writing fun u => (f u).bind g)
    (hx : x.bind g = none) :
    (T.rollback t).Writing fun u => (Function.update f t x u).bind g := by
  rw [bind_update, hx]
  exact h.ends fun _ _ => pending_rollback

end Phases

/-! ## Locks of one strength -/

section Locked

variable {m n : LockMode}

omit [DecidableEq Tx] [DecidableEq Key]

variable (T t k m) in
/-- Transaction `t` has locked row `k` in mode `m`. -/
def Locked : Prop := (⟨t, k, m⟩ : Lock Tx Key) ∈ T.locks

/-- One transaction has both of two locks that conflict. -/
lemma Locked.eq_of_conflicts (ht : T.Locked t k m) (hu : T.Locked u k n)
    (h : m.conflicts n = true) : t = u := by
  by_contra hne
  have hfree := T.exclusive _ ht _ hu rfl hne
  rw [h] at hfree
  cases hfree

lemma Locked.holds (h : T.Locked t k m) (hm : m ≠ .keyShare) : T.Holds t k :=
  ⟨_, h, rfl, rfl, hm⟩

lemma locked_lock_self (h : T.Grants t k m) : (T.lock t k m h).Locked t k m :=
  List.mem_cons_self

lemma Locked.lock {i : Key} (hl : T.Locked t k m) (h : T.Grants u i n) :
    (T.lock u i n h).Locked t k m :=
  List.mem_cons_of_mem _ hl

lemma Locked.write {i : Key} {r : Option Row} (hl : T.Locked t k m) (h : T.Grants u i n)
    (hn : n ≠ .keyShare) : (T.write u i n r h hn).Locked t k m :=
  List.mem_cons_of_mem _ hl

variable [DecidableEq Tx]

lemma Locked.rollback (hl : T.Locked t k m) (h : t ≠ u) : (T.rollback u).Locked t k m :=
  List.mem_filter.mpr ⟨hl, decide_eq_true h⟩

lemma Locked.commit [DecidableEq Key] (hl : T.Locked t k m) (h : t ≠ u) :
    (T.commit u).Locked t k m :=
  List.mem_filter.mpr ⟨hl, decide_eq_true h⟩

end Locked

/-! ## Rows that a column tells apart -/

/-- A row that is committed, or that a transaction has written. -/
def Version (T : Table Tx Key Row) (k : Key) (row : Row) : Prop :=
  Dict.get? T.committed k = some row ∨ ∃ t, T.pending t k = some (some row)

/-- No two rows agree in the column `c`. -/
def Keyed {α : Type} (T : Table Tx Key Row) (c : Row → α) : Prop :=
  ∀ k k' row row', T.Version k row → T.Version k' row' → c row = c row' → k = k'

variable {α : Type} {c : Row → α}

lemma keyed_ofRows_nil : (ofRows [] : Table Tx Key Row).Keyed c := by
  rintro k k' row row' (h | ⟨t, h⟩)
  · cases h
  · cases h

/-- What has no row that was not there before is still told apart. -/
lemma Keyed.mono (h : T.Keyed c)
    (hT : ∀ k row, T'.Version k row → ∃ old, T.Version k old ∧ c old = c row) : T'.Keyed c := by
  intro k k' row row' hk hk' heq
  obtain ⟨old, hold, hc⟩ := hT k row hk
  obtain ⟨old', hold', hc'⟩ := hT k' row' hk'
  exact h k k' old old' hold hold' (hc.trans (heq.trans hc'.symm))

lemma Keyed.commit (h : T.Keyed c) : (T.commit t).Keyed c := by
  refine h.mono fun k row hk => ⟨row, ?_, rfl⟩
  rcases hk with hk | ⟨u, hk⟩
  · rw [Table.get?_commit] at hk
    cases hp : T.pending t k with
    | none =>
      rw [hp] at hk
      exact .inl hk
    | some x =>
      rw [hp] at hk
      exact .inr ⟨t, hp.trans (congrArg some hk)⟩
  · rw [pending_commit] at hk
    split at hk
    · cases hk
    · exact .inr ⟨u, hk⟩

lemma Keyed.rollback (h : T.Keyed c) : (T.rollback t).Keyed c := by
  refine h.mono fun k row hk => ⟨row, ?_, rfl⟩
  rcases hk with hk | ⟨u, hk⟩
  · exact .inl hk
  · rw [pending_rollback] at hk
    split at hk
    · cases hk
    · exact .inr ⟨u, hk⟩

/-- A row that a statement reads is committed or written. -/
lemma version_of_read (h : T.read t k = some row) : T.Version k row := by
  rw [Table.read] at h
  cases hp : T.pending t k with
  | none =>
    rw [hp] at h
    exact .inl h
  | some x =>
    rw [hp] at h
    exact .inr ⟨t, hp.trans (congrArg some h)⟩

/-- A write of a row is the new version of it. -/
lemma version_write {m : LockMode} {hg : T.Grants t k m} {hm : m ≠ .keyShare} {i : Key}
    {old : Row} (h : (T.write t k m (some row) hg hm).Version i old) :
    (k = i ∧ row = old) ∨ T.Version i old := by
  rcases h with h | ⟨u, h⟩
  · exact .inr (.inl h)
  · rw [pending_write] at h
    split at h
    · next hui => exact .inl ⟨hui.2, Option.some.inj (Option.some.inj h)⟩
    · exact .inr (.inr ⟨u, h⟩)

/-- An update that leaves the column alone. -/
lemma Keyed.update {f : Row → Row} (h : T.Keyed c) (hT : T.update? t k f = some T')
    (hf : ∀ row, c (f row) = c row) : T'.Keyed c := by
  obtain ⟨row, hrow, hg, hm, rfl⟩ := update?_eq_some.mp hT
  refine h.mono fun i new hnew => ?_
  rcases version_write hnew with ⟨rfl, rfl⟩ | hold
  · exact ⟨row, version_of_read hrow, (hf row).symm⟩
  · exact ⟨new, hold, rfl⟩

/-- An insertion that the unique index of the column admits. -/
lemma Keyed.insert [DecidableEq α] (h : T.Keyed c) (hnone : ∀ i, T.pending t i = none)
    (hindex : (T.admits t fun old => c old = c row) = true)
    (hT : T.insert? t k row = some T') : T'.Keyed c := by
  obtain ⟨-, hg, hm, rfl⟩ := insert?_eq_some.mp hT
  obtain ⟨hseen, hothers⟩ := admits_spec hindex
  have hnew : ∀ i old, T.Version i old → c old ≠ c row := by
    rintro i old (hold | ⟨u, hold⟩)
    · have hread : T.read t i = some old := by rw [Table.read, hnone, hold]; rfl
      simpa using hseen i old hread
    · have hu : u ≠ t := by
        rintro rfl
        rw [hnone] at hold
        cases hold
      simpa using hothers u hu i old hold
  intro i j row₁ row₂ hi hj heq
  rcases version_write hi with ⟨rfl, rfl⟩ | hi
  · rcases version_write hj with ⟨rfl, rfl⟩ | hj
    · rfl
    · exact absurd heq.symm (hnew j row₂ hj)
  · rcases version_write hj with ⟨rfl, rfl⟩ | hj
    · exact absurd heq (hnew i row₁ hi)
    · exact h i j row₁ row₂ hi hj heq

/-! ## Rows that are stored -/

omit [DecidableEq Tx] [DecidableEq Key]

/-- A row that is committed, or that a transaction in progress has written at some time. -/
def Stores (T : Table Tx Key Row) (row : Row) : Prop :=
  (∃ k, (k, row) ∈ T.committed) ∨ ∃ w ∈ T.written, w.row = some row

lemma stores_write {m : LockMode} {hg : T.Grants t k m} {hm : m ≠ .keyShare} {x : Option Row} :
    (T.write t k m x hg hm).Stores row ↔ x = some row ∨ T.Stores row := by
  simp only [Stores, write_committed, write_written, List.mem_cons, exists_eq_or_imp]
  tauto

variable [DecidableEq Tx] [DecidableEq Key]

lemma stores_of_read (h : T.read t k = some row) : T.Stores row := by
  rw [Table.read] at h
  cases hp : T.pending t k with
  | none =>
    rw [hp] at h
    exact .inl ⟨k, Dict.mem_of_get?_eq_some h⟩
  | some x =>
    rw [hp] at h
    obtain ⟨w, hw, rfl⟩ := Option.map_eq_some_iff.mp hp
    exact .inr ⟨w, List.mem_of_find?_eq_some hw, h⟩

/-- A unique index admits a row that no stored row agrees with, at once. -/
lemma admits_of_stores {p : Row → Bool} (h : ∀ row, T.Stores row → p row = false) :
    T.admits t p = true := by
  have hread : ∀ i, ((T.read t i).all fun row => !p row) = true := by
    intro i
    rw [Option.all_eq_true]
    intro old hold
    rw [h old (stores_of_read hold)]
    rfl
  rw [admits, Bool.and_eq_true]
  constructor
  · rw [List.all_eq_true]
    exact fun e _ => hread e.1
  · rw [List.all_eq_true]
    intro w hw
    split
    · exact hread w.key
    · rw [Option.all_eq_true]
      intro old hold
      rw [h old (.inr ⟨w, hw, hold⟩)]
      rfl

end Table

end ReadCommitted
