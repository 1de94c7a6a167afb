import NocReport.Evidence.Purge

set_option relaxedAutoImplicit false
set_option autoImplicit false

/-!
# The races of a purge

A purge is safe when no reference is committed between its checks and its deletion, and no deletion
is made between the read of an active row and the commit of a reference to it. Nothing in the code
keeps them apart, with one exception: the lock of a sweep conflicts with the locks of the foreign
keys, so that no run that refers to the row is committed while a sweep holds it. This file proves that
these races, and rows that share a version, are all that can go wrong.

## Main definitions

* `Purge.LateReference` — a reference is committed to a row whose bytes were deleted too late to be
  noticed.
* `Purge.LatePurge` — bytes are deleted to which a reference was committed too late to be noticed.
* `Purge.PurgeInv` — the invariant.

## Main results

* `Purge.PhaseInv.moved` — the step of a process leaves what the others know.
* `Purge.purgeSafe_iff` — the purges of a run are safe if and only if no such race occurs in it.
* `Purge.not_purgeSafe` — an OCR run that begins while the references are read.
-/

namespace Purge

open ReadCommitted Storage Transition

variable (rt : PyRuntime)

/-! ## Races -/

/-- The process commits a reference to the evidence. -/
def Phase.Names : Phase → EvidenceId → Prop
  | .referring _ e' _ _, e => e' = e
  | .frozen _ _ snapshot, e => containsEvidenceId rt e.text snapshot.snapshotJson = true
  | _, _ => False

/-- The number of deletions when the process read the row as active; `0` when it has not. -/
def Phase.readAt : Phase → EvidenceId → ℕ
  | .referring _ e' seen _, e => if e' = e then seen else 0
  | .frozen reads _ _, e => ((reads.find? fun r => r.1 = e).map (·.2)).getD 0
  | _, _ => 0

/-- A reference is committed to a row whose bytes have been deleted, since the process read the row
as active or by the purge of another row. -/
def LateReference (s : State) (a : Action) : Prop :=
  ∃ p ph next e row, a = .process p .commit ∧ s.processes p = some ph ∧
    ph.afterCommit = some next ∧ ph.Names rt e ∧ Dict.get? s.evidence.committed e = some row ∧
    ∃ d ∈ s.deletions, d.version = row.version ∧
      (d.evidenceId ≠ e ∨ d ∈ s.deletions.drop (ph.readAt e))

/-- A run that refers to the evidence has been committed since its table was read. -/
def State.LateRun (s : State) (e : EvidenceId) (check : Check) : Prop :=
  ∃ kind, ∃ r ∈ (s.runs kind).committed.drop (check.runs kind), r.2.evidenceId = e

/-- A snapshot that refers to the evidence has been committed since the snapshots were read. -/
def State.LateSnapshot (s : State) (e : EvidenceId) (check : Check) : Prop :=
  ∃ r ∈ s.snapshots.committed.drop check.snapshots,
    containsEvidenceId rt e.text r.2.snapshotJson = true

/-- Another row has the same version, and is referred to. -/
def State.SharedReference (s : State) (e : EvidenceId) (row : Evidence PyStr) : Prop :=
  ∃ e' row', e' ≠ e ∧ Dict.get? s.evidence.committed e' = some row' ∧
    row'.version = row.version ∧ s.Refers rt e'

/-- Bytes are deleted although a reference to the row has been committed since the references were
read, or another row that is referred to has the same version. No run is late for a sweep. -/
def LatePurge (s : State) (a : Action) : Prop :=
  ∃ p e row check, a = .process p .purgeStorage ∧
    (s.processes p = some (.purging e row check) ∧
        (s.LateRun e check ∨ s.LateSnapshot rt e check ∨ s.SharedReference rt e row) ∨
      ∃ pass n m k, check = .done n m k ∧ s.processes p = some (.picked pass e row check) ∧
        (s.LateSnapshot rt e check ∨ s.SharedReference rt e row))

/-! ## What a process knows -/

/-- The row has been read as active: none of the deletions before that was of it. -/
structure ReadInv (s : State) (e : EvidenceId) (seen : ℕ) : Prop where
  seen_le : seen ≤ s.deletions.length
  active : ∀ d ∈ s.deletions.take seen, d.evidenceId ≠ e

/-- The rows that have been read do not refer to the evidence. -/
structure CheckInv (s : State) (e : EvidenceId) (check : Check) : Prop where
  runs_le : ∀ kind, check.runs kind ≤ (s.runs kind).committed.length
  runs : ∀ kind, ∀ r ∈ (s.runs kind).committed.take (check.runs kind), r.2.evidenceId ≠ e
  snapshots_le : check.snapshots ≤ s.snapshots.committed.length
  snapshots : ∀ r ∈ s.snapshots.committed.take check.snapshots,
    containsEvidenceId rt e.text r.2.snapshotJson = false

/-- The runs have been read. -/
def Check.covers : Check → RunKind → Bool
  | .start, _ | .ocr _, .analysis => false
  | _, _ => true

/-- The row is there, with the version that it had when it was read. -/
def Known (s : State) (e : EvidenceId) (row : Evidence PyStr) : Prop :=
  ∃ cur, Dict.get? s.evidence.committed e = some cur ∧ cur.version = row.version

/-- And it is not active any more. -/
def Marked (s : State) (e : EvidenceId) (row : Evidence PyStr) : Prop :=
  ∃ cur, Dict.get? s.evidence.committed e = some cur ∧ cur.version = row.version ∧
    cur.lifecycleState ≠ .active

/-- The row that is written differs from what is there in its lifecycle only, and is not active. -/
def Tombstone (s : State) (e : EvidenceId) (written : Evidence PyStr) : Prop :=
  Known s e written ∧ written.lifecycleState ≠ .active

/-- A sweep holds the row: it is as it was, and no run refers to it of those that have been read. -/
structure Picked (s : State) (p : ProcessId) (e : EvidenceId) (row : Evidence PyStr)
    (check : Check) : Prop where
  locked : s.evidence.Locked p e .update
  committed : Dict.get? s.evidence.committed e = some row
  marked : row.lifecycleState = .purgePending
  runs : ∀ kind, check.covers kind = true → s.refersRun kind e = false

/-- What a process knows in its phase. -/
def PhaseInv (s : State) (p : ProcessId) : Phase → Prop
  | .reading _ e seen => ReadInv s e seen
  | .referring _ e seen _ => ReadInv s e seen ∧ s.evidence.Locked p e .keyShare
  | .building reads _ | .frozen reads _ _ => ∀ r ∈ reads, ReadInv s r.1 r.2
  | .deleting e row check =>
    Known s e row ∧ (row.lifecycleState ≠ .active → Marked s e row) ∧ CheckInv rt s e check
  | .tombstoned e row check written =>
    CheckInv rt s e check ∧
      match written with
      | none => Marked s e row
      | some w => Tombstone s e w ∧ w.version = row.version
  | .purging e row check => Marked s e row ∧ CheckInv rt s e check
  | .purged e => ∃ row, Marked s e row
  | .marked e written => ∀ w, written = some w → Tombstone s e w
  | .between _ => True
  | .picked _ e row check => Picked s p e row check ∧ CheckInv rt s e check
  | .cleared _ e row => Picked s p e row .start
  | .settled _ e written => Tombstone s e written

/-- What the step of process `p` leaves to the others. -/
structure Moved (p : ProcessId) (s s' : State) : Prop where
  rows : ∀ e cur, Dict.get? s.evidence.committed e = some cur →
    ∃ cur', Dict.get? s'.evidence.committed e = some cur' ∧ cur'.version = cur.version ∧
      (cur.lifecycleState ≠ .active → cur'.lifecycleState ≠ .active)
  held : ∀ u ≠ p, ∀ e cur, s.evidence.Holds u e → Dict.get? s.evidence.committed e = some cur →
    Dict.get? s'.evidence.committed e = some cur
  locked : ∀ u ≠ p, ∀ e m, s.evidence.Locked u e m → s'.evidence.Locked u e m
  deletions : s.deletions <+: s'.deletions
  runs : ∀ kind, ∃ new, (s'.runs kind).committed = (s.runs kind).committed ++ new ∧
    ∀ r ∈ new, s.evidence.Locked p r.2.evidenceId .keyShare
  snapshots : s.snapshots.committed <+: s'.snapshots.committed

variable {rt} {s s' : State} {p u : ProcessId} {ph : Phase} {e : EvidenceId}
  {row : Evidence PyStr}

lemma take_eq_of_extends {α : Type} {xs ys : List α} {n : ℕ} (h : xs <+: ys) (hn : n ≤ xs.length) :
    ys.take n = xs.take n := by
  obtain ⟨zs, rfl⟩ := h
  exact List.take_append_of_le_length hn

lemma Known.moved (h : Known s e row) (hmoved : Moved p s s') : Known s' e row := by
  obtain ⟨cur, hcur, hversion⟩ := h
  obtain ⟨cur', hcur', hversion', -⟩ := hmoved.rows e cur hcur
  exact ⟨cur', hcur', hversion'.trans hversion⟩

lemma Marked.moved (h : Marked s e row) (hmoved : Moved p s s') : Marked s' e row := by
  obtain ⟨cur, hcur, hversion, hstate⟩ := h
  obtain ⟨cur', hcur', hversion', hstate'⟩ := hmoved.rows e cur hcur
  exact ⟨cur', hcur', hversion'.trans hversion, hstate' hstate⟩

lemma ReadInv.moved {seen : ℕ} (h : ReadInv s e seen) (hmoved : Moved p s s') :
    ReadInv s' e seen := by
  refine ⟨Nat.le_trans h.seen_le hmoved.deletions.length_le, ?_⟩
  rw [take_eq_of_extends hmoved.deletions h.seen_le]
  exact h.active

lemma CheckInv.moved {check : Check} (h : CheckInv rt s e check) (hmoved : Moved p s s') :
    CheckInv rt s' e check := by
  have hruns : ∀ kind, (s.runs kind).committed <+: (s'.runs kind).committed := by
    intro kind
    obtain ⟨new, hnew, -⟩ := hmoved.runs kind
    exact ⟨new, hnew.symm⟩
  constructor
  · intro kind
    exact Nat.le_trans (h.runs_le kind) (hruns kind).length_le
  · intro kind
    rw [take_eq_of_extends (hruns kind) (h.runs_le kind)]
    exact h.runs kind
  · exact Nat.le_trans h.snapshots_le hmoved.snapshots.length_le
  · rw [take_eq_of_extends hmoved.snapshots h.snapshots_le]
    exact h.snapshots

/-- While a sweep holds a row, no run that refers to it is committed. -/
lemma Picked.moved {check : Check} (h : Picked s u e row check) (hmoved : Moved p s s')
    (hu : u ≠ p) : Picked s' u e row check := by
  refine ⟨hmoved.locked u hu e _ h.locked,
    hmoved.held u hu e row (h.locked.holds (by decide)) h.committed, h.marked, ?_⟩
  intro kind hcovers
  obtain ⟨new, hnew, hlocked⟩ := hmoved.runs kind
  have hold := h.runs kind hcovers
  rw [State.refersRun, List.any_eq_false] at hold ⊢
  intro r hr
  rw [hnew] at hr
  rcases List.mem_append.mp hr with hr | hr
  · exact hold r hr
  · simp only [decide_eq_true_eq]
    rintro rfl
    exact hu (h.locked.eq_of_conflicts (hlocked r hr) rfl)

/-- **The step of a process** leaves what the others know. -/
theorem PhaseInv.moved (h : PhaseInv rt s u ph) (hmoved : Moved p s s') (hu : u ≠ p) :
    PhaseInv rt s' u ph := by
  cases ph with
  | reading kind e seen => exact ReadInv.moved h hmoved
  | referring kind e seen id => exact ⟨h.1.moved hmoved, hmoved.locked u hu e _ h.2⟩
  | building reads incidents | frozen reads id snapshot =>
    exact fun r hr => (h r hr).moved hmoved
  | deleting e row check =>
    exact ⟨h.1.moved hmoved, fun hrow => (h.2.1 hrow).moved hmoved, h.2.2.moved hmoved⟩
  | tombstoned e row check written =>
    cases written with
    | none => exact ⟨h.1.moved hmoved, Marked.moved h.2 hmoved⟩
    | some w => exact ⟨h.1.moved hmoved, ⟨h.2.1.1.moved hmoved, h.2.1.2⟩, h.2.2⟩
  | purging e row check => exact ⟨h.1.moved hmoved, h.2.moved hmoved⟩
  | purged e =>
    obtain ⟨row, hrow⟩ := h
    exact ⟨row, hrow.moved hmoved⟩
  | marked e written => exact fun w hw => ⟨(h w hw).1.moved hmoved, (h w hw).2⟩
  | between => trivial
  | picked pass e row check => exact ⟨h.1.moved hmoved hu, h.2.moved hmoved⟩
  | cleared pass e row => exact Picked.moved h hmoved hu
  | settled pass e written => exact ⟨h.1.moved hmoved, h.2⟩

/-- A statement of a process that commits nothing leaves what it knows itself. -/
structure Still (s s' : State) : Prop where
  evidence : s'.evidence.committed = s.evidence.committed
  runs : ∀ kind, (s'.runs kind).committed = (s.runs kind).committed
  snapshots : s'.snapshots.committed = s.snapshots.committed
  deletions : s'.deletions = s.deletions

lemma Still.refl : Still s s := ⟨rfl, fun _ => rfl, rfl, rfl⟩

/-- What is known of what is committed is not about what is in progress. -/
lemma PhaseInv.still (h : PhaseInv rt s p ph) (hstill : Still s s')
    (hlocked : ∀ e m, s.evidence.Locked p e m → s'.evidence.Locked p e m) :
    PhaseInv rt s' p ph := by
  obtain ⟨hevidence, hruns, hsnapshots, hdeletions⟩ := hstill
  have hcheck : ∀ {e check}, CheckInv rt s e check → CheckInv rt s' e check := by
    intro e check hcheck
    exact ⟨fun kind => by rw [hruns]; exact hcheck.runs_le kind,
      fun kind => by rw [hruns]; exact hcheck.runs kind, hsnapshots ▸ hcheck.snapshots_le,
      hsnapshots ▸ hcheck.snapshots⟩
  have hread : ∀ {e seen}, ReadInv s e seen → ReadInv s' e seen := by
    intro e seen hread
    exact ⟨hdeletions ▸ hread.seen_le, hdeletions ▸ hread.active⟩
  have hknown : ∀ {e row}, Known s e row → Known s' e row := by
    intro e row hknown
    rwa [Known, hevidence]
  have hmarked : ∀ {e row}, Marked s e row → Marked s' e row := by
    intro e row hmarked
    rwa [Marked, hevidence]
  have hpicked : ∀ {e row check}, Picked s p e row check → Picked s' p e row check := by
    intro e row check hpicked
    refine ⟨hlocked e _ hpicked.locked, hevidence ▸ hpicked.committed, hpicked.marked, ?_⟩
    intro kind hcovers
    rw [State.refersRun, hruns]
    exact hpicked.runs kind hcovers
  cases ph with
  | reading kind e seen => exact hread h
  | referring kind e seen id => exact ⟨hread h.1, hlocked e _ h.2⟩
  | building reads incidents | frozen reads id snapshot => exact fun r hr => hread (h r hr)
  | deleting e row check => exact ⟨hknown h.1, fun hrow => hmarked (h.2.1 hrow), hcheck h.2.2⟩
  | tombstoned e row check written =>
    cases written with
    | none => exact ⟨hcheck h.1, hmarked h.2⟩
    | some w => exact ⟨hcheck h.1, ⟨hknown h.2.1.1, h.2.1.2⟩, h.2.2⟩
  | purging e row check => exact ⟨hmarked h.1, hcheck h.2⟩
  | purged e =>
    obtain ⟨row, hrow⟩ := h
    exact ⟨row, hmarked hrow⟩
  | marked e written => exact fun w hw => ⟨hknown (h w hw).1, (h w hw).2⟩
  | between => trivial
  | picked pass e row check => exact ⟨hpicked h.1, hcheck h.2⟩
  | cleared pass e row => exact hpicked h
  | settled pass e written => exact ⟨hknown h.1, h.2⟩

/-! ## The invariant -/

variable (rt) in
/-- The invariant: each process has written what its phase says and knows what it should, and what
has been deleted was that of a row that is not active any more. -/
structure PurgeInv (s : State) : Prop where
  evidence : s.evidence.Writing fun p => (s.processes p).bind Phase.evidence?
  runs : ∀ kind, (s.runs kind).Inserting fun p => (s.processes p).bind (Phase.run? kind)
  snapshots : s.snapshots.Inserting fun p => (s.processes p).bind Phase.snapshot?
  phases : ∀ p ph, s.processes p = some ph → PhaseInv rt s p ph
  deletions : ∀ d ∈ s.deletions, ∃ row, Dict.get? s.evidence.committed d.evidenceId = some row ∧
    row.version = d.version ∧ row.lifecycleState ≠ .active

lemma purgeInv_init : PurgeInv rt .init where
  evidence := Table.writing_ofRows []
  runs _ := Table.inserting_ofRows []
  snapshots := Table.inserting_ofRows []
  phases := by simp [State.init]
  deletions := by simp [State.init]

/-- The step of a process that commits nothing preserves the invariant, where the process has
written what its phase says. -/
lemma PurgeInv.moves (hs : PurgeInv rt s) {next : Option Phase}
    (hp : s'.processes = Function.update s.processes p next) (hmoved : Moved p s s')
    (hevidence : s'.evidence.Writing fun u => (s'.processes u).bind Phase.evidence?)
    (hruns : ∀ kind, (s'.runs kind).Inserting fun u => (s'.processes u).bind (Phase.run? kind))
    (hsnapshots : s'.snapshots.Inserting fun u => (s'.processes u).bind Phase.snapshot?)
    (hnext : ∀ ph, next = some ph → PhaseInv rt s' p ph)
    (hdeletions : ∀ d ∈ s'.deletions, d ∈ s.deletions ∨
      ∃ row, Dict.get? s.evidence.committed d.evidenceId = some row ∧
        row.version = d.version ∧ row.lifecycleState ≠ .active) : PurgeInv rt s' where
  evidence := hevidence
  runs := hruns
  snapshots := hsnapshots
  phases u q hu := by
    rw [hp] at hu
    by_cases hup : u = p
    · subst hup
      rw [Function.update_self] at hu
      exact hnext q hu
    · rw [Function.update_of_ne hup] at hu
      exact (hs.phases u q hu).moved hmoved hup
  deletions d hd := by
    obtain ⟨row, hrow, hversion, hstate⟩ := (hdeletions d hd).elim (hs.deletions d) id
    obtain ⟨row', hrow', hversion', hstate'⟩ := hmoved.rows _ row hrow
    exact ⟨row', hrow', hversion'.trans hversion, hstate' hstate⟩

/-- A step that commits nothing leaves the others what they know. -/
lemma Still.moved (h : Still s s')
    (hlocked : ∀ u ≠ p, ∀ e m, s.evidence.Locked u e m → s'.evidence.Locked u e m) :
    Moved p s s' where
  rows e cur hcur := ⟨cur, h.evidence ▸ hcur, rfl, id⟩
  held u _ e cur _ hcur := h.evidence ▸ hcur
  locked := hlocked
  deletions := h.deletions ▸ List.prefix_rfl
  runs kind := ⟨[], by rw [h.runs, List.append_nil], by simp⟩
  snapshots := h.snapshots ▸ List.prefix_rfl

/-- A process goes on without a statement that writes. -/
lemma PurgeInv.goOn (hs : PurgeInv rt s) {x : Option Phase} (hold : s.processes p = x)
    (he : x.bind Phase.evidence? = ph.evidence?)
    (hr : ∀ kind, x.bind (Phase.run? kind) = ph.run? kind)
    (hn : x.bind Phase.snapshot? = ph.snapshot?) (hph : PhaseInv rt s p ph) :
    PurgeInv rt (s.goOn p ph) ∧ Still s (s.goOn p ph) := by
  have hstill : Still s (s.goOn p ph) := ⟨rfl, fun _ => rfl, rfl, rfl⟩
  refine ⟨hs.moves rfl (hstill.moved fun _ _ _ _ h => h) (hs.evidence.goOn (by rw [hold]; exact he))
    (fun kind => (hs.runs kind).goOn (by rw [hold]; exact hr kind))
    (hs.snapshots.goOn (by rw [hold]; exact hn)) ?_ fun _ h => .inl h, hstill⟩
  rintro _ ⟨⟩
  exact hph.still hstill fun _ _ h => h

/-- A transaction that is rolled back leaves nothing behind. -/
lemma PurgeInv.rollback (hs : PurgeInv rt s) {next : Option Phase}
    (he : next.bind Phase.evidence? = none) (hr : ∀ kind, next.bind (Phase.run? kind) = none)
    (hn : next.bind Phase.snapshot? = none)
    (hnext : ∀ ph, next = some ph → PhaseInv rt (s.rollback p next) p ph) :
    PurgeInv rt (s.rollback p next) ∧ Still s (s.rollback p next) := by
  have hstill : Still s (s.rollback p next) := ⟨rfl, fun _ => rfl, rfl, rfl⟩
  exact ⟨hs.moves rfl (hstill.moved fun _ hu _ _ h => h.rollback hu)
    (hs.evidence.ends_rollback he) (fun kind => (hs.runs kind).ends_rollback (hr kind))
    (hs.snapshots.ends_rollback hn) hnext fun _ h => .inl h, hstill⟩

/-- A request ends without a commit. -/
lemma PurgeInv.gives_up (hs : PurgeInv rt s) :
    PurgeInv rt (s.rollback p none) ∧ Still s (s.rollback p none) :=
  hs.rollback rfl (fun _ => rfl) rfl (by simp)

/-- A process writes a row of `evidence`. -/
lemma PurgeInv.updateEvidence (hs : PurgeInv rt s) {old : Phase}
    (hold : s.processes p = some old) {f : Evidence PyStr → Evidence PyStr}
    {next : Evidence PyStr → Phase} (h : s.updateEvidence p e f next = some s')
    (he : old.evidence? = none) (he' : ∀ row, (next row).evidence? = some (e, row))
    (hr : ∀ row kind, old.run? kind = (next row).run? kind)
    (hn : ∀ row, old.snapshot? = (next row).snapshot?)
    (hph : ∀ cur, Dict.get? s.evidence.committed e = some cur → PhaseInv rt s p (next (f cur))) :
    PurgeInv rt s' ∧ Still s s' := by
  obtain ⟨cur, hcur, h⟩ := Option.bind_eq_some_iff.mp h
  obtain ⟨T, hT, rfl⟩ := Option.map_eq_some_iff.mp h
  obtain ⟨hg, hm, rfl⟩ := Table.write?_eq_some.mp hT
  have hnone : (s.processes p).bind Phase.evidence? = none := by rw [hold]; exact he
  rw [hs.evidence.read hnone] at hcur
  refine ⟨hs.moves (p := p) rfl
    ⟨fun e cur h => ⟨cur, h, rfl, id⟩, fun _ _ _ _ _ h => h, fun _ _ _ _ h => h.write hg hm,
      List.prefix_rfl, fun kind => ⟨[], by simp, by simp⟩, List.prefix_rfl⟩
    (hs.evidence.goOn_write hg hm hnone (he' _))
    (fun kind => (hs.runs kind).goOn (by rw [hold]; exact hr _ kind))
    (hs.snapshots.goOn (by rw [hold]; exact hn _)) ?_ fun _ h => .inl h,
    ⟨rfl, fun _ => rfl, rfl, rfl⟩⟩
  rintro _ ⟨⟩
  exact (hph cur hcur).still ⟨rfl, fun _ => rfl, rfl, rfl⟩ fun _ _ h => h.write hg hm

/-! ## What a step does -/

/-- What a step does to what is committed and deleted. -/
inductive Effect (s : State) : Action → State → Prop
  | still {a : Action} {s' : State} (h : Still s s') : Effect s a s'
  | add (e : EvidenceId) (row : Evidence PyStr) (hnone : Dict.get? s.evidence.committed e = none)
      (hstored : ∀ d ∈ s.deletions, d.version ≠ row.version) :
      Effect s (.addEvidence e row)
        { s with evidence := s.evidence.withRows (s.evidence.committed.set e row) }
  | commit (p : ProcessId) (ph : Phase) (next : Option Phase) (hold : s.processes p = some ph)
      (hnext : ph.afterCommit = some next) : Effect s (.process p .commit) (s.commit p next)
  | delete (p : ProcessId) (e : EvidenceId) (row : Evidence PyStr) (check : Check)
      (hold : s.processes p = some (.purging e row check)) :
      Effect s (.process p .purgeStorage) (s.purgeStorage p e row (.purged e))
  | sweep (p : ProcessId) (pass : Pass) (e : EvidenceId) (row : Evidence PyStr) (n m k : ℕ)
      (hold : s.processes p = some (.picked pass e row (.done n m k))) :
      Effect s (.process p .purgeStorage) (s.purgeStorage p e row (.cleared pass e row))

/-! ## Steps -/

/-- What has been read once the next read has found no reference. -/
lemma CheckInv.check {check check' : Check} (h : CheckInv rt s e check)
    (hcheck : s.check rt e check = some check') : CheckInv rt s e check' := by
  have hnone : ∀ kind, s.refersRun kind e = false →
      ∀ r ∈ (s.runs kind).committed, r.2.evidenceId ≠ e := by
    intro kind hkind r hr
    simpa using List.any_eq_false.mp hkind r hr
  unfold State.check at hcheck
  split at hcheck
  · split at hcheck
    · cases hcheck
    · next hocr =>
      cases hcheck
      refine ⟨?_, ?_, Nat.zero_le _, by simp [Check.snapshots]⟩
      · rintro ⟨⟩
        · exact Nat.le_refl _
        · exact Nat.zero_le _
      · rintro ⟨⟩ r hr
        · exact hnone .ocr (by simpa using hocr) r (List.mem_of_mem_take hr)
        · simp [Check.runs] at hr
  · next n =>
    split at hcheck
    · cases hcheck
    · next hanalysis =>
      cases hcheck
      refine ⟨?_, ?_, Nat.zero_le _, by simp [Check.snapshots]⟩
      · rintro ⟨⟩
        · exact h.runs_le .ocr
        · exact Nat.le_refl _
      · rintro ⟨⟩ r hr
        · exact h.runs .ocr r hr
        · exact hnone .analysis (by simpa using hanalysis) r (List.mem_of_mem_take hr)
  · next n m =>
    split at hcheck
    · cases hcheck
    · next hsnapshot =>
      cases hcheck
      refine ⟨?_, ?_, Nat.le_refl _, ?_⟩
      · rintro ⟨⟩
        · exact h.runs_le .ocr
        · exact h.runs_le .analysis
      · rintro ⟨⟩ r hr
        · exact h.runs .ocr r hr
        · exact h.runs .analysis r hr
      · intro r hr
        rw [Bool.not_eq_true, State.refersSnapshot, List.any_eq_false] at hsnapshot
        simpa using hsnapshot r (List.mem_of_mem_take hr)
  · cases hcheck
    exact h

/-- The runs that have been read once the next read has found no reference. -/
lemma covers_check {check check' : Check} (h : s.check rt e check = some check') (kind : RunKind)
    (hcovers : check'.covers kind = true) :
    check.covers kind = true ∨ s.refersRun kind e = false := by
  unfold State.check at h
  split at h
  · split at h
    · cases h
    · next hocr =>
      cases h
      cases kind with
      | ocr => exact .inr (by simpa using hocr)
      | analysis => cases hcovers
  · split at h
    · cases h
    · next hanalysis =>
      cases h
      cases kind with
      | ocr => exact .inl rfl
      | analysis => exact .inr (by simpa using hanalysis)
  · split at h
    · cases h
    · cases h
      exact .inl (by cases kind <;> rfl)
  · cases h
    exact .inl hcovers

/-- At first nothing has been read. -/
lemma checkInv_start : CheckInv rt s e .start := by
  refine ⟨?_, ?_, Nat.zero_le _, by simp [Check.snapshots]⟩
  · rintro ⟨⟩ <;> exact Nat.zero_le _
  · rintro ⟨⟩ r hr <;> simp [Check.runs] at hr

/-- A row that is read as active has not been purged. -/
lemma PurgeInv.readInv (hs : PurgeInv rt s) (hrow : Dict.get? s.evidence.committed e = some row)
    (hactive : row.lifecycleState = .active) : ReadInv s e s.deletions.length := by
  refine ⟨Nat.le_refl _, ?_⟩
  rw [List.take_length]
  rintro d hd rfl
  obtain ⟨cur, hcur, -, hstate⟩ := hs.deletions d hd
  cases hrow.symm.trans hcur
  exact hstate hactive

/-- A row of an incident that is active is read as such. -/
lemma mem_activeEvidence {incident : IncidentId} {r : EvidenceId × Evidence PyStr}
    (h : r ∈ s.activeEvidence incident) :
    Dict.get? s.evidence.committed r.1 = some r.2 ∧ r.2.lifecycleState = .active := by
  obtain ⟨e, he, hr⟩ := List.mem_filterMap.mp h
  obtain ⟨row, hrow, rfl⟩ := Option.map_eq_some_iff.mp hr
  obtain ⟨row', hrow', hactive⟩ := Table.mem_select.mp he
  cases hrow.symm.trans hrow'
  simp only [decide_eq_true_eq] at hactive
  exact ⟨hrow, hactive.2⟩

/-- A step of a request that refers to evidence. -/
lemma PurgeInv.referStep (hs : PurgeInv rt s) {st : Statement} (hold : s.processes p = some ph)
    (h : referStep s p ph st = some s') : PurgeInv rt s' ∧ Still s s' := by
  have hph := hs.phases p ph hold
  unfold Purge.referStep at h
  split at h
  · next kind e seen id =>
    obtain ⟨T, hT, h⟩ := Option.bind_eq_some_iff.mp h
    obtain ⟨R, hR, rfl⟩ := Option.map_eq_some_iff.mp h
    obtain ⟨hg, rfl⟩ := Table.lock?_eq_some.mp hT
    have hstill : Still s ({ s with
        evidence := s.evidence.lock p e .keyShare hg
        runs := Function.update s.runs kind R }.goOn p (.referring kind e seen id)) := by
      refine ⟨rfl, ?_, rfl, rfl⟩
      intro kind'
      by_cases hkind : kind' = kind
      · subst hkind
        simpa using Table.committed_insert? hR
      · simp [hkind]
    refine ⟨hs.moves (p := p) rfl (hstill.moved fun _ _ _ _ h => h.lock hg) ?_ ?_
      (hs.snapshots.goOn (by rw [hold]; rfl)) ?_ fun _ h => .inl h, hstill⟩
    · exact (hs.evidence.goOn (by rw [hold]; rfl)).of_pending fun _ _ => rfl
    · intro kind'
      by_cases hkind : kind' = kind
      · subst hkind
        simpa using (hs.runs kind').goOn_insert (p := .referring kind' e seen id)
          (by rw [hold]; rfl) hR (by simp [Phase.run?])
      · have hgoes := (hs.runs kind').goOn (p := .referring kind e seen id) (t := p)
          (by rw [hold]; simp [Phase.run?, Ne.symm hkind])
        simpa [hkind] using hgoes
    · rintro _ ⟨⟩
      have hread : ReadInv s e seen := hph
      exact ⟨⟨hread.seen_le, hread.active⟩, Table.locked_lock_self hg⟩
  · next reads incidents incident other =>
    cases h
    refine hs.goOn hold rfl (fun _ => rfl) rfl ?_
    intro r hr
    rcases List.mem_append.mp hr with hr | hr
    · exact hph r hr
    · obtain ⟨f, hf, rfl⟩ := List.mem_map.mp hr
      have hmem : f ∈ s.activeEvidence incident := by
        rcases List.mem_append.mp hf with hf | hf
        · exact List.mem_of_find?_eq_some (Option.mem_toList.mp hf)
        · exact List.mem_of_mem_filter hf
      obtain ⟨hrow, hactive⟩ := mem_activeEvidence hmem
      exact hs.readInv hrow hactive
  · next reads incidents id other =>
    obtain ⟨T, hT, rfl⟩ := Option.map_eq_some_iff.mp h
    have hstill : Still s ({ s with snapshots := T }.goOn p
        (.frozen reads id ⟨.obj (other ++ [(py "incidents", Json.arr incidents)])⟩)) :=
      ⟨rfl, fun _ => rfl, Table.committed_insert? hT, rfl⟩
    refine ⟨hs.moves (p := p) rfl (hstill.moved fun _ _ _ _ h => h)
      (hs.evidence.goOn (by rw [hold]; rfl)) (fun kind => (hs.runs kind).goOn (by rw [hold]; rfl))
      (hs.snapshots.goOn_insert (by rw [hold]; rfl) hT rfl) ?_ fun _ h => .inl h, hstill⟩
    rintro _ ⟨⟩
    exact fun r hr => ⟨(hph r hr).seen_le, (hph r hr).active⟩
  · cases h

/-- The storage of a row that is not active any more is purged. -/
lemma PurgeInv.purgeStorage (hs : PurgeInv rt s) {old : Phase} (hold : s.processes p = some old)
    (hmarked : Marked s e row) (he : old.evidence? = none) (he' : ph.evidence? = none)
    (hr : ∀ kind, old.run? kind = ph.run? kind) (hn : old.snapshot? = ph.snapshot?)
    (hph : PhaseInv rt (s.purgeStorage p e row ph) p ph) :
    PurgeInv rt (s.purgeStorage p e row ph) := by
  refine hs.moves (p := p) rfl
    ⟨fun e cur h => ⟨cur, h, rfl, id⟩, fun _ _ _ _ _ h => h, fun _ _ _ _ h => h,
      List.prefix_append _ _, fun kind => ⟨[], (List.append_nil _).symm, by simp⟩, List.prefix_rfl⟩
    (hs.evidence.goOn (by rw [hold]; exact he.trans he'.symm))
    (fun kind => (hs.runs kind).goOn (by rw [hold]; exact hr kind))
    (hs.snapshots.goOn (by rw [hold]; exact hn)) ?_ ?_
  · rintro _ ⟨⟩
    exact hph
  · intro d hd
    rcases List.mem_append.mp hd with hd | hd
    · exact .inl hd
    · obtain ⟨cur, hcur, hversion, hstate⟩ := hmarked
      rw [List.mem_singleton] at hd
      subst hd
      exact .inr ⟨cur, hcur, hversion, hstate⟩

/-- What is written to a row by `request_purge` is not active. -/
lemma tombstone_requestPurge {cur : Evidence PyStr} {now : ℕ}
    (hcur : Dict.get? s.evidence.committed e = some cur)
    (hstate : row.lifecycleState ≠ .active → cur.lifecycleState ≠ .active) :
    Tombstone s e (requestPurge row now cur) := by
  refine ⟨⟨cur, hcur, rfl⟩, ?_⟩
  unfold requestPurge
  dsimp only
  split
  · next hpending =>
    apply hstate
    rw [hpending]
    decide
  · decide

/-- What `mark_purged` or a sweep writes is not active. -/
lemma tombstone_markPurged {cur : Evidence PyStr}
    (hcur : Dict.get? s.evidence.committed e = some cur) : Tombstone s e (markPurged cur) :=
  ⟨⟨cur, hcur, rfl⟩, by simp [markPurged]⟩

/-- A step of `delete_evidence`. -/
lemma PurgeInv.deleteStep (hs : PurgeInv rt s) {st : Statement} (hold : s.processes p = some ph)
    (h : deleteStep rt s p ph st = some s') :
    PurgeInv rt s' ∧ Effect s (.process p st) s' := by
  have hph := hs.phases p ph hold
  unfold Purge.deleteStep at h
  split at h
  · next e row check =>
    obtain ⟨hknown, hrow, hcheck⟩ := hph
    split at h
    · cases h
      exact hs.gives_up.imp_right .still
    · next check' hnext =>
      cases h
      exact And.imp_right .still
        (hs.goOn hold rfl (fun _ => rfl) rfl ⟨hknown, hrow, hcheck.check hnext⟩)
  · next e row n m k =>
    obtain ⟨hknown, hrow, hcheck⟩ := hph
    split at h
    · next hsame =>
      cases h
      have hmarked : Marked s e row := hrow (by rw [hsame.1]; decide)
      exact And.imp_right .still (hs.goOn hold rfl (fun _ => rfl) rfl ⟨hcheck, hmarked⟩)
    · refine And.imp_right .still (hs.updateEvidence hold h rfl (fun _ => rfl) (fun _ _ => rfl)
        (fun _ => rfl) ?_)
      intro cur hcur
      obtain ⟨cur', hcur', hversion⟩ := hknown
      cases hcur.symm.trans hcur'
      refine ⟨hcheck, tombstone_requestPurge hcur ?_, hversion⟩
      intro hstate
      obtain ⟨cur', hcur', -, hmarked⟩ := hrow hstate
      cases hcur.symm.trans hcur'
      exact hmarked
  · next e row check =>
    cases h
    have hmarked : Marked s e row := hph.1
    exact ⟨hs.purgeStorage hold hmarked rfl rfl (fun _ => rfl) rfl ⟨row, hmarked⟩,
      .delete p e row check hold⟩
  · next e =>
    obtain ⟨cur, -, h⟩ := Option.bind_eq_some_iff.mp h
    split at h
    · cases h
      exact And.imp_right .still (hs.goOn hold rfl (fun _ => rfl) rfl (by rintro _ ⟨⟩))
    · refine And.imp_right .still (hs.updateEvidence hold h rfl (fun _ => rfl) (fun _ _ => rfl)
        (fun _ => rfl) ?_)
      rintro cur hcur _ ⟨⟩
      exact tombstone_markPurged hcur
  · cases h

/-- A step of a sweep. -/
lemma PurgeInv.sweepStep (hs : PurgeInv rt s) {st : Statement} (hold : s.processes p = some ph)
    (h : sweepStep rt s p ph st = some s') :
    PurgeInv rt s' ∧ Effect s (.process p st) s' := by
  have hph := hs.phases p ph hold
  unfold Purge.sweepStep at h
  split at h
  · next pass e =>
    split at h
    · cases h
    · obtain ⟨row, hrow, h⟩ := Option.bind_eq_some_iff.mp h
      split at h
      · next hcandidate =>
        obtain ⟨T, hT, rfl⟩ := Option.map_eq_some_iff.mp h
        obtain ⟨hg, rfl⟩ := Table.lock?_eq_some.mp hT
        simp only [Pass.candidate, decide_eq_true_eq] at hcandidate
        have hstill : Still s ({ s with evidence := s.evidence.lock p e .update hg }.goOn p
            (.picked pass.next e row .start)) := ⟨rfl, fun _ => rfl, rfl, rfl⟩
        refine ⟨hs.moves (p := p) rfl (hstill.moved fun _ _ _ _ h => h.lock hg)
          ((hs.evidence.goOn (by rw [hold]; rfl)).of_pending fun _ _ => rfl)
          (fun kind => (hs.runs kind).goOn (by rw [hold]; rfl))
          (hs.snapshots.goOn (by rw [hold]; rfl)) ?_ fun _ h => .inl h, .still hstill⟩
        rintro _ ⟨⟩
        refine ⟨⟨Table.locked_lock_self hg, hrow, hcandidate.1, ?_⟩, checkInv_start⟩
        rintro ⟨⟩ ⟨⟩
      · cases h
  · split at h
    · cases h
      exact hs.gives_up.imp_right .still
    · cases h
  · next pass e row check =>
    obtain ⟨hpicked, hcheck⟩ := hph
    split at h
    · cases h
      refine And.imp_right .still (hs.rollback rfl (fun _ => rfl) rfl ?_)
      rintro _ ⟨⟩
      trivial
    · next check' hnext =>
      cases h
      refine And.imp_right .still (hs.goOn hold rfl (fun _ => rfl) rfl ⟨⟨hpicked.locked,
        hpicked.committed, hpicked.marked, ?_⟩, hcheck.check hnext⟩)
      intro kind hcovers
      exact (covers_check hnext kind hcovers).elim (hpicked.runs kind) id
  · next pass e row n m k =>
    cases h
    have hpicked : Picked s p e row (.done n m k) := hph.1
    have hmarked : Marked s e row := ⟨row, hpicked.committed, rfl, by rw [hpicked.marked]; decide⟩
    refine ⟨hs.purgeStorage hold hmarked rfl rfl (fun _ => rfl) rfl ?_,
      .sweep p pass e row n m k hold⟩
    refine ⟨hpicked.locked, hpicked.committed, hpicked.marked, ?_⟩
    rintro ⟨⟩ ⟨⟩
  · next pass e row =>
    refine And.imp_right .still (hs.updateEvidence hold h rfl (fun _ => rfl) (fun _ _ => rfl)
      (fun _ => rfl) ?_)
    exact fun cur hcur => tombstone_markPurged hcur
  · cases h

/-! ## Commits -/

/-- What a process has written to `evidence` is a tombstone. -/
lemma PhaseInv.tombstone (h : PhaseInv rt s p ph) {w : Evidence PyStr}
    (hw : ph.evidence? = some (e, w)) : Tombstone s e w := by
  cases ph with
  | tombstoned e' row check written =>
    obtain ⟨w', rfl, heq⟩ := Option.map_eq_some_iff.mp hw
    cases heq
    exact h.2.1
  | marked e' written =>
    obtain ⟨w', rfl, heq⟩ := Option.map_eq_some_iff.mp hw
    cases heq
    exact h w rfl
  | settled pass e' written =>
    cases hw
    exact h
  | _ => cases hw

/-- A row of `evidence` before a commit is one with the same version after it. -/
lemma PurgeInv.rows_commit (hs : PurgeInv rt s) (hold : s.processes p = some ph)
    {next : Option Phase} {cur : Evidence PyStr}
    (hcur : Dict.get? s.evidence.committed e = some cur) :
    ∃ cur', Dict.get? (s.commit p next).evidence.committed e = some cur' ∧
      cur'.version = cur.version ∧
      (cur.lifecycleState ≠ .active → cur'.lifecycleState ≠ .active) := by
  rw [State.commit_evidence, hs.evidence.get?_commit, hold, Option.bind_some, hcur]
  cases hw : ph.evidence? with
  | none => exact ⟨cur, rfl, rfl, id⟩
  | some w =>
    by_cases hkey : w.1 = e
    · subst hkey
      obtain ⟨⟨cur', hcur', hversion⟩, hstate⟩ := (hs.phases p ph hold).tombstone hw
      cases hcur.symm.trans hcur'
      exact ⟨w.2, by simp, hversion.symm, fun _ => hstate⟩
    · exact ⟨cur, by simp [hkey], rfl, id⟩

/-- A row of `evidence` after a commit was one with the same version before it. -/
lemma PurgeInv.rows_before (hs : PurgeInv rt s) (hold : s.processes p = some ph)
    {next : Option Phase}
    (hrow : Dict.get? (s.commit p next).evidence.committed e = some row) :
    ∃ cur, Dict.get? s.evidence.committed e = some cur ∧ cur.version = row.version := by
  rw [State.commit_evidence, hs.evidence.get?_commit, hold, Option.bind_some] at hrow
  rcases Option.or_eq_some_iff.mp hrow with hnew | ⟨-, hsame⟩
  · obtain ⟨w, hw, hif⟩ := Option.bind_eq_some_iff.mp hnew
    split at hif
    · next hkey =>
      cases hif
      subst hkey
      exact ((hs.phases p ph hold).tombstone hw).1
    · cases hif
  · exact ⟨row, hsame, rfl⟩

lemma PurgeInv.runs_commit (hs : PurgeInv rt s) (hold : s.processes p = some ph)
    {next : Option Phase} (kind : RunKind) :
    ((s.commit p next).runs kind).committed = (s.runs kind).committed ++ (ph.run? kind).toList := by
  rw [State.commit_runs, (hs.runs kind).committed_commit, hold]
  rfl

lemma PurgeInv.snapshots_commit (hs : PurgeInv rt s) (hold : s.processes p = some ph)
    {next : Option Phase} :
    (s.commit p next).snapshots.committed = s.snapshots.committed ++ ph.snapshot?.toList := by
  rw [State.commit_snapshots, hs.snapshots.committed_commit, hold]
  rfl

/-- A commit preserves the invariant. -/
lemma PurgeInv.commit (hs : PurgeInv rt s) (hold : s.processes p = some ph) {next : Option Phase}
    (hnext : ph.afterCommit = some next) : PurgeInv rt (s.commit p next) := by
  have hph := hs.phases p ph hold
  have hmoved : Moved p s (s.commit p next) := by
    refine ⟨fun e cur hcur => hs.rows_commit hold hcur, ?_, fun _ hu _ _ h => h.commit hu,
      List.prefix_rfl, ?_, ?_⟩
    · intro u hu e cur hholds hcur
      rw [State.commit_evidence, hholds.get?_commit (Ne.symm hu)]
      exact hcur
    · intro kind
      refine ⟨_, hs.runs_commit hold kind, ?_⟩
      intro r hr
      cases ph with
      | referring kind' e seen id =>
        have hrun : Phase.run? kind (.referring kind' e seen id) = some r := Option.mem_toList.mp hr
        simp only [Phase.run?] at hrun
        split at hrun
        · cases hrun
          exact hph.2
        · cases hrun
      | _ => simp [Phase.run?] at hr
    · exact ⟨_, (hs.snapshots_commit hold).symm⟩
  have hclear : next.bind Phase.evidence? = none ∧ (∀ kind, next.bind (Phase.run? kind) = none) ∧
      next.bind Phase.snapshot? = none := by
    cases ph with
    | referring | frozen | marked | tombstoned | settled =>
      cases hnext
      exact ⟨rfl, fun _ => rfl, rfl⟩
    | _ => cases hnext
  refine hs.moves rfl hmoved (hs.evidence.ends_commit hclear.1)
    (fun kind => (hs.runs kind).ends_commit (hclear.2.1 kind))
    (hs.snapshots.ends_commit hclear.2.2) ?_ fun _ h => .inl h
  rintro q rfl
  cases ph with
  | tombstoned e row check written =>
    cases hnext
    obtain ⟨hcheck, hwritten⟩ := hph
    refine ⟨?_, hcheck.moved hmoved⟩
    cases written with
    | none => exact Marked.moved hwritten hmoved
    | some w =>
      refine ⟨w, ?_, hwritten.2, hwritten.1.2⟩
      rw [State.commit_evidence, hs.evidence.get?_commit, hold]
      simp [Phase.evidence?]
  | settled pass e written =>
    cases hnext
    trivial
  | _ => cases hnext

/-- A sweep goes on after a failure that it catches; every other process ends. -/
lemma afterFailure_cases (ph : Phase) :
    ph.afterFailure = none ∨ ∃ pass, ph.afterFailure = some (.between pass) := by
  cases ph with
  | picked pass _ _ check =>
    cases check with
    | done => exact .inr ⟨pass, rfl⟩
    | _ => exact .inl rfl
  | cleared pass | settled pass => exact .inr ⟨pass, rfl⟩
  | _ => exact .inl rfl

/-- A step of a process. -/
lemma PurgeInv.processStep (hs : PurgeInv rt s) {st : Statement} (hold : s.processes p = some ph)
    (h : processStep rt s p ph st = some s') : PurgeInv rt s' ∧ Effect s (.process p st) s' := by
  unfold Purge.processStep at h
  split at h
  · obtain ⟨next, hnext, rfl⟩ := Option.map_eq_some_iff.mp h
    exact ⟨hs.commit hold hnext, .commit p ph next hold hnext⟩
  · cases h
    rcases afterFailure_cases ph with hnone | ⟨pass, hpass⟩
    · rw [hnone]
      exact hs.gives_up.imp_right .still
    · rw [hpass]
      refine (hs.rollback rfl (fun _ => rfl) rfl ?_).imp_right .still
      rintro _ ⟨⟩
      trivial
  · cases h
    exact hs.gives_up.imp_right .still
  · split at h
    · exact (hs.referStep hold h).imp_right .still
    · exact (hs.referStep hold h).imp_right .still
    · exact hs.deleteStep hold h
    · exact hs.deleteStep hold h
    · exact hs.deleteStep hold h
    · exact hs.sweepStep hold h
    · exact hs.sweepStep hold h
    · exact hs.sweepStep hold h
    · cases h

/-- A row of `evidence` is committed. -/
lemma PurgeInv.add (hs : PurgeInv rt s) (hnone : Dict.get? s.evidence.committed e = none) :
    PurgeInv rt { s with evidence := s.evidence.withRows (s.evidence.committed.set e row) } := by
  have hrows : ∀ i cur, Dict.get? s.evidence.committed i = some cur →
      Dict.get? (s.evidence.committed.set e row) i = some cur := by
    intro i cur hcur
    rw [Dict.get?_set_of_ne, hcur]
    rintro rfl
    rw [hnone] at hcur
    cases hcur
  have hmoved : ∀ p, Moved p s
      { s with evidence := s.evidence.withRows (s.evidence.committed.set e row) } := by
    intro p
    refine ⟨fun i cur hcur => ⟨cur, hrows i cur hcur, rfl, id⟩,
      fun _ _ i cur _ hcur => hrows i cur hcur, ?_, List.prefix_rfl,
      fun kind => ⟨[], (List.append_nil _).symm, by simp⟩, List.prefix_rfl⟩
    intro u _ i m h
    exact List.mem_filter.mpr ⟨h, rfl⟩
  refine ⟨hs.evidence.of_pending ?_, hs.runs, hs.snapshots, ?_, ?_⟩
  · intro u i
    exact Table.pending_keep
  · intro u q hu
    exact (hs.phases u q hu).moved (hmoved (u + 1)) (Nat.ne_of_lt (Nat.lt_succ_self u))
  · intro d hd
    obtain ⟨cur, hcur, hrest⟩ := hs.deletions d hd
    exact ⟨cur, hrows _ cur hcur, hrest⟩

/-- **Every step** preserves the invariant, and does what it should. -/
theorem purgeInv_step {a : Action} (hs : PurgeInv rt s) (h : step rt s a = some s') :
    PurgeInv rt s' ∧ Effect s a s' := by
  cases a with
  | tick =>
    cases h
    have hstill : Still s { s with clock := s.clock + 1 } := ⟨rfl, fun _ => rfl, rfl, rfl⟩
    refine ⟨⟨hs.evidence, hs.runs, hs.snapshots, ?_, hs.deletions⟩, .still hstill⟩
    exact fun u q hu => (hs.phases u q hu).still hstill fun _ _ h => h
  | addEvidence e row =>
    simp only [Purge.step] at h
    split at h
    · next hok =>
      cases h
      exact ⟨hs.add hok.1, .add e row hok.1 hok.2.2⟩
    · cases h
  | runOcr p e =>
    simp only [Purge.step] at h
    split at h
    · next hfree =>
      cases h
      unfold runOcrOnEvidence
      split
      · exact ⟨hs, .still .refl⟩
      · next row hrow =>
        split
        · next hactive =>
          exact And.imp_right .still (hs.goOn (Option.isNone_iff_eq_none.mp hfree) rfl
            (fun _ => rfl) rfl (hs.readInv hrow hactive))
        · exact ⟨hs, .still .refl⟩
    · cases h
  | requestAnalysis p incident e =>
    simp only [Purge.step] at h
    split at h
    · next hfree =>
      obtain ⟨row, hrow, h⟩ := Option.bind_eq_some_iff.mp h
      split at h
      · next hok =>
        cases h
        exact And.imp_right .still (hs.goOn (Option.isNone_iff_eq_none.mp hfree) rfl
          (fun _ => rfl) rfl (hs.readInv hrow hok.2.2))
      · cases h
    · cases h
  | generateReport p =>
    simp only [Purge.step] at h
    split at h
    · next hfree =>
      cases h
      exact And.imp_right .still (hs.goOn (Option.isNone_iff_eq_none.mp hfree) rfl
        (fun _ => rfl) rfl (by rintro _ ⟨⟩))
    · cases h
  | deleteEvidence p e =>
    simp only [Purge.step] at h
    split at h
    · next hfree =>
      cases h
      unfold deleteEvidence
      split
      · exact ⟨hs, .still .refl⟩
      · next row hrow =>
        split
        · next hpurged =>
          exact And.imp_right .still (hs.goOn (Option.isNone_iff_eq_none.mp hfree) rfl
            (fun _ => rfl) rfl
            ⟨checkInv_start, ⟨row, hrow, rfl, by rw [hpurged]; decide⟩⟩)
        · exact And.imp_right .still (hs.goOn (Option.isNone_iff_eq_none.mp hfree) rfl
            (fun _ => rfl) rfl
            ⟨⟨row, hrow, rfl⟩, fun hstate => ⟨row, hrow, rfl, hstate⟩, checkInv_start⟩)
    · cases h
  | sweep p limit =>
    simp only [Purge.step] at h
    split at h
    · next hfree =>
      cases h
      exact And.imp_right .still (hs.goOn (Option.isNone_iff_eq_none.mp hfree) rfl
        (fun _ => rfl) rfl trivial)
    · cases h
  | process p st =>
    obtain ⟨ph, hold, h⟩ := Option.bind_eq_some_iff.mp h
    exact hs.processStep hold h

/-! ## Safety -/

/-- No deletion before the read of a row as active is of that row. -/
lemma PhaseInv.readAt (h : PhaseInv rt s p ph) {d : Deletion}
    (hd : d ∈ s.deletions.take (ph.readAt e)) : d.evidenceId ≠ e := by
  cases ph with
  | referring kind e' seen id =>
    simp only [Phase.readAt] at hd
    split at hd
    · next heq =>
      subst heq
      exact h.1.active d hd
    · simp at hd
  | frozen reads id snapshot =>
    simp only [Phase.readAt] at hd
    cases hfind : reads.find? fun r => r.1 = e with
    | none => simp [hfind] at hd
    | some r =>
      have hid : r.1 = e := by simpa using List.find?_some hfind
      rw [hfind] at hd
      exact hid ▸ (h r (List.mem_of_find?_eq_some hfind)).active d hd
  | _ => simp [Phase.readAt] at hd

/-- A reference after a commit was there before it, or is what the process has committed. -/
lemma PurgeInv.refers_commit (hs : PurgeInv rt s) (hold : s.processes p = some ph)
    {next : Option Phase} (e : EvidenceId) :
    (s.commit p next).Refers rt e ↔ s.Refers rt e ∨
      (∃ kind r, ph.run? kind = some r ∧ r.2.evidenceId = e) ∨
      ∃ r, ph.snapshot? = some r ∧ containsEvidenceId rt e.text r.2.snapshotJson = true := by
  have hrun : ∀ kind, (s.commit p next).refersRun kind e = true ↔
      s.refersRun kind e = true ∨ ∃ r, ph.run? kind = some r ∧ r.2.evidenceId = e := by
    intro kind
    rw [State.refersRun, State.refersRun, hs.runs_commit hold kind, List.any_append,
      Bool.or_eq_true]
    refine or_congr Iff.rfl ?_
    cases ph.run? kind <;> simp
  have hsnapshot : (s.commit p next).refersSnapshot rt e = true ↔
      s.refersSnapshot rt e = true ∨
        ∃ r, ph.snapshot? = some r ∧ containsEvidenceId rt e.text r.2.snapshotJson = true := by
    rw [State.refersSnapshot, State.refersSnapshot, hs.snapshots_commit hold, List.any_append,
      Bool.or_eq_true]
    refine or_congr Iff.rfl ?_
    cases ph.snapshot? <;> simp
  unfold State.Refers
  simp only [hrun, hsnapshot, exists_or]
  exact or_or_or_comm

/-- What a process has inserted names evidence. -/
lemma names_of_inserted
    (h : (∃ kind r, ph.run? kind = some r ∧ r.2.evidenceId = e) ∨
      ∃ r, ph.snapshot? = some r ∧ containsEvidenceId rt e.text r.2.snapshotJson = true) :
    ph.Names rt e := by
  rcases h with ⟨kind, r, hr, hid⟩ | ⟨r, hr, hcontains⟩
  · cases ph with
    | referring kind' e' seen id =>
      simp only [Phase.run?] at hr
      split at hr
      · cases hr
        exact hid
      · cases hr
    | _ => cases hr
  · cases ph with
    | frozen reads id snapshot =>
      cases hr
      exact hcontains
    | _ => cases hr

/-- What a process names it has inserted. -/
lemma inserted_of_names (h : ph.Names rt e) :
    (∃ kind r, ph.run? kind = some r ∧ r.2.evidenceId = e) ∨
      ∃ r, ph.snapshot? = some r ∧ containsEvidenceId rt e.text r.2.snapshotJson = true := by
  cases ph with
  | referring kind e' seen id => exact .inl ⟨kind, (id, ⟨e'⟩), by simp [Phase.run?], h⟩
  | frozen reads id snapshot => exact .inr ⟨(id, snapshot), rfl, h⟩
  | _ => exact h.elim

/-- A purge deletes the bytes of its row, and those of no other row that is referred to, when no
reference is late. -/
lemma safe_purgeStorage (hs : PurgeSafe rt s)
    (hcommitted : ∀ cur, Dict.get? s.evidence.committed e = some cur → ¬ s.Refers rt e)
    (hshared : ¬ s.SharedReference rt e row) : PurgeSafe rt (s.purgeStorage p e row ph) := by
  intro e' row' hrow' hrefers
  have hrefers' : s.Refers rt e' := hrefers
  rintro ⟨d, hd, hversion⟩
  rcases List.mem_append.mp hd with hd | hd
  · exact hs e' row' hrow' hrefers' ⟨d, hd, hversion⟩
  · rw [List.mem_singleton] at hd
    subst hd
    by_cases he : e' = e
    · subst he
      exact hcommitted row' hrow' hrefers'
    · exact hshared ⟨e', row', he, hrow', hversion.symm, hrefers'⟩

/-- A step that is no race leaves the purges safe. -/
lemma PurgeInv.safe (hs : PurgeInv rt s) (hsafe : PurgeSafe rt s) {a : Action}
    (hreference : ¬ LateReference rt s a) (hpurge : ¬ LatePurge rt s a) (h : Effect s a s') :
    PurgeSafe rt s' := by
  cases h with
  | still h =>
    obtain ⟨hevidence, hruns, hsnapshots, hdeletions⟩ := h
    intro e row hrow hrefers hgone
    rw [hevidence] at hrow
    simp only [State.Refers, State.refersRun, State.refersSnapshot, hruns, hsnapshots] at hrefers
    rw [State.Gone, hdeletions] at hgone
    exact hsafe e row hrow hrefers hgone
  | add e row hnone hstored =>
    rintro e' row' hrow' hrefers ⟨d, hd, hversion⟩
    rw [Table.committed_withRows, Dict.get?_set] at hrow'
    split at hrow'
    · cases hrow'
      exact hstored d hd hversion
    · exact hsafe e' row' hrow' hrefers ⟨d, hd, hversion⟩
  | commit p ph next hold hnext =>
    rintro e row hrow hrefers ⟨d, hd, hversion⟩
    obtain ⟨cur, hcur, hsame⟩ := hs.rows_before hold hrow
    rcases (hs.refers_commit hold e).mp hrefers with hbefore | hnew
    · exact hsafe e cur hcur hbefore ⟨d, hd, hversion.trans hsame.symm⟩
    · apply hreference
      refine ⟨p, ph, next, e, cur, rfl, hold, hnext, names_of_inserted hnew, hcur, d, hd,
        hversion.trans hsame.symm, ?_⟩
      by_contra hlate
      rw [not_or, not_not] at hlate
      have hdel : d ∈ s.deletions := hd
      rw [← List.take_append_drop (ph.readAt e) s.deletions] at hdel
      rcases List.mem_append.mp hdel with hearly | hdrop
      · exact (hs.phases p ph hold).readAt hearly hlate.1
      · exact hlate.2 hdrop
  | delete p e row check hold =>
    obtain ⟨-, hcheck⟩ := hs.phases p _ hold
    have hno : ¬ s.LateRun e check ∧ ¬ s.LateSnapshot rt e check ∧
        ¬ s.SharedReference rt e row := by
      refine ⟨fun h => hpurge ?_, fun h => hpurge ?_, fun h => hpurge ?_⟩
      · exact ⟨p, e, row, check, rfl, .inl ⟨hold, .inl h⟩⟩
      · exact ⟨p, e, row, check, rfl, .inl ⟨hold, .inr (.inl h)⟩⟩
      · exact ⟨p, e, row, check, rfl, .inl ⟨hold, .inr (.inr h)⟩⟩
    refine safe_purgeStorage hsafe ?_ hno.2.2
    rintro - - (⟨kind, hkind⟩ | hsnapshot)
    · obtain ⟨r, hr, hid⟩ := List.any_eq_true.mp hkind
      rw [← List.take_append_drop (check.runs kind) (s.runs kind).committed] at hr
      rcases List.mem_append.mp hr with hr | hr
      · exact hcheck.runs kind r hr (by simpa using hid)
      · exact hno.1 ⟨kind, r, hr, by simpa using hid⟩
    · obtain ⟨r, hr, hcontains⟩ := List.any_eq_true.mp hsnapshot
      rw [← List.take_append_drop check.snapshots s.snapshots.committed] at hr
      rcases List.mem_append.mp hr with hr | hr
      · rw [hcheck.snapshots r hr] at hcontains
        cases hcontains
      · exact hno.2.1 ⟨r, hr, hcontains⟩
  | sweep p pass e row n m k hold =>
    obtain ⟨hpicked, hcheck⟩ := hs.phases p _ hold
    have hno : ¬ s.LateSnapshot rt e (.done n m k) ∧ ¬ s.SharedReference rt e row := by
      refine ⟨fun h => hpurge ?_, fun h => hpurge ?_⟩
      · exact ⟨p, e, row, _, rfl, .inr ⟨pass, n, m, k, rfl, hold, .inl h⟩⟩
      · exact ⟨p, e, row, _, rfl, .inr ⟨pass, n, m, k, rfl, hold, .inr h⟩⟩
    refine safe_purgeStorage hsafe ?_ hno.2
    rintro - - (⟨kind, hkind⟩ | hsnapshot)
    · rw [hpicked.runs kind (by cases kind <;> rfl)] at hkind
      cases hkind
    · obtain ⟨r, hr, hcontains⟩ := List.any_eq_true.mp hsnapshot
      rw [← List.take_append_drop (Check.done n m k).snapshots s.snapshots.committed] at hr
      rcases List.mem_append.mp hr with hr | hr
      · rw [hcheck.snapshots r hr] at hcontains
        cases hcontains
      · exact hno.1 ⟨r, hr, hcontains⟩

/-- A late reference is to bytes that are gone. -/
lemma PurgeInv.lateReference (hs : PurgeInv rt s) {a : Action} (h : LateReference rt s a) :
    ∃ s', step rt s a = some s' ∧ ¬ PurgeSafe rt s' := by
  obtain ⟨p, ph, next, e, row, rfl, hold, hnext, hnames, hrow, d, hd, hversion, -⟩ := h
  refine ⟨s.commit p next, ?_, ?_⟩
  · rw [Purge.step, hold, Option.bind_some, Purge.processStep, hnext]
    rfl
  · intro hsafe
    obtain ⟨cur, hcur, hsame, -⟩ := hs.rows_commit hold hrow
    exact hsafe e cur hcur ((hs.refers_commit hold e).mpr (.inr (inserted_of_names hnames)))
      ⟨d, hd, hversion.trans hsame.symm⟩

/-- Bytes that a purge deletes are gone. -/
lemma gone_purgeStorage : (s.purgeStorage p e row ph).Gone row :=
  ⟨⟨e, row.version⟩, List.mem_append_right _ (List.mem_singleton_self _), rfl⟩

/-- The deletion of the version of a row that is referred to is not safe. -/
lemma not_safe_purgeStorage {e' : EvidenceId} {cur : Evidence PyStr}
    (hcur : Dict.get? s.evidence.committed e' = some cur) (hversion : cur.version = row.version)
    (hrefers : s.Refers rt e') : ¬ PurgeSafe rt (s.purgeStorage p e row ph) := by
  intro hsafe
  obtain ⟨d, hd, hgone⟩ : (s.purgeStorage p e row ph).Gone row := gone_purgeStorage
  exact hsafe e' cur hcur hrefers ⟨d, hd, hgone.trans hversion.symm⟩

/-- A late run refers to the evidence. -/
lemma State.LateRun.refers {check : Check} (h : s.LateRun e check) : s.Refers rt e := by
  obtain ⟨kind, r, hr, hid⟩ := h
  exact .inl ⟨kind, List.any_eq_true.mpr ⟨r, List.mem_of_mem_drop hr, by simpa using hid⟩⟩

/-- A late snapshot refers to the evidence. -/
lemma State.LateSnapshot.refers {check : Check} (h : s.LateSnapshot rt e check) :
    s.Refers rt e := by
  obtain ⟨r, hr, hcontains⟩ := h
  exact .inr (List.any_eq_true.mpr ⟨r, List.mem_of_mem_drop hr, hcontains⟩)

/-- A late purge deletes bytes that are referred to. -/
lemma PurgeInv.latePurge (hs : PurgeInv rt s) {a : Action} (h : LatePurge rt s a) :
    ∃ s', step rt s a = some s' ∧ ¬ PurgeSafe rt s' := by
  obtain ⟨p, e, row, check, rfl, hlate⟩ := h
  rcases hlate with ⟨hold, hlate⟩ | ⟨pass, n, m, k, rfl, hold, hlate⟩
  · obtain ⟨⟨cur, hcur, hversion, -⟩, -⟩ := hs.phases p _ hold
    refine ⟨s.purgeStorage p e row (.purged e), ?_, ?_⟩
    · rw [Purge.step, hold]
      rfl
    · rcases hlate with hrun | hsnapshot | ⟨e', row', -, hrow', hsame, hrefers⟩
      · exact not_safe_purgeStorage hcur hversion hrun.refers
      · exact not_safe_purgeStorage hcur hversion hsnapshot.refers
      · exact not_safe_purgeStorage hrow' hsame hrefers
  · obtain ⟨hpicked, -⟩ := hs.phases p _ hold
    refine ⟨s.purgeStorage p e row (.cleared pass e row), ?_, ?_⟩
    · rw [Purge.step, hold]
      rfl
    · rcases hlate with hsnapshot | ⟨e', row', -, hrow', hsame, hrefers⟩
      · exact not_safe_purgeStorage hpicked.committed rfl hsnapshot.refers
      · exact not_safe_purgeStorage hrow' hsame hrefers

lemma purgeSafe_init : PurgeSafe rt .init := by
  intro e row hrow
  cases hrow

/-- **The purges of a run are safe** if and only if none of its steps commits a late reference or
deletes bytes too late. -/
theorem purgeSafe_iff (rt : PyRuntime) (as : List Action) :
    EveryState (step rt) (PurgeSafe rt) .init as ↔
      EveryStep (step rt) (fun s a => ¬ LateReference rt s a ∧ ¬ LatePurge rt s a) .init as := by
  constructor
  · intro hall pre a post s has hs
    have hinv : PurgeInv rt s := by
      refine run_invariant (P := fun _ _ => True) ?_ purgeInv_init (fun _ _ _ _ _ _ => trivial) hs
      intro u b u' hu _ hstep
      exact (purgeInv_step hu hstep).1
    constructor
    · intro hlate
      obtain ⟨s', hstep, hunsafe⟩ := hinv.lateReference hlate
      exact hunsafe (hall.next has hs hstep)
    · intro hlate
      obtain ⟨s', hstep, hunsafe⟩ := hinv.latePurge hlate
      exact hunsafe (hall.next has hs hstep)
  · intro hrun
    refine everyState_of_everyStep (I := fun u => PurgeInv rt u ∧ PurgeSafe rt u) ?_
      (fun _ hu => hu.2) ⟨purgeInv_init, purgeSafe_init⟩ hrun
    rintro u b u' ⟨hinv, hsafe⟩ ⟨hreference, hpurge⟩ hstep
    obtain ⟨hinv', heffect⟩ := purgeInv_step hinv hstep
    exact ⟨hinv', hinv.safe hsafe hreference hpurge heffect⟩

/-! ## A run of the OCR between the check and the purge -/

/-- The log of an incident, with its bytes stored. -/
def storedLog : Evidence PyStr where
  incidentId := none
  evidenceType := .log
  bucket := py "noc-evidence"
  objectKey := py "log.txt"
  originalFilename := py "log.txt"
  mimeType := none
  byteSize := some 7
  sha256 := some (py "00")
  versionId := some 1
  uploadedBy := none
  lifecycleState := .active
  deletedAt := none

def evidenceA : EvidenceId := ⟨[97], Storage.noSlash_a⟩

/-- The row is deleted by a request that has read no reference to it, and an OCR run that has read
it as active is committed before it is marked. -/
def ocrDuringDelete : List Action :=
  [.addEvidence evidenceA storedLog, .deleteEvidence 0 evidenceA, .process 0 .check,
    .process 0 .check, .process 0 .check, .runOcr 1 evidenceA, .process 1 (.insertRun 5),
    .process 1 .commit, .process 0 .flush, .process 0 .commit, .process 0 .purgeStorage]

/-- The state of a run in which one row has been added: the row, whether an OCR run refers to it,
and the versions that have been deleted. -/
def summaryAfter (rt : PyRuntime) (as : List Action) :
    Option (Option (Evidence PyStr) × Bool × List (ObjectName × Option ℕ)) :=
  (run (step rt) .init as).map fun s =>
    (Dict.get? s.evidence.committed evidenceA, s.refersRun .ocr evidenceA,
      s.deletions.map (·.version))

/-- A purge can delete bytes that are referred to: after `ocrDuringDelete` the bytes of the row are
gone, and an OCR run refers to it. -/
theorem not_purgeSafe :
    ¬ ∀ rt : PyRuntime, ∀ as : List Action, EveryState (step rt) (PurgeSafe rt) .init as := by
  intro h
  let rt : PyRuntime := ⟨fun _ => [], fun _ => none, fun _ => []⟩
  have hsummary : summaryAfter rt ocrDuringDelete =
      some (some { storedLog with lifecycleState := .purgePending, deletedAt := some 0 }, true,
        [storedLog.version]) := by decide
  obtain ⟨s, hs, hsummary⟩ := Option.map_eq_some_iff.mp hsummary
  simp only [Prod.mk.injEq] at hsummary
  obtain ⟨hrow, hrefers, hdeletions⟩ := hsummary
  refine h rt ocrDuringDelete ocrDuringDelete [] s (List.append_nil _).symm hs evidenceA _ hrow
    (.inl ⟨.ocr, hrefers⟩) ?_
  obtain ⟨d, hd, hversion⟩ : ∃ d ∈ s.deletions, d.version = storedLog.version :=
    List.mem_map.mp (hdeletions ▸ List.mem_singleton_self _)
  exact ⟨d, hd, hversion⟩

end Purge
