import Mathlib.Logic.Function.Basic
import NocReport.Foundation.ReadCommitted
import NocReport.Foundation.Transition

set_option relaxedAutoImplicit false
set_option autoImplicit false

/-!
# Shifts

The requests of `shifts.py` that write the table `shifts`: `open_shift` ends the active shift and
inserts a new one, and `close_shift` ends the shift it names. Both read a shift without a lock and
end it later, by an `UPDATE` whose `WHERE` clause names its id alone. Every request is one
transaction at READ COMMITTED, taken statement by statement; it can fail and roll back before any
of them, as it does where the index `uq_shifts_one_active` refuses the new shift.

## Main definitions

* `Shifts.Shift` — a row of `shifts`.
* `Shifts.State`, `Shifts.Action`, `Shifts.step` — the system.
* `Shifts.ShiftInv` — what the requests have written, and that one shift is active at most.
* `Shifts.Overwrites` — a request commits another end of a shift that has ended already.

## Main results

* `Shifts.oneActive_run`, `Shifts.ended_run` — in every run at most one shift is active, and none
  that has ended becomes active again.
* `Shifts.ended_immutable_iff` — the ends of the shifts stay what they are along a run exactly when
  no commit of the run overwrites one.
* `Shifts.ended_not_immutable` — along every run they do not.
-/

namespace Shifts

open ReadCommitted Transition

abbrev RequestId := ℕ

abbrev UserId := ℕ

abbrev DefinitionId := ℕ

abbrev ShiftId := ℕ

/-- The states of a shift. -/
inductive ShiftState
  | active | ended
  deriving DecidableEq, Repr

/-- A row of `shifts`, without its id. -/
structure Shift where
  shiftDefinitionId : DefinitionId
  startsAt : ℕ
  endsAt : Option ℕ
  state : ShiftState
  openedBy : Option UserId
  closedBy : Option UserId
  deriving DecidableEq, Repr

/-- The predicate of `uq_shifts_one_active`. -/
def Shift.isActive (row : Shift) : Bool := row.state = .active

/-- What both requests write to the shift they end. -/
def Shift.setEnded (row : Shift) (now : ℕ) (user : UserId) : Shift :=
  { row with state := .ended, endsAt := some now, closedBy := some user }

/-- Where a request is, after its last statement. -/
inductive Phase
  /-- `open_shift`: it has its definition; the active shift is read next -/
  | defined (definition : DefinitionId) (user : UserId)
  /-- `open_shift`: it has read the active shift, and set its end; the new shift comes next -/
  | found (definition : DefinitionId) (user : UserId) (current : Option (ShiftId × ℕ))
  /-- `open_shift`: the flush of the end of the active shift, where there is one, comes next, and
  then that of the new shift -/
  | flushing (definition : DefinitionId) (user : UserId) (startsAt : ℕ)
      (current : Option (ShiftId × ℕ))
  /-- `open_shift`: `commit` comes next -/
  | opened (shift : ShiftId)
  /-- `close_shift`: it has read the shift active, and set its end; the flush comes next -/
  | closing (shift : ShiftId) (user : UserId) (now : ℕ)
  /-- `close_shift`: `commit` comes next -/
  | closed (shift : ShiftId)
  deriving DecidableEq, Repr

/-- The state of the system. -/
structure State where
  /-- the time every `datetime.now` reads -/
  clock : ℕ
  /-- the shift definitions in the order of their names, each enabled or not -/
  definitions : Dict DefinitionId Bool
  shifts : Table RequestId ShiftId Shift
  requests : RequestId → Option Phase

/-- The empty system. -/
def State.init : State where
  clock := 0
  definitions := []
  shifts := .ofRows []
  requests := fun _ => none

/-- What can happen. -/
inductive Action
  | tick
  | setDefinitions (definitions : Dict DefinitionId Bool)
  /-- an `open_shift` looks up its definition -/
  | openShift (r : RequestId) (user : UserId) (definition : Option DefinitionId)
  /-- a `close_shift` reads its shift -/
  | closeShift (r : RequestId) (user : UserId) (shift : ShiftId)
  /-- the next statement of a request, where it inserts nothing -/
  | proceed (r : RequestId)
  /-- the flush of a new shift -/
  | insert (r : RequestId) (shift : ShiftId)
  | commit (r : RequestId)
  /-- a request fails: an error, a lost connection, or a constraint that is violated -/
  | abort (r : RequestId)
  deriving DecidableEq, Repr

section Step

variable (s : State) (r : RequestId)

/-- Request `r` goes on in phase `p`, with the table as its statement leaves it. -/
@[simps]
def State.goOn (shifts : Table RequestId ShiftId Shift) (p : Phase) : State :=
  { s with shifts, requests := Function.update s.requests r (some p) }

/-- Request `r` ends without a commit. -/
@[simps]
def State.fail : State :=
  { s with shifts := s.shifts.rollback r, requests := Function.update s.requests r none }

/-- Request `r` ends with a commit. -/
@[simps]
def State.finish : State :=
  { s with shifts := s.shifts.commit r, requests := Function.update s.requests r none }

/-- The definition of a new shift: the one that is asked for, or else the first that is enabled. -/
def State.definitionFor : Option DefinitionId → Option DefinitionId
  | some definition => (Dict.get? s.definitions definition).map fun _ => definition
  | none => (s.definitions.find? (·.2)).map (·.1)

/-- The shift that a read of the active one finds. -/
def State.current : Option ShiftId := (s.shifts.committed.find? (·.2.isActive)).map (·.1)

/-- The row of a new shift. -/
def newShift (definition : DefinitionId) (user : UserId) (startsAt : ℕ) : Shift where
  shiftDefinitionId := definition
  startsAt := startsAt
  endsAt := none
  state := .active
  openedBy := some user
  closedBy := none

/-- The next statement of a request, where it inserts nothing. -/
def proceed : Phase → Option State
  | .defined definition user =>
    some (s.goOn r s.shifts (.found definition user (s.current.map fun shift => (shift, s.clock))))
  | .found definition user current =>
    some (s.goOn r s.shifts (.flushing definition user s.clock current))
  | .flushing definition user startsAt (some (shift, now)) =>
    (s.shifts.update? r shift fun row => row.setEnded now user).map fun shifts =>
      s.goOn r shifts (.flushing definition user startsAt none)
  | .closing shift user now =>
    (s.shifts.update? r shift fun row => row.setEnded now user).map fun shifts =>
      s.goOn r shifts (.closed shift)
  | _ => none

/-- The flush of a new shift. -/
def insert (shift : ShiftId) : Phase → Option State
  | .flushing definition user startsAt none =>
    if s.shifts.admits r Shift.isActive then
      (s.shifts.insert? r shift (newShift definition user startsAt)).map fun shifts =>
        s.goOn r shifts (.opened shift)
    else none
  | _ => none

/-- The commit of a request. -/
def commit : Phase → Option State
  | .opened _ | .closed _ => some (s.finish r)
  | _ => none

/-- One step of the system. -/
def step : Action → Option State
  | .tick => some { s with clock := s.clock + 1 }
  | .setDefinitions definitions => some { s with definitions }
  | .openShift r user definition =>
    match s.requests r, s.definitionFor definition with
    | none, none => some s
    | none, some definition => some (s.goOn r s.shifts (.defined definition user))
    | some _, _ => none
  | .closeShift r user shift =>
    match s.requests r, Dict.get? s.shifts.committed shift with
    | none, none => some s
    | none, some row =>
      if row.state ≠ .active then some s
      else some (s.goOn r s.shifts (.closing shift user s.clock))
    | some _, _ => none
  | .proceed r => (s.requests r).bind (proceed s r)
  | .insert r shift => (s.requests r).bind (insert s r shift)
  | .commit r => (s.requests r).bind (commit s r)
  | .abort r => (s.requests r).map fun _ => s.fail r

end Step

/-! ## What the requests have written -/

variable {s s' : State} {r : RequestId} {T : Table RequestId ShiftId Shift} {p : Phase}
  {a : Action}

/-- At most one shift is active. -/
def OneActive (s : State) : Prop :=
  ∀ i j row row', Dict.get? s.shifts.committed i = some row →
    Dict.get? s.shifts.committed j = some row' → row.isActive = true → row'.isActive = true → i = j

/-- Request `r` has written an active row of shift `k`. -/
def State.Opens (s : State) (r : RequestId) (k : ShiftId) : Prop :=
  ∃ row, s.shifts.pending r k = some (some row) ∧ row.isActive = true

/-- The invariant of the requests: only a request that is about to commit a new shift has written
an active row; there is one such request, and it has ended the shift that is active. -/
structure ShiftInv (s : State) : Prop where
  idle : ∀ r, s.requests r = none → ∀ k, s.shifts.pending r k = none
  kept : ∀ r k, s.shifts.pending r k ≠ some none
  opens : ∀ r k, s.Opens r k → s.requests r = some (.opened k) ∧
    Dict.get? s.shifts.committed k = none
  opened : ∀ r k, s.requests r = some (.opened k) → s.Opens r k
  supersedes : ∀ r k, s.requests r = some (.opened k) → ∀ i row,
    Dict.get? s.shifts.committed i = some row → row.isActive = true →
      s.shifts.pending r i ≠ none
  alone : ∀ r u i k, s.Opens r i → s.Opens u k → r = u
  oneActive : OneActive s

lemma shiftInv_init : ShiftInv .init := by
  constructor <;> simp [State.init, State.Opens, OneActive]

/-- What a request has written is the same where the table is moved by another. -/
lemma State.opens_congr {u : RequestId} {k : ShiftId}
    (h : s'.shifts.pending u k = s.shifts.pending u k) : s'.Opens u k ↔ s.Opens u k := by
  rw [State.Opens, State.Opens, h]

/-- A statement that commits nothing preserves the invariant, where it has not written an active
row, or it has as the only one and ended the shift that is active. -/
lemma ShiftInv.goOn (hs : ShiftInv s) (hmoved : s.shifts.MovedBy r T)
    (hcommitted : T.committed = s.shifts.committed) (hkept : ∀ k, T.pending r k ≠ some none)
    (hopens : ∀ k, (s.goOn r T p).Opens r k → p = .opened k ∧
      Dict.get? s.shifts.committed k = none ∧ ∀ u i, u ≠ r → ¬ s.Opens u i)
    (hopened : ∀ k, p = .opened k → (s.goOn r T p).Opens r k ∧ ∀ i row,
      Dict.get? s.shifts.committed i = some row → row.isActive = true → T.pending r i ≠ none) :
    ShiftInv (s.goOn r T p) := by
  have hother : ∀ {u k}, u ≠ r → ((s.goOn r T p).Opens u k ↔ s.Opens u k) := fun hu =>
    State.opens_congr (hmoved.pending _ hu _)
  constructor
  · intro u hu k
    by_cases hur : u = r
    · simp [hur] at hu
    · rw [State.goOn_shifts, hmoved.pending u hur]
      exact hs.idle u (by simpa [hur] using hu) k
  · intro u k
    by_cases hur : u = r
    · rw [hur]
      exact hkept k
    · rw [State.goOn_shifts, hmoved.pending u hur]
      exact hs.kept u k
  · intro u k hu
    rw [State.goOn_shifts, hcommitted]
    by_cases hur : u = r
    · subst hur
      obtain ⟨rfl, hnew, -⟩ := hopens k hu
      exact ⟨by simp, hnew⟩
    · obtain ⟨hphase, hnew⟩ := hs.opens u k ((hother hur).mp hu)
      exact ⟨by simpa [hur] using hphase, hnew⟩
  · intro u k hu
    by_cases hur : u = r
    · subst hur
      exact (hopened k (by simpa using hu)).1
    · exact (hother hur).mpr (hs.opened u k (by simpa [hur] using hu))
  · intro u k hu i row hi hactive
    rw [State.goOn_shifts, hcommitted] at hi
    by_cases hur : u = r
    · subst hur
      exact (hopened k (by simpa using hu)).2 i row hi hactive
    · rw [State.goOn_shifts, hmoved.pending u hur]
      exact hs.supersedes u k (by simpa [hur] using hu) i row hi hactive
  · intro u v i k hu hv
    by_cases hur : u = r
    · subst hur
      by_contra hvu
      exact (hopens i hu).2.2 v k (Ne.symm hvu) ((hother (Ne.symm hvu)).mp hv)
    · by_cases hvr : v = r
      · subst hvr
        exact absurd ((hother hur).mp hu) ((hopens k hv).2.2 u i hur)
      · exact hs.alone u v i k ((hother hur).mp hu) ((hother hvr).mp hv)
  · intro i j row row' hi hj
    rw [State.goOn_shifts, hcommitted] at hi hj
    exact hs.oneActive i j row row' hi hj

/-- A statement that writes nothing preserves the invariant. -/
lemma ShiftInv.goOn_read (hs : ShiftInv s) (hr : ∀ k, s.requests r ≠ some (.opened k))
    (hp : ∀ k, p ≠ .opened k) : ShiftInv (s.goOn r s.shifts p) := by
  refine hs.goOn .refl rfl (hs.kept r) ?_ (fun k hk => absurd hk (hp k))
  intro k hk
  exact absurd (hs.opens r k hk).1 (hr k)

/-- The end of a shift preserves the invariant. -/
lemma ShiftInv.goOn_setEnded {shift : ShiftId} {now : ℕ} {user : UserId} (hs : ShiftInv s)
    (hr : ∀ k, s.requests r ≠ some (.opened k)) (hp : ∀ k, p ≠ .opened k)
    (hT : s.shifts.update? r shift (fun row => row.setEnded now user) = some T) :
    ShiftInv (s.goOn r T p) := by
  obtain ⟨row, hrow, hg, hm, rfl⟩ := Table.update?_eq_some.mp hT
  refine hs.goOn (Table.movedBy_write hg hm) rfl ?_ ?_ (fun k hk => absurd hk (hp k))
  · intro k
    rw [Table.pending_write]
    split
    · simp
    · exact hs.kept r k
  · rintro k ⟨row', hrow', hactive⟩
    rw [State.goOn_shifts, Table.pending_write] at hrow'
    split at hrow'
    · cases hrow'
      cases hactive
    · exact absurd (hs.opens r k ⟨row', hrow', hactive⟩).1 (hr k)

/-- The insertion of a new shift preserves the invariant: the index lets it in only where no other
request has an active row, and where the request has ended the shift that is active. -/
lemma ShiftInv.goOn_insert {shift : ShiftId} {row : Shift} (hs : ShiftInv s)
    (hr : ∀ k, s.requests r ≠ some (.opened k)) (hactive : row.isActive = true)
    (hindex : s.shifts.admits r Shift.isActive = true)
    (hT : s.shifts.insert? r shift row = some T) : ShiftInv (s.goOn r T (.opened shift)) := by
  obtain ⟨hnone, hg, hm, rfl⟩ := Table.insert?_eq_some.mp hT
  obtain ⟨hseen, hothers⟩ := Table.admits_spec hindex
  have hfresh : s.shifts.pending r shift = none ∧
      Dict.get? s.shifts.committed shift = none := by
    cases hp : s.shifts.pending r shift with
    | none => exact ⟨rfl, by simpa [Table.read, hp] using hnone⟩
    | some x =>
      rw [Table.read, hp] at hnone
      exact absurd (hp.trans (congrArg some hnone)) (hs.kept r shift)
  refine hs.goOn (Table.movedBy_write hg hm) rfl ?_ ?_ ?_
  · intro k
    rw [Table.pending_write]
    split
    · simp
    · exact hs.kept r k
  · rintro k ⟨row', hrow', hactive'⟩
    rw [State.goOn_shifts, Table.pending_write] at hrow'
    split at hrow'
    · next hk =>
      obtain ⟨-, rfl⟩ := hk
      refine ⟨rfl, hfresh.2, ?_⟩
      rintro u i hu ⟨row'', hrow'', hactive''⟩
      rw [hothers u hu i row'' hrow''] at hactive''
      cases hactive''
    · exact absurd (hs.opens r k ⟨row', hrow', hactive'⟩).1 (hr k)
  · rintro k hk
    cases hk
    refine ⟨⟨row, by simp, hactive⟩, ?_⟩
    intro i row' hi hactive' hnone'
    rw [Table.pending_write] at hnone'
    split at hnone'
    · cases hnone'
    · have hread : s.shifts.read r i = some row' := by
        rw [Table.read, hnone']
        exact hi
      rw [hseen i row' hread] at hactive'
      cases hactive'

/-- The end of a request preserves the invariant, where what is committed then does not disturb
the other requests. -/
lemma ShiftInv.ends (hs : ShiftInv s) (hrequests : s'.requests = Function.update s.requests r none)
    (hpending : ∀ u k, s'.shifts.pending u k = if u = r then none else s.shifts.pending u k)
    (hnew : ∀ u k, u ≠ r → s.Opens u k → Dict.get? s'.shifts.committed k = none)
    (hactive : ∀ u k, u ≠ r → s.requests u = some (.opened k) → ∀ i row,
      Dict.get? s'.shifts.committed i = some row → row.isActive = true →
        s.shifts.pending u i ≠ none)
    (hone : OneActive s') : ShiftInv s' := by
  have hother : ∀ u k, s'.Opens u k ↔ u ≠ r ∧ s.Opens u k := by
    intro u k
    by_cases hu : u = r
    · simp [State.Opens, hpending, hu]
    · simp [State.Opens, hpending, hu]
  have hphase : ∀ u k, s'.requests u = some (.opened k) →
      u ≠ r ∧ s.requests u = some (.opened k) := by
    intro u k hu
    rw [hrequests] at hu
    by_cases hur : u = r
    · simp [hur] at hu
    · exact ⟨hur, by simpa [hur] using hu⟩
  constructor
  · intro u hu k
    rw [hrequests] at hu
    rw [hpending]
    split
    · rfl
    · next hur => exact hs.idle u (by simpa [hur] using hu) k
  · intro u k
    rw [hpending]
    split
    · simp
    · exact hs.kept u k
  · intro u k hu
    obtain ⟨hur, hu⟩ := (hother u k).mp hu
    refine ⟨?_, hnew u k hur hu⟩
    rw [hrequests, Function.update_of_ne hur]
    exact (hs.opens u k hu).1
  · intro u k hu
    obtain ⟨hur, hu⟩ := hphase u k hu
    exact (hother u k).mpr ⟨hur, hs.opened u k hu⟩
  · intro u k hu i row hi hrow
    obtain ⟨hur, hu⟩ := hphase u k hu
    rw [hpending, if_neg hur]
    exact hactive u k hur hu i row hi hrow
  · intro u v i k hu hv
    exact hs.alone u v i k ((hother u i).mp hu).2 ((hother v k).mp hv).2
  · exact hone

lemma ShiftInv.fail (hs : ShiftInv s) : ShiftInv (s.fail r) := by
  refine hs.ends (r := r) rfl (fun u k => by simp) ?_ ?_ hs.oneActive
  · intro u k _ hu
    exact (hs.opens u k hu).2
  · intro u k _ hu
    exact hs.supersedes u k hu

/-- What is active after a commit was opened by it, or was active before and not written by it. -/
lemma State.active_finish {k : ShiftId} {row : Shift}
    (hk : Dict.get? (s.finish r).shifts.committed k = some row) (hactive : row.isActive = true) :
    s.Opens r k ∨ s.shifts.pending r k = none ∧ Dict.get? s.shifts.committed k = some row := by
  rw [State.finish_shifts, Table.get?_commit] at hk
  cases hp : s.shifts.pending r k with
  | none =>
    rw [hp] at hk
    exact .inr ⟨rfl, hk⟩
  | some x =>
    rw [hp] at hk
    exact .inl ⟨row, hp.trans (congrArg some hk), hactive⟩

/-- A commit preserves the invariant: the shift that it opens is the only one that is active. -/
lemma ShiftInv.finish (hs : ShiftInv s) : ShiftInv (s.finish r) := by
  refine hs.ends (r := r) rfl (fun u k => by simp) ?_ ?_ ?_
  · rintro u k hur hu
    have hnew := (hs.opens u k hu).2
    obtain ⟨row, hrow, -⟩ := hu
    rw [State.finish_shifts, (Table.holds_of_pending hrow).get?_commit (Ne.symm hur), hnew]
  · intro u k hur hu i row hi hactive
    rcases State.active_finish hi hactive with hopens | ⟨-, hi⟩
    · exact absurd (hs.alone u r k i (hs.opened u k hu) hopens) hur
    · exact hs.supersedes u k hu i row hi hactive
  · intro i j row row' hi hj hactive hactive'
    rcases State.active_finish hi hactive with hopens | ⟨hnone, hold⟩
    · obtain ⟨hphase, -⟩ := hs.opens r i hopens
      rcases State.active_finish hj hactive' with hopens' | ⟨hnone', hold'⟩
      · have heq := hphase.symm.trans (hs.opens r j hopens').1
        simpa using heq
      · exact absurd hnone' (hs.supersedes r i hphase j row' hold' hactive')
    · rcases State.active_finish hj hactive' with hopens' | ⟨-, hold'⟩
      · exact absurd hnone (hs.supersedes r j (hs.opens r j hopens').1 i row hold hactive)
      · exact hs.oneActive i j row row' hold hold' hactive hactive'

/-! ## What a step commits -/

/-- `commit` comes next. -/
def Phase.flushed : Phase → Bool
  | opened _ | closed _ => true
  | _ => false

lemma commit_eq_some : commit s r p = some s' ↔ p.flushed = true ∧ s.finish r = s' := by
  cases p <;> simp [commit, Phase.flushed]

/-- A step commits nothing, or is the commit of a request. -/
def Commits (s : State) (a : Action) (s' : State) : Prop :=
  s'.shifts.committed = s.shifts.committed ∨
    ∃ r p, a = .commit r ∧ s.requests r = some p ∧ p.flushed = true ∧ s' = s.finish r

/-- Every step preserves the invariant. -/
theorem step_spec (hs : ShiftInv s) (h : step s a = some s') : ShiftInv s' ∧ Commits s a s' := by
  cases a with
  | tick | setDefinitions definitions =>
    cases h
    exact ⟨⟨hs.idle, hs.kept, hs.opens, hs.opened, hs.supersedes, hs.alone, hs.oneActive⟩, .inl rfl⟩
  | openShift r user definition =>
    simp only [step] at h
    split at h
    · cases h
      exact ⟨hs, .inl rfl⟩
    · next definition' hr hdefinition =>
      cases h
      exact ⟨hs.goOn_read (by simp [hr]) (by simp), .inl rfl⟩
    · cases h
  | closeShift r user shift =>
    simp only [step] at h
    split at h
    · cases h
      exact ⟨hs, .inl rfl⟩
    · next row hr hrow =>
      split at h
      · cases h
        exact ⟨hs, .inl rfl⟩
      · cases h
        exact ⟨hs.goOn_read (by simp [hr]) (by simp), .inl rfl⟩
    · cases h
  | proceed r =>
    obtain ⟨p, hr, h⟩ := Option.bind_eq_some_iff.mp h
    unfold proceed at h
    split at h
    · cases h
      exact ⟨hs.goOn_read (by simp [hr]) (by simp), .inl rfl⟩
    · cases h
      exact ⟨hs.goOn_read (by simp [hr]) (by simp), .inl rfl⟩
    · obtain ⟨T, hT, rfl⟩ := Option.map_eq_some_iff.mp h
      exact ⟨hs.goOn_setEnded (by simp [hr]) (by simp) hT, .inl (Table.committed_update? hT)⟩
    · obtain ⟨T, hT, rfl⟩ := Option.map_eq_some_iff.mp h
      exact ⟨hs.goOn_setEnded (by simp [hr]) (by simp) hT, .inl (Table.committed_update? hT)⟩
    · cases h
  | insert r shift =>
    obtain ⟨p, hr, h⟩ := Option.bind_eq_some_iff.mp h
    unfold insert at h
    split at h
    · split at h
      · next hindex =>
        obtain ⟨T, hT, rfl⟩ := Option.map_eq_some_iff.mp h
        exact ⟨hs.goOn_insert (by simp [hr]) rfl hindex hT, .inl (Table.committed_insert? hT)⟩
      · cases h
    · cases h
  | commit r =>
    obtain ⟨p, hr, h⟩ := Option.bind_eq_some_iff.mp h
    obtain ⟨hflushed, rfl⟩ := commit_eq_some.mp h
    exact ⟨hs.finish, .inr ⟨r, p, rfl, hr, hflushed, rfl⟩⟩
  | abort r =>
    obtain ⟨p, -, rfl⟩ := Option.map_eq_some_iff.mp h
    exact ⟨hs.fail, .inl rfl⟩

/-- The invariant holds after every run. -/
lemma shiftInv_run {as : List Action} (h : run step .init as = some s) : ShiftInv s :=
  run_invariant (I := ShiftInv) (P := fun _ _ => True)
    (fun _ _ _ hu _ hstep => (step_spec hu hstep).1) shiftInv_init (fun _ _ _ _ _ _ => trivial) h

/-! ## The ends of the shifts -/

/-- The shift has ended. -/
def State.Ended (s : State) (k : ShiftId) : Prop :=
  ∃ row, Dict.get? s.shifts.committed k = some row ∧ row.state = .ended

/-- The shift has ended, at this time and by this user. -/
def State.EndedBy (s : State) (k : ShiftId) (endsAt : Option ℕ) (closedBy : Option UserId) : Prop :=
  ∃ row, Dict.get? s.shifts.committed k = some row ∧ row.state = .ended ∧ row.endsAt = endsAt ∧
    row.closedBy = closedBy

/-- The action is the commit of a request that has written another end of a shift which has ended
already. -/
def Overwrites (s : State) (a : Action) : Prop :=
  ∃ r p k row old, a = .commit r ∧ s.requests r = some p ∧ p.flushed = true ∧
    s.shifts.pending r k = some (some row) ∧ Dict.get? s.shifts.committed k = some old ∧
    old.state = .ended ∧ (row.endsAt ≠ old.endsAt ∨ row.closedBy ≠ old.closedBy)

/-- What a request has written over a shift that has ended is another end of it. -/
lemma ShiftInv.ended_of_pending (hs : ShiftInv s) {k : ShiftId} {x : Option Shift} {old : Shift}
    (hx : s.shifts.pending r k = some x) (hold : Dict.get? s.shifts.committed k = some old) :
    ∃ row, x = some row ∧ row.state = .ended := by
  cases x with
  | none => exact absurd hx (hs.kept r k)
  | some row =>
    refine ⟨row, rfl, ?_⟩
    cases hstate : row.state with
    | ended => rfl
    | active =>
      have hnew := (hs.opens r k ⟨row, hx, by simp [Shift.isActive, hstate]⟩).2
      rw [hold] at hnew
      cases hnew

/-- A shift that has ended stays so. -/
lemma ended_step (hs : ShiftInv s) (h : step s a = some s') {k : ShiftId} (hk : s.Ended k) :
    s'.Ended k := by
  obtain ⟨old, hold, hended⟩ := hk
  rcases (step_spec hs h).2 with hsame | ⟨r, -, -, -, -, rfl⟩
  · exact ⟨old, by rw [hsame, hold], hended⟩
  · rw [State.Ended, State.finish_shifts, Table.get?_commit]
    cases hp : s.shifts.pending r k with
    | none => exact ⟨old, hold, hended⟩
    | some x =>
      obtain ⟨row, rfl, hrow⟩ := hs.ended_of_pending hp hold
      exact ⟨row, rfl, hrow⟩

/-- Its end stays what it is where it is not overwritten. -/
lemma endedBy_step (hs : ShiftInv s) (ha : ¬ Overwrites s a) (h : step s a = some s') {k : ShiftId}
    {endsAt : Option ℕ} {closedBy : Option UserId} (hk : s.EndedBy k endsAt closedBy) :
    s'.EndedBy k endsAt closedBy := by
  obtain ⟨old, hold, hended, rfl, rfl⟩ := hk
  rcases (step_spec hs h).2 with hsame | ⟨r, p, rfl, hr, hflushed, rfl⟩
  · exact ⟨old, by rw [hsame, hold], hended, rfl, rfl⟩
  · rw [State.EndedBy, State.finish_shifts, Table.get?_commit]
    cases hp : s.shifts.pending r k with
    | none => exact ⟨old, hold, hended, rfl, rfl⟩
    | some x =>
      obtain ⟨row, rfl, hrow⟩ := hs.ended_of_pending hp hold
      refine ⟨row, rfl, hrow, ?_, ?_⟩
      · by_contra hne
        exact ha ⟨r, p, k, row, old, rfl, hr, hflushed, hp, hold, hended, .inl hne⟩
      · by_contra hne
        exact ha ⟨r, p, k, row, old, rfl, hr, hflushed, hp, hold, hended, .inr hne⟩

/-- A commit that overwrites the end of a shift changes it. -/
lemma Overwrites.changes (ha : Overwrites s a) :
    ∃ s', step s a = some s' ∧ ∃ k endsAt closedBy, s.EndedBy k endsAt closedBy ∧
      ¬ s'.EndedBy k endsAt closedBy := by
  obtain ⟨r, p, k, row, old, rfl, hr, hflushed, hp, hold, hended, hne⟩ := ha
  refine ⟨s.finish r, ?_, k, old.endsAt, old.closedBy, ⟨old, hold, hended, rfl, rfl⟩, ?_⟩
  · rw [step, hr]
    exact commit_eq_some.mpr ⟨hflushed, rfl⟩
  · rintro ⟨new, hnew, -, hends, hcloses⟩
    rw [State.finish_shifts, Table.get?_commit, hp] at hnew
    cases hnew
    rcases hne with hne | hne
    · exact hne hends
    · exact hne hcloses

/-- **At most one shift is active** in every state of every run. -/
theorem oneActive_run (as : List Action) : EveryState step OneActive .init as :=
  everyState_of_everyStep (P := fun _ _ => True) (fun _ _ _ hu _ hstep => (step_spec hu hstep).1)
    (fun _ hu => hu.oneActive) shiftInv_init (fun _ _ _ _ _ _ => trivial)

/-- **A shift that has ended** stays so in every run. -/
theorem ended_run (as : List Action) (k : ShiftId) :
    StaysTrue step (fun s => s.Ended k) .init as :=
  staysTrue_of_everyStep (P := fun _ _ => True) (fun _ _ _ hu _ hstep => (step_spec hu hstep).1)
    (fun _ _ _ hu _ hstep hk => ended_step hu hstep hk) shiftInv_init
    (fun _ _ _ _ _ _ => trivial)

/-- **When the ends of shifts are immutable.** Along a run, at most one shift is active, the shifts
that have ended stay ended, and each keeps its end and who closed it, if and only if no request of
the run commits another end of a shift that has ended already. -/
theorem ended_immutable_iff (as : List Action) :
    (EveryState step OneActive .init as ∧
      (∀ k, StaysTrue step (fun s => s.Ended k) .init as) ∧
      ∀ k endsAt closedBy, StaysTrue step (fun s => s.EndedBy k endsAt closedBy) .init as) ↔
      EveryStep step (fun s a => ¬ Overwrites s a) .init as := by
  constructor
  · rintro ⟨-, -, h⟩ pre a post s has hs ha
    obtain ⟨s', hstep, k, endsAt, closedBy, hbefore, hafter⟩ := ha.changes
    exact hafter (everyStep_of_staysTrue (h k endsAt closedBy) pre a post s has hs s' hstep hbefore)
  · intro h
    refine ⟨oneActive_run as, ended_run as, ?_⟩
    intro k endsAt closedBy
    exact staysTrue_of_everyStep (fun _ _ _ hu _ hstep => (step_spec hu hstep).1)
      (fun _ _ _ hu ha hstep hk => endedBy_step hu ha hstep hk) shiftInv_init h

/-- User `0` opens shift `7`. Users `1` and `2` each ask to close it, and both requests read it
active; the one of user `1` commits first, and the other ends the shift again. -/
def closedTwice : List Action :=
  [.setDefinitions [(0, true)], .openShift 0 0 none, .proceed 0, .proceed 0, .insert 0 7, .commit 0,
    .closeShift 1 1 7, .closeShift 2 2 7, .proceed 1, .commit 1, .proceed 2]

/-- How a shift has ended after a run, where it has. -/
def endAfter (as : List Action) (k : ShiftId) : Option (ShiftState × Option ℕ × Option UserId) :=
  ((run step .init as).bind fun s => Dict.get? s.shifts.committed k).map fun row =>
    (row.state, row.endsAt, row.closedBy)

lemma endAfter_eq_ended {as : List Action} {s : State} (hs : run step .init as = some s)
    {k : ShiftId} {endsAt : Option ℕ} {closedBy : Option UserId} :
    endAfter as k = some (.ended, endsAt, closedBy) ↔ s.EndedBy k endsAt closedBy := by
  simp only [endAfter, hs, Option.bind_some, Option.map_eq_some_iff, Prod.mk.injEq, State.EndedBy]

/-- The ends of the shifts are not immutable: after `closedTwice` the shift was closed by user `1`,
and the commit of the other request makes that user `2`. -/
theorem ended_not_immutable :
    ¬ ∀ (as : List Action), EveryState step OneActive .init as ∧
      (∀ k, StaysTrue step (fun s => s.Ended k) .init as) ∧
      ∀ k endsAt closedBy, StaysTrue step (fun s => s.EndedBy k endsAt closedBy) .init as := by
  intro h
  have hbefore : endAfter closedTwice 7 = some (.ended, some 0, some 1) := by decide
  have hafter : endAfter (closedTwice ++ [.commit 2]) 7 = some (.ended, some 0, some 2) := by
    decide
  obtain ⟨row, hrow, -⟩ := Option.map_eq_some_iff.mp hbefore
  obtain ⟨s, hs, -⟩ := Option.bind_eq_some_iff.mp hrow
  obtain ⟨row', hrow', -⟩ := Option.map_eq_some_iff.mp hafter
  obtain ⟨s', hs', -⟩ := Option.bind_eq_some_iff.mp hrow'
  have hlast := hs'
  rw [run_append, hs] at hlast
  have hkept := (h (closedTwice ++ [.commit 2])).2.2 7 (some 0) (some 1) closedTwice [.commit 2] []
    s s' (by simp) hs hlast ((endAfter_eq_ended hs).mp hbefore)
  have heq := (endAfter_eq_ended hs').mpr hkept
  rw [hafter] at heq
  cases heq

end Shifts
