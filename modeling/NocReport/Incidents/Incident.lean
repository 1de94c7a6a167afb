import NocReport.Foundation.Text
import NocReport.Foundation.Transactions
import NocReport.Foundation.Transition

set_option relaxedAutoImplicit false
set_option autoImplicit false

/-!
# Incidents

The requests of `incidents.py` that write the table `incidents`: `create_incident` inserts a row and
`update_incident` changes some fields of one. Both check that a recovered incident, and no other,
says when it recovered. An update checks this of the row it has read with its payload laid over it;
the `UPDATE` it sends later names only the columns whose values differ from the ones read. Every
request is one transaction at READ COMMITTED, taken statement by statement; it can fail and roll
back before any of them.

## Main definitions

* `Incidents.Incident` — a row of `incidents`; `Incidents.Incident.Consistent` — it has a time of
  recovery exactly when it has recovered.
* `Incidents.IncidentUpdate` — a partial payload.
* `Incidents.State`, `Incidents.Action`, `Incidents.step` — the system.
* `Incidents.IncidentInv` — what the requests have checked and written.
* `Incidents.Stale` — a commit of one of the two columns, while the other is not what was checked.

## Main results

* `Incidents.consistent_iff` — all committed rows are consistent along a run exactly when no commit
  of the run is stale.
* `Incidents.not_consistent` — along every run they are not.
-/

namespace Incidents

open ReadCommitted Transition

abbrev RequestId := ℕ

abbrev UserId := ℕ

abbrev ShiftId := ℕ

abbrev IncidentId := ℕ

/-- The statuses of an incident. -/
inductive IncidentStatus
  | «open» | investigating | recovered
  deriving DecidableEq, Repr

/-- A row of `incidents`, without its id and the times of its creation and its last update. -/
structure Incident where
  /-- the number in the display id `INC-…` -/
  displayId : ℕ
  shiftId : Option ShiftId
  title : PyStr
  service : PyStr
  environment : PyStr
  status : IncidentStatus
  alertSource : Option PyStr
  triggeredAt : ℕ
  recoveredAt : Option ℕ
  triggerValue : Option PyStr
  teamsUrl : Option PyStr
  grafanaUrl : Option PyStr
  notes : Option PyStr
  createdBy : Option UserId
  updatedBy : Option UserId
  deriving DecidableEq, Repr

/-- It has a time of recovery exactly when it has recovered. -/
def Incident.Consistent (row : Incident) : Prop :=
  row.status = .recovered ↔ row.recoveredAt.isSome = true

instance (row : Incident) : Decidable row.Consistent := inferInstanceAs (Decidable (_ ↔ _))

/-! ## Payloads -/

/-- A text that is not empty and not too long. -/
abbrev Limited (n : ℕ) := {text : PyStr // 1 ≤ text.length ∧ text.length ≤ n}

/-- A time in a payload. One without an offset is taken to be in the time zone of the database
session, and equals no time that was read from it. -/
structure GivenTime where
  instant : ℕ
  naive : Bool
  deriving DecidableEq, Repr

/-- `IncidentCreate`. -/
structure IncidentCreate where
  title : Limited 500
  service : Limited 200
  environment : Limited 100
  status : IncidentStatus
  alertSource : Option PyStr
  triggeredAt : GivenTime
  recoveredAt : Option GivenTime
  triggerValue : Option PyStr
  teamsUrl : Option PyStr
  grafanaUrl : Option PyStr
  notes : Option PyStr
  deriving DecidableEq, Repr

/-- `IncidentUpdate` without the fields that are not set; the inner `none` is an explicit `null`. -/
structure IncidentUpdate where
  title : Option (Option (Limited 500)) := none
  status : Option (Option IncidentStatus) := none
  recoveredAt : Option (Option GivenTime) := none
  notes : Option (Option PyStr) := none
  deriving DecidableEq, Repr

/-- What both requests refuse with a 422. -/
def recoveryError {α : Type} (status : Option IncidentStatus) (recoveredAt : Option α) :
    Option String :=
  if status = some .recovered ∧ recoveredAt.isNone then
    some "Recovered incidents require recovered_at."
  else if status ≠ some .recovered ∧ recoveredAt.isSome then
    some "Only recovered incidents may have recovered_at."
  else none

/-- The row of a new incident. -/
def newIncident (body : IncidentCreate) (user : UserId) (shift : Option ShiftId)
    (displayId : ℕ) : Incident where
  displayId := displayId
  shiftId := shift
  title := body.title.val
  service := body.service.val
  environment := body.environment.val
  status := body.status
  alertSource := body.alertSource
  triggeredAt := body.triggeredAt.instant
  recoveredAt := body.recoveredAt.map (·.instant)
  triggerValue := body.triggerValue
  teamsUrl := body.teamsUrl
  grafanaUrl := body.grafanaUrl
  notes := body.notes
  createdBy := some user
  updatedBy := some user

namespace IncidentUpdate

section Columns

variable (body : IncidentUpdate) (loaded : Incident) (user : UserId)

/-- `changes.get("status", incident.status)`. -/
def nextStatus : Option IncidentStatus := body.status.getD (some loaded.status)

/-- `changes.get("recovered_at", incident.recovered_at)`. -/
def nextRecoveredAt : Option ℕ :=
  (body.recoveredAt.map fun given => given.map (·.instant)).getD loaded.recoveredAt

/-- A `null` for a column that takes none. -/
def hasNull : Bool := body.title = some none || body.status = some none

/-- The `UPDATE` names the column `title`. -/
def writesTitle : Bool := body.title.any fun given => given.map (·.val) ≠ some loaded.title

/-- The `UPDATE` names the column `status`. -/
def writesStatus : Bool := body.status.any fun given => given ≠ some loaded.status

/-- The `UPDATE` names the column `recovered_at`. -/
def writesRecoveredAt : Bool := body.recoveredAt.any fun given =>
  given.any (·.naive) || given.map (·.instant) ≠ loaded.recoveredAt

/-- The `UPDATE` names the column `notes`. -/
def writesNotes : Bool := body.notes.any fun given => given ≠ loaded.notes

/-- The `UPDATE` names the column `updated_by`. -/
def writesUpdatedBy : Bool := loaded.updatedBy ≠ some user

/-- There is a column for an `UPDATE` to name. -/
def writesSome : Bool :=
  body.writesTitle loaded || body.writesStatus loaded || body.writesRecoveredAt loaded ||
    body.writesNotes loaded || writesUpdatedBy loaded user

/-- What the `UPDATE` makes of a row. -/
def apply (row : Incident) : Incident :=
  { row with
    title := if body.writesTitle loaded then (body.title.join.map (·.val)).getD row.title
      else row.title
    status := if body.writesStatus loaded then body.status.join.getD row.status else row.status
    recoveredAt := if body.writesRecoveredAt loaded then body.nextRecoveredAt loaded
      else row.recoveredAt
    notes := if body.writesNotes loaded then body.notes.join else row.notes
    updatedBy := if writesUpdatedBy loaded user then some user else row.updatedBy }

end Columns

end IncidentUpdate

/-! ## The system -/

/-- Where a request is, after its last statement. -/
inductive Phase
  /-- `create_incident`: the payload is checked; it waits for the advisory lock -/
  | creating (body : IncidentCreate) (user : UserId) (shift : Option ShiftId)
  /-- `create_incident`: the display ids are read next -/
  | allocating (body : IncidentCreate) (user : UserId) (shift : Option ShiftId) (attempt : Fin 2)
  /-- `create_incident`: the flush of the new incident comes next -/
  | allocated (body : IncidentCreate) (user : UserId) (shift : Option ShiftId) (attempt : Fin 2)
      (displayId : ℕ)
  /-- `create_incident`: `commit` comes next -/
  | created (incident : IncidentId)
  /-- `update_incident`: the row has been read and the merged state checked; the flush of the
  changes comes next -/
  | updating (incident : IncidentId) (loaded : Incident) (body : IncidentUpdate) (user : UserId)
  /-- `update_incident`: `commit` comes next -/
  | updated (incident : IncidentId) (loaded : Incident) (body : IncidentUpdate) (user : UserId)
  deriving DecidableEq, Repr

/-- The state of the system. -/
structure State where
  /-- the shift that a read of the active one finds -/
  activeShift : Option ShiftId
  /-- the request that has the advisory lock of the display ids -/
  allocation : Option RequestId
  incidents : Table RequestId IncidentId Incident
  requests : RequestId → Option Phase

/-- The empty system. -/
def State.init : State where
  activeShift := none
  allocation := none
  incidents := .ofRows []
  requests := fun _ => none

/-- What can happen. -/
inductive Action
  | setActiveShift (shift : Option ShiftId)
  /-- a `create_incident` reads the active shift and checks its payload -/
  | createIncident (r : RequestId) (user : UserId) (body : IncidentCreate)
  /-- an `update_incident` reads its incident and checks the merged state -/
  | updateIncident (r : RequestId) (user : UserId) (incident : IncidentId) (body : IncidentUpdate)
  /-- the next statement of a request, where it inserts nothing -/
  | proceed (r : RequestId)
  /-- the flush of a new incident -/
  | insert (r : RequestId) (incident : IncidentId)
  /-- the flush of a new incident violates a constraint -/
  | collide (r : RequestId)
  | commit (r : RequestId)
  /-- a request fails: an error, a lost connection, or a constraint that is violated -/
  | abort (r : RequestId)
  deriving DecidableEq, Repr

section Step

variable (s : State) (r : RequestId)

/-- Request `r` goes on in phase `p`, with the table as its statement leaves it. -/
@[simps]
def State.goOn (incidents : Table RequestId IncidentId Incident) (p : Phase) : State :=
  { s with incidents, requests := Function.update s.requests r (some p) }

/-- The advisory lock after the transaction of request `r`. -/
def State.released : Option RequestId := if s.allocation = some r then none else s.allocation

/-- The transaction of request `r` ends without a commit, and its process goes on in a phase or
ends. -/
@[simps]
def State.fail (p : Option Phase) : State :=
  { s with
    allocation := s.released r
    incidents := s.incidents.rollback r
    requests := Function.update s.requests r p }

/-- Request `r` ends with a commit. -/
@[simps]
def State.finish : State :=
  { s with
    allocation := s.released r
    incidents := s.incidents.commit r
    requests := Function.update s.requests r none }

/-- `_next_display_id`. -/
def nextDisplayId : ℕ :=
  (s.incidents.committed.map (·.2.displayId)).foldl max 1000 + 1

/-- The next statement of a request, where it inserts nothing. -/
def proceed : Phase → Option State
  | .creating body user shift =>
    if s.allocation = none then
      some { s.goOn r s.incidents (.allocating body user shift 0) with allocation := some r }
    else none
  | .allocating body user shift attempt =>
    some (s.goOn r s.incidents (.allocated body user shift attempt (nextDisplayId s)))
  | .updating incident loaded body user =>
    if body.hasNull then none
    else if body.writesSome loaded user then
      (s.incidents.update? r incident (body.apply loaded user)).map fun incidents =>
        s.goOn r incidents (.updated incident loaded body user)
    else some (s.goOn r s.incidents (.updated incident loaded body user))
  | _ => none

/-- The flush of a new incident. -/
def insert (incident : IncidentId) : Phase → Option State
  | .allocated body user shift _ displayId =>
    if s.incidents.admits r fun row => row.displayId = displayId then
      (s.incidents.insert? r incident (newIncident body user shift displayId)).map fun incidents =>
        s.goOn r incidents (.created incident)
    else none
  | _ => none

/-- An `IntegrityError` of the flush of a new incident: it is tried once more, without the advisory
lock, which the rollback has given up. -/
def collide : Phase → Option State
  | .allocated body user shift attempt _ =>
    if attempt = 0 then some (s.fail r (some (.allocating body user shift 1)))
    else some (s.fail r none)
  | _ => none

/-- The commit of a request. -/
def commit : Phase → Option State
  | .created _ | .updated .. => some (s.finish r)
  | _ => none

/-- One step of the system. -/
def step : Action → Option State
  | .setActiveShift shift => some { s with activeShift := shift }
  | .createIncident r user body =>
    match s.requests r, recoveryError (some body.status) body.recoveredAt with
    | none, none => some (s.goOn r s.incidents (.creating body user s.activeShift))
    | none, some _ => some s
    | some _, _ => none
  | .updateIncident r user incident body =>
    match s.requests r, Dict.get? s.incidents.committed incident with
    | none, none => some s
    | none, some row =>
      match recoveryError (body.nextStatus row) (body.nextRecoveredAt row) with
      | none => some (s.goOn r s.incidents (.updating incident row body user))
      | some _ => some s
    | some _, _ => none
  | .proceed r => (s.requests r).bind (proceed s r)
  | .insert r incident => (s.requests r).bind (insert s r incident)
  | .collide r => (s.requests r).bind (collide s r)
  | .commit r => (s.requests r).bind (commit s r)
  | .abort r => (s.requests r).map fun _ => s.fail r none

end Step

/-! ## What the requests have checked and written -/

variable {s s' : State} {r : RequestId} {a : Action}

/-- What passes the check of both requests. -/
lemma recoveryError_eq_none {α : Type} {status : Option IncidentStatus} {recoveredAt : Option α} :
    recoveryError status recoveredAt = none ↔
      (status = some .recovered ↔ recoveredAt.isSome = true) := by
  unfold recoveryError
  cases recoveredAt <;> by_cases h : status = some .recovered <;> simp [h]

/-- What a request has checked. -/
def Phase.Checked : Phase → Prop
  | .creating body .. | .allocating body .. | .allocated body .. =>
    recoveryError (some body.status) body.recoveredAt = none
  | .created _ => True
  | .updating _ loaded body _ =>
    recoveryError (body.nextStatus loaded) (body.nextRecoveredAt loaded) = none
  | .updated _ loaded body _ =>
    recoveryError (body.nextStatus loaded) (body.nextRecoveredAt loaded) = none ∧
      body.hasNull = false

/-- What a request has written to an incident: a consistent row when it creates it, and what its
`UPDATE` makes of the committed row when it updates it. -/
def State.Wrote (s : State) (r : RequestId) (k : IncidentId) (x : Option Incident) : Prop :=
  (∃ row, s.requests r = some (.created k) ∧ x = some row ∧ row.Consistent) ∨
    ∃ loaded body user old, s.requests r = some (.updated k loaded body user) ∧
      Dict.get? s.incidents.committed k = some old ∧ x = some (body.apply loaded user old)

/-- The invariant of the requests. -/
structure IncidentInv (s : State) : Prop where
  checked : ∀ r p, s.requests r = some p → p.Checked
  wrote : ∀ r k x, s.incidents.pending r k = some x → s.Wrote r k x
  /-- an update that has been flushed, and named a column, has written the row -/
  flushed : ∀ r k loaded body user, s.requests r = some (.updated k loaded body user) →
    body.writesSome loaded user = true → s.incidents.pending r k ≠ none

lemma incidentInv_init : IncidentInv .init := by
  constructor <;> simp [State.init]

/-- What a request has written to a row it has locked is the same after a step of another. -/
lemma State.Wrote.moved {k : IncidentId} {x : Option Incident} {u : RequestId}
    (h : s.Wrote u k x) (hu : u ≠ r) (hmoved : s.incidents.MovedBy r s'.incidents)
    (hrequests : s'.requests u = s.requests u) (hx : s.incidents.pending u k = some x) :
    s'.Wrote u k x := by
  rw [State.Wrote, hrequests, hmoved.committed u hu k (Table.holds_of_pending hx)]
  exact h

/-- The end of a statement of request `r` preserves the invariant, where it does for `r`. -/
lemma IncidentInv.moved {p : Option Phase} (hs : IncidentInv s)
    (hmoved : s.incidents.MovedBy r s'.incidents)
    (hrequests : s'.requests = Function.update s.requests r p)
    (hchecked : ∀ q, p = some q → q.Checked)
    (hwrote : ∀ k x, s'.incidents.pending r k = some x → s'.Wrote r k x)
    (hflushed : ∀ k loaded body user, p = some (.updated k loaded body user) →
      body.writesSome loaded user = true → s'.incidents.pending r k ≠ none) : IncidentInv s' := by
  have hself : s'.requests r = p := by rw [hrequests, Function.update_self]
  have hother : ∀ u, u ≠ r → s'.requests u = s.requests u := fun u hu => by
    rw [hrequests, Function.update_of_ne hu]
  constructor
  · intro u q hq
    by_cases hu : u = r
    · subst hu
      exact hchecked q (hself.symm.trans hq)
    · exact hs.checked u q ((hother u hu).symm.trans hq)
  · intro u k x hx
    by_cases hu : u = r
    · subst hu
      exact hwrote k x hx
    · rw [hmoved.pending u hu] at hx
      exact (hs.wrote u k x hx).moved hu hmoved (hother u hu) hx
  · intro u k loaded body user hphase hwrites
    by_cases hu : u = r
    · subst hu
      exact hflushed k loaded body user (hself.symm.trans hphase) hwrites
    · rw [hmoved.pending u hu]
      exact hs.flushed u k loaded body user ((hother u hu).symm.trans hphase) hwrites

/-- A request that has written nothing. -/
lemma IncidentInv.pending_eq_none {p : Phase} (hs : IncidentInv s)
    (hp : s.requests r = none ∨ s.requests r = some p ∧ (∀ k, p ≠ .created k) ∧
      ∀ k loaded body user, p ≠ .updated k loaded body user) (k : IncidentId) :
    s.incidents.pending r k = none := by
  by_contra hne
  obtain ⟨x, hx⟩ := Option.ne_none_iff_exists'.mp hne
  rcases hs.wrote r k x hx with ⟨row, hphase, -⟩ | ⟨loaded, body, user, old, hphase, -⟩
  · rcases hp with hp | ⟨hp, hcreated, -⟩
    · simp [hp] at hphase
    · exact hcreated k (Option.some.inj (hp.symm.trans hphase))
  · rcases hp with hp | ⟨hp, -, hupdated⟩
    · simp [hp] at hphase
    · exact hupdated k loaded body user (Option.some.inj (hp.symm.trans hphase))

/-- A statement that writes nothing preserves the invariant. -/
lemma IncidentInv.goOn_read {p : Phase} (hs : IncidentInv s)
    (hnone : ∀ k, s.incidents.pending r k = none) (hchecked : p.Checked)
    (hp : ∀ k loaded body user, p = .updated k loaded body user →
      body.writesSome loaded user = false) : IncidentInv (s.goOn r s.incidents p) := by
  refine hs.moved .refl rfl ?_ ?_ ?_
  · rintro q hq
    cases hq
    exact hchecked
  · intro k x hx
    rw [State.goOn_incidents, hnone k] at hx
    cases hx
  · intro k loaded body user hq hwrites
    cases hq
    rw [hp k loaded body user rfl] at hwrites
    cases hwrites

/-- The end of a transaction preserves the invariant. -/
lemma IncidentInv.ends {p : Option Phase} (hs : IncidentInv s)
    (hmoved : s.incidents.MovedBy r s'.incidents)
    (hrequests : s'.requests = Function.update s.requests r p)
    (hpending : ∀ k, s'.incidents.pending r k = none) (hchecked : ∀ q, p = some q → q.Checked)
    (hp : ∀ k loaded body user, p ≠ some (.updated k loaded body user)) : IncidentInv s' := by
  refine hs.moved hmoved hrequests hchecked ?_ ?_
  · intro k x hx
    rw [hpending k] at hx
    cases hx
  · intro k loaded body user hq
    exact absurd hq (hp k loaded body user)

/-- The rows of new incidents are consistent. -/
lemma consistent_newIncident {body : IncidentCreate} {user : UserId} {shift : Option ShiftId}
    {displayId : ℕ} (h : recoveryError (some body.status) body.recoveredAt = none) :
    (newIncident body user shift displayId).Consistent := by
  rw [recoveryError_eq_none] at h
  simpa [Incident.Consistent, newIncident] using h

lemma commit_eq_some {p : Phase} :
    commit s r p = some s' ↔ ((∃ k, p = .created k) ∨
      ∃ k loaded body user, p = .updated k loaded body user) ∧ s.finish r = s' := by
  cases p <;> simp [commit]

/-- A step commits nothing, or is the commit of a request. -/
def Commits (s : State) (a : Action) (s' : State) : Prop :=
  s'.incidents.committed = s.incidents.committed ∨
    ∃ r p, a = .commit r ∧ s.requests r = some p ∧ commit s r p = some s'

/-- Every step preserves the invariant. -/
theorem step_spec (hs : IncidentInv s) (h : step s a = some s') :
    IncidentInv s' ∧ Commits s a s' := by
  cases a with
  | setActiveShift shift =>
    cases h
    exact ⟨⟨hs.checked, hs.wrote, hs.flushed⟩, .inl rfl⟩
  | createIncident r user body =>
    simp only [step] at h
    split at h
    · next hr hchecked =>
      cases h
      exact ⟨hs.goOn_read (hs.pending_eq_none (p := .created 0) (.inl hr)) hchecked (by simp),
        .inl rfl⟩
    · cases h
      exact ⟨hs, .inl rfl⟩
    · cases h
  | updateIncident r user k body =>
    simp only [step] at h
    split at h
    · cases h
      exact ⟨hs, .inl rfl⟩
    · next row hr hrow =>
      split at h
      · next hchecked =>
        cases h
        exact ⟨hs.goOn_read (hs.pending_eq_none (p := .created 0) (.inl hr)) hchecked (by simp),
          .inl rfl⟩
      · cases h
        exact ⟨hs, .inl rfl⟩
    · cases h
  | proceed r =>
    obtain ⟨p, hr, h⟩ := Option.bind_eq_some_iff.mp h
    have hchecked := hs.checked r p hr
    unfold proceed at h
    split at h
    · next body user shift =>
      have hnone := hs.pending_eq_none (.inr ⟨hr, by simp, by simp⟩)
      split at h
      · cases h
        have hgo := hs.goOn_read (p := .allocating body user shift 0) hnone hchecked (by simp)
        exact ⟨⟨hgo.checked, hgo.wrote, hgo.flushed⟩, .inl rfl⟩
      · cases h
    · have hnone := hs.pending_eq_none (.inr ⟨hr, by simp, by simp⟩)
      cases h
      exact ⟨hs.goOn_read hnone hchecked (by simp), .inl rfl⟩
    · next k loaded body user =>
      have hnone := hs.pending_eq_none (.inr ⟨hr, by simp, by simp⟩)
      split at h
      · cases h
      · next hnull =>
        have hchecked' : Phase.Checked (.updated k loaded body user) :=
          ⟨hchecked, by simpa using hnull⟩
        split at h
        · obtain ⟨T, hT, rfl⟩ := Option.map_eq_some_iff.mp h
          refine ⟨?_, .inl (Table.committed_update? hT)⟩
          obtain ⟨old, hold, hg, hm, rfl⟩ := Table.update?_eq_some.mp hT
          rw [Table.read, hnone k] at hold
          refine hs.moved (Table.movedBy_write hg hm) rfl ?_ ?_ ?_
          · rintro q hq
            cases hq
            exact hchecked'
          · intro i x hx
            rw [State.goOn_incidents, Table.pending_write] at hx
            split at hx
            · next hi =>
              obtain ⟨-, rfl⟩ := hi
              cases hx
              exact .inr ⟨loaded, body, user, old, by simp, hold, rfl⟩
            · rw [hnone i] at hx
              cases hx
          · intro i loaded' body' user' hq _
            cases hq
            simp
        · next hwrites =>
          cases h
          refine ⟨hs.goOn_read hnone hchecked' ?_, .inl rfl⟩
          intro i loaded' body' user' hq
          cases hq
          simpa using hwrites
    · cases h
  | insert r k =>
    obtain ⟨p, hr, h⟩ := Option.bind_eq_some_iff.mp h
    have hchecked := hs.checked r p hr
    unfold insert at h
    split at h
    · next body user shift attempt displayId =>
      have hnone := hs.pending_eq_none (.inr ⟨hr, by simp, by simp⟩)
      split at h
      · obtain ⟨T, hT, rfl⟩ := Option.map_eq_some_iff.mp h
        refine ⟨?_, .inl (Table.committed_insert? hT)⟩
        obtain ⟨-, hg, hm, rfl⟩ := Table.insert?_eq_some.mp hT
        refine hs.moved (Table.movedBy_write hg hm) rfl ?_ ?_ (by simp)
        · rintro q hq
          cases hq
          trivial
        · intro i x hx
          rw [State.goOn_incidents, Table.pending_write] at hx
          split at hx
          · next hi =>
            obtain ⟨-, rfl⟩ := hi
            cases hx
            exact .inl ⟨_, by simp, rfl, consistent_newIncident hchecked⟩
          · rw [hnone i] at hx
            cases hx
      · cases h
    · cases h
  | collide r =>
    obtain ⟨p, hr, h⟩ := Option.bind_eq_some_iff.mp h
    have hchecked := hs.checked r p hr
    unfold collide at h
    split at h
    · next body user shift attempt displayId =>
      split at h
      · cases h
        refine ⟨hs.ends (r := r) Table.movedBy_rollback rfl (by simp) ?_ (by simp), .inl rfl⟩
        rintro q hq
        cases hq
        exact hchecked
      · cases h
        exact ⟨hs.ends (r := r) Table.movedBy_rollback rfl (by simp) (by simp) (by simp), .inl rfl⟩
    · cases h
  | commit r =>
    obtain ⟨p, hr, h⟩ := Option.bind_eq_some_iff.mp h
    obtain ⟨-, rfl⟩ := commit_eq_some.mp h
    exact ⟨hs.ends (r := r) Table.movedBy_commit rfl (by simp) (by simp) (by simp),
      .inr ⟨r, p, rfl, hr, h⟩⟩
  | abort r =>
    obtain ⟨p, -, rfl⟩ := Option.map_eq_some_iff.mp h
    exact ⟨hs.ends (r := r) Table.movedBy_rollback rfl (by simp) (by simp) (by simp), .inl rfl⟩

/-! ## Stale checks -/

/-- An update of `current` that was checked against `loaded` writes one of `status` and
`recovered_at`, and the other is not what it was: the incident has got or lost its time of recovery,
or it has become recovered or is no longer. -/
def IncidentUpdate.StaleAt (body : IncidentUpdate) (loaded current : Incident) : Prop :=
  (body.writesStatus loaded = true ∧ body.writesRecoveredAt loaded = false ∧
      current.recoveredAt.isSome ≠ loaded.recoveredAt.isSome) ∨
    (body.writesRecoveredAt loaded = true ∧ body.writesStatus loaded = false ∧
      ¬ (current.status = .recovered ↔ loaded.status = .recovered))

/-- The action is the commit of an update whose check is stale. -/
def Stale (s : State) (a : Action) : Prop :=
  ∃ r k loaded body user current, a = .commit r ∧
    s.requests r = some (.updated k loaded body user) ∧
    Dict.get? s.incidents.committed k = some current ∧ body.StaleAt loaded current

section Apply

variable {body : IncidentUpdate} {loaded old : Incident} {user : UserId}

/-- The status after an `UPDATE` that names it is the one that was checked. -/
lemma apply_status (hnull : body.hasNull = false) (h : body.writesStatus loaded = true) :
    some (body.apply loaded user old).status = body.nextStatus loaded := by
  simp only [IncidentUpdate.apply, if_pos h]
  unfold IncidentUpdate.writesStatus at h
  unfold IncidentUpdate.hasNull at hnull
  rcases hstatus : body.status with _ | _ | status
  · simp [hstatus] at h
  · simp [hstatus] at hnull
  · simp [IncidentUpdate.nextStatus, hstatus]

/-- A status that the `UPDATE` does not name was checked as it was read. -/
lemma nextStatus_of_not_writes (h : body.writesStatus loaded = false) :
    body.nextStatus loaded = some loaded.status := by
  unfold IncidentUpdate.writesStatus at h
  rcases hstatus : body.status with _ | status
  · simp [IncidentUpdate.nextStatus, hstatus]
  · simpa [IncidentUpdate.nextStatus, hstatus] using h

lemma nextRecoveredAt_of_not_writes (h : body.writesRecoveredAt loaded = false) :
    body.nextRecoveredAt loaded = loaded.recoveredAt := by
  unfold IncidentUpdate.writesRecoveredAt at h
  rcases hrecovered : body.recoveredAt with _ | given
  · simp [IncidentUpdate.nextRecoveredAt, hrecovered]
  · rw [hrecovered, Option.any_some, Bool.or_eq_false_iff] at h
    simpa [IncidentUpdate.nextRecoveredAt, hrecovered] using h.2

/-- **What an `UPDATE` makes of a consistent row** is consistent unless its check is stale. -/
lemma consistent_apply_iff
    (hchecked : recoveryError (body.nextStatus loaded) (body.nextRecoveredAt loaded) = none)
    (hnull : body.hasNull = false) (hold : old.Consistent) :
    (body.apply loaded user old).Consistent ↔ ¬ body.StaleAt loaded old := by
  rw [recoveryError_eq_none] at hchecked
  unfold Incident.Consistent at hold ⊢
  unfold IncidentUpdate.StaleAt
  cases hstatus : body.writesStatus loaded with
  | true =>
    have happly : some (body.apply loaded user old).status = body.nextStatus loaded :=
      apply_status hnull hstatus
    rw [← happly, Option.some_inj] at hchecked
    cases hrecovered : body.writesRecoveredAt loaded with
    | true => simpa [IncidentUpdate.apply, hrecovered] using hchecked
    | false =>
      rw [nextRecoveredAt_of_not_writes hrecovered] at hchecked
      rw [hchecked]
      simp only [IncidentUpdate.apply, hrecovered]
      cases old.recoveredAt <;> cases loaded.recoveredAt <;> simp
  | false =>
    rw [nextStatus_of_not_writes hstatus, Option.some_inj] at hchecked
    cases hrecovered : body.writesRecoveredAt loaded with
    | true =>
      simp only [IncidentUpdate.apply, hstatus, hrecovered, if_true, Bool.false_eq_true, if_false]
      rw [← hchecked]
      simp
    | false => simpa [IncidentUpdate.apply, hstatus, hrecovered] using hold

end Apply

/-! ## Runs -/

/-- Every committed incident has a time of recovery exactly when it has recovered. -/
def AllConsistent (s : State) : Prop :=
  ∀ k row, Dict.get? s.incidents.committed k = some row → row.Consistent

/-- What is committed is consistent after a step that is not a stale commit. -/
lemma allConsistent_step (hs : IncidentInv s) (hc : AllConsistent s) (ha : ¬ Stale s a)
    (h : step s a = some s') : AllConsistent s' := by
  intro k row hk
  rcases (step_spec hs h).2 with hsame | ⟨r, p, rfl, hr, hcommit⟩
  · exact hc k row (hsame ▸ hk)
  · obtain ⟨-, rfl⟩ := commit_eq_some.mp hcommit
    rw [State.finish_incidents, Table.get?_commit] at hk
    cases hx : s.incidents.pending r k with
    | none =>
      rw [hx] at hk
      exact hc k row hk
    | some x =>
      rw [hx, Option.getD_some] at hk
      rcases hs.wrote r k x hx with ⟨new, -, rfl, hnew⟩ | ⟨loaded, body, user, old, hu, hold, rfl⟩
      · cases hk
        exact hnew
      · cases hk
        obtain ⟨hchecked, hnull⟩ := hs.checked r _ hu
        refine (consistent_apply_iff hchecked hnull (hc k old hold)).mpr ?_
        exact fun hstale => ha ⟨r, k, loaded, body, user, old, rfl, hu, hold, hstale⟩

/-- After a stale commit an incident is not consistent. -/
lemma Stale.breaks (hs : IncidentInv s) (hc : AllConsistent s) (ha : Stale s a) :
    ∃ s', step s a = some s' ∧ ¬ AllConsistent s' := by
  obtain ⟨r, k, loaded, body, user, current, rfl, hu, hcurrent, hstale⟩ := ha
  refine ⟨s.finish r, ?_, ?_⟩
  · rw [step, hu]
    rfl
  intro hc'
  -- the update names a column, so it has written the row
  have hwrites : body.writesSome loaded user = true := by
    rcases hstale with ⟨hwrites, -⟩ | ⟨hwrites, -⟩
    · simp [IncidentUpdate.writesSome, hwrites]
    · simp [IncidentUpdate.writesSome, hwrites]
  obtain ⟨x, hx⟩ := Option.ne_none_iff_exists'.mp (hs.flushed r k loaded body user hu hwrites)
  have hnew : x = some (body.apply loaded user current) := by
    rcases hs.wrote r k x hx with ⟨row, hcreated, -⟩ | ⟨loaded', body', user', old, hu', hold, rfl⟩
    · simp [hu] at hcreated
    · rw [hu] at hu'
      cases hu'
      rw [hcurrent] at hold
      cases hold
      rfl
  have hrow : Dict.get? (s.finish r).incidents.committed k =
      some (body.apply loaded user current) := by
    rw [State.finish_incidents, Table.get?_commit, hx, hnew]
    rfl
  obtain ⟨hchecked, hnull⟩ := hs.checked r _ hu
  exact (consistent_apply_iff hchecked hnull (hc k current hcurrent)).mp (hc' k _ hrow) hstale

/-- **When all incidents are consistent.** Along a run every committed incident has a time of
recovery exactly when it has recovered, if and only if no update of the run is committed that
writes one of the two columns although the other has changed since it was checked. -/
theorem consistent_iff (as : List Action) :
    EveryState step AllConsistent .init as ↔ EveryStep step (fun s a => ¬ Stale s a) .init as := by
  have hinit : AllConsistent .init := by
    intro k row hk
    cases hk
  constructor
  · intro h pre a post s has hs ha
    have hinv : IncidentInv s := run_invariant (I := IncidentInv) (P := fun _ _ => True)
      (fun _ _ _ hu _ hstep => (step_spec hu hstep).1) incidentInv_init
      (fun _ _ _ _ _ _ => trivial) hs
    obtain ⟨s', hstep, hbroken⟩ := ha.breaks hinv (h pre (a :: post) s has hs)
    exact hbroken (h.next has hs hstep)
  · intro h
    exact everyState_of_everyStep (I := fun s => IncidentInv s ∧ AllConsistent s)
      (fun _ _ _ hu ha hstep => ⟨(step_spec hu.1 hstep).1, allConsistent_step hu.1 hu.2 ha hstep⟩)
      (fun _ hu => hu.2) ⟨incidentInv_init, hinit⟩ h

/-- The payload of an open incident. -/
def openIncident : IncidentCreate where
  title := ⟨py "t", by decide⟩
  service := ⟨py "s", by decide⟩
  environment := ⟨py "e", by decide⟩
  status := .open
  alertSource := none
  triggeredAt := ⟨1, false⟩
  recoveredAt := none
  triggerValue := none
  teamsUrl := none
  grafanaUrl := none
  notes := none

/-- An open incident is created. One request sets it recovered, with a time, and another one sets
it under investigation; both have read it open, and they commit one after the other. -/
def crossedUpdates : List Action :=
  [.createIncident 0 0 openIncident, .proceed 0, .proceed 0, .insert 0 7, .commit 0,
    .updateIncident 1 1 7 { status := some (some .recovered), recoveredAt := some (some ⟨2, false⟩) },
    .updateIncident 2 2 7 { status := some (some .investigating) },
    .proceed 1, .commit 1, .proceed 2, .commit 2]

/-- The incidents are not consistent along every run: after `crossedUpdates` an incident under
investigation has a time of recovery. -/
theorem not_consistent : ¬ ∀ as, EveryState step AllConsistent .init as := by
  intro h
  have hlast : ((run step .init crossedUpdates).bind fun s =>
      Dict.get? s.incidents.committed 7).any (fun row => !decide row.Consistent) = true := by
    decide
  obtain ⟨row, hrow, hbad⟩ := (Option.any_eq_true _ _).mp hlast
  obtain ⟨s, hs, hk⟩ := Option.bind_eq_some_iff.mp hrow
  have hgood := h crossedUpdates crossedUpdates [] s (List.append_nil _).symm hs 7 row hk
  simp [hgood] at hbad

end Incidents
