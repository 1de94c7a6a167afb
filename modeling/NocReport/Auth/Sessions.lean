import Mathlib.Logic.Function.Basic
import NocReport.Foundation.ReadCommitted
import NocReport.Foundation.Transition

set_option relaxedAutoImplicit false
set_option autoImplicit false

/-!
# Refresh sessions

The requests of `auth.py` that touch `refresh_sessions`: a login inserts a session, a refresh
exchanges the session it presents for a new one, and a logout revokes the session it presents.
Every request is one transaction at READ COMMITTED, taken statement by statement; it can fail and
roll back before any of them. A request without a cookie ends at once and is left out.

## Main definitions

* `Auth.RefreshSession` — a row of `refresh_sessions`, found by the hash of its secret.
* `Auth.Phase` — where a request is.
* `Auth.State`, `Auth.Action`, `Auth.step` — the system. It keeps a log of the exchanges and of
  the logouts that have committed; no request reads it.
* `Auth.SessionInv` — what holds of every request, by its phase.
* `Auth.Effect` — what a step does to the committed sessions and to the logs.

## Main results

* `Auth.step_spec` — every step preserves the invariant and has one of these effects.
-/

namespace Auth

open ReadCommitted Transition

abbrev RequestId := ℕ

abbrev UserId := ℕ

/-- A row of `refresh_sessions`, without the hash of its secret. -/
structure RefreshSession where
  userId : UserId
  expiresAt : ℕ
  revokedAt : Option ℕ
  deriving DecidableEq, Repr

/-- The settings, and the hash that stands for a secret in the table. -/
structure Config (Secret Hash : Type) where
  hashRefreshSecret : Secret → Hash
  refreshTokenExpire : ℕ

/-- Where a request is, after its last statement. -/
inductive Phase (Secret : Type)
  /-- `login`: the credentials are accepted; the flush of the new session comes next -/
  | accepted (user : UserId)
  /-- `login`: `commit` comes next -/
  | opened (issued : Secret)
  /-- `refresh`: it has the row of the secret under its lock; the checks of the row come next -/
  | found (secret : Secret) (session : RefreshSession)
  /-- `refresh`: the row is valid at `now`; the user is read next -/
  | valid (secret : Secret) (session : RefreshSession) (now : ℕ)
  /-- `refresh`: the flush of the revocation and of the replacement comes next -/
  | rotating (secret : Secret) (user : UserId) (now : ℕ)
  /-- `refresh`: `commit` comes next -/
  | rotated (secret issued : Secret)
  /-- `logout`: it has read the row of the secret unrevoked; the flush comes next -/
  | revoking (secret : Secret)
  /-- `logout`: `commit` comes next -/
  | revoked (secret : Secret)
  deriving DecidableEq, Repr

/-- The state of the system. -/
structure State (Secret Hash : Type) where
  /-- the time every `datetime.now` reads -/
  clock : ℕ
  /-- the users, each enabled or not -/
  users : UserId → Option Bool
  sessions : Table RequestId Hash RefreshSession
  requests : RequestId → Option (Phase Secret)
  /-- the sessions exchanged by refreshes that have committed, each with its replacement -/
  exchanges : List (Hash × Hash)
  /-- the sessions presented to logouts that have committed -/
  logouts : List Hash

variable {Secret Hash : Type}

/-- The empty system. -/
def State.init : State Secret Hash where
  clock := 0
  users := fun _ => none
  sessions := .ofRows []
  requests := fun _ => none
  exchanges := []
  logouts := []

/-- What can happen. -/
inductive Action (Secret : Type)
  | tick
  /-- an administrator adds, enables or disables a user -/
  | setUser (user : UserId) (enabled : Bool)
  /-- a login reads its user and verifies the password -/
  | login (r : RequestId) (user : UserId) (verified : Bool)
  /-- a refresh selects the row of its secret for update -/
  | refresh (r : RequestId) (secret : Secret)
  /-- a logout reads the row of its secret -/
  | logout (r : RequestId) (secret : Secret)
  /-- the next statement of a request, where it needs no new secret -/
  | proceed (r : RequestId)
  /-- a flush that inserts the session of a new secret -/
  | issue (r : RequestId) (issued : Secret)
  | commit (r : RequestId)
  /-- a request fails: an error, a lost connection, or a constraint that is violated -/
  | abort (r : RequestId)
  deriving DecidableEq, Repr

section Step

variable [DecidableEq Hash] (cfg : Config Secret Hash) (s : State Secret Hash) (r : RequestId)

/-- Request `r` goes on in phase `p`, with the table as its statement leaves it. -/
@[simps]
def State.goOn (sessions : Table RequestId Hash RefreshSession) (p : Phase Secret) :
    State Secret Hash :=
  { s with sessions, requests := Function.update s.requests r (some p) }

/-- Request `r` ends without a commit. -/
@[simps]
def State.fail : State Secret Hash :=
  { s with sessions := s.sessions.rollback r, requests := Function.update s.requests r none }

/-- Request `r` ends with a commit. -/
@[simps]
def State.finish : State Secret Hash :=
  { s with sessions := s.sessions.commit r, requests := Function.update s.requests r none }

/-- The row of a new session. -/
def newRefreshSession (user : UserId) : RefreshSession where
  userId := user
  expiresAt := s.clock + cfg.refreshTokenExpire
  revokedAt := none

/-- The next statement of a request, where it needs no new secret. -/
def proceed : Phase Secret → Option (State Secret Hash)
  | .found secret session =>
    if session.revokedAt ≠ none ∨ session.expiresAt ≤ s.clock then some (s.fail r)
    else some (s.goOn r s.sessions (.valid secret session s.clock))
  | .valid secret session now =>
    if s.users session.userId = some true then
      some (s.goOn r s.sessions (.rotating secret session.userId now))
    else some (s.fail r)
  | .revoking secret =>
    (s.sessions.update? r (cfg.hashRefreshSecret secret) fun session =>
      { session with revokedAt := some s.clock }).map fun sessions =>
        s.goOn r sessions (.revoked secret)
  | _ => none

/-- A flush that inserts the session of a new secret. -/
def issue (issued : Secret) : Phase Secret → Option (State Secret Hash)
  | .accepted user =>
    (s.sessions.insert? r (cfg.hashRefreshSecret issued) (newRefreshSession cfg s user)).map
      fun sessions => s.goOn r sessions (.opened issued)
  | .rotating secret user now =>
    (s.sessions.update? r (cfg.hashRefreshSecret secret) fun session =>
      { session with revokedAt := some now }).bind fun sessions =>
        (sessions.insert? r (cfg.hashRefreshSecret issued) (newRefreshSession cfg s user)).map
          fun sessions => s.goOn r sessions (.rotated secret issued)
  | _ => none

/-- The commit of a request. -/
def commit : Phase Secret → Option (State Secret Hash)
  | .opened _ => some (s.finish r)
  | .rotated secret issued =>
    some { s.finish r with
      exchanges := (cfg.hashRefreshSecret secret, cfg.hashRefreshSecret issued) :: s.exchanges }
  | .revoked secret =>
    some { s.finish r with logouts := cfg.hashRefreshSecret secret :: s.logouts }
  | _ => none

/-- One step of the system. -/
def step : Action Secret → Option (State Secret Hash)
  | .tick => some { s with clock := s.clock + 1 }
  | .setUser user enabled => some { s with users := Function.update s.users user (some enabled) }
  | .login r user verified =>
    match s.requests r with
    | none =>
      -- a login that is refused writes an audit record only
      if s.users user = some true ∧ verified then some (s.goOn r s.sessions (.accepted user))
      else some s
    | some _ => none
  | .refresh r secret =>
    match s.requests r, Dict.get? s.sessions.committed (cfg.hashRefreshSecret secret) with
    | none, none => some s
    | none, some session =>
      (s.sessions.lock? r (cfg.hashRefreshSecret secret) .update).map fun sessions =>
        s.goOn r sessions (.found secret session)
    | some _, _ => none
  | .logout r secret =>
    match s.requests r, Dict.get? s.sessions.committed (cfg.hashRefreshSecret secret) with
    | none, none => some s
    | none, some session =>
      if session.revokedAt = none then some (s.goOn r s.sessions (.revoking secret)) else some s
    | some _, _ => none
  | .proceed r => (s.requests r).bind (proceed cfg s r)
  | .issue r issued => (s.requests r).bind (issue cfg s r issued)
  | .commit r => (s.requests r).bind (commit cfg s r)
  | .abort r => (s.requests r).map fun _ => s.fail r

end Step

/-! ## What holds of a request -/

variable [DecidableEq Hash] {cfg : Config Secret Hash} {s s' : State Secret Hash} {r : RequestId}

/-- Whether a row has been revoked. -/
def RefreshSession.isRevoked (session : RefreshSession) : Bool := session.revokedAt.isSome

/-- Whether the session of a hash is revoked, where it is committed. -/
def State.revoked? (s : State Secret Hash) (k : Hash) : Option Bool :=
  (Dict.get? s.sessions.committed k).map (·.isRevoked)

/-- The sessions a request has written by its phase, each revoked or not. -/
def Phase.writes (cfg : Config Secret Hash) : Phase Secret → Dict Hash Bool
  | opened issued => [(cfg.hashRefreshSecret issued, false)]
  | rotated secret issued =>
    [(cfg.hashRefreshSecret secret, true), (cfg.hashRefreshSecret issued, false)]
  | revoked secret => [(cfg.hashRefreshSecret secret, true)]
  | _ => []

/-- What holds of request `r` in a phase: a refresh has locked the session it presents and found
it unrevoked, and a new session is not there yet. -/
def Phase.Ok (cfg : Config Secret Hash) (s : State Secret Hash) (r : RequestId) :
    Phase Secret → Prop
  | accepted _ => True
  | opened issued => s.sessions.Holds r (cfg.hashRefreshSecret issued) ∧
    s.revoked? (cfg.hashRefreshSecret issued) = none
  | found secret session => s.sessions.Holds r (cfg.hashRefreshSecret secret) ∧
    Dict.get? s.sessions.committed (cfg.hashRefreshSecret secret) = some session
  | valid secret _ _ | rotating secret _ _ => s.sessions.Holds r (cfg.hashRefreshSecret secret) ∧
    s.revoked? (cfg.hashRefreshSecret secret) = some false
  | rotated secret issued => s.sessions.Holds r (cfg.hashRefreshSecret secret) ∧
    s.revoked? (cfg.hashRefreshSecret secret) = some false ∧
    s.sessions.Holds r (cfg.hashRefreshSecret issued) ∧
    s.revoked? (cfg.hashRefreshSecret issued) = none
  | revoking secret | revoked secret => s.revoked? (cfg.hashRefreshSecret secret) ≠ none

/-- What request `r` has written to the table, by its phase. -/
def State.Wrote (cfg : Config Secret Hash) (s : State Secret Hash) (r : RequestId)
    (q : Option (Phase Secret)) : Prop :=
  ∀ k, (s.sessions.pending r k).map (·.map (·.isRevoked)) =
    (Dict.get? (q.elim [] (·.writes cfg)) k).map some

/-- The invariant of the requests. -/
structure SessionInv (cfg : Config Secret Hash) (s : State Secret Hash) : Prop where
  phase : ∀ r p, s.requests r = some p → p.Ok cfg s r
  wrote : ∀ r, s.Wrote cfg r (s.requests r)

lemma sessionInv_init : SessionInv cfg (.init : State Secret Hash) where
  phase := by simp [State.init]
  wrote := by simp [State.init, State.Wrote]

/-- A statement of another request leaves alone what holds of a request. -/
lemma Phase.Ok.mono {t : RequestId} {p : Phase Secret} (h : p.Ok cfg s r) (hr : r ≠ t)
    (hmove : s.sessions.MovedBy t s'.sessions)
    (hkeeps : ∀ k, s.revoked? k ≠ none → s'.revoked? k ≠ none) : p.Ok cfg s' r := by
  have hsame : ∀ k, s.sessions.Holds r k → s'.revoked? k = s.revoked? k := by
    intro k hk
    simp only [State.revoked?, hmove.committed r hr k hk]
  have hholds := hmove.holds r hr
  cases p with
  | accepted user => trivial
  | opened issued => exact ⟨hholds _ h.1, (hsame _ h.1).trans h.2⟩
  | found secret session => exact ⟨hholds _ h.1, (hmove.committed r hr _ h.1).trans h.2⟩
  | valid secret session now => exact ⟨hholds _ h.1, (hsame _ h.1).trans h.2⟩
  | rotating secret user now => exact ⟨hholds _ h.1, (hsame _ h.1).trans h.2⟩
  | rotated secret issued =>
    obtain ⟨hsecret, hlive, hissued, hfresh⟩ := h
    exact ⟨hholds _ hsecret, (hsame _ hsecret).trans hlive, hholds _ hissued,
      (hsame _ hissued).trans hfresh⟩
  | revoking secret => exact hkeeps _ h
  | revoked secret => exact hkeeps _ h

/-- A step of request `r`, which goes on in phase `q` or ends. -/
structure RequestMove (cfg : Config Secret Hash) (r : RequestId) (q : Option (Phase Secret))
    (s s' : State Secret Hash) : Prop where
  requests : s'.requests = Function.update s.requests r q
  moved : s.sessions.MovedBy r s'.sessions
  keeps : ∀ k, s.revoked? k ≠ none → s'.revoked? k ≠ none
  ok : ∀ p, q = some p → p.Ok cfg s' r
  wrote : s'.Wrote cfg r q

/-- The step of one request preserves the invariant of all. -/
lemma RequestMove.sessionInv {q : Option (Phase Secret)} (hs : SessionInv cfg s)
    (h : RequestMove cfg r q s s') : SessionInv cfg s' where
  phase r' p hp := by
    rw [h.requests] at hp
    by_cases hr : r' = r
    · subst hr
      rw [Function.update_self] at hp
      exact h.ok p hp
    · rw [Function.update_of_ne hr] at hp
      exact (hs.phase r' p hp).mono hr h.moved h.keeps
  wrote r' := by
    rw [h.requests]
    by_cases hr : r' = r
    · subst hr
      rw [Function.update_self]
      exact h.wrote
    · rw [Function.update_of_ne hr]
      intro k
      rw [h.moved.pending r' hr]
      exact hs.wrote r' k

/-! ## What a step does -/

/-- What a step does to the sessions that are committed, and to the logs. -/
inductive Effect (cfg : Config Secret Hash) (s : State Secret Hash) (a : Action Secret)
    (s' : State Secret Hash) : Prop
  | quiet (hsessions : ∀ k, s'.revoked? k = s.revoked? k) (hexchanges : s'.exchanges = s.exchanges)
      (hlogouts : s'.logouts = s.logouts)
  | login (issued : Secret) (hnew : s.revoked? (cfg.hashRefreshSecret issued) = none)
      (hsessions : ∀ k, s'.revoked? k =
        if cfg.hashRefreshSecret issued = k then some false else s.revoked? k)
      (hexchanges : s'.exchanges = s.exchanges) (hlogouts : s'.logouts = s.logouts)
  | refresh (secret issued : Secret)
      (hlive : s.revoked? (cfg.hashRefreshSecret secret) = some false)
      (hnew : s.revoked? (cfg.hashRefreshSecret issued) = none)
      (hsessions : ∀ k, s'.revoked? k =
        if cfg.hashRefreshSecret secret = k then some true
        else if cfg.hashRefreshSecret issued = k then some false else s.revoked? k)
      (hexchanges : s'.exchanges =
        (cfg.hashRefreshSecret secret, cfg.hashRefreshSecret issued) :: s.exchanges)
      (hlogouts : s'.logouts = s.logouts)
  | logout (r : RequestId) (secret : Secret) (haction : a = .commit r)
      (hphase : s.requests r = some (.revoked secret))
      (hthere : s.revoked? (cfg.hashRefreshSecret secret) ≠ none)
      (hsessions : ∀ k, s'.revoked? k =
        if cfg.hashRefreshSecret secret = k then some true else s.revoked? k)
      (hexchanges : s'.exchanges = s.exchanges)
      (hlogouts : s'.logouts = cfg.hashRefreshSecret secret :: s.logouts)

variable {T : Table RequestId Hash RefreshSession} {a : Action Secret} {p : Phase Secret}

/-- The sessions are the same where what is committed is. -/
lemma State.revoked?_congr (h : s'.sessions.committed = s.sessions.committed) (k : Hash) :
    s'.revoked? k = s.revoked? k := by
  rw [State.revoked?, State.revoked?, h]

/-- A request that has no transaction open has written nothing. -/
lemma SessionInv.pending_eq_none (hs : SessionInv cfg s) (hr : s.requests r = none) (k : Hash) :
    s.sessions.pending r k = none := by
  have h := hs.wrote r k
  rw [hr] at h
  simpa using h

/-- A statement that commits nothing is quiet, and preserves the invariant. -/
lemma goOn_spec (hs : SessionInv cfg s) (hmoved : s.sessions.MovedBy r T)
    (hcommitted : T.committed = s.sessions.committed) (hok : p.Ok cfg (s.goOn r T p) r)
    (hwrote : (s.goOn r T p).Wrote cfg r (some p)) :
    SessionInv cfg (s.goOn r T p) ∧ Effect cfg s a (s.goOn r T p) := by
  refine ⟨RequestMove.sessionInv hs ⟨rfl, hmoved, ?_, ?_, hwrote⟩, .quiet ?_ rfl rfl⟩
  · intro k hk
    rwa [State.revoked?_congr hcommitted]
  · rintro q hq
    cases hq
    exact hok
  · exact State.revoked?_congr hcommitted

/-- A request that fails is quiet, and preserves the invariant. -/
lemma fail_spec (hs : SessionInv cfg s) :
    SessionInv cfg (s.fail r) ∧ Effect cfg s a (s.fail r) := by
  have hsame : ∀ k, (s.fail r).revoked? k = s.revoked? k := fun k => rfl
  refine ⟨RequestMove.sessionInv hs ⟨rfl, Table.movedBy_rollback, ?_, ?_, ?_⟩,
    .quiet hsame rfl rfl⟩
  · intro k hk
    rwa [hsame]
  · rintro q hq
    cases hq
  · intro k
    simp

/-- What is committed once a request commits is what it has written. -/
lemma SessionInv.revoked?_finish (hs : SessionInv cfg s) (hr : s.requests r = some p) (k : Hash) :
    (s.finish r).revoked? k = (Dict.get? (p.writes cfg) k).or (s.revoked? k) := by
  have hwrote := hs.wrote r k
  rw [hr] at hwrote
  simp only [State.revoked?, State.finish_sessions, Table.get?_commit]
  change _ = (Dict.get? (p.writes cfg) k).map some at hwrote
  cases hp : s.sessions.pending r k with
  | none =>
    rw [hp] at hwrote
    simp [Option.map_eq_none_iff.mp hwrote.symm]
  | some row =>
    rw [hp] at hwrote
    cases hk : Dict.get? (p.writes cfg) k with
    | none => simp [hk] at hwrote
    | some b => simpa [hk] using hwrote

/-- A commit preserves the invariant; the logs do not matter to it. -/
lemma finish_sessionInv (hs : SessionInv cfg s) (hr : s.requests r = some p)
    (hrequests : s'.requests = (s.finish r).requests)
    (hsessions : s'.sessions = (s.finish r).sessions) : SessionInv cfg s' := by
  refine RequestMove.sessionInv (q := none) hs ⟨hrequests, ?_, ?_, ?_, ?_⟩
  · rw [hsessions]
    exact Table.movedBy_commit
  · intro k hk
    rw [State.revoked?_congr (congrArg Table.committed hsessions), hs.revoked?_finish hr]
    cases Dict.get? (p.writes cfg) k with
    | none => exact hk
    | some b => simp
  · rintro q hq
    cases hq
  · intro k
    simp [hsessions]

lemma proceed_spec (hs : SessionInv cfg s) (hr : s.requests r = some p)
    (h : proceed cfg s r p = some s') : SessionInv cfg s' ∧ Effect cfg s a s' := by
  have hok := hs.phase r p hr
  have hwrote := hs.wrote r
  rw [hr] at hwrote
  cases p with
  | found secret session =>
    simp only [proceed] at h
    split at h
    · cases h
      exact fail_spec hs
    · next hvalid =>
      cases h
      rw [not_or, not_not] at hvalid
      refine goOn_spec hs .refl rfl ⟨hok.1, ?_⟩ hwrote
      simp [State.revoked?, hok.2, RefreshSession.isRevoked, hvalid.1]
  | valid secret session now =>
    simp only [proceed] at h
    split at h
    · cases h
      exact goOn_spec hs .refl rfl hok hwrote
    · cases h
      exact fail_spec hs
  | revoking secret =>
    simp only [proceed, Option.map_eq_some_iff] at h
    obtain ⟨T, hT, rfl⟩ := h
    obtain ⟨row, hrow, hg, hm, rfl⟩ := Table.update?_eq_some.mp hT
    refine goOn_spec hs (Table.movedBy_write hg hm) rfl hok ?_
    intro k
    have hk := hwrote k
    by_cases heq : cfg.hashRefreshSecret secret = k
    · simp [Phase.writes, heq, Dict.get?_cons, RefreshSession.isRevoked]
    · simpa [Phase.writes, heq, Dict.get?_cons] using hk
  | accepted | opened | rotating | rotated | revoked => cases h

/-- What an insertion of a new session leaves in the table. -/
lemma issue_spec {issued : Secret} (hs : SessionInv cfg s) (hr : s.requests r = some p)
    (h : issue cfg s r issued p = some s') : SessionInv cfg s' ∧ Effect cfg s a s' := by
  have hok := hs.phase r p hr
  have hwrote := hs.wrote r
  rw [hr] at hwrote
  cases p with
  | accepted user =>
    simp only [issue, Option.map_eq_some_iff] at h
    obtain ⟨T, hT, rfl⟩ := h
    obtain ⟨hnone, hg, hm, rfl⟩ := Table.insert?_eq_some.mp hT
    have hnew : s.sessions.pending r (cfg.hashRefreshSecret issued) = none := by
      have hk := hwrote (cfg.hashRefreshSecret issued)
      simpa [Phase.writes] using hk
    rw [Table.read, hnew] at hnone
    refine goOn_spec hs (Table.movedBy_write hg hm) rfl ⟨?_, ?_⟩ ?_
    · exact Table.holds_write_self hg hm
    · simpa [State.revoked?] using hnone
    · intro k
      have hk := hwrote k
      by_cases heq : cfg.hashRefreshSecret issued = k
      · simp [Phase.writes, heq, Dict.get?_cons, RefreshSession.isRevoked, newRefreshSession]
      · simpa [Phase.writes, heq, Dict.get?_cons] using hk
  | rotating secret user now =>
    simp only [issue, Option.bind_eq_some_iff, Option.map_eq_some_iff] at h
    obtain ⟨T, hT, T', hT', rfl⟩ := h
    obtain ⟨row, hrow, hg, hm, rfl⟩ := Table.update?_eq_some.mp hT
    obtain ⟨hnone, hg', hm', rfl⟩ := Table.insert?_eq_some.mp hT'
    have hwrote' : ∀ k, s.sessions.pending r k = none := by
      intro k
      have hk := hwrote k
      simpa [Phase.writes] using hk
    have hne : cfg.hashRefreshSecret secret ≠ cfg.hashRefreshSecret issued := by
      intro heq
      simp [Table.read, heq] at hnone
    simp only [Table.read, Table.pending_write, if_neg (not_and_of_not_right _ hne), hwrote'] at hnone
    refine goOn_spec hs ((Table.movedBy_write hg hm).trans (Table.movedBy_write hg' hm')) rfl
      ⟨?_, hok.2, ?_, ?_⟩ ?_
    · exact (Table.holds_write_self hg hm).write hg' hm'
    · exact Table.holds_write_self hg' hm'
    · simpa [State.revoked?] using hnone
    · intro k
      by_cases hissued : cfg.hashRefreshSecret issued = k
      · have hsecret : cfg.hashRefreshSecret secret ≠ k := fun h => hne (h.trans hissued.symm)
        simp [Phase.writes, hissued, hsecret, Dict.get?_cons, RefreshSession.isRevoked,
          newRefreshSession]
      · by_cases hsecret : cfg.hashRefreshSecret secret = k
        · simp [Phase.writes, hissued, hsecret, Dict.get?_cons, RefreshSession.isRevoked]
        · simp [Phase.writes, hissued, hsecret, Dict.get?_cons, hwrote']
  | found | valid | opened | rotated | revoking | revoked => cases h

lemma commit_spec (hs : SessionInv cfg s) (hr : s.requests r = some p)
    (h : commit cfg s r p = some s') : SessionInv cfg s' ∧ Effect cfg s (.commit r) s' := by
  have hok := hs.phase r p hr
  have hfinish := hs.revoked?_finish hr
  cases p with
  | opened issued =>
    cases h
    refine ⟨finish_sessionInv hs hr rfl rfl, .login issued hok.2 ?_ rfl rfl⟩
    intro k
    rw [hfinish]
    by_cases hk : cfg.hashRefreshSecret issued = k <;> simp [Phase.writes, Dict.get?_cons, hk]
  | rotated secret issued =>
    cases h
    refine ⟨finish_sessionInv hs hr rfl rfl,
      .refresh secret issued hok.2.1 hok.2.2.2 ?_ rfl rfl⟩
    intro k
    change (s.finish r).revoked? k = _
    rw [hfinish]
    by_cases hsecret : cfg.hashRefreshSecret secret = k
    · simp [Phase.writes, Dict.get?_cons, hsecret]
    · by_cases hissued : cfg.hashRefreshSecret issued = k <;>
        simp [Phase.writes, Dict.get?_cons, hsecret, hissued]
  | revoked secret =>
    cases h
    refine ⟨finish_sessionInv hs hr rfl rfl, .logout r secret rfl hr hok ?_ rfl rfl⟩
    intro k
    change (s.finish r).revoked? k = _
    rw [hfinish]
    by_cases hk : cfg.hashRefreshSecret secret = k <;> simp [Phase.writes, Dict.get?_cons, hk]
  | accepted | found | valid | rotating | revoking => cases h

/-- A step that leaves the table and the requests alone is quiet, and preserves the invariant. -/
lemma idle_spec (hs : SessionInv cfg s) (hsessions : s'.sessions = s.sessions)
    (hrequests : s'.requests = s.requests) (hexchanges : s'.exchanges = s.exchanges)
    (hlogouts : s'.logouts = s.logouts) : SessionInv cfg s' ∧ Effect cfg s a s' := by
  have hsame := State.revoked?_congr (congrArg Table.committed hsessions)
  refine ⟨⟨?_, ?_⟩, .quiet hsame hexchanges hlogouts⟩
  · intro r p hp
    rw [hrequests] at hp
    have hok := hs.phase r p hp
    cases s
    cases s'
    cases hsessions
    cases p <;> exact hok
  · intro r k
    rw [hsessions, hrequests]
    exact hs.wrote r k

/-- Every step preserves the invariant, and has one of the four effects. -/
theorem step_spec (hs : SessionInv cfg s) (h : step cfg s a = some s') :
    SessionInv cfg s' ∧ Effect cfg s a s' := by
  cases a with
  | tick | setUser user enabled =>
    cases h
    exact idle_spec hs rfl rfl rfl rfl
  | login r user verified =>
    simp only [step] at h
    split at h
    · next hr =>
      split at h
      · cases h
        refine goOn_spec hs .refl rfl trivial ?_
        intro k
        simp [hs.pending_eq_none hr, Phase.writes]
      · cases h
        exact idle_spec hs rfl rfl rfl rfl
    · cases h
  | refresh r secret =>
    simp only [step] at h
    split at h
    · cases h
      exact idle_spec hs rfl rfl rfl rfl
    · next session hr hsession =>
      obtain ⟨T, hT, rfl⟩ := Option.map_eq_some_iff.mp h
      obtain ⟨hg, rfl⟩ := Table.lock?_eq_some.mp hT
      refine goOn_spec hs (Table.movedBy_lock hg) rfl ⟨?_, hsession⟩ ?_
      · exact Table.holds_lock_self hg (by decide)
      · intro k
        simp [hs.pending_eq_none hr, Phase.writes]
    · cases h
  | logout r secret =>
    simp only [step] at h
    split at h
    · cases h
      exact idle_spec hs rfl rfl rfl rfl
    · next session hr hsession =>
      split at h
      · cases h
        refine goOn_spec hs .refl rfl ?_ ?_
        · simp [Phase.Ok, State.revoked?, hsession]
        · intro k
          simp [hs.pending_eq_none hr, Phase.writes]
      · cases h
        exact idle_spec hs rfl rfl rfl rfl
    · cases h
  | proceed r =>
    obtain ⟨p, hr, h⟩ := Option.bind_eq_some_iff.mp h
    exact proceed_spec hs hr h
  | issue r issued =>
    obtain ⟨p, hr, h⟩ := Option.bind_eq_some_iff.mp h
    exact issue_spec hs hr h
  | commit r =>
    obtain ⟨p, hr, h⟩ := Option.bind_eq_some_iff.mp h
    exact commit_spec hs hr h
  | abort r =>
    obtain ⟨p, hr, rfl⟩ := Option.map_eq_some_iff.mp h
    exact fail_spec hs

end Auth
