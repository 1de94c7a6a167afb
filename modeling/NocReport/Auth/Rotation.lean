import Mathlib.Data.List.Nodup
import Mathlib.Logic.Relation
import NocReport.Auth.Sessions

set_option relaxedAutoImplicit false
set_option autoImplicit false

/-!
# Rotation chains

Each refresh replaces a session by a new one, so that the sessions of one login form a chain. A
refresh works on its session under a row lock, and a session is exchanged once. A logout reads its
session without a lock, and a refresh of that session can commit before the logout does.

## Main definitions

* `Auth.State.Chain` — one session comes from another by rotations.
* `Auth.ChainInv` — the exchanged sessions are revoked, and so are those logged out.
* `Auth.LogoutFinal` — no session of a chain that was logged out is unrevoked.
* `Auth.LateLogout` — a logout commits after a refresh has replaced its session.

## Main results

* `Auth.refresh_singleUse` — in every run a secret is exchanged at most once, and a chain has at
  most one session that is not revoked.
* `Auth.logout_final_iff` — logouts are final along a run exactly when none of them is late.
* `Auth.logout_not_final` — along every run they are not.
-/

namespace Auth

open Relation Transition

variable {Secret Hash : Type}

/-- Session `k'` comes from session `k` by rotations that have committed. -/
def State.Chain (s : State Secret Hash) (k k' : Hash) : Prop :=
  ReflTransGen (fun i j => (i, j) ∈ s.exchanges) k k'

variable [DecidableEq Hash] {cfg : Config Secret Hash} {s s' : State Secret Hash}
  {a : Action Secret} {k k' : Hash}

/-- The invariant of the logs. -/
structure ChainInv (s : State Secret Hash) : Prop where
  once : (s.exchanges.map (·.1)).Nodup
  spent : ∀ e ∈ s.exchanges, s.revoked? e.1 = some true
  there : ∀ e ∈ s.exchanges, s.revoked? e.2 ≠ none
  loggedOut : ∀ k ∈ s.logouts, s.revoked? k = some true

lemma chainInv_init : ChainInv (.init : State Secret Hash) := by
  constructor <;> simp [State.init]

/-- Every step preserves the invariant of the logs: a refresh only exchanges an unrevoked session,
which no earlier exchange has, and a new session is in neither log. -/
lemma Effect.chainInv (hs : ChainInv s) (h : Effect cfg s a s') : ChainInv s' := by
  cases h with
  | quiet hsessions hexchanges hlogouts =>
    constructor
    · rw [hexchanges]
      exact hs.once
    · simpa only [hexchanges, hsessions] using hs.spent
    · simpa only [hexchanges, hsessions] using hs.there
    · simpa only [hlogouts, hsessions] using hs.loggedOut
  | login issued hnew hsessions hexchanges hlogouts =>
    have hkeep : ∀ k, s.revoked? k ≠ none → s'.revoked? k = s.revoked? k := by
      intro k hk
      rw [hsessions, if_neg]
      rintro rfl
      exact hk hnew
    constructor
    · rw [hexchanges]
      exact hs.once
    · intro e he
      rw [hexchanges] at he
      rw [hkeep _ (by simp [hs.spent e he]), hs.spent e he]
    · intro e he
      rw [hexchanges] at he
      rw [hkeep _ (hs.there e he)]
      exact hs.there e he
    · intro k hk
      rw [hlogouts] at hk
      rw [hkeep _ (by simp [hs.loggedOut k hk]), hs.loggedOut k hk]
  | refresh secret issued hlive hnew hsessions hexchanges hlogouts =>
    have hkeep : ∀ k, s.revoked? k = some true → s'.revoked? k = some true := by
      intro k hk
      rw [hsessions]
      split
      · rfl
      · rw [if_neg, hk]
        rintro rfl
        rw [hnew] at hk
        cases hk
    have hthere : ∀ k, s.revoked? k ≠ none → s'.revoked? k ≠ none := by
      intro k hk
      rw [hsessions]
      split
      · simp
      · split
        · simp
        · exact hk
    constructor
    · rw [hexchanges, List.map_cons, List.nodup_cons]
      refine ⟨?_, hs.once⟩
      intro hmem
      obtain ⟨e, he, heq⟩ := List.mem_map.mp hmem
      have hspent := hs.spent e he
      rw [heq, hlive] at hspent
      cases hspent
    · intro e he
      rw [hexchanges] at he
      rcases List.mem_cons.mp he with rfl | he
      · simp [hsessions]
      · exact hkeep _ (hs.spent e he)
    · intro e he
      rw [hexchanges] at he
      rcases List.mem_cons.mp he with rfl | he
      · rw [hsessions]
        split <;> simp
      · exact hthere _ (hs.there e he)
    · intro k hk
      rw [hlogouts] at hk
      exact hkeep _ (hs.loggedOut k hk)
  | logout r secret haction hphase hthere hsessions hexchanges hlogouts =>
    have hkeep : ∀ k, s.revoked? k = some true → s'.revoked? k = some true := by
      intro k hk
      rw [hsessions]
      split
      · rfl
      · exact hk
    constructor
    · rw [hexchanges]
      exact hs.once
    · intro e he
      rw [hexchanges] at he
      exact hkeep _ (hs.spent e he)
    · intro e he
      rw [hexchanges] at he
      rw [hsessions]
      split
      · simp
      · exact hs.there e he
    · intro k hk
      rw [hlogouts] at hk
      rcases List.mem_cons.mp hk with rfl | hk
      · simp [hsessions]
      · exact hkeep _ (hs.loggedOut k hk)

/-- The two invariants hold after every run. -/
lemma inv_run {as : List (Action Secret)} (h : run (step cfg) .init as = some s) :
    SessionInv cfg s ∧ ChainInv s := by
  refine run_invariant (I := fun u => SessionInv cfg u ∧ ChainInv u) (P := fun _ _ => True)
    ?_ ⟨sessionInv_init, chainInv_init⟩ (fun _ _ _ _ _ _ => trivial) h
  rintro u a v ⟨hu, hchain⟩ - hstep
  obtain ⟨hv, heffect⟩ := step_spec hu hstep
  exact ⟨hv, heffect.chainInv hchain⟩

/-! ## Chains -/

/-- A session is exchanged for one other session. -/
lemma ChainInv.rightUnique (hs : ChainInv s) :
    Relator.RightUnique fun i j => (i, j) ∈ s.exchanges := by
  intro i j j' hj hj'
  exact (Prod.mk.inj (List.inj_on_of_nodup_map hs.once hj hj' rfl)).2

/-- The chain of a session that is not revoked ends with it. -/
lemma State.Chain.eq_of_live (h : s.Chain k k') (hs : ChainInv s)
    (hlive : s.revoked? k = some false) : k' = k := by
  rcases ReflTransGen.cases_head h with rfl | ⟨i, hi, -⟩
  · rfl
  · have hspent := hs.spent _ hi
    rw [hlive] at hspent
    cases hspent

/-- The chain of a session that is there consists of such sessions. -/
lemma State.Chain.there (h : s.Chain k k') (hs : ChainInv s) (hk : s.revoked? k ≠ none) :
    s.revoked? k' ≠ none := by
  rcases ReflTransGen.cases_tail h with rfl | ⟨i, -, hi⟩
  · exact hk
  · exact hs.there _ hi

/-- A chain has at most one session that is not revoked. -/
lemma ChainInv.live_unique (hs : ChainInv s) {root : Hash} (h : s.Chain root k)
    (h' : s.Chain root k') (hk : s.revoked? k = some false) (hk' : s.revoked? k' = some false) :
    k = k' := by
  rcases ReflTransGen.total_of_right_unique hs.rightUnique h h' with hchain | hchain
  · exact (State.Chain.eq_of_live hchain hs hk).symm
  · exact State.Chain.eq_of_live hchain hs hk'

/-- **Refresh secrets are single-use.** After every run, each secret has been exchanged at most
once, and among the sessions that come from one session at most one is not revoked. -/
theorem refresh_singleUse (cfg : Config Secret Hash) {as : List (Action Secret)}
    {s : State Secret Hash} (h : run (step cfg) .init as = some s) :
    (∀ secret, (s.exchanges.filter fun e => e.1 = cfg.hashRefreshSecret secret).length ≤ 1) ∧
      ∀ root k k', s.Chain root k → s.Chain root k' → s.revoked? k = some false →
        s.revoked? k' = some false → k = k' := by
  obtain ⟨-, hs⟩ := inv_run h
  refine ⟨?_, fun root k k' => hs.live_unique⟩
  intro secret
  have hcount := List.nodup_iff_count_le_one.mp hs.once (cfg.hashRefreshSecret secret)
  rw [List.count_eq_countP, List.countP_map, List.countP_eq_length_filter] at hcount
  exact hcount

/-- A configuration in which a secret is its own hash. -/
def sampleConfig : Config ℕ ℕ where
  hashRefreshSecret := id
  refreshTokenExpire := 5

/-- User `0` logs in with secret `1`; two refreshes present it, and the one that has the lock first
exchanges it for secret `2`. The other then finds it revoked. -/
def replayRun : List (Action ℕ) :=
  [.setUser 0 true, .login 0 0 true, .issue 0 1, .commit 0, .refresh 1 1, .proceed 1, .proceed 1,
    .issue 1 2, .commit 1, .refresh 2 1, .proceed 2]

theorem refresh_singleUse_replayRun :
    ∃ s, run (step sampleConfig) .init replayRun = some s ∧ s.exchanges = [(1, 2)] ∧
      (∀ secret, (s.exchanges.filter fun e => e.1 = sampleConfig.hashRefreshSecret secret).length ≤ 1) ∧
      ∀ root k k', s.Chain root k → s.Chain root k' → s.revoked? k = some false →
        s.revoked? k' = some false → k = k' := by
  have h : (run (step sampleConfig) .init replayRun).map (·.exchanges) = some [(1, 2)] := by decide
  obtain ⟨s, hs, hexchanges⟩ := Option.map_eq_some_iff.mp h
  exact ⟨s, hs, hexchanges, refresh_singleUse sampleConfig hs⟩

/-! ## Logouts -/

/-- No session that comes from one that was logged out is unrevoked. -/
def LogoutFinal (s : State Secret Hash) : Prop :=
  ∀ k ∈ s.logouts, ∀ k', s.Chain k k' → s.revoked? k' ≠ some false

/-- The action is the commit of a logout whose session has been replaced, since the logout read it,
by one that is not revoked. -/
def LateLogout (cfg : Config Secret Hash) (s : State Secret Hash) (a : Action Secret) : Prop :=
  ∃ r secret k, a = .commit r ∧ s.requests r = some (.revoked secret) ∧
    s.Chain (cfg.hashRefreshSecret secret) k ∧ k ≠ cfg.hashRefreshSecret secret ∧
    s.revoked? k = some false

lemma logoutFinal_init : LogoutFinal (.init : State Secret Hash) := by
  simp [LogoutFinal, State.init]

/-- A rotation does not prolong a chain that was logged out. -/
lemma LogoutFinal.chain_of_rotated {issued : Hash} (hs : LogoutFinal s) {spent : Hash}
    (hlive : s.revoked? spent = some false)
    (hexchanges : s'.exchanges = (spent, issued) :: s.exchanges) (hk : k ∈ s.logouts)
    (h : s'.Chain k k') : s.Chain k k' := by
  induction h with
  | refl => exact .refl
  | tail _ hlast ih =>
    rw [hexchanges] at hlast
    rcases List.mem_cons.mp hlast with heq | hlast
    · obtain ⟨rfl, -⟩ := Prod.mk.inj heq
      exact absurd hlive (hs k hk _ ih)
    · exact .tail ih hlast

/-- Every step but a late logout keeps the logouts final. -/
lemma Effect.logoutFinal (hs : LogoutFinal s) (hchain : ChainInv s) (h : Effect cfg s a s')
    (ha : ¬ LateLogout cfg s a) : LogoutFinal s' := by
  have hsame : s'.exchanges = s.exchanges → ∀ {k k'}, s'.Chain k k' → s.Chain k k' := by
    intro hexchanges k k' hk
    rwa [State.Chain, hexchanges] at hk
  cases h with
  | quiet hsessions hexchanges hlogouts =>
    intro k hk k' hk'
    rw [hlogouts] at hk
    rw [hsessions]
    exact hs k hk k' (hsame hexchanges hk')
  | login issued hnew hsessions hexchanges hlogouts =>
    intro k hk k' hk'
    rw [hlogouts] at hk
    have hthere := (hsame hexchanges hk').there hchain (by simp [hchain.loggedOut k hk])
    rw [hsessions, if_neg]
    · exact hs k hk k' (hsame hexchanges hk')
    · rintro rfl
      exact hthere hnew
  | refresh secret issued hlive hnew hsessions hexchanges hlogouts =>
    intro k hk k' hk'
    rw [hlogouts] at hk
    have hold := hs.chain_of_rotated hlive hexchanges hk hk'
    have hthere := hold.there hchain (by simp [hchain.loggedOut k hk])
    rw [hsessions]
    split
    · simp
    · rw [if_neg]
      · exact hs k hk k' hold
      · rintro rfl
        exact hthere hnew
  | logout r secret haction hphase hthere hsessions hexchanges hlogouts =>
    intro k hk k' hk'
    rw [hlogouts] at hk
    rw [hsessions]
    split
    · simp
    · next hne =>
      rcases List.mem_cons.mp hk with rfl | hk
      · intro hlive
        exact ha ⟨r, secret, k', haction, hphase, hsame hexchanges hk', Ne.symm hne, hlive⟩
      · exact hs k hk k' (hsame hexchanges hk')

/-- A late logout leaves a session of its chain unrevoked. -/
lemma LateLogout.not_logoutFinal (hs : SessionInv cfg s) (ha : LateLogout cfg s a) :
    ∃ s', step cfg s a = some s' ∧ ¬ LogoutFinal s' := by
  obtain ⟨r, secret, k, rfl, hr, hchain, hne, hlive⟩ := ha
  refine ⟨{ s.finish r with logouts := cfg.hashRefreshSecret secret :: s.logouts }, ?_, ?_⟩
  · simp only [step, hr, Option.bind_some, commit]
  · intro hfinal
    apply hfinal (cfg.hashRefreshSecret secret) List.mem_cons_self k hchain
    change (s.finish r).revoked? k = some false
    rw [hs.revoked?_finish hr, hlive]
    simp [Phase.writes, Dict.get?_cons, Ne.symm hne]

/-- **When logouts are final.** Along a run, no session that comes from one that was logged out is
ever unrevoked if and only if no logout of the run commits after a refresh has replaced its session
by one that is not revoked. -/
theorem logout_final_iff (cfg : Config Secret Hash) (as : List (Action Secret)) :
    EveryState (step cfg) LogoutFinal .init as ↔
      EveryStep (step cfg) (fun s a => ¬ LateLogout cfg s a) .init as := by
  constructor
  · intro h pre a post s has hs hlate
    obtain ⟨s', hstep, hnot⟩ := hlate.not_logoutFinal (inv_run hs).1
    exact hnot (h.next has hs hstep)
  · intro h
    refine everyState_of_everyStep
      (I := fun u => SessionInv cfg u ∧ ChainInv u ∧ LogoutFinal u) ?_ (fun u hu => hu.2.2)
      ⟨sessionInv_init, chainInv_init, logoutFinal_init⟩ h
    rintro u a v ⟨hu, hchain, hfinal⟩ ha hstep
    obtain ⟨hv, heffect⟩ := step_spec hu hstep
    exact ⟨hv, heffect.chainInv hchain, heffect.logoutFinal hfinal hchain ha⟩

/-- A logout reads the session of secret `1`; a refresh then exchanges it for secret `2` and
commits, and the logout revokes the session of secret `1` alone. -/
def lateLogoutRun : List (Action ℕ) :=
  [.setUser 0 true, .login 0 0 true, .issue 0 1, .commit 0, .logout 1 1, .refresh 2 1, .proceed 2,
    .proceed 2, .issue 2 2, .commit 2, .proceed 1, .commit 1]

theorem logout_not_final :
    ¬ ∀ (cfg : Config ℕ ℕ) (as : List (Action ℕ)), EveryState (step cfg) LogoutFinal .init as := by
  intro h
  have hrun : (run (step sampleConfig) .init lateLogoutRun).map
      (fun s => (s.logouts, s.exchanges, s.revoked? 2)) = some ([1], [(1, 2)], some false) := by
    decide
  obtain ⟨s, hs, heq⟩ := Option.map_eq_some_iff.mp hrun
  simp only [Prod.mk.injEq] at heq
  obtain ⟨hlogouts, hexchanges, hlive⟩ := heq
  have hfinal := h sampleConfig lateLogoutRun lateLogoutRun [] s (by simp) hs
  refine hfinal 1 (by simp [hlogouts]) 2 (.single ?_) hlive
  simp [hexchanges]

end Auth
