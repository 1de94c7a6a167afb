import Mathlib.Data.Fintype.EquivFin
import NocReport.Jobs.NoLostJob

set_option relaxedAutoImplicit false
set_option autoImplicit false

/-!
# Jobs that can still be completed

A job is completed by a worker that holds its claim token, and a worker gets the token for a
delivery whose body validates. So what a job needs to be completed is a message that validates on
its way to a worker, an outbox row that is dispatched, or a worker that has its delivery in hand
already. Nothing else helps, an operator's requeue included: what is in the dead-letter queue does
not validate.

## Main definitions

* `Jobs.State.Completable` — what a job needs to be completed.
* `Jobs.Completes`, `Jobs.Reopens` — the steps that complete a job, and those that undo it.

## Main results

* `Jobs.canComplete_iff` — in every state that can occur, the jobs that can be completed.
* `Jobs.completions_ledger` — how often a job is completed along a run.
-/

namespace Jobs

open Transition

variable {cfg : Config} {s s' : State} {a : Action} {w : WorkerId} {m : Message} {p : Phase}
  {j : JobId} {row row' : JobRow}

/-! ## What a job needs -/

/-- The claim token of a worker that has not tried to complete its job yet. -/
def Phase.working? : Phase → Option Token
  | claimed tok | processing tok | completing tok => some tok
  | _ => none

/-- A worker in this phase can complete its job, whose row is `row`, without another delivery. -/
def Phase.CanComplete (row : JobRow) (p : Phase) : Prop :=
  p = .received ∨ ∃ tok, p.working? = some tok ∧ row.claimToken = some tok

/-- What job `j`, whose row is `row`, needs to be completed. -/
inductive State.Completable (s : State) (j : JobId) (row : JobRow) : Prop
  | done (h : row.status = .completed)
  | outbox (h : s.outbox j = .pending)
  | main (m : Message) (hm : m ∈ s.main) (hv : m.valid = true) (hj : m.job = j)
  | retry (m : Message) (hm : m ∈ s.retry) (hv : m.valid = true) (hj : m.job = j)
  | unacked (w : WorkerId) (m : Message) (hm : (w, m) ∈ s.unacked) (hv : m.valid = true)
      (hj : m.job = j)
  | worker (w : WorkerId) (m : Message) (p : Phase) (hw : s.handlers w = some ⟨m, p⟩)
      (hj : m.job = j) (hp : p.CanComplete row)

/-! ## What holds in every state that can occur -/

/-- What holds in every state of every run. -/
structure ProgressInv (s : State) : Prop where
  /-- an unacknowledged delivery is the one its worker handles -/
  connected : ∀ w m, (w, m) ∈ s.unacked → ∃ p, s.handlers w = some ⟨m, p⟩
  /-- a worker only quarantines a body that does not validate -/
  quarantined : ∀ w m p, s.handlers w = some ⟨m, p⟩ → m.valid = false →
    p = .quarantining ∨ p = .acking
  /-- no dead letter validates -/
  deadLettered : ∀ m ∈ s.dlq, m.valid = false
  /-- only finitely many workers are busy -/
  busy : ∃ ws : List WorkerId, ∀ w, w ∉ ws → s.handlers w = none

lemma progressInv_init : ProgressInv .init where
  connected := by intro w m h; cases h
  quarantined := by intro w m p h; cases h
  deadLettered := by intro m h; cases h
  busy := ⟨[], fun _ _ => rfl⟩

/-- Where a worker goes on after a phase. -/
structure Phase.Leads (p p' : Phase) : Prop where
  received : p' = .received → p = .received
  working : ∀ tok, p'.working? = some tok → p = .received ∨ p.working? = some tok
  quarantined : p = .quarantining ∨ p = .acking → p' = .quarantining ∨ p' = .acking

lemma Phase.Leads.refl (p : Phase) : p.Leads p := ⟨id, fun _ h => .inr h, id⟩

/-- Worker `w` has left, or is in a phase that `p` leads to. -/
def Advances (s' : State) (w : WorkerId) (m : Message) (p : Phase) : Prop :=
  ∀ h, s'.handlers w = some h → h.message = m ∧ p.Leads h.phase

lemma Advances.setPhase {q : Phase} (h : p.Leads q) : Advances (s.setPhase w m q) w m p := by
  intro h' hw
  simp only [State.setPhase_handlers, Function.update_self, Option.some.injEq] at hw
  subst hw
  exact ⟨rfl, h⟩

lemma Advances.of_handlers (h : Advances s w m p) (hs : s'.handlers = s.handlers) :
    Advances s' w m p := by
  intro h' hw
  exact h h' (hs ▸ hw)

lemma Advances.leave : Advances (s.leave w) w m p := by
  intro h' hw
  simp at hw

lemma Advances.guardedUpdate {f : JobRow → JobRow × Bool} {q r : Phase} (hq : p.Leads q)
    (hr : p.Leads r) : Advances (s.guardedUpdate w m f q r) w m p := by
  rcases guardedUpdate_cases (s := s) w m f q r with ⟨row, -, -, h⟩ | ⟨-, h⟩
  · rw [h]
    exact (Advances.setPhase (s := s) hq).of_handlers rfl
  · rw [h]
    exact .setPhase hr

/-- A worker goes on from phase to phase. -/
lemma workerStep_advances {b : WorkerAction} (hw : s.handlers w = some ⟨m, p⟩)
    (h : workerStep cfg s w m p b = some s') : Advances s' w m p := by
  have hstay : Advances s w m p := by
    intro h' hw'
    rw [hw] at hw'
    cases hw'
    exact ⟨rfl, .refl p⟩
  cases b with
  | crash =>
    cases h
    exact .leave
  | disconnect =>
    simp only [workerStep] at h
    split at h
    · cases h
      exact hstay.of_handlers (by simp)
    · cases h
  | renew =>
    simp only [workerStep] at h
    split at h
    · split at h
      · cases h
        exact hstay.of_handlers rfl
      · cases h
    · cases h
  | claim tok =>
    simp only [workerStep] at h
    split at h
    · next hc =>
      obtain ⟨rfl, -⟩ := hc
      have hleads : ∀ q, q ≠ .received → Phase.Leads .received q := fun q hq =>
        ⟨fun h => absurd h hq, fun _ _ => .inl rfl, by simp⟩
      split at h
      · cases h
        exact (Advances.setPhase (s := s) (hleads (.claimed tok) (by simp))).of_handlers rfl
      · cases h
        exact (Advances.setPhase (s := s) (hleads (.classifying s.clock) (by simp))).of_handlers rfl
    · cases h
  | succeed =>
    simp only [workerStep] at h
    split at h
    · cases h
      exact .setPhase ⟨by simp, fun _ h => .inr h, by simp⟩
    · cases h
  | raise terminal =>
    simp only [workerStep] at h
    split at h
    · cases h
      exact .setPhase ⟨by simp, by simp [Phase.working?], by simp⟩
    · cases h
  | proceed =>
    cases p with
    | received | processing => simp [workerStep] at h
    | quarantining =>
      simp only [workerStep, Option.some.injEq] at h
      subst h
      split
      · exact .setPhase ⟨by simp, by simp [Phase.working?], fun _ => .inr rfl⟩
      · exact .leave
    | nackingBusy =>
      simp only [workerStep, Option.some.injEq] at h
      subst h
      split
      · exact (Advances.leave (s := s)).of_handlers rfl
      · exact .leave
    | ackingCompleted tok =>
      simp only [workerStep, Option.some.injEq] at h
      subst h
      split
      · exact .leave
      · exact .setPhase ⟨by simp, by simp [Phase.working?], by simp⟩
    | publishingRetry tok | publishingDlq tok =>
      simp only [workerStep, Option.some.injEq] at h
      subst h
      split
      · refine (Advances.setPhase (s := s) ?_).of_handlers rfl
        exact ⟨by simp, by simp [Phase.working?], by simp⟩
      · exact .leave
    | classifying now =>
      simp only [workerStep] at h
      split at h <;>
      · cases h
        exact .setPhase ⟨by simp, by simp [Phase.working?], by simp⟩
    | claimed tok =>
      cases h
      exact .setPhase ⟨by simp, fun _ h => .inr h, by simp⟩
    | bumping tok | marking tok =>
      cases h
      exact .setPhase ⟨by simp, by simp [Phase.working?], by simp⟩
    | completing tok =>
      cases h
      exact .guardedUpdate ⟨by simp, by simp [Phase.working?], by simp⟩
        ⟨by simp, by simp [Phase.working?], by simp⟩
    | settling tok terminal =>
      cases h
      apply Advances.guardedUpdate <;>
      · split <;> exact ⟨by simp, by simp [Phase.working?], by simp⟩
    | acking =>
      cases h
      exact .leave

/-- What worker `w` has added to the retry and the dead-letter queue. -/
structure Adds (s s' : State) (w : WorkerId) (m : Message) : Prop where
  retry : ∀ x ∈ s'.retry, x ∈ s.retry ∨ ((x = m ∨ x = m.retryCopy) ∧ (w, m) ∈ s.unacked)
  dlq : ∀ x ∈ s'.dlq, x ∈ s.dlq ∨ x = m.deadLetter

lemma Adds.nothing (hr : s'.retry = s.retry) (hd : s'.dlq = s.dlq) : Adds s s' w m :=
  ⟨fun _ hx => .inl (hr ▸ hx), fun _ hx => .inl (hd ▸ hx)⟩

lemma Adds.guardedUpdate {f : JobRow → JobRow × Bool} {q r : Phase} :
    Adds s (s.guardedUpdate w m f q r) w m := by
  rcases guardedUpdate_cases (s := s) w m f q r with ⟨row, -, -, h⟩ | ⟨-, h⟩ <;>
  · rw [h]
    exact .nothing rfl rfl

lemma Adds.takeBack : Adds s (s.takeBack w m) w m := by
  unfold State.takeBack
  split <;> exact .nothing rfl rfl

/-- What a step of a worker adds to these queues. -/
lemma workerStep_adds {b : WorkerAction} (h : workerStep cfg s w m p b = some s') :
    Adds s s' w m := by
  cases b with
  | crash =>
    cases h
    exact ⟨(Adds.takeBack (s := s) (w := w)).retry, (Adds.takeBack (s := s) (w := w)).dlq⟩
  | disconnect =>
    simp only [workerStep] at h
    split at h
    · cases h
      exact .takeBack
    · cases h
  | renew =>
    simp only [workerStep] at h
    split at h
    · split at h
      · cases h
        exact .nothing rfl rfl
      · cases h
    · cases h
  | claim tok =>
    simp only [workerStep] at h
    split at h
    · split at h <;>
      · cases h
        exact .nothing rfl rfl
    · cases h
  | succeed | raise =>
    simp only [workerStep] at h
    split at h
    · cases h
      exact .nothing rfl rfl
    · cases h
  | proceed =>
    cases p with
    | received | processing => simp [workerStep] at h
    | quarantining | ackingCompleted =>
      simp only [workerStep, Option.some.injEq] at h
      subst h
      split <;> exact .nothing rfl rfl
    | acking | claimed | bumping | marking =>
      cases h
      exact .nothing rfl rfl
    | classifying now =>
      simp only [workerStep] at h
      split at h <;>
      · cases h
        exact .nothing rfl rfl
    | completing tok =>
      cases h
      exact .guardedUpdate
    | settling tok terminal =>
      cases h
      exact .guardedUpdate
    | nackingBusy =>
      simp only [workerStep, Option.some.injEq] at h
      subst h
      split
      · next hu =>
        refine ⟨fun x hx => ?_, fun x hx => .inl hx⟩
        rcases List.mem_append.mp hx with hx | hx
        · exact .inl hx
        · exact .inr ⟨.inl (List.mem_singleton.mp hx), hu⟩
      · exact .nothing rfl rfl
    | publishingRetry tok =>
      simp only [workerStep, Option.some.injEq] at h
      subst h
      split
      · next hu =>
        refine ⟨fun x hx => ?_, fun x hx => .inl hx⟩
        rcases List.mem_append.mp hx with hx | hx
        · exact .inl hx
        · exact .inr ⟨.inr (List.mem_singleton.mp hx), hu⟩
      · exact .nothing rfl rfl
    | publishingDlq tok =>
      simp only [workerStep, Option.some.injEq] at h
      subst h
      split
      · refine ⟨fun x hx => .inl hx, fun x hx => ?_⟩
        rcases List.mem_append.mp hx with hx | hx
        · exact .inl hx
        · exact .inr (List.mem_singleton.mp hx)
      · exact .nothing rfl rfl

/-- A step of a worker preserves what always holds. -/
lemma workerStep_progressInv {b : WorkerAction} (hs : ProgressInv s)
    (hw : s.handlers w = some ⟨m, p⟩) (h : workerStep cfg s w m p b = some s') :
    ProgressInv s' := by
  have hf := workerStep_frame hw h
  have hadv := workerStep_advances hw h
  refine ⟨fun w' m' hu => ?_, fun w' m' p' hw' hv => ?_, fun x hx => ?_, ?_⟩
  · have hu' := hf.unacked _ hu
    by_cases hne : w' = w
    · subst hne
      obtain ⟨q, hq⟩ := hs.connected w' m' hu'
      rw [hw] at hq
      cases hq
      exact hf.connected hu
    · rw [hf.handlers w' hne]
      exact hs.connected w' m' hu'
  · by_cases hne : w' = w
    · subst hne
      obtain ⟨rfl, hleads⟩ := hadv _ hw'
      exact hleads.quarantined (hs.quarantined w' _ p hw hv)
    · rw [hf.handlers w' hne] at hw'
      exact hs.quarantined w' m' p' hw' hv
  · rcases (workerStep_adds h).dlq x hx with hx | rfl
    · exact hs.deadLettered x hx
    · rfl
  · obtain ⟨ws, hws⟩ := hs.busy
    refine ⟨w :: ws, fun w' hw' => ?_⟩
    obtain ⟨hne, hw'⟩ := not_or.mp (mt List.mem_cons.mpr hw')
    rw [hf.handlers w' hne]
    exact hws w' hw'

/-- **Every step preserves what always holds.** -/
lemma step_progressInv (hs : ProgressInv s) (h : step cfg s a = some s') : ProgressInv s' := by
  cases a with
  | worker w b =>
    simp only [step] at h
    split at h
    · next hd hw => exact workerStep_progressInv hs hw h
    · cases h
  | deliver w m =>
    simp only [step] at h
    split at h
    · cases h
    · next hw =>
      split at h
      · cases h
        have hnone : ∀ m', (w, m') ∉ s.unacked := fun m' hu => by
          obtain ⟨p, hp⟩ := hs.connected w m' hu
          rw [hw] at hp
          cases hp
        refine ⟨fun w' m' hu => ?_, fun w' m' p' hw' hv => ?_, hs.deadLettered, ?_⟩
        · rcases List.mem_cons.mp hu with hu | hu
          · cases hu
            exact ⟨_, Function.update_self ..⟩
          · have hne : w' ≠ w := fun hw' => hnone m' (hw' ▸ hu)
            simpa [hne] using hs.connected w' m' hu
        · by_cases hne : w' = w
          · subst hne
            simp only [State.setPhase_handlers, Function.update_self, Option.some.injEq,
              Handler.mk.injEq] at hw'
            obtain ⟨rfl, rfl⟩ := hw'
            exact .inl (by simp [hv])
          · exact hs.quarantined w' m' p' (by simpa [hne] using hw') hv
        · obtain ⟨ws, hws⟩ := hs.busy
          refine ⟨w :: ws, fun w' hw' => ?_⟩
          obtain ⟨hne, hw'⟩ := not_or.mp (mt List.mem_cons.mpr hw')
          simpa [hne] using hws w' hw'
      · cases h
  | restartBroker =>
    cases h
    exact ⟨fun w m hu => (List.not_mem_nil hu).elim, hs.quarantined,
      fun x hx => hs.deadLettered x (List.mem_of_mem_filter hx), hs.busy⟩
  | requeuePublish m acked =>
    simp only [step] at h
    split at h
    · cases acked <;> cases h
      · exact ⟨hs.connected, hs.quarantined, hs.deadLettered, hs.busy⟩
      · exact ⟨hs.connected, hs.quarantined,
          fun x hx => hs.deadLettered x (List.mem_of_mem_erase hx), hs.busy⟩
    · cases h
  | tick | dispatchCrash | requeueCrash =>
    cases h
    exact ⟨hs.connected, hs.quarantined, hs.deadLettered, hs.busy⟩
  | enqueue | dispatchPublish | dispatchMark | expireRetry | requeueReset =>
    simp only [step] at h
    split at h <;> cases h
    exact ⟨hs.connected, hs.quarantined, hs.deadLettered, hs.busy⟩

/-! ## What is completable after a step was so before -/

/-- A row has the claim token it had before a step, unless a worker has just claimed it. -/
lemma claimToken_of_step (h : step cfg s a = some s') (hr : s.jobs j = some row)
    (hr' : s'.jobs j = some row') {tok : Token} (htok : row'.claimToken = some tok) :
    row.claimToken = some tok ∨ ∃ w m, s.handlers w = some ⟨m, .received⟩ ∧ m.job = j := by
  have hchange := step_rowChange h j
  rw [hr, hr'] at hchange
  cases hchange with
  | same | bump => exact .inl htok
  | claim w m _ _ _ _ hw hm => exact .inr ⟨w, m, hw, hm⟩
  | complete w m t _ _ _ _ ht =>
    rw [JobRow.markCompleted, if_pos (by simpa using ht)] at htok
    cases htok
  | fail w m t _ _ _ _ _ ht =>
    rw [JobRow.markFailed, if_pos (by simpa using ht)] at htok
    cases htok
  | mark => cases htok
  | renew =>
    unfold JobRow.renewJobLease at htok
    split at htok <;> exact .inl htok
  | reset => exact .inl (JobRow.requeueReset_claimToken htok)

/-- A row that is completed was so before a step, unless a worker with its token has just
completed it. -/
lemma completed_before_step (h : step cfg s a = some s') (hr : s.jobs j = some row)
    (hr' : s'.jobs j = some row') (hc : row'.status = .completed) :
    row.status = .completed ∨ ∃ w m tok, a = .worker w .proceed ∧
      s.handlers w = some ⟨m, .completing tok⟩ ∧ m.job = j ∧ row.claimToken = some tok := by
  have hchange := step_rowChange h j
  rw [hr, hr'] at hchange
  cases hchange with
  | same | bump => exact .inl hc
  | claim _ _ _ _ _ _ _ _ _ hrow =>
    rw [(JobRow.claimUpdate_eq_some hrow).2.1] at hc
    cases hc
  | complete w m t _ ha hw hm ht => exact .inr ⟨w, m, t, ha, hw, hm, ht⟩
  | fail w m t _ _ _ _ _ ht =>
    rw [JobRow.markFailed, if_pos (by simpa using ht)] at hc
    cases hc
  | mark => cases hc
  | renew =>
    unfold JobRow.renewJobLease at hc
    split at hc <;> exact .inl hc
  | reset =>
    unfold JobRow.requeueReset at hc
    split at hc
    · cases hc
    · exact .inl hc

/-- A worker that is as it was before a step can complete the job only if the job was completable
before. -/
lemma completable_of_same (h : step cfg s a = some s') (hr : s.jobs j = some row)
    (hr' : s'.jobs j = some row') (hw : s.handlers w = some ⟨m, p⟩) (hj : m.job = j)
    (hp : p.CanComplete row') : s.Completable j row := by
  rcases hp with hp | ⟨tok, hp, htok⟩
  · exact .worker w m p hw hj (.inl hp)
  · rcases claimToken_of_step h hr hr' htok with htok | ⟨w', m', hw', hj'⟩
    · exact .worker w m p hw hj (.inr ⟨tok, hp, htok⟩)
    · exact .worker w' m' .received hw' hj' (.inl rfl)

/-- The step of a worker makes no job completable.

**Proof sketch.** What the worker has put into a queue is its own delivery, as long as the broker
still waits for it, or a retry of it. A phase from which it can complete the job comes after one
of the same kind. -/
lemma completable_of_workerStep {b : WorkerAction} (ha : step cfg s (.worker w b) = some s')
    (hw : s.handlers w = some ⟨m, p⟩) (h : workerStep cfg s w m p b = some s')
    (hr : s.jobs j = some row) (hr' : s'.jobs j = some row')
    (hdone : row'.status = .completed → s.Completable j row) (hc : s'.Completable j row') :
    s.Completable j row := by
  have hf := workerStep_frame hw h
  cases hc with
  | done hc => exact hdone hc
  | outbox ho => exact .outbox (hf.outbox ▸ ho)
  | main x hx hv hj =>
    rcases hf.main x hx with hx | ⟨rfl, hu⟩
    · exact .main x hx hv hj
    · exact .unacked w x hu hv hj
  | retry x hx hv hj =>
    rcases (workerStep_adds h).retry x hx with hx | ⟨rfl | rfl, hu⟩
    · exact .retry x hx hv hj
    · exact .unacked w x hu hv hj
    · exact .unacked w m hu hv hj
  | unacked w' x hx hv hj => exact .unacked w' x (hf.unacked _ hx) hv hj
  | worker w' x q hw' hj hq =>
    by_cases hne : w' = w
    · subst hne
      obtain ⟨rfl, hleads⟩ := workerStep_advances hw h _ hw'
      rcases hq with rfl | ⟨tok, hq, htok⟩
      · exact .worker w' _ p hw hj (.inl (hleads.received rfl))
      · rcases hleads.working tok hq with hp | hp
        · exact .worker w' _ p hw hj (.inl hp)
        · exact completable_of_same ha hr hr' hw hj (.inr ⟨tok, hp, htok⟩)
    · rw [hf.handlers w' hne] at hw'
      exact completable_of_same ha hr hr' hw' hj hq

/-- **No step makes a job completable.** -/
lemma completable_of_step (hs : ProgressInv s) (h : step cfg s a = some s')
    (hr : s.jobs j = some row) (hr' : s'.jobs j = some row') (hc : s'.Completable j row') :
    s.Completable j row := by
  have hdone : row'.status = .completed → s.Completable j row := by
    intro hst
    rcases completed_before_step h hr hr' hst with hst | ⟨w, m, tok, -, hw, hj, htok⟩
    · exact .done hst
    · exact .worker w m _ hw hj (.inr ⟨tok, rfl, htok⟩)
  have houtbox : s.outbox j = .pending → s.Completable j row := .outbox
  have hmain : ∀ m ∈ s.main, m.valid = true → m.job = j → s.Completable j row :=
    fun m => .main m
  have hretry : ∀ m ∈ s.retry, m.valid = true → m.job = j → s.Completable j row :=
    fun m => .retry m
  have hunacked : ∀ w m, (w, m) ∈ s.unacked → m.valid = true → m.job = j →
      s.Completable j row := fun w m => .unacked w m
  have hsame : ∀ w m p, s.handlers w = some ⟨m, p⟩ → m.job = j → p.CanComplete row' →
      s.Completable j row := fun w m p hw => completable_of_same h hr hr' hw
  cases a with
  | worker w b =>
    have ha := h
    simp only [step] at h
    split at h
    · next hd hw => exact completable_of_workerStep ha hw h hr hr' hdone hc
    · cases h
  | tick | dispatchCrash | requeueCrash =>
    cases h
    exact hc.rec hdone houtbox hmain hretry hunacked hsame
  | requeueReset =>
    simp only [step] at h
    split at h <;> cases h
    exact hc.rec hdone houtbox hmain hretry hunacked hsame
  | enqueue i =>
    simp only [step] at h
    split at h
    · cases h
    · next hi =>
      cases h
      refine hc.rec hdone (fun ho => ?_) hmain hretry hunacked hsame
      by_cases hij : j = i
      · rw [hij, hi] at hr
        cases hr
      · exact .outbox (by simpa [hij] using ho)
  | dispatchPublish i =>
    simp only [step] at h
    split at h
    · next hi =>
      cases h
      refine hc.rec hdone houtbox (fun x hx hv hj => ?_) hretry hunacked hsame
      rcases List.mem_append.mp hx with hx | hx
      · exact .main x hx hv hj
      · obtain rfl := List.mem_singleton.mp hx
        subst hj
        exact .outbox hi.1
    · cases h
  | dispatchMark i =>
    simp only [step] at h
    split at h
    · cases h
      refine hc.rec hdone (fun ho => ?_) hmain hretry hunacked hsame
      by_cases hij : j = i
      · simp [hij] at ho
      · exact .outbox (by simpa [hij] using ho)
    · cases h
  | deliver w m =>
    simp only [step] at h
    split at h
    · cases h
    · next hw =>
      split at h
      · next hm =>
        cases h
        refine hc.rec hdone houtbox (fun x hx => hmain x (List.mem_of_mem_erase hx)) hretry
          (fun w' x hx hv hj => ?_) fun w' x q hw' hj hq => ?_
        · rcases List.mem_cons.mp hx with hx | hx
          · cases hx
            exact .main m hm hv hj
          · exact .unacked w' x hx hv hj
        · by_cases hne : w' = w
          · subst hne
            simp only [State.setPhase_handlers, Function.update_self, Option.some.injEq,
              Handler.mk.injEq] at hw'
            obtain ⟨rfl, rfl⟩ := hw'
            cases hv : m.valid with
            | true => exact .main m hm hv hj
            | false => simp [hv, Phase.CanComplete, Phase.working?] at hq
          · exact hsame w' x q (by simpa [hne] using hw') hj hq
      · cases h
  | expireRetry m =>
    simp only [step] at h
    split at h
    · next hm =>
      cases h
      refine hc.rec hdone houtbox (fun x hx hv hj => ?_)
        (fun x hx => hretry x (List.mem_of_mem_erase hx)) hunacked hsame
      rcases List.mem_append.mp hx with hx | hx
      · exact .main x hx hv hj
      · obtain rfl := List.mem_singleton.mp hx
        exact .retry x hm hv hj
    · cases h
  | restartBroker =>
    cases h
    refine hc.rec hdone houtbox (fun x hx hv hj => ?_)
      (fun x hx => hretry x (List.mem_of_mem_filter hx)) (fun _ _ hx => ?_) hsame
    · rcases List.mem_append.mp (List.mem_of_mem_filter hx) with hx | hx
      · exact .main x hx hv hj
      · obtain ⟨⟨w, y⟩, hy, rfl⟩ := List.mem_map.mp hx
        exact .unacked w y hy hv hj
    · exact (List.not_mem_nil hx).elim
  | requeuePublish m acked =>
    simp only [step] at h
    split at h
    · next hm =>
      -- a dead letter stays invalid when it is requeued
      have hrequeued : ∀ x ∈ s.main ++ [m.requeued], x.valid = true → x.job = j →
          s.Completable j row := by
        intro x hx hv hj
        rcases List.mem_append.mp hx with hx | hx
        · exact .main x hx hv hj
        · obtain rfl := List.mem_singleton.mp hx
          rw [Message.requeued, hs.deadLettered m hm] at hv
          cases hv
      cases acked <;>
      · cases h
        exact hc.rec hdone houtbox hrequeued hretry hunacked hsame
    · cases h

/-! ## What is completable can be completed -/

/-- A worker that has the claim token of its job, and a result, completes the job. -/
lemma canReach_of_completing {tok : Token} (hw : s.handlers w = some ⟨m, .completing tok⟩)
    (hr : s.jobs m.job = some row) (htok : row.claimToken = some tok) :
    CanReach (step cfg) (·.Completed m.job) s := by
  have hstep : step cfg s (.worker w .proceed) = some (s.guardedUpdate w m
      (·.markCompleted (some tok)) (.ackingCompleted tok) (.settling tok false)) := by
    simp [step, hw, workerStep]
  refine .of_step hstep (.now ?_)
  simp [State.guardedUpdate, State.Completed, hr, JobRow.markCompleted, htok]

lemma canReach_of_processing {tok : Token} (hw : s.handlers w = some ⟨m, .processing tok⟩)
    (hr : s.jobs m.job = some row) (htok : row.claimToken = some tok) :
    CanReach (step cfg) (·.Completed m.job) s := by
  have hstep : step cfg s (.worker w .succeed) = some (s.setPhase w m (.completing tok)) := by
    simp [step, hw, workerStep]
  exact .of_step hstep (canReach_of_completing (w := w) (by simp) (by simpa using hr) htok)

lemma canReach_of_claimed {tok : Token} (hw : s.handlers w = some ⟨m, .claimed tok⟩)
    (hr : s.jobs m.job = some row) (htok : row.claimToken = some tok) :
    CanReach (step cfg) (·.Completed m.job) s := by
  have hstep : step cfg s (.worker w .proceed) = some ((s.updateJob m.job
      (·.bumpAttempt m.attempt)).setPhase w m (.processing tok)) := by
    simp [step, hw, workerStep]
  exact .of_step hstep (canReach_of_processing (w := w) (by simp)
    (show _ = some (row.bumpAttempt m.attempt) by simp [hr]) htok)

lemma canReach_of_working {tok : Token} (hw : s.handlers w = some ⟨m, p⟩)
    (hp : p.working? = some tok) (hr : s.jobs m.job = some row)
    (htok : row.claimToken = some tok) : CanReach (step cfg) (·.Completed m.job) s := by
  cases p with
  | claimed t =>
    cases hp
    exact canReach_of_claimed hw hr htok
  | processing t =>
    cases hp
    exact canReach_of_processing hw hr htok
  | completing t =>
    cases hp
    exact canReach_of_completing hw hr htok
  | _ => cases hp

/-- What can be reached later can be reached now. -/
lemma canReach_of_ticks {Q : State → Prop} (n : ℕ)
    (h : CanReach (step cfg) Q { s with clock := s.clock + n }) : CanReach (step cfg) Q s := by
  induction n with
  | zero => exact h
  | succ n ih =>
    have hstep : step cfg { s with clock := s.clock + n } .tick =
        some { s with clock := s.clock + (n + 1) } := rfl
    exact ih (.of_step hstep h)

/-- A row that is not completed is claimable after a while. -/
lemma exists_claimable (hc : row.status ≠ .completed) (now : ℕ) :
    ∃ n, row.claimable (now + n) = true := by
  cases he : row.leaseExpiresAt with
  | none => exact ⟨0, JobRow.claimable_of_not_live hc fun _ => by simp [JobRow.leaseExpired, he]⟩
  | some expires =>
    refine ⟨expires + 1, JobRow.claimable_of_not_live hc fun _ => ?_⟩
    simp only [JobRow.leaseExpired, he, decide_eq_true_eq]
    omega

/-- A worker that has received a valid message waits until the lease of its job is over, claims
the job with a fresh token and completes it. -/
lemma canReach_of_received (hw : s.handlers w = some ⟨m, .received⟩)
    (hr : s.jobs m.job = some row) : CanReach (step cfg) (·.Completed m.job) s := by
  by_cases hc : row.status = .completed
  · exact .now ⟨row, hr, hc⟩
  obtain ⟨n, hn⟩ := exists_claimable hc s.clock
  obtain ⟨tok, htok⟩ := Infinite.exists_notMem_finset s.issued.toFinset
  have htok' : tok ∉ s.issued := fun h => htok (List.mem_toFinset.mpr h)
  apply canReach_of_ticks n
  set t : State := { s with clock := s.clock + n } with ht
  let row' : JobRow :=
    { row with
      status := .processing, claimToken := some tok,
      leaseExpiresAt := some (t.clock + cfg.leaseSeconds) }
  have hclaim : row.claimUpdate t.clock cfg.leaseSeconds tok = some row' := by
    rw [JobRow.claimUpdate, if_pos hn]
  have hstep : step cfg t (.worker w (.claim tok)) =
      some { t.setPhase w m (.claimed tok) with
        jobs := Function.update t.jobs m.job (some row'), issued := tok :: t.issued } := by
    have hbind : (t.jobs m.job).bind (·.claimUpdate t.clock cfg.leaseSeconds tok) = some row' := by
      rw [show t.jobs m.job = some row from hr]
      exact hclaim
    have htw : t.handlers w = some ⟨m, .received⟩ := hw
    simp only [step, htw, workerStep, hbind]
    exact if_pos ⟨trivial, htok'⟩
  exact .of_step hstep (canReach_of_claimed (w := w) (by simp) (show _ = some row' by simp) rfl)

/-- A valid message in the main queue is delivered to a worker that is not busy. -/
lemma canReach_of_main (hs : ProgressInv s) (hm : m ∈ s.main) (hv : m.valid = true)
    (hr : s.jobs m.job = some row) : CanReach (step cfg) (·.Completed m.job) s := by
  obtain ⟨ws, hws⟩ := hs.busy
  obtain ⟨w, hw⟩ := Infinite.exists_notMem_finset ws.toFinset
  have hidle : s.handlers w = none := hws w fun h => hw (List.mem_toFinset.mpr h)
  have hstep : step cfg s (.deliver w m) =
      some { s.setPhase w m .received with
        main := s.main.erase m, unacked := (w, m) :: s.unacked } := by
    simp [step, hidle, hm, hv]
  exact .of_step hstep (canReach_of_received (w := w) (by simp) (show _ = some row by simpa using hr))

/-- **A completable job can be completed.** -/
lemma canReach_of_completable (hs : ProgressInv s) (hr : s.jobs j = some row)
    (hc : s.Completable j row) : CanReach (step cfg) (·.Completed j) s := by
  cases hc with
  | done h => exact .now ⟨row, hr, h⟩
  | worker w m p hw hj hp =>
    subst hj
    rcases hp with rfl | ⟨tok, hp, htok⟩
    · exact canReach_of_received hw hr
    · exact canReach_of_working hw hp hr htok
  | main m hm hv hj =>
    subst hj
    exact canReach_of_main hs hm hv hr
  | retry m hm hv hj =>
    subst hj
    have hstep : step cfg s (.expireRetry m) =
        some { s with retry := s.retry.erase m, main := s.main ++ [m] } := by
      simp [step, hm]
    exact .of_step hstep (canReach_of_main (step_progressInv hs hstep) (by simp) hv hr)
  | unacked w m hm hv hj =>
    subst hj
    obtain ⟨p, hw⟩ := hs.connected w m hm
    have hstep : step cfg s (.worker w .crash) = some ((s.takeBack w m).leave w) := by
      simp [step, hw, workerStep]
    refine .of_step hstep (canReach_of_main (step_progressInv hs hstep) ?_ hv
      (show _ = some row by simpa using hr))
    simp [State.takeBack, hm]
  | outbox h =>
    -- a dispatcher that holds the row locked has to let it go first
    have hcrash : step cfg s (.dispatchCrash j) =
        some { s with confirmed := s.confirmed.filter (· != j) } := rfl
    refine .of_step hcrash ?_
    have hpublish : step cfg { s with confirmed := s.confirmed.filter (· != j) }
        (.dispatchPublish j) =
        some { s with
          main := s.main ++ [.dispatched j], confirmed := j :: s.confirmed.filter (· != j) } := by
      simp [step, h]
    have hinv := step_progressInv (step_progressInv hs hcrash) hpublish
    refine .of_step hpublish ?_
    exact canReach_of_main (m := .dispatched j) hinv (by simp) rfl hr

/-- A row is never deleted. -/
lemma jobs_isSome_of_step (h : step cfg s a = some s') (hr : (s.jobs j).isSome) :
    (s'.jobs j).isSome := by
  have hchange := step_rowChange h j
  generalize s.jobs j = r at hchange hr
  generalize s'.jobs j = r' at hchange
  cases hchange <;> first | rfl | exact hr

/-- **Which jobs can be completed.** In every state of every run, a job that has been enqueued can
still be completed if and only if it is completed, its outbox row is pending, a message that
validates waits for it in the main or the retry queue or is unacknowledged, or a worker is about
to claim it or works under its claim token. -/
theorem canComplete_iff (cfg : Config) (as : List Action) (s : State)
    (hs : run (step cfg) .init as = some s) (j : JobId) (row : JobRow)
    (hr : s.jobs j = some row) :
    CanReach (step cfg) (·.Completed j) s ↔ s.Completable j row := by
  have hinv : ProgressInv s :=
    run_invariant (P := fun _ _ => True) (fun _ _ _ hI _ ht => step_progressInv hI ht)
      progressInv_init (fun _ _ _ _ _ _ => trivial) hs
  refine ⟨fun h => ?_, canReach_of_completable hinv hr⟩
  have hD : ∀ row, s.jobs j = some row → s.Completable j row := by
    refine CanReach.backward (Q := (·.Completed j))
      (I := fun s => ProgressInv s ∧ (s.jobs j).isSome)
      (D := fun s => ∀ row, s.jobs j = some row → s.Completable j row) ?_ ?_ ?_
      ⟨hinv, by rw [hr]; rfl⟩ h
    · exact fun s a t hI ht => ⟨step_progressInv hI.1 ht, jobs_isSome_of_step ht hI.2⟩
    · rintro s - ⟨row, hr, hc⟩ row' hr'
      rw [hr] at hr'
      cases hr'
      exact .done hc
    · intro s a t hI ht hD row hr
      obtain ⟨row', hr'⟩ := Option.isSome_iff_exists.mp (jobs_isSome_of_step ht hI.2)
      exact completable_of_step hI.1 ht hr hr' (hD row' hr')
  exact hD row hr

/-- The retry of `lostRun` was in the broker's memory only, so its job is lost for good. -/
theorem canComplete_iff_lostRun :
    ∃ s, run (step ⟨3, 900⟩) .init lostRun = some s ∧
      ¬ CanReach (step ⟨3, 900⟩) (·.Completed 0) s := by
  refine ⟨_, rfl, fun h => ?_⟩
  have hc := (canComplete_iff ⟨3, 900⟩ lostRun _ rfl 0 ⟨.retrying, 2, none, none⟩ (by decide)).mp h
  cases hc with
  | done hc => cases hc
  | outbox h => exact absurd h (by decide)
  | main m hm => exact absurd hm (List.not_mem_nil)
  | retry m hm => exact absurd hm (List.not_mem_nil)
  | unacked w m hm => exact absurd hm (List.not_mem_nil)
  | worker w m p hw =>
    cases w with
    | zero => cases hw
    | succ w => cases hw

/-! ## How often a job is completed -/

instance (s : State) (j : JobId) : Decidable (s.Completed j) :=
  decidable_of_iff ((s.jobs j).any (·.status == .completed) = true) (by
    cases hr : s.jobs j <;> simp [State.Completed, hr])

/-- The step is a `mark_completed` that matches the row of `j`. -/
def Completes (j : JobId) (s : State) (a : Action) : Prop :=
  ∃ w m tok, a = .worker w .proceed ∧ s.handlers w = some ⟨m, .completing tok⟩ ∧ m.job = j ∧
    ∃ row, s.jobs j = some row ∧ row.claimToken = some tok

/-- The step is a `mark_retrying` on the completed row of `j`. -/
def Reopens (j : JobId) (s : State) (a : Action) : Prop :=
  ∃ w m tok, a = .worker w .proceed ∧ s.handlers w = some ⟨m, .marking tok⟩ ∧ m.job = j ∧
    s.Completed j

/-- `Completes` as a test. -/
def completes (j : JobId) (s : State) : Action → Bool
  | .worker w .proceed =>
    match s.handlers w with
    | some ⟨m, .completing tok⟩ =>
      m.job == j && (s.jobs j).any (·.claimToken == some tok)
    | _ => false
  | _ => false

lemma completes_iff : completes j s a = true ↔ Completes j s a := by
  constructor
  · intro h
    unfold completes at h
    split at h
    · next w =>
      split at h
      · next m tok hw =>
        simp only [Bool.and_eq_true, beq_iff_eq] at h
        cases hr : s.jobs j with
        | none =>
          rw [hr] at h
          cases h.2
        | some row =>
          rw [hr] at h
          exact ⟨w, m, tok, rfl, hw, h.1, row, hr, by simpa using h.2⟩
      · cases h
    · cases h
  · rintro ⟨w, m, tok, rfl, hw, hj, row, hr, ht⟩
    simp [completes, hw, hj, hr, ht]

instance (j : JobId) (s : State) (a : Action) : Decidable (Completes j s a) :=
  decidable_of_iff _ completes_iff

/-- `Reopens` as a test. -/
def reopens (j : JobId) (s : State) : Action → Bool
  | .worker w .proceed =>
    match s.handlers w with
    | some ⟨m, .marking _⟩ => m.job == j && decide (s.Completed j)
    | _ => false
  | _ => false

lemma reopens_iff : reopens j s a = true ↔ Reopens j s a := by
  constructor
  · intro h
    unfold reopens at h
    split at h
    · next w =>
      split at h
      · next m tok hw =>
        simp only [Bool.and_eq_true, beq_iff_eq, decide_eq_true_eq] at h
        exact ⟨w, m, tok, rfl, hw, h.1, h.2⟩
      · cases h
    · cases h
  · rintro ⟨w, m, tok, rfl, hw, hj, hc⟩
    simp [reopens, hw, hj, hc]

instance (j : JobId) (s : State) (a : Action) : Decidable (Reopens j s a) :=
  decidable_of_iff _ reopens_iff

/-- A worker that completes a job leaves it completed, and it was not completed before. -/
lemma completed_of_completes (hs : CompletedUnclaimed s) (h : step cfg s a = some s')
    (hc : Completes j s a) : ¬ s.Completed j ∧ s'.Completed j := by
  obtain ⟨w, m, tok, rfl, hw, rfl, row, hr, ht⟩ := hc
  constructor
  · rintro ⟨row', hr', hst⟩
    rw [hr] at hr'
    cases hr'
    rw [hs _ row hr hst] at ht
    cases ht
  · simp only [step, hw, workerStep, Option.some.injEq] at h
    subst h
    simp [State.guardedUpdate, State.Completed, hr, JobRow.markCompleted, ht]

/-- A late `mark_retrying` undoes a completion. -/
lemma completed_of_reopens (h : step cfg s a = some s') (hc : Reopens j s a) :
    s.Completed j ∧ ¬ s'.Completed j := by
  obtain ⟨w, m, tok, rfl, hw, rfl, row, hr, hst⟩ := hc
  refine ⟨⟨row, hr, hst⟩, ?_⟩
  rintro ⟨row', hr', hst'⟩
  rw [jobs_marking hw hr h] at hr'
  cases hr'
  cases hst'

/-- No other step changes whether a job is completed. -/
lemma completed_iff_of_step (hs : CompletedUnclaimed s) (h : step cfg s a = some s')
    (hc : ¬ Completes j s a) (ho : ¬ Reopens j s a) : s.Completed j ↔ s'.Completed j := by
  have hchange := step_rowChange h j
  unfold State.Completed
  generalize hr' : s'.jobs j = r' at hchange
  generalize hr : s.jobs j = r at hchange
  cases hchange with
  | same => exact Iff.rfl
  | insert => simp [JobRow.fresh]
  | claim w m tok row row' _ _ _ _ hrow =>
    obtain ⟨hclaim, hp, -⟩ := JobRow.claimUpdate_eq_some hrow
    have hne := JobRow.status_ne_completed_of_claimable hclaim
    simp [hp, hne]
  | complete w m tok row ha hw hm ht => exact absurd ⟨w, m, tok, ha, hw, hm, row, hr, ht⟩ hc
  | fail w m tok _ row _ _ _ ht =>
    have hne : row.status ≠ .completed := fun hst => by
      rw [hs _ row hr hst] at ht
      cases ht
    simp [JobRow.markFailed, ht, hne]
  | mark w m tok row ha hw hm =>
    have hne : row.status ≠ .completed := fun hst =>
      ho ⟨w, m, tok, ha, hw, hm, row, hr, hst⟩
    simp [JobRow.markRetrying, hne]
  | bump => simp [JobRow.bumpAttempt]
  | renew w m p tok row =>
    unfold JobRow.renewJobLease
    split <;> simp
  | reset row =>
    unfold JobRow.requeueReset
    split
    · next hst => rcases hst with hst | hst | hst <;> simp [hst]
    · simp

/-- **How often a job is completed.** Along every run, a job is completed once more than it is
reopened by a late `mark_retrying` if it is completed at the end, and otherwise as often. -/
theorem completions_ledger (cfg : Config) (as : List Action) (s : State)
    (hs : run (step cfg) .init as = some s) (j : JobId) :
    countSteps (step cfg) (Completes j) .init as =
      countSteps (step cfg) (Reopens j) .init as + if s.Completed j then 1 else 0 := by
  have hinit : ¬ State.init.Completed j := by
    rintro ⟨row, hr, -⟩
    cases hr
  have key := countSteps_ledger (I := CompletedUnclaimed)
    (φ := fun s => if s.Completed j then 1 else 0) (P := Completes j) (Q := Reopens j)
    (fun s a t hI (ht : step cfg s a = some t) => completedUnclaimed_step hI ht)
    (fun s a t hI ht => ?_) completedUnclaimed_init hs
  · rw [if_neg hinit] at key
    omega
  · by_cases hc : Completes j s a
    · obtain ⟨hnot, hdone⟩ := completed_of_completes hI ht hc
      have ho : ¬ Reopens j s a := fun ho => hnot (completed_of_reopens ht ho).1
      simp [hc, ho, hnot, hdone]
    · by_cases ho : Reopens j s a
      · obtain ⟨hdone, hnot⟩ := completed_of_reopens ht ho
        simp [hc, ho, hnot, hdone]
      · simp [hc, ho, completed_iff_of_step hI ht hc ho]

/-- `lateMarkRun` and the late `mark_retrying` complete the job once and reopen it once. -/
theorem completions_ledger_lateMarkRun :
    countSteps (step ⟨3, 900⟩) (Completes 0) .init (lateMarkRun ++ [.worker 0 .proceed]) = 1 := by
  have hstatus : statusAfter ⟨3, 900⟩ (lateMarkRun ++ [.worker 0 .proceed]) 0 = some .retrying := by
    decide
  unfold statusAfter at hstatus
  obtain ⟨row, hrow, hst⟩ := Option.map_eq_some_iff.mp hstatus
  obtain ⟨s, hs, hr⟩ := Option.bind_eq_some_iff.mp hrow
  have hopen : ¬ s.Completed 0 := by
    rintro ⟨row', hr', hst'⟩
    rw [hr] at hr'
    cases hr'
    rw [hst] at hst'
    cases hst'
  rw [completions_ledger ⟨3, 900⟩ _ s hs 0, if_neg hopen]
  decide

end Jobs
