import Mathlib.Data.Int.Notation
import Mathlib.Logic.Function.Basic
import Mathlib.Tactic.Common

set_option relaxedAutoImplicit false
set_option autoImplicit false

/-!
# The loop of a worker

The worker connects to the broker, declares its queues, has its profile verified and consumes, again
and again (`Worker.run_forever` in `noc_bridge/worker.py`). It writes in three flags how far it has
come (`WorkerMetrics` in `noc_bridge/worker_health.py`), one after the other, and others read them in
between.

## Main definitions

* `Health.Metrics`, `Health.Worker` — the flags, and the worker.
* `Health.Place`, `Health.Worker.next` — where the loop is, and its next step.
* `Health.Place.serving` — the worker is consuming, or has just left it.
* `Health.Worker.Inv` — what the flags say about the place.

## Main results

* `Health.Worker.Inv.next` — the loop keeps the invariant.
* `Health.Worker.Inv.of_serving` — the flag of the runtime stands for all that was checked.
-/

namespace Health

/-! ## The loop of the worker -/

/-- The flags of `WorkerMetrics`. -/
inductive Flag
  | runtimeReady | rabbitmqReady | hermesProfileReady
  deriving DecidableEq, Repr

/-- The other values of `WorkerMetrics`. -/
inductive Counter
  | jobsQueued | jobsProcessing | jobsCompleted | jobsFailed | retryCount
  | schemaValidationFailures | providerFailures | lastDurationMs
  | lastPreprocessingDurationMs | queueDepth
  deriving DecidableEq, Repr

/-- `WorkerMetrics.values`. -/
structure Metrics where
  counters : Counter → ℤ
  flags : Flag → Bool

/-- `WorkerMetrics.set_runtime_ready` and `WorkerMetrics.set_value`, of a flag. -/
def Metrics.set (m : Metrics) (flag : Flag) (b : Bool) : Metrics :=
  { m with flags := Function.update m.flags flag b }

/-- Where `run_forever` is. -/
inductive Place
  /-- at the head of the loop, before it clears a flag -/
  | opening (flag : Flag)
  | connecting
  | declaring
  | declared
  | verifying
  | verified
  | subscribing
  | subscribed
  | consuming
  /-- in `except Exception`, before it sets a flag; and whether it left `start_consuming` -/
  | failing (flag : Flag) (consumed : Bool)
  | sleeping
  /-- in `finally`, before it clears a flag; and whether the loop goes on -/
  | closing (flag : Flag) (consumed again : Bool)
  | disconnecting (again : Bool)
  | stopped
  deriving DecidableEq, Repr

/-- The worker is in `start_consuming`, or it has just left it and not yet cleared the flag. -/
def Place.serving : Place → Bool
  | consuming => true
  | failing _ consumed => consumed
  | closing _ consumed _ => consumed
  | _ => false

/-- What a statement of the loop does. -/
inductive Outcome
  | goesOn
  | raises
  /-- `KeyboardInterrupt` -/
  | interrupted
  deriving DecidableEq, Repr

/-- The worker; its connection to the broker, if it has made one, is open or not. -/
structure Worker where
  metrics : Metrics
  place : Place
  connection : Option Bool
  /-- ghost: `verify_restricted_toolsets` has returned on this connection -/
  verified : Bool

namespace Worker

/-- A flag is written, and the loop goes on. -/
def write (w : Worker) (flag : Flag) (b : Bool) (place : Place) : Worker :=
  { w with metrics := w.metrics.set flag b, place := place }

/-- The next statement of `run_forever`. -/
def goOn (w : Worker) : Option Worker :=
  match w.place with
  | .opening .runtimeReady => some { w.write .runtimeReady false (.opening .rabbitmqReady) with
      connection := none, verified := false }
  | .opening .rabbitmqReady => some (w.write .rabbitmqReady false (.opening .hermesProfileReady))
  | .opening .hermesProfileReady => some (w.write .hermesProfileReady false .connecting)
  | .connecting => some { w with connection := some true, place := .declaring }
  | .declaring => some { w with place := .declared }
  | .declared => some (w.write .rabbitmqReady true .verifying)
  | .verifying => some { w with place := .verified, verified := true }
  | .verified => some (w.write .hermesProfileReady true .subscribing)
  | .subscribing => some { w with place := .subscribed }
  | .subscribed => some (w.write .runtimeReady true .consuming)
  -- `start_consuming` returns when the broker cancels the consumer
  | .consuming => some { w with place := .closing .runtimeReady true true }
  | .failing .runtimeReady _ => some (w.write .runtimeReady false (.failing .rabbitmqReady false))
  | .failing .rabbitmqReady _ => some (w.write .rabbitmqReady (w.connection == some true)
      (.failing .hermesProfileReady false))
  | .failing .hermesProfileReady _ => some (w.write .hermesProfileReady false .sleeping)
  | .sleeping => some { w with place := .closing .runtimeReady false true }
  | .closing .runtimeReady _ again =>
    some (w.write .runtimeReady false (.closing .rabbitmqReady false again))
  | .closing .rabbitmqReady _ again =>
    some (w.write .rabbitmqReady false (.closing .hermesProfileReady false again))
  | .closing .hermesProfileReady _ again =>
    some (w.write .hermesProfileReady false (.disconnecting again))
  | .disconnecting again =>
    some { w with place := if again then .opening .runtimeReady else .stopped }
  | .stopped => none

/-- The statements that call the broker or the runtime. -/
def blocks : Place → Bool
  | .connecting | .declaring | .verifying | .subscribing | .consuming => true
  | _ => false

/-- The next step of the loop. -/
def next (w : Worker) : Outcome → Option Worker
  | .goesOn => w.goOn
  | .raises =>
    if blocks w.place then some { w with place := .failing .runtimeReady w.place.serving }
    -- `connection.close` raises, out of `run_forever`
    else match w.place with
    | .disconnecting _ => some { w with place := .stopped }
    | _ => none
  | .interrupted =>
    if blocks w.place || w.place == .sleeping then
      some { w with place := .closing .runtimeReady w.place.serving false }
    else none

/-- The worker as the process starts. -/
def start : Worker where
  metrics := ⟨fun _ => 0, fun _ => false⟩
  place := .opening .runtimeReady
  connection := none
  verified := false

/-- The flag `rabbitmq_ready` has been set on the connection. -/
def pastTopology : Place → Bool
  | .verifying | .verified | .subscribing | .subscribed => true
  | p => p.serving

/-- The profile has been verified on the connection. -/
def pastVerification : Place → Bool
  | .verified | .subscribing | .subscribed => true
  | p => p.serving

/-- The flag `hermes_profile_ready` has been set on the connection. -/
def pastProfile : Place → Bool
  | .subscribing | .subscribed => true
  | p => p.serving

/-- What the flags say about the place. The flag of the runtime is cleared before the other two,
and set after them. -/
structure Inv (w : Worker) : Prop where
  runtime : w.metrics.flags .runtimeReady = w.place.serving
  topology : pastTopology w.place = true → w.metrics.flags .rabbitmqReady = true
  verification : pastVerification w.place = true → w.verified = true
  profile : pastProfile w.place = true → w.metrics.flags .hermesProfileReady = true
  /-- only the first write of a block can follow `start_consuming` -/
  first : ∀ flag, (w.place = .failing flag true ∨ ∃ again, w.place = .closing flag true again) →
    flag = .runtimeReady

lemma start_inv : start.Inv where
  runtime := rfl
  topology := fun h => by cases h
  verification := fun h => by cases h
  profile := fun h => by cases h
  first := by rintro flag (h | ⟨again, h⟩) <;> cases h

variable {w w' : Worker}

/-- A place at which none of this has been done is as the flag of the runtime says. -/
lemma Inv.of_idle (hserving : w.place.serving = false) (htopology : pastTopology w.place = false)
    (hverification : pastVerification w.place = false) (hprofile : pastProfile w.place = false)
    (hruntime : w.metrics.flags .runtimeReady = false) : w.Inv where
  runtime := hruntime.trans hserving.symm
  topology := fun h => by simp [htopology] at h
  verification := fun h => by simp [hverification] at h
  profile := fun h => by simp [hprofile] at h
  first := by
    rintro flag (h | ⟨again, h⟩) <;> rw [h] at hserving <;> cases hserving

/-- The flag of the runtime is that of the place, whatever else is written. -/
@[simp] lemma write_runtime (flag : Flag) (b : Bool) (place : Place) :
    (w.write flag b place).metrics.flags .runtimeReady =
      if flag = .runtimeReady then b else w.metrics.flags .runtimeReady := by
  cases flag <;> rfl

/-- After the first write of a block the worker has left `start_consuming`. -/
lemma Inv.late (hw : w.Inv) {flag : Flag} {consumed : Bool} (hflag : flag ≠ .runtimeReady)
    (h : w.place = .failing flag consumed ∨ ∃ again, w.place = .closing flag consumed again) :
    w.metrics.flags .runtimeReady = false := by
  cases consumed with
  | true => exact absurd (hw.first flag h) hflag
  | false =>
    rw [hw.runtime]
    rcases h with h | ⟨again, h⟩ <;> rw [h] <;> rfl

/-- Statements that go well keep the invariant. -/
lemma Inv.goOn (hw : w.Inv) (h : w.goOn = some w') : w'.Inv := by
  have hidle : w.place.serving = false → w.metrics.flags .runtimeReady = false :=
    fun hserving => hw.runtime.trans hserving
  have htopology := hw.topology
  have hverification := hw.verification
  have hprofile := hw.profile
  cases hplace : w.place with
  | opening flag =>
    rw [hplace] at hidle
    cases flag <;> rw [Worker.goOn, hplace] at h <;> cases h
    · exact .of_idle rfl rfl rfl rfl rfl
    · exact .of_idle rfl rfl rfl rfl (hidle rfl)
    · exact .of_idle rfl rfl rfl rfl (hidle rfl)
  | connecting | declaring | sleeping =>
    rw [hplace] at hidle
    rw [Worker.goOn, hplace] at h
    cases h
    exact .of_idle rfl rfl rfl rfl (hidle rfl)
  | declared =>
    rw [hplace] at hidle
    rw [Worker.goOn, hplace] at h
    cases h
    exact ⟨hidle rfl, fun _ => rfl, fun h => (by cases h), fun h => (by cases h),
      by rintro flag (h | ⟨again, h⟩) <;> cases h⟩
  | failing flag consumed =>
    cases flag <;> rw [Worker.goOn, hplace] at h <;> cases h
    · exact .of_idle rfl rfl rfl rfl rfl
    · exact .of_idle rfl rfl rfl rfl (hw.late (by decide) (.inl hplace))
    · exact .of_idle rfl rfl rfl rfl (hw.late (by decide) (.inl hplace))
  | closing flag consumed again =>
    cases flag <;> rw [Worker.goOn, hplace] at h <;> cases h
    · exact .of_idle rfl rfl rfl rfl rfl
    · exact .of_idle rfl rfl rfl rfl (hw.late (by decide) (.inr ⟨again, hplace⟩))
    · exact .of_idle rfl rfl rfl rfl (hw.late (by decide) (.inr ⟨again, hplace⟩))
  | disconnecting again =>
    rw [hplace] at hidle
    rw [Worker.goOn, hplace] at h
    cases again <;> cases h <;> exact .of_idle rfl rfl rfl rfl (hidle rfl)
  | stopped =>
    rw [Worker.goOn, hplace] at h
    cases h
  | verifying =>
    rw [hplace] at hidle htopology
    rw [Worker.goOn, hplace] at h
    cases h
    exact ⟨hidle rfl, fun _ => htopology rfl, fun _ => rfl, fun h => (by cases h),
      by rintro flag (h | ⟨again, h⟩) <;> cases h⟩
  | verified =>
    rw [hplace] at hidle htopology hverification
    rw [Worker.goOn, hplace] at h
    cases h
    exact ⟨hidle rfl, fun _ => htopology rfl, fun _ => hverification rfl, fun _ => rfl,
      by rintro flag (h | ⟨again, h⟩) <;> cases h⟩
  | subscribing =>
    rw [hplace] at hidle htopology hverification hprofile
    rw [Worker.goOn, hplace] at h
    cases h
    exact ⟨hidle rfl, fun _ => htopology rfl, fun _ => hverification rfl, fun _ => hprofile rfl,
      by rintro flag (h | ⟨again, h⟩) <;> cases h⟩
  | subscribed =>
    rw [hplace] at htopology hverification hprofile
    rw [Worker.goOn, hplace] at h
    cases h
    exact ⟨rfl, fun _ => htopology rfl, fun _ => hverification rfl, fun _ => hprofile rfl,
      by rintro flag (h | ⟨again, h⟩) <;> cases h⟩
  | consuming =>
    have hruntime := hw.runtime
    rw [hplace] at hruntime htopology hverification hprofile
    rw [Worker.goOn, hplace] at h
    cases h
    exact ⟨hruntime, fun _ => htopology rfl, fun _ => hverification rfl, fun _ => hprofile rfl,
      by rintro flag (h | ⟨again, h⟩) <;> cases h; rfl⟩

lemma pastTopology_of_serving {p : Place} (h : p.serving = true) : pastTopology p = true := by
  cases p <;> first | rfl | exact h

lemma pastVerification_of_serving {p : Place} (h : p.serving = true) :
    pastVerification p = true := by
  cases p <;> first | rfl | exact h

lemma pastProfile_of_serving {p : Place} (h : p.serving = true) : pastProfile p = true := by
  cases p <;> first | rfl | exact h

/-- A statement that is left for a handler keeps the invariant. -/
lemma Inv.leave (hw : w.Inv) {place : Place} (hserving : place.serving = w.place.serving)
    (hplace : (∃ consumed, place = .failing .runtimeReady consumed) ∨
      ∃ consumed again, place = .closing .runtimeReady consumed again) :
    ({ w with place := place } : Worker).Inv := by
  have hruntime := hw.runtime.trans hserving.symm
  have hfirst : ∀ flag, (place = .failing flag true ∨ ∃ again, place = .closing flag true again) →
      flag = .runtimeReady := by
    rcases hplace with ⟨consumed, rfl⟩ | ⟨consumed, again, rfl⟩ <;>
      rintro flag (h | ⟨again, h⟩) <;> cases h <;> rfl
  have hpast : ∀ past : Place → Bool, (past place = place.serving) → past place = true →
      w.place.serving = true := fun past heq h => hserving.symm.trans (heq.symm.trans h)
  have hsame : pastTopology place = place.serving ∧ pastVerification place = place.serving ∧
      pastProfile place = place.serving := by
    rcases hplace with ⟨consumed, rfl⟩ | ⟨consumed, again, rfl⟩ <;> exact ⟨rfl, rfl, rfl⟩
  exact ⟨hruntime, fun h => hw.topology (pastTopology_of_serving (hpast _ hsame.1 h)),
    fun h => hw.verification (pastVerification_of_serving (hpast _ hsame.2.1 h)),
    fun h => hw.profile (pastProfile_of_serving (hpast _ hsame.2.2 h)), hfirst⟩

/-- **The loop keeps the invariant.** -/
lemma Inv.next (hw : w.Inv) {o : Outcome} (h : w.next o = some w') : w'.Inv := by
  cases o with
  | goesOn => exact hw.goOn h
  | raises =>
    unfold Worker.next at h
    dsimp only at h
    split at h
    · cases h
      exact hw.leave rfl (.inl ⟨_, rfl⟩)
    · split at h
      · next again hplace =>
        cases h
        have hserving := hw.runtime
        rw [hplace] at hserving
        exact .of_idle rfl rfl rfl rfl hserving
      · cases h
  | interrupted =>
    unfold Worker.next at h
    dsimp only at h
    split at h
    · cases h
      exact hw.leave rfl (.inr ⟨_, _, rfl⟩)
    · cases h

/-- Where the flag of the runtime is set, so are the other two, and the profile has been verified. -/
lemma Inv.of_serving (hw : w.Inv) (h : w.place.serving = true) :
    w.metrics.flags .rabbitmqReady = true ∧ w.metrics.flags .hermesProfileReady = true ∧
      w.verified = true :=
  ⟨hw.topology (pastTopology_of_serving h), hw.profile (pastProfile_of_serving h),
    hw.verification (pastVerification_of_serving h)⟩

end Worker

end Health
