import NocReport.Analysis.System

set_option relaxedAutoImplicit false
set_option autoImplicit false

/-!
# The results that polls fill in

A poll reads a run without a result, fetches the body that is stored for its job, and writes the
result without looking at the row again. Two polls may do so at once, and between their reads of the
storage a worker that has lost its lease may upload another result of the same job.

## Main definitions

* `Analysis.State.HasResult` — the result of a job is committed.
* `Analysis.Overwrites` — a poll commits a result over another.

## Main results

* `Analysis.flushedInv_step` — what a poll has written is what it has fetched.
* `Analysis.results_writeOnce_iff` — results never change if and only if no poll overwrites one.
* `Analysis.results_not_writeOnce` — two polls and a worker that comes late.
-/

namespace Analysis

open Jobs (JobId WorkerId)
open ReadCommitted Skills Storage Transition

variable {Content Digest : Type} {cfg : Config Content Digest} {s s' : State Content Digest}

/-- The columns of the result are set. -/
def AnalysisRun.Filled (row : AnalysisRun Digest) : Prop :=
  row.resultJson ≠ none ∧ row.resultText ≠ none ∧ row.outputSha256 ≠ none

/-- The run of job `j` is committed with this result. -/
def State.HasResult (s : State Content Digest) (j : JobId)
    (result : Option Json × Option PyStr × Option Digest) : Prop :=
  ∃ row, Dict.get? s.runs.committed j = some row ∧ row.Filled ∧ row.result = result

/-- A poll commits the result of a body that it has fetched, while another result of the same job
is committed already. -/
def Overwrites (cfg : Config Content Digest) (s : State Content Digest)
    (a : Action Content Digest) : Prop :=
  ∃ p flushed j body row, a = .process p .commit ∧ s.processes p = some (.polling [] flushed) ∧
    Dict.get? flushed j = some body ∧ Dict.get? s.runs.committed j = some row ∧ row.Filled ∧
    cfg.resultOf body ≠ row.result

/-- What a process has written are the results of the bodies that it has flushed. -/
def FlushedInv (cfg : Config Content Digest) (s : State Content Digest) : Prop :=
  ∀ p j, (s.runs.pending p j).map (Option.map AnalysisRun.result) =
    (Dict.get? (s.flushed p) j).map fun body => some (cfg.resultOf body)

lemma flushedInv_init {skills : SkillTable} : FlushedInv cfg (.init skills) :=
  fun _ _ => rfl

lemma result_fill {body : Content} {v : Json} (hv : cfg.loads body = some v)
    (row : AnalysisRun Digest) : (row.fill cfg body v).result = cfg.resultOf body := by
  simp [AnalysisRun.fill, AnalysisRun.result, Config.resultOf, hv]

/-- Every step preserves the invariant. -/
lemma FlushedInv.effect {a : Action Content Digest} (hs : FlushedInv cfg s)
    (h : RunEffect cfg s a s') : FlushedInv cfg s' := by
  intro q i
  cases h with
  | quiet hruns hflushed =>
    rw [hruns, hflushed]
    exact hs q i
  | rollback p =>
    rw [State.rollback, flushed_goOn]
    by_cases hq : q = p
    · simp [hq]
    · simpa [hq] using hs q i
  | insert p request skill executionHash cached j hold hnone hruns hflushed =>
    rw [hruns, hflushed, Table.withRows, Table.pending_keep]
    exact hs q i
  | @flush T p j body v jobs flushed hold hv hT =>
    obtain ⟨row, -, hg, hm, rfl⟩ := Table.update?_eq_some.mp hT
    rw [flushed_goOn]
    have hold' := hs q i
    by_cases hq : q = p
    · subst hq
      rw [flushed_of_phase hold] at hold'
      by_cases hi : i = j
      · subst hi
        simp [Phase.flushed, result_fill hv]
      · simpa [Phase.flushed, Dict.get?_set_of_ne _ _ hi, Ne.symm hi] using hold'
    · simpa [hq, Ne.symm hq] using hold'
  | commit p flushed hold =>
    rw [flushed_goOn]
    by_cases hq : q = p
    · simp [hq]
    · simpa [hq] using hs q i

/-- The result of a job after the commit of a poll. -/
lemma FlushedInv.commit {p : ProcessId} {flushed : Dict JobId Content} (hs : FlushedInv cfg s)
    (hold : s.processes p = some (.polling [] flushed)) (j : JobId) :
    (Dict.get? (s.runs.commit p).committed j).map AnalysisRun.result =
      ((Dict.get? flushed j).map cfg.resultOf).or
        ((Dict.get? s.runs.committed j).map AnalysisRun.result) := by
  have hwritten := hs p j
  rw [flushed_of_phase hold, Phase.flushed] at hwritten
  rw [Table.get?_commit]
  cases hbody : Dict.get? flushed j with
  | none =>
    rw [hbody, Option.map_none, Option.map_eq_none_iff] at hwritten
    simp [hwritten]
  | some body =>
    rw [hbody, Option.map_some, Option.map_eq_some_iff] at hwritten
    obtain ⟨row, hrow, hresult⟩ := hwritten
    simp [hrow, hresult]

/-! ## Results -/

lemma AnalysisRun.filled_of_result {row row' : AnalysisRun Digest} (h : row.Filled)
    (hresult : row'.result = row.result) : row'.Filled := by
  simp only [AnalysisRun.result, Prod.mk.injEq] at hresult
  obtain ⟨hjson, htext, hdigest⟩ := hresult
  unfold AnalysisRun.Filled
  rw [hjson, htext, hdigest]
  exact h

/-- Whether a job has a result can be read off the result of its run. -/
lemma hasResult_of_eq {j : JobId} {result : Option Json × Option PyStr × Option Digest}
    (h : s.HasResult j result)
    (heq : (Dict.get? s'.runs.committed j).map AnalysisRun.result = some result) :
    s'.HasResult j result := by
  obtain ⟨row, -, hfilled, rfl⟩ := h
  obtain ⟨row', hrow', hsame⟩ := Option.map_eq_some_iff.mp heq
  exact ⟨row', hrow', AnalysisRun.filled_of_result hfilled hsame, hsame⟩

variable [DecidableEq Digest]

/-- **Every step** preserves the invariant. -/
theorem flushedInv_step {a : Action Content Digest} (hs : FlushedInv cfg s)
    (h : step cfg s a = some s') : FlushedInv cfg s' :=
  hs.effect (step_runEffect h)

/-- A step that is no overwriting leaves the results that are committed. -/
lemma hasResult_step {a : Action Content Digest} (hs : FlushedInv cfg s)
    (ha : ¬ Overwrites cfg s a) (h : step cfg s a = some s') {j : JobId}
    {result : Option Json × Option PyStr × Option Digest} (hj : s.HasResult j result) :
    s'.HasResult j result := by
  obtain ⟨row, hrow, hfilled, hresult⟩ := hj
  cases step_runEffect h with
  | quiet hruns hflushed => exact ⟨row, hruns ▸ hrow, hfilled, hresult⟩
  | rollback p => exact ⟨row, hrow, hfilled, hresult⟩
  | insert p request skill executionHash cached i hold hnone hruns hflushed =>
    refine ⟨row, ?_, hfilled, hresult⟩
    have hne : j ≠ i := by
      rintro rfl
      rw [hnone] at hrow
      cases hrow
    rw [hruns, Table.committed_withRows, Dict.get?_set_of_ne _ _ hne]
    exact hrow
  | @flush T p i body v jobs flushed hold hv hT =>
    refine ⟨row, ?_, hfilled, hresult⟩
    rw [← hrow]
    exact congrArg (fun rows => Dict.get? rows j) (Table.committed_update? hT)
  | commit p flushed hold =>
    refine hasResult_of_eq ⟨row, hrow, hfilled, hresult⟩ ?_
    change (Dict.get? (s.runs.commit p).committed j).map AnalysisRun.result = some result
    rw [hs.commit hold, hrow]
    cases hbody : Dict.get? flushed j with
    | none => simpa using hresult
    | some body =>
      have hsame : cfg.resultOf body = row.result := by
        by_contra hne
        exact ha ⟨p, flushed, j, body, row, rfl, hold, hbody, hrow, hfilled, hne⟩
      simp [hsame, hresult]

/-- An overwriting changes a result that was committed. -/
lemma not_hasResult_of_overwrites {a : Action Content Digest} (hs : FlushedInv cfg s)
    (ha : Overwrites cfg s a) :
    ∃ j result s', step cfg s a = some s' ∧ s.HasResult j result ∧ ¬ s'.HasResult j result := by
  obtain ⟨p, flushed, j, body, row, rfl, hold, hbody, hrow, hfilled, hne⟩ := ha
  refine ⟨j, row.result, { s with runs := s.runs.commit p }.goOn p none, ?_,
    ⟨row, hrow, hfilled, rfl⟩, ?_⟩
  · rw [step, hold]
    rfl
  · rintro ⟨row', hrow', -, hresult⟩
    have hcommitted := hs.commit hold j
    rw [hbody, Option.map_some, Option.some_or] at hcommitted
    obtain ⟨new, hnew, hbody'⟩ := Option.map_eq_some_iff.mp hcommitted
    have hsame : row' = new := Option.some.inj (hrow'.symm.trans hnew)
    subst hsame
    exact hne (hbody'.symm.trans hresult)

/-- **When results are written once.** Along a run of the system, the results that are committed
never change if and only if no poll commits another one over them. -/
theorem results_writeOnce_iff (cfg : Config Content Digest) (skills : SkillTable)
    (as : List (Action Content Digest)) :
    (∀ j result, StaysTrue (step cfg) (fun s => s.HasResult j result) (.init skills) as) ↔
      EveryStep (step cfg) (fun s a => ¬ Overwrites cfg s a) (.init skills) as := by
  constructor
  · intro hall pre a post s has hs hoverwrites
    have hinv : FlushedInv cfg s :=
      run_invariant (P := fun _ _ => True) (fun u b u' hu _ hstep => flushedInv_step hu hstep)
        flushedInv_init (fun _ _ _ _ _ _ => trivial) hs
    obtain ⟨j, result, s', hstep, hbefore, hafter⟩ := not_hasResult_of_overwrites hinv hoverwrites
    exact hafter (everyStep_of_staysTrue (hall j result) pre a post s has hs s' hstep hbefore)
  · intro h j result
    exact staysTrue_of_everyStep (fun u b u' hu _ hstep => flushedInv_step hu hstep)
      (fun u b u' hu hb hstep hj => hasResult_step hu hb hstep hj) flushedInv_init h

/-! ## Two polls and a late worker -/

/-- Worker 0 loses its connection before it has uploaded its result, and its lease ends; worker 1
completes the job. Poll 1 fetches the result of worker 1; then worker 0 uploads its own, which poll
2 fetches and commits. -/
def lateUploadRun : List (Action Json.Fields Json.Fields) :=
  [.addEvidence logA plainLog [], .requestAnalysis 0 logA logA, .process 0 .resolve,
    .process 0 .hash, .process 0 (.findCached none), .process 0 (.insert 0),
    .job (.dispatchPublish 0), .job (.deliver 0 (.dispatched 0)), .job (.worker 0 (.claim 0)),
    .job (.worker 0 .proceed)] ++ analyzes 0 [(py "a", .null)] ++
  [.job (.worker 0 .disconnect), .job .tick, .job .tick, .job (.deliver 1 (.dispatched 0)),
    .job (.worker 1 (.claim 1)), .job (.worker 1 .proceed)] ++ analyzes 1 [(py "b", .null)] ++
  [.execute 1 .upload, .job (.worker 1 .succeed), .job (.worker 1 .proceed),
    .poll 1 [0], .process 1 .readRun, .process 1 .fetch, .poll 2 [0], .process 2 .readRun,
    .execute 0 .upload, .process 2 .fetch, .process 2 .flush, .process 2 .commit]

set_option synthInstance.maxSize 256 in
/-- Results change: after `lateUploadRun` the result of worker 0 is committed, and poll 1 commits
that of worker 1 over it. -/
theorem results_not_writeOnce :
    ¬ ∀ (as : List (Action Json.Fields Json.Fields)) (j : JobId)
        (result : Option Json × Option PyStr × Option Json.Fields),
      StaysTrue (step plain) (fun s => s.HasResult j result) (.init plainSkills) as := by
  intro h
  let more : List (Action Json.Fields Json.Fields) := [.process 1 .flush, .process 1 .commit]
  let early : Json.Fields := [(py "b", .null)]
  let late : Json.Fields := [(py "a", .null)]
  have hbefore : resultAfter lateUploadRun 0 =
      some (some (.obj late), some (py "a"), some late) := by rfl
  have hafter : resultAfter (lateUploadRun ++ more) 0 =
      some (some (.obj early), some (py "b"), some early) := by rfl
  obtain ⟨s, hs, hbefore⟩ := Option.bind_eq_some_iff.mp hbefore
  obtain ⟨row, hrow, hlate⟩ := Option.map_eq_some_iff.mp hbefore
  obtain ⟨s', hs', hafter⟩ := Option.bind_eq_some_iff.mp hafter
  have hmore : run (step plain) s more = some s' := by
    rwa [run_append, hs, Option.bind_some] at hs'
  have hfilled : row.Filled := by
    simp only [AnalysisRun.result, Prod.mk.injEq] at hlate
    simp [AnalysisRun.Filled, hlate]
  obtain ⟨new, hnew, -, hresult⟩ := h (lateUploadRun ++ more) 0 row.result lateUploadRun more []
    s s' (List.append_nil _).symm hs hmore ⟨row, hrow, hfilled, rfl⟩
  rw [hnew, Option.map_some, Option.some.injEq, hresult, hlate] at hafter
  simp [early, late, py] at hafter

end Analysis
