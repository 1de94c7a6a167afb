import NocReport.Analysis.System

set_option relaxedAutoImplicit false
set_option autoImplicit false

/-!
# Where the results of runs come from

A run gets its result from the body that is stored for its job, or from another run, which may have
got it from yet another one. Of the body it is known that a worker has uploaded it, for the message
of the job: and that the worker has verified the evidence, the snapshot and its execution hash, which
the run was stamped with when the job was enqueued. Of the other run it is known that these are the
same. So every result was produced by a worker from the log and the snapshot of the run itself.

## Main definitions

* `Analysis.History` — the logs that were uploaded, the messages, and the results of the workers.
* `Analysis.Produced` — a worker has produced a result for a message.
* `Analysis.HoldsResultOf` — a run holds such a result under its own snapshot.
* `Analysis.CacheSound` — every run that has a result holds one that was produced from its log.
* `Analysis.CacheInv` — the invariant.

## Main results

* `Analysis.cacheInv_step` — every step preserves the invariant.
* `Analysis.cache_sound` — results are never those of other logs or skills.
-/

namespace Analysis

open Jobs (JobId WorkerId)
open ReadCommitted Skills Storage Transition

variable {Content Digest : Type}

/-! ## What is recorded -/

/-- What never gets lost: the bytes of the logs, the messages of the jobs, and the results that have
been uploaded for them. -/
structure History (Content Digest : Type) where
  sources : Dict EvidenceId Content
  messages : JobId → Option (JobMessage Digest)
  uploads : JobId → List (Production Content)

def State.history (s : State Content Digest) : History Content Digest :=
  ⟨s.sources, s.messages, s.uploads⟩

section Produced

variable (cfg : Config Content Digest) (H : History Content Digest) (message : JobMessage Digest)
  (production : Production Content)

/-- The input is what the message names: bytes with its digest, and the files of its snapshot. -/
structure InputOf (input : Input Content) : Prop where
  bytes : message.sha256 = some (cfg.sha256 input.bytes)
  files : materializeSnapshot cfg.skills.toSkillLibrary input.table skillName
    (some message.skillHash) (some message.skillSnapshotId) (some message.skillExecutionHash) =
      .ok input.files

/-- A worker has produced the result, from what the message of the job names. -/
structure Produced : Prop where
  sent : H.messages message.jobId = some message
  uploaded : production ∈ H.uploads message.jobId
  input : InputOf cfg message production.toInput

/-- The run has the result that was produced, under its own snapshot and from its own log. -/
structure HoldsResultOf (row : AnalysisRun Digest) : Prop where
  result : row.result = cfg.resultOf (cfg.dumps production.output)
  skillHash : row.skillHash = message.skillHash
  skillSnapshotId : row.skillSnapshotId = message.skillSnapshotId
  skillExecutionHash : row.skillExecutionHash = message.skillExecutionHash
  inputManifestSha256 : row.inputManifestSha256 = some (cfg.sha256 production.bytes)

end Produced

/-- Every run that has a result holds one that a worker has produced, under the snapshot and the
execution hash of the run, from the bytes of the log of the run. -/
def CacheSound (cfg : Config Content Digest) (s : State Content Digest) : Prop :=
  ∀ j row, Dict.get? s.runs.committed j = some row → row.resultJson ≠ none →
    ∃ message production, Produced cfg s.history message production ∧
      HoldsResultOf cfg message production row ∧
      Dict.get? s.sources row.logEvidenceId = some production.bytes

/-! ## The invariant -/

section Invariant

variable (cfg : Config Content Digest) (H : History Content Digest)

/-- The digest is that of the bytes of a log. -/
def DigestOf (e : EvidenceId) (digest : Option Digest) : Prop :=
  ∃ bytes, Dict.get? H.sources e = some bytes ∧ digest = some (cfg.sha256 bytes)

/-- What is known of the run of job `j`. -/
structure RunInv (j : JobId) (row : AnalysisRun Digest) : Prop where
  source : DigestOf cfg H row.logEvidenceId row.inputManifestSha256
  stamped : ∀ message, H.messages j = some message → message.skillHash = row.skillHash ∧
    message.skillSnapshotId = row.skillSnapshotId ∧
    message.skillExecutionHash = row.skillExecutionHash ∧ message.sha256 = row.inputManifestSha256
  produced : row.resultJson ≠ none → ∃ message production, Produced cfg H message production ∧
    HoldsResultOf cfg message production row

/-- What a worker knows of what it processes. -/
def ExecutionInv (message : JobMessage Digest) : Execution Content Digest → Prop
  | .materializing _ row => row.sha256 = message.sha256
  | .downloading _ row table files => row.sha256 = message.sha256 ∧
    materializeSnapshot cfg.skills.toSkillLibrary table skillName (some message.skillHash)
      (some message.skillSnapshotId) (some message.skillExecutionHash) = .ok files
  | .analyzing input => InputOf cfg message input
  | .uploading production => InputOf cfg message production.toInput
  | _ => True

/-- What a request or a poll knows. -/
def PhaseInv : Phase Content Digest → Prop
  | .resolving request | .hashing request _ | .searching request _ _ =>
    DigestOf cfg H request.evidenceId request.evidence.sha256
  | .answering request skill executionHash cached =>
    DigestOf cfg H request.evidenceId request.evidence.sha256 ∧
      ∀ row, cached = some row → ∃ message production, Produced cfg H message production ∧
        HoldsResultOf cfg message production row ∧ row.skillHash = skill.contentHash ∧
        row.skillSnapshotId = skill.id ∧ row.skillExecutionHash = executionHash ∧
        row.inputManifestSha256 = request.evidence.sha256
  | .filling j body _ _ => ∃ production ∈ H.uploads j, body = cfg.dumps production.output
  | .polling _ _ | .fetching _ _ _ => True

end Invariant

/-- The invariant. -/
structure CacheInv (cfg : Config Content Digest) (s : State Content Digest) : Prop where
  evidence : ∀ e row, Dict.get? s.evidence e = some row → DigestOf cfg s.history e row.sha256
  sources : ∀ e bytes, Dict.get? s.sources e = some bytes → Dict.get? s.evidence e ≠ none
  messages : ∀ j message, s.messages j = some message → message.jobId = j ∧
    message.sha256 ≠ none ∧ Dict.get? s.runs.committed j ≠ none
  executions : ∀ w message x, s.executions w = some (message, x) →
    s.messages message.jobId = some message ∧ ExecutionInv cfg message x
  uploads : ∀ j, ∀ production ∈ s.uploads j,
    ∃ message, message.jobId = j ∧ Produced cfg s.history message production
  committed : ∀ j row, Dict.get? s.runs.committed j = some row → RunInv cfg s.history j row
  written : ∀ p j row, s.runs.pending p j = some row → Dict.get? s.runs.committed j ≠ none ∧
    ∃ new, row = some new ∧ RunInv cfg s.history j new
  phases : ∀ p ph, s.processes p = some ph → PhaseInv cfg s.history ph

variable {cfg : Config Content Digest} {H H' : History Content Digest}
  {s s' : State Content Digest} {p : ProcessId} {w : WorkerId} {message : JobMessage Digest}
  {j : JobId} {row : AnalysisRun Digest}

/-- Nothing that is recorded gets lost. -/
structure Grows (H H' : History Content Digest) : Prop where
  sources : ∀ e bytes, Dict.get? H.sources e = some bytes → Dict.get? H'.sources e = some bytes
  messages : ∀ j message, H.messages j = some message → H'.messages j = some message
  uploads : ∀ j, ∀ production ∈ H.uploads j, production ∈ H'.uploads j

lemma Produced.mono {production : Production Content} (h : Produced cfg H message production)
    (hgrows : Grows H H') : Produced cfg H' message production where
  sent := hgrows.messages _ _ h.sent
  uploaded := hgrows.uploads _ _ h.uploaded
  input := h.input

lemma DigestOf.mono {e : EvidenceId} {digest : Option Digest} (h : DigestOf cfg H e digest)
    (hgrows : Grows H H') : DigestOf cfg H' e digest := by
  obtain ⟨bytes, hbytes, hdigest⟩ := h
  exact ⟨bytes, hgrows.sources e bytes hbytes, hdigest⟩

lemma RunInv.mono (h : RunInv cfg H j row) (hgrows : Grows H H')
    (hmessages : H'.messages j = H.messages j) : RunInv cfg H' j row where
  source := h.source.mono hgrows
  stamped := by
    rw [hmessages]
    exact h.stamped
  produced := by
    intro hresult
    obtain ⟨message, production, hproduced, hholds⟩ := h.produced hresult
    exact ⟨message, production, hproduced.mono hgrows, hholds⟩

lemma PhaseInv.mono {ph : Phase Content Digest} (h : PhaseInv cfg H ph) (hgrows : Grows H H') :
    PhaseInv cfg H' ph := by
  cases ph with
  | resolving request => exact DigestOf.mono h hgrows
  | hashing request skill => exact DigestOf.mono h hgrows
  | searching request skill executionHash => exact DigestOf.mono h hgrows
  | answering request skill executionHash cached =>
    refine ⟨h.1.mono hgrows, fun row hrow => ?_⟩
    obtain ⟨message, production, hproduced, hrest⟩ := h.2 row hrow
    exact ⟨message, production, hproduced.mono hgrows, hrest⟩
  | polling jobs flushed => trivial
  | fetching j jobs flushed => trivial
  | filling j body jobs flushed =>
    obtain ⟨production, hproduction, hbody⟩ := h
    exact ⟨production, hgrows.uploads j production hproduction, hbody⟩

lemma cacheInv_init {skills : SkillTable} : CacheInv cfg (.init skills) where
  evidence := by simp [State.init]
  sources := by simp [State.init]
  messages := by simp [State.init]
  executions := by simp [State.init]
  uploads := by simp [State.init]
  committed := by simp [State.init]
  written := by simp [State.init]
  phases := by simp [State.init]

/-! ## What leaves the runs alone -/

/-- A process goes on, or ends. -/
lemma CacheInv.goOn {next : Option (Phase Content Digest)} (hs : CacheInv cfg s)
    (h : ∀ ph, next = some ph → PhaseInv cfg s.history ph) : CacheInv cfg (s.goOn p next) where
  evidence := hs.evidence
  sources := hs.sources
  messages := hs.messages
  executions := hs.executions
  uploads := hs.uploads
  committed := hs.committed
  written := hs.written
  phases := by
    intro q ph hq
    rw [State.goOn_processes] at hq
    by_cases hp : q = p
    · subst hp
      rw [Function.update_self] at hq
      exact h ph hq
    · rw [Function.update_of_ne hp] at hq
      exact hs.phases q ph hq

/-- A worker goes on. -/
lemma CacheInv.execute {x : Execution Content Digest} (hs : CacheInv cfg s)
    (hmessage : s.messages message.jobId = some message) (hx : ExecutionInv cfg message x) :
    CacheInv cfg (s.execute w message x) where
  evidence := hs.evidence
  sources := hs.sources
  messages := hs.messages
  executions := by
    intro u other y hu
    rw [State.execute_executions] at hu
    by_cases hw : u = w
    · subst hw
      rw [Function.update_self] at hu
      cases hu
      exact ⟨hmessage, hx⟩
    · rw [Function.update_of_ne hw] at hu
      exact hs.executions u other y hu
  uploads := hs.uploads
  committed := hs.committed
  written := hs.written
  phases := hs.phases

/-- A log is uploaded. -/
lemma CacheInv.addEvidence {e : EvidenceId} {log : Evidence Digest} {bytes : Content}
    (hs : CacheInv cfg s) (hnone : Dict.get? s.evidence e = none)
    (hdigest : log.sha256 = some (cfg.sha256 bytes)) :
    CacheInv cfg { s with evidence := s.evidence.set e log, sources := s.sources.set e bytes } := by
  have hgrows : Grows s.history ⟨s.sources.set e bytes, s.messages, s.uploads⟩ := by
    refine ⟨fun i b hi => ?_, fun _ _ h => h, fun _ _ h => h⟩
    have hne : i ≠ e := by
      rintro rfl
      exact hs.sources i b hi hnone
    exact (Dict.get?_set_of_ne _ _ hne).trans hi
  refine ⟨?_, ?_, hs.messages, hs.executions, ?_, ?_, ?_, ?_⟩
  · intro i row hi
    rw [Dict.get?_set] at hi
    split at hi
    · next heq =>
      cases hi
      exact ⟨bytes, by simp [State.history, heq], hdigest⟩
    · exact (hs.evidence i row hi).mono hgrows
  · intro i b hi
    rw [Dict.get?_set] at hi ⊢
    split
    · simp
    · next hne =>
      rw [if_neg hne] at hi
      exact hs.sources i b hi
  · intro i production hproduction
    obtain ⟨message, hjob, hproduced⟩ := hs.uploads i production hproduction
    exact ⟨message, hjob, hproduced.mono hgrows⟩
  · exact fun i row hi => (hs.committed i row hi).mono hgrows rfl
  · intro q i row hi
    obtain ⟨hcommitted, new, hnew, hinv⟩ := hs.written q i row hi
    exact ⟨hcommitted, new, hnew, hinv.mono hgrows rfl⟩
  · exact fun q ph hq => (hs.phases q ph hq).mono hgrows

/-- A worker uploads a result. -/
lemma CacheInv.upload {production : Production Content} (hs : CacheInv cfg s)
    (hmessage : s.messages message.jobId = some message)
    (hinput : InputOf cfg message production.toInput) :
    CacheInv cfg { s with
      uploads := Function.update s.uploads message.jobId
        (s.uploads message.jobId ++ [production]) } := by
  have hgrows : Grows s.history ⟨s.sources, s.messages, Function.update s.uploads message.jobId
      (s.uploads message.jobId ++ [production])⟩ := by
    refine ⟨fun _ _ h => h, fun _ _ h => h, fun i other hi => ?_⟩
    change other ∈ Function.update s.uploads message.jobId _ i
    by_cases hj : i = message.jobId
    · subst hj
      rw [Function.update_self]
      exact List.mem_append_left _ hi
    · rw [Function.update_of_ne hj]
      exact hi
  refine ⟨hs.evidence, hs.sources, hs.messages, hs.executions, ?_, ?_, ?_, ?_⟩
  · intro i other hi
    change other ∈ Function.update s.uploads message.jobId _ i at hi
    by_cases hj : i = message.jobId
    · subst hj
      rw [Function.update_self] at hi
      rcases List.mem_append.mp hi with hi | hi
      · obtain ⟨m, hm, hproduced⟩ := hs.uploads _ other hi
        exact ⟨m, hm, hproduced.mono hgrows⟩
      · rw [List.mem_singleton] at hi
        subst hi
        refine ⟨message, rfl, hmessage, ?_, hinput⟩
        simp [State.history]
    · rw [Function.update_of_ne hj] at hi
      obtain ⟨m, hm, hproduced⟩ := hs.uploads i other hi
      exact ⟨m, hm, hproduced.mono hgrows⟩
  · exact fun i row hi => (hs.committed i row hi).mono hgrows rfl
  · intro q i row hi
    obtain ⟨hcommitted, new, hnew, hinv⟩ := hs.written q i row hi
    exact ⟨hcommitted, new, hnew, hinv.mono hgrows rfl⟩
  · exact fun q ph hq => (hs.phases q ph hq).mono hgrows

/-! ## What changes the runs -/

/-- The transaction of a process ends without a commit. -/
lemma CacheInv.rollback (hs : CacheInv cfg s) : CacheInv cfg (s.rollback p) := by
  have hrolled : CacheInv cfg { s with runs := s.runs.rollback p } := by
    refine ⟨hs.evidence, hs.sources, hs.messages, hs.executions, hs.uploads, hs.committed, ?_,
      hs.phases⟩
    intro q i row hi
    rw [Table.pending_rollback] at hi
    split at hi
    · cases hi
    · exact hs.written q i row hi
  exact hrolled.goOn (by simp)

/-- A request commits its run, and the message of its job if it has one. -/
lemma CacheInv.insert {base : Jobs.State} {cachedJobs : List JobId}
    {messages : JobId → Option (JobMessage Digest)} (hs : CacheInv cfg s)
    (hnone : Dict.get? s.runs.committed j = none) (hother : ∀ i, i ≠ j → messages i = s.messages i)
    (hmessage : ∀ message, messages j = some message → message.jobId = j ∧ message.sha256 ≠ none)
    (hrow : RunInv cfg ⟨s.sources, messages, s.uploads⟩ j row) :
    CacheInv cfg { s with
      base, cachedJobs, messages, runs := s.runs.withRows (s.runs.committed.set j row) } := by
  have hgrows : Grows s.history ⟨s.sources, messages, s.uploads⟩ := by
    refine ⟨fun _ _ h => h, fun i message hi => ?_, fun _ _ h => h⟩
    have hne : i ≠ j := by
      rintro rfl
      exact (hs.messages i message hi).2.2 hnone
    exact (hother i hne).trans hi
  have hkept : ∀ i, Dict.get? s.runs.committed i ≠ none →
      i ≠ j ∧ Dict.get? (s.runs.committed.set j row) i ≠ none := by
    intro i hi
    have hne : i ≠ j := by
      rintro rfl
      exact hi hnone
    exact ⟨hne, by rwa [Dict.get?_set_of_ne _ _ hne]⟩
  refine ⟨?_, hs.sources, ?_, ?_, ?_, ?_, ?_, ?_⟩
  · exact fun e log he => (hs.evidence e log he).mono hgrows
  · intro i message hi
    by_cases hj : i = j
    · subst hj
      exact ⟨(hmessage message hi).1, (hmessage message hi).2, by simp⟩
    · obtain ⟨hjob, hdigest, hcommitted⟩ := hs.messages i message ((hother i hj).symm.trans hi)
      exact ⟨hjob, hdigest, (hkept i hcommitted).2⟩
  · intro u message x hu
    obtain ⟨hsent, hx⟩ := hs.executions u message x hu
    exact ⟨hgrows.messages _ _ hsent, hx⟩
  · intro i production hproduction
    obtain ⟨message, hjob, hproduced⟩ := hs.uploads i production hproduction
    exact ⟨message, hjob, hproduced.mono hgrows⟩
  · intro i old hi
    rw [Table.committed_withRows, Dict.get?_set] at hi
    split at hi
    · next heq =>
      cases hi
      exact heq ▸ hrow
    · next hne => exact (hs.committed i old hi).mono hgrows (hother i hne)
  · intro q i old hi
    rw [Table.withRows, Table.pending_keep] at hi
    obtain ⟨hcommitted, new, hnew, hinv⟩ := hs.written q i old hi
    obtain ⟨hne, hcommitted'⟩ := hkept i hcommitted
    exact ⟨hcommitted', new, hnew, hinv.mono hgrows (hother i hne)⟩
  · exact fun q ph hq => (hs.phases q ph hq).mono hgrows

/-- What a statement reads of a run. -/
lemma CacheInv.read (hs : CacheInv cfg s) (h : s.runs.read p j = some row) :
    Dict.get? s.runs.committed j ≠ none ∧ RunInv cfg s.history j row := by
  rw [Table.read] at h
  cases hp : s.runs.pending p j with
  | none =>
    rw [hp, Option.getD_none] at h
    exact ⟨by simp [h], hs.committed j row h⟩
  | some r =>
    obtain ⟨hcommitted, new, rfl, hinv⟩ := hs.written p j r hp
    rw [hp, Option.getD_some] at h
    cases h
    exact ⟨hcommitted, hinv⟩

/-- A run that is filled with a body that is stored for its job has the result of a worker. -/
lemma RunInv.fill {production : Production Content} {v : Json} (hs : CacheInv cfg s)
    (h : RunInv cfg s.history j row) (hproduction : production ∈ s.uploads j)
    (hv : cfg.loads (cfg.dumps production.output) = some v) :
    RunInv cfg s.history j (row.fill cfg (cfg.dumps production.output) v) where
  source := h.source
  stamped := h.stamped
  produced := by
    intro _
    obtain ⟨message, rfl, hproduced⟩ := hs.uploads j production hproduction
    obtain ⟨hhash, hid, hexecution, hdigest⟩ := h.stamped message hproduced.sent
    refine ⟨message, production, hproduced, ?_, hhash.symm, hid.symm, hexecution.symm, ?_⟩
    · simp [AnalysisRun.result, AnalysisRun.fill, Config.resultOf, hv]
    · exact hdigest.symm.trans hproduced.input.bytes

/-- A poll flushes the result in a body. -/
lemma CacheInv.flush {T : Table ProcessId JobId (AnalysisRun Digest)}
    {production : Production Content} {v : Json} (hs : CacheInv cfg s)
    (hproduction : production ∈ s.uploads j)
    (hv : cfg.loads (cfg.dumps production.output) = some v)
    (hT : s.runs.update? p j (AnalysisRun.fill cfg (cfg.dumps production.output) v) = some T) :
    CacheInv cfg { s with runs := T } := by
  obtain ⟨old, hold, hg, hm, rfl⟩ := Table.update?_eq_some.mp hT
  obtain ⟨hcommitted, hinv⟩ := hs.read hold
  refine ⟨hs.evidence, hs.sources, hs.messages, hs.executions, hs.uploads, hs.committed, ?_,
    hs.phases⟩
  intro q i row hi
  rw [Table.pending_write] at hi
  split at hi
  · next heq =>
    obtain ⟨rfl, rfl⟩ := heq
    cases hi
    exact ⟨hcommitted, _, rfl, RunInv.fill (s := s) hs hinv hproduction hv⟩
  · exact hs.written q i row hi

/-- A poll commits. -/
lemma CacheInv.commit (hs : CacheInv cfg s) :
    CacheInv cfg { s with runs := s.runs.commit p } := by
  have hkept : ∀ i, Dict.get? s.runs.committed i ≠ none →
      Dict.get? (s.runs.commit p).committed i ≠ none := by
    intro i hi
    rw [Table.get?_commit]
    cases hp : s.runs.pending p i with
    | none => exact hi
    | some r =>
      obtain ⟨-, new, rfl, -⟩ := hs.written p i r hp
      simp
  refine ⟨hs.evidence, hs.sources, ?_, hs.executions, hs.uploads, ?_, ?_, hs.phases⟩
  · intro i message hi
    obtain ⟨hjob, hdigest, hcommitted⟩ := hs.messages i message hi
    exact ⟨hjob, hdigest, hkept i hcommitted⟩
  · intro i row hi
    exact (hs.read (p := p) (j := i) (Table.get?_commit.symm.trans hi)).2
  · intro q i row hi
    rw [Table.pending_commit] at hi
    split at hi
    · cases hi
    · obtain ⟨hcommitted, hrest⟩ := hs.written q i row hi
      exact ⟨hkept i hcommitted, hrest⟩

/-! ## Steps -/

variable [DecidableEq Digest]

lemma sha256_eq_of_verifies {log : Evidence Digest} (h : message.verifies log)
    (hdigest : message.sha256 ≠ none) : log.sha256 = message.sha256 := by
  simp only [JobMessage.verifies, decide_eq_true_eq] at h
  exact h.1.resolve_left hdigest

lemma CacheInv.executeStep {x : Execution Content Digest} {st : ExecutionStep Content}
    (hs : CacheInv cfg s) (hold : s.executions w = some (message, x))
    (h : executeStep cfg s w message x st = some s') : CacheInv cfg s' := by
  obtain ⟨hsent, hx⟩ := hs.executions w message x hold
  have hdigest := (hs.messages _ _ hsent).2.1
  unfold Analysis.executeStep at h
  split at h
  · obtain ⟨log, -, h⟩ := Option.bind_eq_some_iff.mp h
    split at h
    · next hok =>
      cases h
      exact hs.execute hsent (sha256_eq_of_verifies hok.2 hdigest)
    · cases h
  · split at h
    · next files hfiles =>
      cases h
      exact hs.execute hsent ⟨hx, hfiles⟩
    · cases h
  · next reconciling log table files bytes =>
    obtain ⟨hlog, hfiles⟩ := hx
    split at h
    · next hok =>
      cases h
      cases reconciling with
      | true => exact hs.execute hsent trivial
      | false =>
        have hbytes : log.sha256 = some (cfg.sha256 bytes) := by
          refine hok.resolve_left ?_
          rw [hlog]
          exact hdigest
        exact hs.execute hsent ⟨hlog.symm.trans hbytes, hfiles⟩
    · cases h
  · split at h <;> · cases h; exact hs.execute hsent trivial
  · cases h
    exact hs.execute hsent hx
  · cases h
    exact (hs.upload hsent hx).execute hsent trivial
  · cases h

/-- What a lookup finds is committed, and answers the request. -/
lemma latest?_answers {log : Evidence Digest} {skillHash : String}
    {skillExecutionHash skillSnapshotId : Option String} {found : Option JobId}
    (h : latest? s.runs.committed (findCachedAnalysisRun log none none skillHash skillExecutionHash
      skillSnapshotId s.runs) found = some (some row)) :
    ∃ i, Dict.get? s.runs.committed i = some row ∧
      answers log none none skillHash skillExecutionHash skillSnapshotId row = true := by
  cases found with
  | none =>
    simp only [latest?] at h
    split at h <;> cases h
  | some i =>
    obtain ⟨old, hold, h⟩ := Option.bind_eq_some_iff.mp h
    split at h
    · next hok =>
      cases h
      have hmem := hok.1
      unfold findCachedAnalysisRun at hmem
      split at hmem
      · cases hmem
      · obtain ⟨other, hother, hanswers⟩ := Table.mem_select.mp hmem
        rw [hold] at hother
        cases hother
        exact ⟨i, hold, hanswers⟩
    · cases h

lemma CacheInv.requestStep {ph : Phase Content Digest} {st : Statement} (hs : CacheInv cfg s)
    (hold : s.processes p = some ph) (h : requestStep cfg s p ph st = some s') :
    CacheInv cfg s' := by
  have hph := hs.phases p ph hold
  unfold Analysis.requestStep at h
  split at h
  · obtain ⟨skill, -, rfl⟩ := Option.map_eq_some_iff.mp h
    refine hs.goOn ?_
    rintro _ ⟨⟩
    exact hph
  · split at h
    · cases h
      refine hs.goOn ?_
      rintro _ ⟨⟩
      exact hph
    · cases h
  · next request skill executionHash found =>
    obtain ⟨cached, hcached, rfl⟩ := Option.map_eq_some_iff.mp h
    refine hs.goOn ?_
    rintro _ ⟨⟩
    refine ⟨hph, ?_⟩
    rintro row rfl
    obtain ⟨i, hrow, hanswers⟩ := latest?_answers hcached
    simp only [answers, decide_eq_true_eq, Option.all_some] at hanswers
    obtain ⟨-, hhash, -, hdigest, hresult, hexecution, hid, -⟩ := hanswers
    obtain ⟨message, production, hproduced, hholds⟩ :=
      (hs.committed i row hrow).produced (Option.isSome_iff_ne_none.mp hresult)
    exact ⟨message, production, hproduced, hholds, hhash, hid, hexecution, hdigest⟩
  · next request skill executionHash cached j =>
    split at h
    · next hfree =>
      have hsource : DigestOf cfg s.history request.evidenceId request.evidence.sha256 := hph.1
      split at h
      · next run =>
        split at h
        · cases h
          refine (hs.insert hfree.1 (fun _ _ => rfl) ?_ ?_).goOn (by simp)
          · intro message hmessage
            exact absurd hfree.1 (hs.messages j message hmessage).2.2
          · obtain ⟨message, production, hproduced, hholds, hhash, hid, hexecution, hdigest⟩ :=
              hph.2 run rfl
            refine ⟨hsource, ?_, fun _ => ⟨message, production, hproduced, ?_⟩⟩
            · intro message hmessage
              exact absurd hfree.1 (hs.messages j message hmessage).2.2
            · exact ⟨hholds.result, hhash.symm.trans hholds.skillHash,
                hid.symm.trans hholds.skillSnapshotId,
                hexecution.symm.trans hholds.skillExecutionHash,
                hdigest.symm.trans hholds.inputManifestSha256⟩
        · cases h
      · obtain ⟨base, -, rfl⟩ := Option.map_eq_some_iff.mp h
        have hsent : ∀ message, Function.update s.messages j
            (some (request.message skill executionHash j)) j = some message →
              message = request.message skill executionHash j := by
          intro message hmessage
          rw [Function.update_self] at hmessage
          exact (Option.some.inj hmessage).symm
        refine (hs.insert hfree.1 (fun i hi => Function.update_of_ne hi _ _) ?_ ?_).goOn (by simp)
        · intro message hmessage
          obtain rfl := hsent message hmessage
          obtain ⟨bytes, -, hdigest⟩ := hsource
          exact ⟨rfl, by simp [Request.message, hdigest]⟩
        · refine ⟨hsource, ?_, fun hresult => absurd rfl hresult⟩
          intro message hmessage
          obtain rfl := hsent message hmessage
          exact ⟨rfl, rfl, rfl, rfl⟩
    · cases h
  · cases h

omit [DecidableEq Digest] in
lemma CacheInv.pollStep {ph : Phase Content Digest} {st : Statement} (hs : CacheInv cfg s)
    (hold : s.processes p = some ph) (h : pollStep cfg s p ph st = some s') :
    CacheInv cfg s' := by
  have hph := hs.phases p ph hold
  unfold Analysis.pollStep at h
  split at h
  · split at h
    · split at h <;> · cases h; exact hs.goOn (by rintro _ ⟨⟩; trivial)
    · cases h
      exact hs.goOn (by rintro _ ⟨⟩; trivial)
  · split at h
    · next production hlast =>
      cases h
      refine hs.goOn ?_
      rintro _ ⟨⟩
      exact ⟨production, List.mem_of_getLast? hlast, rfl⟩
    · cases h
      exact hs.goOn (by rintro _ ⟨⟩; trivial)
  · next j body jobs flushed =>
    obtain ⟨production, hproduction, rfl⟩ := hph
    split at h
    · next v hv =>
      obtain ⟨T, hT, rfl⟩ := Option.map_eq_some_iff.mp h
      exact (hs.flush hproduction hv hT).goOn (by rintro _ ⟨⟩; trivial)
    · cases h
      exact hs.rollback
  · cases h
    exact hs.commit.goOn (by simp)
  · cases h

/-- **Every step** preserves the invariant. -/
theorem cacheInv_step {a : Action Content Digest} (hs : CacheInv cfg s)
    (h : step cfg s a = some s') : CacheInv cfg s' := by
  cases a with
  | job a =>
    obtain ⟨base, executions, rfl, hexecutions⟩ := jobStep_eq_some h
    refine ⟨hs.evidence, hs.sources, hs.messages, ?_, hs.uploads, hs.committed, hs.written,
      hs.phases⟩
    intro w message x hw
    rcases hexecutions w _ hw with hw | ⟨j, sent, hsent, heq⟩
    · exact hs.executions w message x hw
    · cases heq
      refine ⟨?_, trivial⟩
      rw [(hs.messages j message hsent).1]
      exact hsent
  | registry call =>
    obtain ⟨skills, -, rfl⟩ := Option.map_eq_some_iff.mp h
    exact ⟨hs.evidence, hs.sources, hs.messages, hs.executions, hs.uploads, hs.committed,
      hs.written, hs.phases⟩
  | addEvidence e log bytes =>
    simp only [step] at h
    split at h
    · next hok =>
      cases h
      exact hs.addEvidence hok.1 hok.2.2.1
    · cases h
  | setLifecycle e lifecycle =>
    obtain ⟨log, hlog, rfl⟩ := Option.map_eq_some_iff.mp h
    refine ⟨?_, ?_, hs.messages, hs.executions, hs.uploads, hs.committed, hs.written, hs.phases⟩
    · intro i row hi
      rw [Dict.get?_set] at hi
      split at hi
      · next heq =>
        cases hi
        exact heq ▸ hs.evidence e log hlog
      · exact hs.evidence i row hi
    · intro i bytes hi
      rw [Dict.get?_set]
      split
      · simp
      · exact hs.sources i bytes hi
  | requestAnalysis p incident e =>
    simp only [step] at h
    split at h
    · obtain ⟨log, hlog, h⟩ := Option.bind_eq_some_iff.mp h
      split at h
      · cases h
        refine hs.goOn ?_
        rintro _ ⟨⟩
        exact hs.evidence e log hlog
      · cases h
    · cases h
  | poll p jobs =>
    simp only [step] at h
    split at h
    · cases h
      exact hs.goOn (by rintro _ ⟨⟩; trivial)
    · cases h
  | execute w st =>
    simp only [step] at h
    split at h
    · next hw => exact hs.executeStep hw h
    · cases h
  | process p st =>
    obtain ⟨ph, hold, h⟩ := Option.bind_eq_some_iff.mp h
    unfold processStep at h
    split at h
    · cases h
      exact hs.rollback
    · split at h
      all_goals first
        | exact hs.requestStep hold h
        | exact hs.pollStep hold h

/-! ## Soundness -/

omit [DecidableEq Digest] in
/-- Where the digest has no collisions, the bytes are those of the log of the run. -/
lemma CacheInv.sound (hs : CacheInv cfg s) (hinj : Function.Injective cfg.sha256) :
    CacheSound cfg s := by
  intro j row hrow hresult
  have hinv := hs.committed j row hrow
  obtain ⟨message, production, hproduced, hholds⟩ := hinv.produced hresult
  refine ⟨message, production, hproduced, hholds, ?_⟩
  obtain ⟨bytes, hbytes, hdigest⟩ := hinv.source
  rw [hholds.inputManifestSha256] at hdigest
  rw [hinj (Option.some.inj hdigest)]
  exact hbytes

/-- **Results come from the log and the snapshot of their run.** Where the digest has no collisions,
in every state of every run of the system each run that has a result holds one that a worker has
produced, under the snapshot and the execution hash of that run, from the bytes of its log; however
often the result has been copied from one run to another. -/
theorem cache_sound (cfg : Config Content Digest) (hinj : Function.Injective cfg.sha256)
    (skills : SkillTable) (as : List (Action Content Digest)) :
    EveryState (step cfg) (CacheSound cfg) (.init skills) as :=
  everyState_of_everyStep (P := fun _ _ => True) (fun _ _ _ hu _ hstep => cacheInv_step hu hstep)
    (fun _ hu => hu.sound hinj) cacheInv_init (fun _ _ _ _ _ _ => trivial)

def logB : EvidenceId := ⟨[98], Storage.noSlash_b⟩

/-- A request from its begin to its commit. -/
def requests (p : ProcessId) (e : EvidenceId) (found : Option JobId) (j : JobId) :
    List (Action Json.Fields Json.Fields) :=
  [.requestAnalysis p e e, .process p .resolve, .process p .hash, .process p (.findCached found),
    .process p (.insert j)]

/-- A log is analysed for one incident. The result is copied to a run of another incident, with
another log of the same bytes, and from there to a third run, whose request begins later. -/
def copiedRun : List (Action Json.Fields Json.Fields) :=
  [.addEvidence logA plainLog [], .addEvidence logB { plainLog with incidentId := some logB } []] ++
  requests 0 logA none 0 ++
  [.job (.dispatchPublish 0), .job (.deliver 0 (.dispatched 0)), .job (.worker 0 (.claim 0)),
    .job (.worker 0 .proceed)] ++ analyzes 0 [(py "a", .null)] ++
  [.execute 0 .upload, .job (.worker 0 .succeed), .job (.worker 0 .proceed), .poll 0 [0],
    .process 0 .readRun, .process 0 .fetch, .process 0 .flush, .process 0 .commit, .job .tick] ++
  requests 0 logB (some 0) 1 ++ [.job .tick] ++ requests 0 logA (some 1) 2

set_option synthInstance.maxSize 256 in
/-- `cache_sound` at a run in which a result is copied twice. -/
theorem cache_sound_copied :
    resultAfter copiedRun 2 =
        some (some (.obj [(py "a", .null)]), some (py "a"), some [(py "a", .null)]) ∧
      EveryState (step plain) (CacheSound plain) (.init plainSkills) copiedRun :=
  ⟨by rfl, cache_sound plain Function.injective_id plainSkills copiedRun⟩

end Analysis
