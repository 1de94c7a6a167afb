import NocReport.Evidence.UploadInvariant

set_option relaxedAutoImplicit false
set_option autoImplicit false

/-!
# One row for each object

`complete_upload` inserts the row of an intent under its lock. `attach_prefill_to_incident` reads
the prefill and looks for a row that is there already, but locks neither: two attachments of one
prefill can both find nothing, and both insert a row of its object. This file proves that nothing
else gives an object two rows.

## Main definitions

* `Uploads.OneRowEach` — no two rows of `evidence` have one object.
* `Uploads.Overlaps` — an attachment commits after another one of its prefill has done so since it
  read the prefill.
* `Uploads.AttachedInv` — the invariant while no two attachments of a prefill overlap.

## Main results

* `Uploads.oneRowEach_iff` — each object has one row if and only if no attachments overlap.
* `Uploads.not_oneRowEach` — two attachments that do.
-/

namespace Uploads

open ObjectStore ReadCommitted Storage Transition

variable {Content Digest : Type}

/-- No two rows of `evidence` have one object, a prefill is attached to one incident at most, and
the purge of a row leaves the bytes of every other row alone. -/
def OneRowEach (s : State Content Digest) : Prop :=
  (∀ e ∈ s.evidence.committed, ∀ e' ∈ s.evidence.committed,
    e.2.object = e'.2.object → e.1 = e'.1) ∧
    (∀ i run, Dict.get? s.prefills.committed i = some run →
      ∀ e ∈ s.evidence.committed, ∀ e' ∈ s.evidence.committed,
        e.2.object = run.object → e'.2.object = run.object → e.2.incidentId = e'.2.incidentId) ∧
    ∀ e ∈ s.evidence.committed, ∀ e' ∈ s.evidence.committed, e.1 ≠ e'.1 →
      bytesOf? (purgeStorage s.objects e.2) e'.2 = bytesOf? s.objects e'.2

/-- An attachment commits, and since it read the prefill a row of its object has been committed. -/
def Overlaps (s : State Content Digest) (a : Action Content) : Prop :=
  ∃ p b id row run, a = .process p .commit ∧
    s.processes p = some (.attaching (.attached b id row run)) ∧
    ∃ e ∈ s.evidence.committed.drop b.seen, e.2.object = b.prefill.object

/-- What an attachment knows of the rows of `evidence`: where one of the prefill was committed when
it read the prefill, the prefill was attached, and the other way round; and once it has found none,
the prefill was not. -/
structure AttachKnows (rows : Dict EvidenceId (Evidence Digest)) (a : Attaching Digest) : Prop where
  seen : a.base.seen ≤ rows.length
  used : ∀ e ∈ rows.take a.base.seen, e.2.object = a.base.prefill.object →
    a.base.prefill.incidentId ≠ none
  found : ∀ incident, a.base.prefill.incidentId = some incident → incident = a.base.incidentId ∧
    ∃ e ∈ rows.take a.base.seen, e.2.object = a.base.prefill.object ∧
      e.2.incidentId = some incident
  absent : a = .loaded a.base ∨ a.base.prefill.incidentId = none
  row : ∀ row, a.row? = some row → row.incidentId = some a.base.incidentId
  updated : ∀ b id row run, a = .attached b id row run →
    run = none ∧ b.prefill.incidentId = some b.incidentId ∨
      ∃ new, run = some new ∧ new.incidentId = some b.incidentId

variable (cfg : Config Content Digest)

/-- The invariant while no attachments overlap: a prefill is attached exactly when a row has its
object. -/
structure AttachedInv (s : State Content Digest) : Prop extends UploadInv cfg s where
  unique : ∀ e ∈ s.evidence.committed, ∀ e' ∈ s.evidence.committed,
    e.2.object = e'.2.object → e = e'
  used : ∀ e ∈ s.evidence.committed, ∀ i run, Dict.get? s.prefills.committed i = some run →
    run.object = e.2.object → run.incidentId ≠ none
  found : ∀ i run incident, Dict.get? s.prefills.committed i = some run →
    run.incidentId = some incident → ∃ e ∈ s.evidence.committed, e.2.object = run.object ∧
      e.2.incidentId = some incident
  knows : ∀ p a, s.processes p = some (.attaching a) → AttachKnows s.evidence.committed a

variable {cfg} {s s' : State Content Digest} {p u : ProcessId} {ph : Phase Content Digest}

lemma attachedInv_init : AttachedInv cfg (.init : State Content Digest) where
  toUploadInv := uploadInv_init
  unique := by simp [State.init]
  used := by simp [State.init]
  found := by simp [State.init]
  knows := by simp [State.init]

lemma AttachedInv.oneRowEach (hs : AttachedInv cfg s) : OneRowEach s := by
  refine ⟨?_, ?_, ?_⟩
  · intro e he e' he' heq
    rw [hs.unique e he e' he' heq]
  · intro i run _ e he e' he' hobject hobject'
    rw [hs.unique e he e' he' (hobject.trans hobject'.symm)]
  · intro e he e' he' hne
    apply bytesOf?_purgeStorage
    intro heq
    exact hne (congrArg Prod.fst (hs.unique e he e' he' heq.symm))

/-! ## Steps that commit nothing -/

/-- A step that commits no prefill and no evidence, after which the attachments are where they were
or know what they should. -/
structure Quiet (s s' : State Content Digest) : Prop where
  evidence : s'.evidence.committed = s.evidence.committed
  prefills : s'.prefills.committed = s.prefills.committed
  attaching : ∀ p a, s'.processes p = some (.attaching a) →
    s.processes p = some (.attaching a) ∨ AttachKnows s.evidence.committed a

lemma Quiet.refl : Quiet s s := ⟨rfl, rfl, fun _ _ h => .inl h⟩

/-- A process that goes on. -/
lemma quiet_update (hevidence : s'.evidence.committed = s.evidence.committed)
    (hprefills : s'.prefills.committed = s.prefills.committed) {x : Option (Phase Content Digest)}
    (hp : s'.processes = Function.update s.processes p x)
    (hx : ∀ a, x = some (.attaching a) → AttachKnows s.evidence.committed a) : Quiet s s' := by
  refine ⟨hevidence, hprefills, ?_⟩
  intro u a hu
  rw [hp] at hu
  by_cases hup : u = p
  · subst hup
    rw [Function.update_self] at hu
    exact .inr (hx a hu)
  · rw [Function.update_of_ne hup] at hu
    exact .inl hu

/-- The statements of a process that is not an attachment. -/
lemma quiet_updateIntent {i : IntentId} {f : EvidenceUploadIntent → EvidenceUploadIntent}
    (hph : ∀ a, ph ≠ .attaching a) (h : s.updateIntent p i f ph = some s') : Quiet s s' := by
  obtain ⟨T, -, rfl⟩ := Option.map_eq_some_iff.mp h
  exact quiet_update rfl rfl rfl fun a ha => absurd (Option.some.inj ha) (hph a)

lemma quiet_insertEvidence {id : EvidenceId} {row : Evidence Digest}
    (hph : ∀ a, ph = .attaching a → AttachKnows s.evidence.committed a)
    (h : s.insertEvidence p id row ph = some s') : Quiet s s' := by
  obtain ⟨T, hT, rfl⟩ := Option.map_eq_some_iff.mp h
  exact quiet_update (Table.committed_insert? hT) rfl rfl fun a ha => hph a (Option.some.inj ha)

/-- A step of `complete_upload`. -/
lemma quiet_completeStep {c : Completing Content Digest} {st : Statement}
    (h : completeStep cfg s p c st = some s') : Quiet s s' := by
  have hnot : ∀ {c' : Completing Content Digest} {a}, (Phase.completing c') ≠ .attaching a := by
    intro c' a ha
    cases ha
  unfold completeStep at h
  split at h
  · split at h
    · cases h
      exact quiet_update rfl rfl rfl (by rintro _ ⟨⟩)
    · split at h
      · exact quiet_updateIntent (fun _ => hnot) h
      · cases h
        exact quiet_update rfl rfl rfl (by rintro _ ⟨⟩)
  · split at h
    · cases h
      exact quiet_update rfl rfl rfl (by rintro _ ⟨⟩)
    · split at h
      · cases h
        exact quiet_update rfl rfl rfl (by rintro _ ⟨⟩)
      · cases h
        exact quiet_update rfl rfl rfl (by rintro _ ⟨⟩)
  · split at h
    · cases h
      exact quiet_update rfl rfl rfl (by rintro _ ⟨⟩)
    · cases h
      exact quiet_update rfl rfl rfl (by rintro _ ⟨⟩)
  · exact quiet_insertEvidence (fun _ ha => absurd ha hnot) h
  · split at h
    · exact quiet_updateIntent (fun _ => hnot) h
    · cases h
  · cases h

/-- A step of a sweep. -/
lemma quiet_sweepStep {w : Sweeping} {st : Statement} (h : sweepStep cfg s p w st = some s') :
    Quiet s s' := by
  have hnot : ∀ {w' : Sweeping} {a : Attaching Digest},
      (Phase.sweeping w' : Phase Content Digest) ≠ .attaching a := by
    intro w' a ha
    cases ha
  unfold sweepStep at h
  split at h
  · split at h
    · cases h
    · obtain ⟨intent, -, h⟩ := Option.bind_eq_some_iff.mp h
      split at h
      · obtain ⟨T, -, rfl⟩ := Option.map_eq_some_iff.mp h
        exact quiet_update rfl rfl rfl (by rintro _ ⟨⟩)
      · cases h
  · split at h
    · cases h
      exact quiet_update rfl rfl rfl (by rintro _ ⟨⟩)
    · cases h
  · split at h
    · exact quiet_updateIntent (fun _ => hnot) h
    · split at h
      · split at h
        · split at h
          · exact quiet_updateIntent (fun _ => hnot) h
          · cases h
        · cases h
          exact quiet_update rfl rfl rfl (by rintro _ ⟨⟩)
      · exact quiet_updateIntent (fun _ => hnot) h
  · cases h
    exact quiet_update rfl rfl rfl (by rintro _ ⟨⟩)
  · cases h
    exact quiet_update rfl rfl rfl (by rintro _ ⟨⟩)
  · exact quiet_updateIntent (fun _ => hnot) h
  · cases h

/-- Where `existing` finds no row of an incident, there is none. -/
lemma existing_eq_none {incident : IncidentId} {objectKey : PyStr}
    (hnodup : (Dict.keys s.evidence.committed).Nodup) (h : s.existing incident objectKey = none)
    {e : EvidenceId × Evidence Digest} (he : e ∈ s.evidence.committed)
    (hincident : e.2.incidentId = some incident) : e.2.objectKey ≠ objectKey := by
  intro hkey
  have hmem : e.1 ∈ s.evidence.select fun _ row =>
      row.incidentId = some incident ∧ row.objectKey = objectKey :=
    Table.mem_select.mpr ⟨e.2, Dict.get?_of_mem hnodup he, by simp [hincident, hkey]⟩
  rw [State.existing, List.head?_eq_none_iff] at h
  rw [h] at hmem
  cases hmem

/-- A step of `attach_prefill_to_incident`. -/
lemma AttachedInv.quiet_attachStep (hs : AttachedInv cfg s) {a : Attaching Digest} {st : Statement}
    (hold : s.processes p = some (.attaching a)) (h : attachStep cfg s p a st = some s') :
    Quiet s s' := by
  have ha : AttachKnows s.evidence.committed a := hs.knows p a hold
  unfold attachStep at h
  split at h
  · next a =>
    split at h
    · cases h
      exact quiet_update rfl rfl rfl (by rintro _ ⟨⟩)
    · next hexisting =>
      cases h
      refine quiet_update rfl rfl rfl ?_
      rintro _ ⟨⟩
      refine ⟨ha.seen, ha.used, ha.found, .inr ?_, by rintro _ ⟨⟩, by rintro _ _ _ _ ⟨⟩⟩
      -- had it been attached, the row would have been found
      by_contra hattached
      obtain ⟨incident, hincident⟩ := Option.ne_none_iff_exists'.mp hattached
      obtain ⟨rfl, e, he, hobject, hrow⟩ := ha.found incident hincident
      apply existing_eq_none hs.nodup hexisting (List.mem_of_mem_take he) hrow
      exact congrArg ObjectName.key hobject
  · next a =>
    have hnone : a.prefill.incidentId = none := ha.absent.resolve_left (by rintro ⟨⟩)
    split at h
    · cases h
      exact quiet_update rfl rfl rfl (by rintro _ ⟨⟩)
    · cases h
      refine quiet_update rfl rfl rfl ?_
      rintro _ ⟨⟩
      refine ⟨ha.seen, ha.used, ha.found, .inr hnone, ?_, by rintro _ _ _ _ ⟨⟩⟩
      rintro row ⟨⟩
      rfl
  · next a row id =>
    refine quiet_insertEvidence ?_ h
    rintro _ ⟨⟩
    exact ⟨ha.seen, ha.used, ha.found, .inr (ha.absent.resolve_left (by rintro ⟨⟩)), ha.row,
      by rintro _ _ _ _ ⟨⟩⟩
  · next a id row =>
    have hnone := ha.absent.resolve_left (by rintro ⟨⟩)
    split at h
    · next hsame =>
      cases h
      refine quiet_update rfl rfl rfl ?_
      rintro _ ⟨⟩
      refine ⟨ha.seen, ha.used, ha.found, .inr hnone, ha.row, ?_⟩
      rintro _ _ _ _ ⟨⟩
      exact .inl ⟨rfl, hsame⟩
    · obtain ⟨run, -, h⟩ := Option.bind_eq_some_iff.mp h
      obtain ⟨T, hT, rfl⟩ := Option.map_eq_some_iff.mp h
      obtain ⟨hg, hm, rfl⟩ := Table.write?_eq_some.mp hT
      refine quiet_update rfl rfl rfl ?_
      rintro _ ⟨⟩
      refine ⟨ha.seen, ha.used, ha.found, .inr hnone, ha.row, ?_⟩
      rintro _ _ _ _ ⟨⟩
      exact .inr ⟨_, rfl, rfl⟩
  · cases h

/-- An attachment begins. -/
lemma AttachedInv.quiet_attach (hs : AttachedInv cfg s) {user : UserId} {prefill : PrefillId}
    {incident : IncidentId} (h : attachPrefillToIncident s p user prefill incident = some s') :
    Quiet s s' := by
  unfold attachPrefillToIncident at h
  split at h
  · cases h
    exact .refl
  · next run hrun =>
    split at h
    · cases h
      exact .refl
    · next hok =>
      cases h
      simp only [not_or, not_and, not_not] at hok
      refine quiet_update rfl rfl rfl ?_
      rintro _ ⟨⟩
      refine ⟨Nat.le_refl _, ?_, ?_, .inl rfl, by rintro _ ⟨⟩, by rintro _ _ _ _ ⟨⟩⟩
      · intro e he hobject
        exact hs.used e (List.mem_of_mem_take he) prefill run hrun hobject.symm
      · intro attached (hattached : run.incidentId = some attached)
        have hincident : run.incidentId = some incident := by
          refine hok.2.2 ?_
          rw [hattached]
          exact Option.some_ne_none attached
        obtain ⟨e, he, hobject, hrow⟩ := hs.found prefill run attached hrun hattached
        refine ⟨Option.some.inj (hattached.symm.trans hincident), e, ?_, hobject, hrow⟩
        show e ∈ s.evidence.committed.take s.evidence.committed.length
        rwa [List.take_length]

lemma afterFailure_ne_attaching (ph : Phase Content Digest) (a : Attaching Digest) :
    ph.afterFailure ≠ some (.attaching a) := by
  cases ph with
  | sweeping w => cases w <;> simp [Phase.afterFailure]
  | _ => simp [Phase.afterFailure]

lemma afterCommit_ne_attaching (ph : Phase Content Digest) (a : Attaching Digest) :
    ph.afterCommit ≠ some (some (.attaching a)) := by
  cases ph with
  | completing c => cases c <;> simp [Phase.afterCommit]
  | sweeping w => cases w <;> simp [Phase.afterCommit]
  | attaching a => cases a <;> simp [Phase.afterCommit]
  | _ => simp [Phase.afterCommit]

/-- A step that does not commit. -/
lemma AttachedInv.quiet (hs : AttachedInv cfg s) {a : Action Content}
    (ha : ∀ p, a ≠ .process p .commit) (h : step cfg s a = some s') : Quiet s s' := by
  cases a with
  | tick | addIncident incident =>
    cases h
    exact ⟨rfl, rfl, fun _ _ h => .inl h⟩
  | upload i body =>
    obtain ⟨intent, -, rfl⟩ := Option.map_eq_some_iff.mp h
    exact ⟨rfl, rfl, fun _ _ h => .inl h⟩
  | requestUploadUrl p =>
    obtain ⟨-, h⟩ := start_eq_some h
    unfold requestUploadUrl at h
    split at h
    · cases h
      exact .refl
    · dsimp only at h
      split at h
      · obtain ⟨T, -, rfl⟩ := Option.map_eq_some_iff.mp h
        exact quiet_update rfl rfl rfl (by rintro _ ⟨⟩)
      · cases h
  | completeUpload p =>
    obtain ⟨-, h⟩ := start_eq_some h
    unfold completeUpload at h
    split at h
    · cases h
      exact .refl
    · split at h
      · cases h
        exact .refl
      · obtain ⟨T, -, rfl⟩ := Option.map_eq_some_iff.mp h
        exact quiet_update rfl rfl rfl (by rintro _ ⟨⟩)
  | createIncidentPrefill p =>
    obtain ⟨-, h⟩ := start_eq_some h
    unfold createIncidentPrefill at h
    split at h
    · cases h
      exact .refl
    · cases h
      exact quiet_update rfl rfl rfl (by rintro _ ⟨⟩)
  | attachPrefill p =>
    obtain ⟨-, h⟩ := start_eq_some h
    exact hs.quiet_attach h
  | sweep p limit =>
    obtain ⟨-, h⟩ := start_eq_some h
    cases h
    exact quiet_update rfl rfl rfl (by rintro _ ⟨⟩)
  | process p statement =>
    obtain ⟨ph, hold, h⟩ := Option.bind_eq_some_iff.mp h
    unfold processStep at h
    split at h
    · exact absurd rfl (ha p)
    · cases h
      exact quiet_update rfl rfl rfl fun a ha => absurd ha (afterFailure_ne_attaching ph a)
    · cases h
      exact quiet_update rfl rfl rfl (by rintro _ ⟨⟩)
    · split at h
      · unfold insertPrefill at h
        split at h
        · obtain ⟨T, hT, rfl⟩ := Option.map_eq_some_iff.mp h
          exact quiet_update rfl (Table.committed_insert? hT) rfl (by rintro _ ⟨⟩)
        · cases h
      · exact quiet_completeStep h
      · exact quiet_sweepStep h
      · exact hs.quiet_attachStep hold h
      · cases h
      · cases h

lemma AttachedInv.of_quiet (hs : AttachedInv cfg s) (hbase : UploadInv cfg s')
    (h : Quiet s s') : AttachedInv cfg s' where
  toUploadInv := hbase
  unique := h.evidence ▸ hs.unique
  used := by
    rw [h.evidence, h.prefills]
    exact hs.used
  found := by
    rw [h.evidence, h.prefills]
    exact hs.found
  knows p a hp := by
    rw [h.evidence]
    exact (h.attaching p a hp).elim (hs.knows p a) id

/-! ## Commits -/

/-- What an attachment knows does not change when rows are added. -/
lemma AttachKnows.append {rows : Dict EvidenceId (Evidence Digest)} {a : Attaching Digest}
    (h : AttachKnows rows a) (new : Dict EvidenceId (Evidence Digest)) :
    AttachKnows (rows ++ new) a := by
  have htake : (rows ++ new).take a.base.seen = rows.take a.base.seen :=
    List.take_append_of_le_length h.seen
  refine ⟨?_, htake ▸ h.used, htake ▸ h.found, h.absent, h.row, h.updated⟩
  have hseen := h.seen
  rw [List.length_append]
  omega

section Commit

variable {next : Option (Phase Content Digest)}

/-- A commit preserves the invariant, where the row that it adds is the first of its object and the
prefill that it adds is attached exactly when a row has its object. -/
lemma AttachedInv.commit (hs : AttachedInv cfg s) (hbase : UploadInv cfg (s.commit p next))
    (hold : s.processes p = some ph) (hnext : ph.afterCommit = some next)
    (hfirst : ∀ id row, ph.evidence? = some (id, row) →
      ∀ e ∈ s.evidence.committed, e.2.object ≠ row.object)
    (hrow : ∀ id row, ph.evidence? = some (id, row) → ∀ i run,
      Dict.get? (s.commit p next).prefills.committed i = some run → run.object = row.object →
        run.incidentId ≠ none)
    (hrun : ∀ i run, ph.prefill? = some (i, run) → run.incidentId = none →
      ∀ e ∈ s.evidence.committed, run.object ≠ e.2.object)
    (hfound : ∀ i run incident, ph.prefill? = some (i, run) → run.incidentId = some incident →
      ∃ e ∈ (s.commit p next).evidence.committed, e.2.object = run.object ∧
        e.2.incidentId = some incident) : AttachedInv cfg (s.commit p next) := by
  have hevidence : (s.commit p next).evidence.committed =
      s.evidence.committed ++ ph.evidence?.toList := hs.evidence_commit hold
  have hprefills : ∀ i run, Dict.get? (s.commit p next).prefills.committed i = some run →
      ph.prefill? = some (i, run) ∨ Dict.get? s.prefills.committed i = some run := by
    intro i run h
    rw [hs.prefills_commit hold] at h
    rcases Option.or_eq_some_iff.mp h with hnew | ⟨-, hsame⟩
    · obtain ⟨⟨j, new⟩, hwritten, hif⟩ := Option.bind_eq_some_iff.mp hnew
      split at hif
      · next hj =>
        cases hif
        exact .inl (by rw [hwritten, ← hj])
      · cases hif
    · exact .inr hsame
  have hmem : ∀ e ∈ (s.commit p next).evidence.committed,
      e ∈ s.evidence.committed ∨ ph.evidence? = some e := by
    intro e he
    rw [hevidence] at he
    exact (List.mem_append.mp he).imp_right Option.mem_toList.mp
  refine ⟨hbase, ?_, ?_, ?_, ?_⟩
  · intro e he e' he' heq
    rcases hmem e he with he | he
    · rcases hmem e' he' with he' | he'
      · exact hs.unique e he e' he' heq
      · exact absurd heq (hfirst e'.1 e'.2 he' e he)
    · rcases hmem e' he' with he' | he'
      · exact absurd heq.symm (hfirst e.1 e.2 he e' he')
      · exact Option.some.inj (he.symm.trans he')
  · intro e he i run h hobject hnone
    rcases hmem e he with he | he
    · rcases hprefills i run h with hnew | hsame
      · exact hrun i run hnew hnone e he hobject
      · exact hs.used e he i run hsame hobject hnone
    · exact hrow e.1 e.2 he i run h hobject hnone
  · intro i run incident h hincident
    rcases hprefills i run h with hnew | hsame
    · exact hfound i run incident hnew hincident
    · obtain ⟨e, he, hrest⟩ := hs.found i run incident hsame hincident
      refine ⟨e, ?_, hrest⟩
      rw [hevidence]
      exact List.mem_append_left _ he
  · intro u a hu
    rw [hevidence]
    by_cases hup : u = p
    · subst hup
      rw [State.commit_processes, Function.update_self] at hu
      rw [hu] at hnext
      exact absurd hnext (afterCommit_ne_attaching ph a)
    · rw [State.commit_processes, Function.update_of_ne hup] at hu
      exact (hs.knows u a hu).append _

/-- The commit of an attachment that does not overlap preserves the invariant. -/
lemma AttachedInv.attachCommit (hs : AttachedInv cfg s) (hbase : UploadInv cfg (s.commit p none))
    {b : Attachment Digest} {id : EvidenceId} {row : Evidence Digest}
    {run : Option (IncidentPrefillRun Digest)}
    (hold : s.processes p = some (.attaching (.attached b id row run)))
    (hno : ∀ e ∈ s.evidence.committed.drop b.seen, e.2.object ≠ b.prefill.object) :
    AttachedInv cfg (s.commit p none) := by
  have hknows : AttachKnows s.evidence.committed (.attached b id row run) := hs.knows p _ hold
  have hph : AttachingInv s (.attached b id row run) := hs.phases p _ hold
  have hobject : row.object = b.prefill.object := hph.row row rfl
  have hnone : b.prefill.incidentId = none := hknows.absent.resolve_left (by rintro ⟨⟩)
  obtain ⟨new, rfl, hnew⟩ : ∃ new, run = some new ∧ new.incidentId = some b.incidentId := by
    rcases hknows.updated b id row run rfl with ⟨-, hsame⟩ | hupdated
    · rw [hnone] at hsame
      cases hsame
    · exact hupdated
  have hnewObject : new.object = b.prefill.object := hph.run new rfl
  -- no row has the object: it would have been there before the read, or it overlaps
  have hfirst : ∀ e ∈ s.evidence.committed, e.2.object ≠ b.prefill.object := by
    intro e he heq
    rw [← List.take_append_drop b.seen s.evidence.committed] at he
    rcases List.mem_append.mp he with he | he
    · exact hknows.used e he heq hnone
    · exact hno e he heq
  refine hs.commit hbase hold rfl ?_ ?_ ?_ ?_
  · rintro _ _ ⟨⟩ e he
    rw [hobject]
    exact hfirst e he
  · rintro _ _ ⟨⟩ i run' hrun' heq
    obtain ⟨name, hi⟩ := hbase.prefillRows i run' hrun'
    have hafter : Dict.get? (s.commit p none).prefills.committed b.prefillId = some new := by
      rw [hs.prefills_commit hold]
      simp [Phase.prefill?]
    obtain ⟨name', hb⟩ := hbase.prefillRows _ new hafter
    have hkey := (ObjectName.mk.injEq _ _ _ _).mp
      (hi.symm.trans ((heq.trans (hobject.trans hnewObject.symm)).trans hb))
    rw [prefillObjectKey_inj hkey.2, hafter] at hrun'
    cases hrun'
    rw [hnew]
    exact Option.some_ne_none _
  · rintro _ _ ⟨⟩ hincident
    rw [hnew] at hincident
    cases hincident
  · rintro _ _ incident ⟨⟩ hincident
    refine ⟨(id, row), ?_, hobject.trans hnewObject.symm, ?_⟩
    · rw [hs.evidence_commit hold]
      exact List.mem_append_right _ (by simp [Phase.evidence?])
    · rw [← hincident, hnew]
      exact hknows.row row rfl

/-- A commit preserves the invariant, where it is not that of an attachment that overlaps. -/
lemma AttachedInv.commits (hs : AttachedInv cfg s) (hold : s.processes p = some ph)
    (hnext : ph.afterCommit = some next) (hno : ¬ Overlaps s (.process p .commit)) :
    AttachedInv cfg (s.commit p next) := by
  have hbase : UploadInv cfg (s.commit p next) := hs.toUploadInv.commits hold hnext
  have hquiet : ph.evidence? = none → ph.prefill? = none → AttachedInv cfg (s.commit p next) := by
    intro hevidence hprefill
    exact hs.commit hbase hold hnext (by simp [hevidence]) (by simp [hevidence])
      (by simp [hprefill]) (by simp [hprefill])
  cases ph with
  | requested | sweeping => exact hquiet rfl rfl
  | stored => cases hnext
  | prefilled i run =>
    have hph : PhaseInv cfg s p (.prefilled i run) := hs.phases p _ hold
    obtain ⟨his, hnone, hnew, -⟩ := hph
    refine hs.commit hbase hold hnext (by rintro _ _ ⟨⟩) (by rintro _ _ ⟨⟩) ?_ ?_
    · rintro _ _ ⟨⟩ - e he heq
      rcases hs.evidenceRows e he with ⟨j, other, hother, hobject⟩ | ⟨j, intent, hintent, hobject, -⟩
      · obtain ⟨name, hi⟩ := his
        obtain ⟨name', hj⟩ := hs.prefillRows j other hother
        have hkey := (ObjectName.mk.injEq _ _ _ _).mp
          (hi.symm.trans ((heq.trans hobject.symm).trans hj))
        rw [prefillObjectKey_inj hkey.2, hother] at hnew
        cases hnew
      · exact (hs.intentRows j intent hintent).1.object_ne his (hobject.trans heq.symm)
    · rintro _ _ incident ⟨⟩ hincident
      rw [hnone] at hincident
      cases hincident
  | completing c =>
    cases c with
    | lapsed => exact hquiet rfl rfl
    | completed c id row =>
      have hc : CompletingInv s p (.completed c id row) := hs.phases p _ hold
      have hobject : row.object = c.intent.object := hc.row row rfl
      refine hs.commit hbase hold hnext ?_ ?_ (by rintro _ _ ⟨⟩) (by rintro _ _ _ ⟨⟩)
      · rintro _ _ ⟨⟩ e he heq
        have hcompleted := (hs.completed_of_object he hc.committed (heq.trans hobject)).1
        have hopen : c.intent.state = .opened := hc.isOpen rfl
        rw [show c.intent.state = .completed from hcompleted] at hopen
        cases hopen
      · rintro _ _ ⟨⟩ i run hrun heq
        have his := (hs.intentRows _ _ hc.committed).1
        exact absurd (heq.trans hobject).symm (his.object_ne (hbase.prefillRows i run hrun))
    | _ => cases hnext
  | attaching a =>
    cases a with
    | attached b id row run =>
      cases hnext
      refine hs.attachCommit hbase hold ?_
      intro e he heq
      exact hno ⟨p, b, id, row, run, rfl, hold, e, he, heq⟩
    | _ => cases hnext

end Commit

/-- A step that is not the commit of an attachment that overlaps preserves the invariant. -/
theorem attachedInv_step {a : Action Content} (hs : AttachedInv cfg s) (ha : ¬ Overlaps s a)
    (h : step cfg s a = some s') : AttachedInv cfg s' := by
  by_cases hcommit : ∃ p, a = .process p .commit
  · obtain ⟨p, rfl⟩ := hcommit
    obtain ⟨ph, hold, h⟩ := Option.bind_eq_some_iff.mp h
    obtain ⟨next, hnext, rfl⟩ := Option.map_eq_some_iff.mp h
    exact hs.commits hold hnext ha
  · have hquiet := hs.quiet (fun p hp => hcommit ⟨p, hp⟩) h
    exact hs.of_quiet (uploadInv_step hs.toUploadInv h) hquiet

/-- An attachment that overlaps gives an object a second row. -/
lemma UploadInv.overlaps (hs : UploadInv cfg s) {a : Action Content} (ha : Overlaps s a) :
    ∃ s', step cfg s a = some s' ∧ ¬ OneRowEach s' := by
  obtain ⟨p, b, id, row, run, rfl, hold, e, he, heq⟩ := ha
  have hph : AttachingInv s (.attached b id row run) := hs.phases p _ hold
  refine ⟨s.commit p none, ?_, ?_⟩
  · rw [step, hold]
    rfl
  rintro ⟨hunique, -, -⟩
  have hmem : ∀ e', e' ∈ (s.commit p none).evidence.committed ↔
      e' ∈ s.evidence.committed ∨ e' = (id, row) := by
    intro e'
    rw [hs.evidence_commit hold]
    simp [Phase.evidence?]
  have hcommitted := List.mem_of_mem_drop he
  have hid : e.1 = id :=
    hunique e ((hmem e).mpr (.inl hcommitted)) (id, row) ((hmem _).mpr (.inr rfl))
      (heq.trans (hph.row row rfl).symm)
  -- the key of a row that is inserted is not that of a row that is committed
  have hfresh := hs.evidence.fresh p (id, row) (by rw [hold]; rfl)
  rw [← hid, Dict.get?_of_mem hs.nodup hcommitted] at hfresh
  cases hfresh

/-- **When each object has one row.** Along a run, each object has one row of `evidence`, each
prefill is attached to one incident, and purges leave the bytes of other rows alone, if and only if
no attachment of the run commits after another of its prefill has done so since it read it. -/
theorem oneRowEach_iff (cfg : Config Content Digest) (as : List (Action Content)) :
    EveryState (step cfg) OneRowEach .init as ↔
      EveryStep (step cfg) (fun s a => ¬ Overlaps s a) .init as := by
  constructor
  · intro h pre a post s has hs ha
    have hinv : UploadInv cfg s := run_invariant (P := fun _ _ => True)
      (fun _ _ _ hu _ hstep => uploadInv_step hu hstep) uploadInv_init
      (fun _ _ _ _ _ _ => trivial) hs
    obtain ⟨s', hstep, hnot⟩ := hinv.overlaps ha
    exact hnot (h.next has hs hstep)
  · intro h
    exact everyState_of_everyStep (fun _ _ _ hu ha hstep => attachedInv_step hu ha hstep)
      (fun _ hu => hu.oneRowEach) attachedInv_init h

/-! ## Two attachments -/

/-- Bytes are numbers here, and so are their hashes. -/
def plain : Config ℕ ℕ where
  minioBucketEvidence := py "noc-evidence"
  maxEvidenceUploadBytes := 100
  evidenceUploadIntentTtlSeconds := 900
  byteSize := id
  sha256OfBytes := id

def uuidA : Uuid := ⟨[97], Storage.noSlash_a⟩

def uuidB : Uuid := ⟨[98], Storage.noSlash_b⟩

def uuidC : Uuid := ⟨[99], by decide⟩

/-- The screenshot of prefill `c` is attached to incident `a` and, by a request that has read the
prefill before that, to incident `b`. -/
def attachedTwice : List (Action ℕ) :=
  [.addIncident uuidA, .addIncident uuidB, .createIncidentPrefill 0 7 5 none none uuidC,
    .process 0 (.insertPrefill .reviewRequired), .process 0 .commit,
    .attachPrefill 1 7 uuidC uuidA, .attachPrefill 2 7 uuidC uuidB,
    .process 1 .findExisting, .process 1 .headObject, .process 1 (.insertEvidence uuidA),
    .process 1 .updatePrefill, .process 1 .commit,
    .process 2 .findExisting, .process 2 .headObject, .process 2 (.insertEvidence uuidB),
    .process 2 .updatePrefill, .process 2 .commit]

/-- The rows of `evidence` after a run: their ids, incidents and objects. -/
def rowsAfter (as : List (Action ℕ)) : List (EvidenceId × Option IncidentId × ObjectName) :=
  ((run (step plain) .init as).map fun s =>
    s.evidence.committed.map fun e => (e.1, e.2.incidentId, e.2.object)).getD []

/-- An object can have two rows: after `attachedTwice` the screenshot has one in each of the two
incidents. -/
theorem not_oneRowEach :
    ¬ ∀ as : List (Action ℕ), EveryState (step plain) OneRowEach .init as := by
  intro h
  have hrows : rowsAfter attachedTwice =
      [(uuidA, some uuidA, ⟨py "noc-evidence", py "prefills/c/screenshot.png"⟩),
        (uuidB, some uuidB, ⟨py "noc-evidence", py "prefills/c/screenshot.png"⟩)] := by decide
  unfold rowsAfter at hrows
  cases hs : run (step plain) .init attachedTwice with
  | none =>
    rw [hs] at hrows
    cases hrows
  | some s =>
    rw [hs, Option.map_some, Option.getD_some] at hrows
    have hunique := (h attachedTwice attachedTwice [] s (List.append_nil _).symm hs).1
    have hmem : ∀ x ∈ [(uuidA, some uuidA, ⟨py "noc-evidence", py "prefills/c/screenshot.png"⟩),
        (uuidB, some uuidB, ⟨py "noc-evidence", py "prefills/c/screenshot.png"⟩)],
        ∃ e ∈ s.evidence.committed, (e.1, e.2.incidentId, e.2.object) = x := by
      intro x hx
      rw [← hrows] at hx
      exact List.mem_map.mp hx
    obtain ⟨e, he, heq⟩ := hmem _ List.mem_cons_self
    obtain ⟨e', he', heq'⟩ := hmem _ (List.mem_cons_of_mem _ List.mem_cons_self)
    simp only [Prod.mk.injEq] at heq heq'
    have hid := hunique e he e' he' (heq.2.2.trans heq'.2.2.symm)
    rw [heq.1, heq'.1] at hid
    cases hid

end Uploads
