import NocReport.Evidence.Uploads

set_option relaxedAutoImplicit false
set_option autoImplicit false

/-!
# The invariant of the uploads

Whoever completes or cleans an intent holds its lock, and the names of the intents are told apart by
a unique index, so that what happens to the object of a locked intent is up to one process. A row of
`evidence` is that of an intent which is completed, or of a prefill; an object that has been swept is
that of an intent which has expired and is not completed, and never will be.

## Main definitions

* `Uploads.PhaseInv` — what a process knows in its phase.
* `Uploads.Moved` — what the step of a process leaves to the others.
* `Uploads.UploadInv` — the invariant.

## Main results

* `Uploads.PhaseInv.moved` — the step of a process leaves what the others know.
* `Uploads.uploadInv_step` — every step preserves the invariant.
-/

namespace Uploads

open ObjectStore ReadCommitted Storage Transition

variable {Content Digest : Type}

/-! ## What a process knows -/

namespace Completing

variable (c : Completing Content Digest)

/-- What is completed. -/
def base : Completion :=
  match c with
  | locked c | lapsed c | checked c | headed c _ _ | hashed c _ | recorded c _ _
  | completed c _ _ => c

/-- The intent has passed its checks, but for the time. -/
def isOpen : Bool :=
  match c with
  | locked _ => false
  | _ => true

/-- The intent has passed its checks. -/
def accepted : Bool :=
  match c with
  | locked _ | lapsed _ => false
  | _ => true

/-- The row that is to be inserted. -/
def row? : Option (Evidence Digest) :=
  match c with
  | hashed _ row | recorded _ _ row | completed _ _ row => some row
  | _ => none

end Completing

/-- What `complete_upload` knows: nobody else writes the intent, and while it is accepted its object
has not been swept. -/
structure CompletingInv (s : State Content Digest) (p : ProcessId)
    (c : Completing Content Digest) : Prop where
  holds : s.intents.Holds p c.base.intentId
  committed : Dict.get? s.intents.committed c.base.intentId = some c.base.intent
  isOpen : c.isOpen = true → c.base.intent.state = .opened
  unswept : c.accepted = true → c.base.intent.object ∉ s.swept
  row : ∀ row, c.row? = some row → row.object = c.base.intent.object

/-- What a sweep knows of an intent that it has picked. -/
structure Picked (s : State Content Digest) (p : ProcessId) (pass : Pass) (i : IntentId)
    (intent : EvidenceUploadIntent) : Prop where
  holds : s.intents.Holds p i
  committed : Dict.get? s.intents.committed i = some intent
  state : intent.state ≠ .completed
  expired : intent.expiresAt ≤ pass.now
  now : pass.now ≤ s.clock

/-- What a sweep knows. That an intent which it may pick has evidence never happens. -/
def SweepingInv (s : State Content Digest) (p : ProcessId) : Sweeping → Prop
  | .between pass => pass.now ≤ s.clock
  | .settled _ _ _ _ => False
  | .picked pass i intent | .refused pass i intent | .clearing pass i intent _
  | .cleaned pass i intent => Picked s p pass i intent

namespace Attaching

variable (a : Attaching Digest)

/-- What is attached. -/
def base : Attachment Digest :=
  match a with
  | loaded a | absent a | headed a _ | added a _ _ | attached a _ _ _ => a

/-- The row that is to be inserted. -/
def row? : Option (Evidence Digest) :=
  match a with
  | loaded _ | absent _ => none
  | headed _ row | added _ _ row | attached _ _ row _ => some row

/-- The prefill as it is to be updated. -/
def run? : Option (IncidentPrefillRun Digest) :=
  match a with
  | attached _ _ _ run => run
  | _ => none

end Attaching

/-- What `attach_prefill_to_incident` knows: the prefill that it has read is still there, if not as
it was. -/
structure AttachingInv (s : State Content Digest) (a : Attaching Digest) : Prop where
  prefill : ∃ run, Dict.get? s.prefills.committed a.base.prefillId = some run ∧
    run.object = a.base.prefill.object
  row : ∀ row, a.row? = some row → row.object = a.base.prefill.object
  run : ∀ run, a.run? = some run → run.object = a.base.prefill.object

variable (cfg : Config Content Digest)

/-- The intent is named by `evidence_object_key`. -/
def IsIntent (i : IntentId) (intent : EvidenceUploadIntent) : Prop :=
  ∃ incident evidenceType filename,
    intent.object = ⟨cfg.minioBucketEvidence, evidenceObjectKey incident evidenceType filename i⟩

/-- The prefill is named by its id. -/
def IsPrefill (i : PrefillId) (run : IncidentPrefillRun Digest) : Prop :=
  ∃ name, run.object = ⟨cfg.minioBucketEvidence, prefillObjectKey i name⟩

/-- What a process knows in its phase. -/
def PhaseInv (s : State Content Digest) (p : ProcessId) : Phase Content Digest → Prop
  | .requested i intent =>
    IsIntent cfg i intent ∧ intent.state = .opened ∧ intent.evidenceId = none ∧
      Dict.get? s.intents.committed i = none ∧ s.intents.Holds p i
  | .stored i run => IsPrefill cfg i run ∧ run.incidentId = none
  | .prefilled i run =>
    IsPrefill cfg i run ∧ run.incidentId = none ∧ Dict.get? s.prefills.committed i = none ∧
      s.prefills.Holds p i
  | .completing c => CompletingInv s p c
  | .sweeping w => SweepingInv s p w
  | .attaching a => AttachingInv s a

/-- What the step of process `p` leaves to the others: the rows that they have locked, the objects of
the prefills, and the objects of the intents that they have locked. -/
structure Moved (p : ProcessId) (s s' : State Content Digest) : Prop where
  clock : s.clock ≤ s'.clock
  intents : s.intents.MovedBy p s'.intents
  prefills : s.prefills.MovedBy p s'.prefills
  runs : ∀ i run, Dict.get? s.prefills.committed i = some run →
    ∃ run', Dict.get? s'.prefills.committed i = some run' ∧ run'.object = run.object
  swept : ∀ o ∈ s'.swept, o ∈ s.swept ∨ ∃ i intent, s.intents.Holds p i ∧
    Dict.get? s.intents.committed i = some intent ∧ intent.object = o

variable {cfg} {s s' : State Content Digest} {p u : ProcessId} {ph : Phase Content Digest}

/-- The object of an intent that another process has locked is not swept. -/
lemma Moved.not_mem_swept (h : Moved p s s') (hkeyed : s.intents.Keyed EvidenceUploadIntent.object)
    (hu : u ≠ p) {i : IntentId} {intent : EvidenceUploadIntent} (hholds : s.intents.Holds u i)
    (hintent : Dict.get? s.intents.committed i = some intent) (hswept : intent.object ∉ s.swept) :
    intent.object ∉ s'.swept := by
  intro hmem
  rcases h.swept _ hmem with hmem | ⟨j, other, hj, hother, heq⟩
  · exact hswept hmem
  · have hij : j = i := hkeyed j i other intent (.inl hother) (.inl hintent) heq
    subst hij
    exact hu (hholds.unique hj)

/-- **The step of a process** leaves what the others know. -/
theorem PhaseInv.moved (h : PhaseInv cfg s u ph) (hmoved : Moved p s s')
    (hkeyed : s.intents.Keyed EvidenceUploadIntent.object) (hu : u ≠ p) :
    PhaseInv cfg s' u ph := by
  have hpicked : ∀ {pass i intent}, Picked s u pass i intent → Picked s' u pass i intent := by
    intro pass i intent hpick
    exact ⟨hmoved.intents.holds u hu i hpick.holds,
      (hmoved.intents.committed u hu i hpick.holds).trans hpick.committed, hpick.state, hpick.expired,
      Nat.le_trans hpick.now hmoved.clock⟩
  cases ph with
  | requested i intent =>
    obtain ⟨his, hstate, hid, hnone, hholds⟩ := h
    exact ⟨his, hstate, hid, (hmoved.intents.committed u hu i hholds).trans hnone,
      hmoved.intents.holds u hu i hholds⟩
  | stored i run => exact h
  | prefilled i run =>
    obtain ⟨his, hnone, hrun, hholds⟩ := h
    exact ⟨his, hnone, (hmoved.prefills.committed u hu i hholds).trans hrun,
      hmoved.prefills.holds u hu i hholds⟩
  | completing c =>
    exact ⟨hmoved.intents.holds u hu _ h.holds,
      (hmoved.intents.committed u hu _ h.holds).trans h.committed, h.isOpen,
      fun hacc => hmoved.not_mem_swept hkeyed hu h.holds h.committed (h.unswept hacc), h.row⟩
  | sweeping w =>
    cases w with
    | between pass => exact Nat.le_trans h hmoved.clock
    | settled => exact h
    | picked | refused | clearing | cleaned => exact hpicked h
  | attaching a =>
    obtain ⟨run, hrun, hobject⟩ := h.prefill
    obtain ⟨run', hrun', hobject'⟩ := hmoved.runs _ run hrun
    exact ⟨⟨run', hrun', hobject'.trans hobject⟩, h.row, h.run⟩

/-- A statement of a process that commits nothing leaves what it knows itself. -/
lemma PhaseInv.kept (h : PhaseInv cfg s p ph) (hclock : s.clock ≤ s'.clock)
    (hswept : s'.swept = s.swept) (hintents : s'.intents.committed = s.intents.committed)
    (hprefills : s'.prefills.committed = s.prefills.committed)
    (hholds : ∀ i, s.intents.Holds p i → s'.intents.Holds p i)
    (hholds' : ∀ i, s.prefills.Holds p i → s'.prefills.Holds p i) : PhaseInv cfg s' p ph := by
  have hpicked : ∀ {pass i intent}, Picked s p pass i intent → Picked s' p pass i intent := by
    intro pass i intent hpick
    exact ⟨hholds i hpick.holds, hintents ▸ hpick.committed, hpick.state, hpick.expired,
      Nat.le_trans hpick.now hclock⟩
  cases ph with
  | requested i intent =>
    obtain ⟨his, hstate, hid, hnone, hhold⟩ := h
    exact ⟨his, hstate, hid, hintents ▸ hnone, hholds i hhold⟩
  | stored i run => exact h
  | prefilled i run =>
    obtain ⟨his, hnone, hrun, hhold⟩ := h
    exact ⟨his, hnone, hprefills ▸ hrun, hholds' i hhold⟩
  | completing c =>
    exact ⟨hholds _ h.holds, hintents ▸ h.committed, h.isOpen, hswept ▸ h.unswept, h.row⟩
  | sweeping w =>
    cases w with
    | between pass => exact Nat.le_trans h hclock
    | settled => exact h
    | picked | refused | clearing | cleaned => exact hpicked h
  | attaching a => exact ⟨hprefills ▸ h.prefill, h.row, h.run⟩

lemma PhaseInv.goOn {ph' : Phase Content Digest} (h : PhaseInv cfg s p ph) :
    PhaseInv cfg (s.goOn u ph') p ph :=
  h.kept (Nat.le_refl _) rfl rfl rfl (fun _ h => h) fun _ h => h

/-! ## The invariant -/

/-- A row of `evidence` is that of a prefill, or of an intent that is completed by it. -/
def Sourced (s : State Content Digest) (id : EvidenceId) (row : Evidence Digest) : Prop :=
  (∃ i run, Dict.get? s.prefills.committed i = some run ∧ run.object = row.object) ∨
    ∃ i intent, Dict.get? s.intents.committed i = some intent ∧ intent.object = row.object ∧
      intent.state = .completed ∧ intent.evidenceId = some id

/-- The object is that of an intent that has expired, and is not completed. -/
def Abandoned (s : State Content Digest) (object : ObjectName) : Prop :=
  ∃ i intent, Dict.get? s.intents.committed i = some intent ∧ intent.object = object ∧
    intent.expiresAt ≤ s.clock ∧ intent.state ≠ .completed

variable (cfg) in
/-- What holds of an intent that is committed. -/
def IntentInv (i : IntentId) (intent : EvidenceUploadIntent) : Prop :=
  IsIntent cfg i intent ∧ (intent.state ≠ .completed → intent.evidenceId = none)

variable (cfg) in
/-- The invariant. -/
structure UploadInv (s : State Content Digest) : Prop where
  intents : s.intents.Writing fun p => (s.processes p).bind Phase.intent?
  prefills : s.prefills.Writing fun p => (s.processes p).bind Phase.prefill?
  evidence : s.evidence.Inserting fun p => (s.processes p).bind Phase.evidence?
  keyed : s.intents.Keyed EvidenceUploadIntent.object
  phases : ∀ p ph, s.processes p = some ph → PhaseInv cfg s p ph
  intentRows : ∀ i intent, Dict.get? s.intents.committed i = some intent → IntentInv cfg i intent
  prefillRows : ∀ i run, Dict.get? s.prefills.committed i = some run → IsPrefill cfg i run
  evidenceRows : ∀ e ∈ s.evidence.committed, Sourced s e.1 e.2
  nodup : (Dict.keys s.evidence.committed).Nodup
  sweptRows : ∀ o ∈ s.swept, Abandoned s o

lemma uploadInv_init : UploadInv cfg (.init : State Content Digest) where
  intents := Table.writing_ofRows []
  prefills := Table.writing_ofRows []
  evidence := Table.inserting_ofRows []
  keyed := Table.keyed_ofRows_nil
  phases := by simp [State.init]
  intentRows := by simp [State.init]
  prefillRows := by simp [State.init]
  evidenceRows := by simp [State.init]
  nodup := List.nodup_nil
  sweptRows := by simp [State.init]

/-- The object of an intent is not that of a prefill. -/
lemma IsIntent.object_ne {i : IntentId} {intent : EvidenceUploadIntent} {j : PrefillId}
    {run : IncidentPrefillRun Digest} (hi : IsIntent cfg i intent) (hj : IsPrefill cfg j run) :
    intent.object ≠ run.object := by
  obtain ⟨incident, evidenceType, filename, hi⟩ := hi
  obtain ⟨name, hj⟩ := hj
  intro heq
  rw [hi, hj, ObjectName.mk.injEq] at heq
  exact evidenceObjectKey_ne_prefillObjectKey _ _ _ _ _ _ heq.2

/-- A row of `evidence` with the object of an intent is the one that the intent is completed by. -/
lemma UploadInv.completed_of_object (hs : UploadInv cfg s) {e : EvidenceId × Evidence Digest}
    {i : IntentId} {intent : EvidenceUploadIntent} (he : e ∈ s.evidence.committed)
    (hintent : Dict.get? s.intents.committed i = some intent) (heq : e.2.object = intent.object) :
    intent.state = .completed ∧ intent.evidenceId = some e.1 := by
  rcases hs.evidenceRows e he with ⟨j, run, hrun, hobject⟩ | ⟨j, other, hother, hobject, hrest⟩
  · have hne := (hs.intentRows i intent hintent).1.object_ne (hs.prefillRows j run hrun)
    exact absurd (hobject.trans heq).symm hne
  · have hij : j = i :=
      hs.keyed j i other intent (.inl hother) (.inl hintent) (hobject.trans heq)
    subst hij
    rw [hother] at hintent
    cases hintent
    exact hrest

/-- Two intents with one object are one. -/
lemma UploadInv.intent_unique (hs : UploadInv cfg s) {i j : IntentId}
    {intent other : EvidenceUploadIntent} (hi : Dict.get? s.intents.committed i = some intent)
    (hj : Dict.get? s.intents.committed j = some other) (heq : intent.object = other.object) :
    i = j ∧ intent = other := by
  have hij : i = j := hs.keyed i j intent other (.inl hi) (.inl hj) heq
  subst hij
  exact ⟨rfl, Option.some.inj (hi.symm.trans hj)⟩

/-! ## Steps that commit nothing -/

/-- A step of a process that commits nothing preserves the invariant, where the process has written
what its phase says. -/
lemma UploadInv.moves (hs : UploadInv cfg s)
    (hp : s'.processes = Function.update s.processes p (some ph)) (hmoved : Moved p s s')
    (hintentRows : s'.intents.committed = s.intents.committed)
    (hprefillRows : s'.prefills.committed = s.prefills.committed)
    (hevidenceRows : s'.evidence.committed = s.evidence.committed)
    (hintents : s'.intents.Writing fun u => (s'.processes u).bind Phase.intent?)
    (hprefills : s'.prefills.Writing fun u => (s'.processes u).bind Phase.prefill?)
    (hevidence : s'.evidence.Inserting fun u => (s'.processes u).bind Phase.evidence?)
    (hkeyed : s'.intents.Keyed EvidenceUploadIntent.object) (hph : PhaseInv cfg s' p ph)
    (hswept : ∀ o ∈ s'.swept, o ∈ s.swept ∨ Abandoned s o) : UploadInv cfg s' where
  intents := hintents
  prefills := hprefills
  evidence := hevidence
  keyed := hkeyed
  phases u q hu := by
    rw [hp] at hu
    by_cases hup : u = p
    · subst hup
      rw [Function.update_self] at hu
      cases hu
      exact hph
    · rw [Function.update_of_ne hup] at hu
      exact (hs.phases u q hu).moved hmoved hs.keyed hup
  intentRows := hintentRows ▸ hs.intentRows
  prefillRows := hprefillRows ▸ hs.prefillRows
  evidenceRows e he := by
    rw [hevidenceRows] at he
    have hold := hs.evidenceRows e he
    rw [Sourced] at hold ⊢
    rwa [hintentRows, hprefillRows]
  nodup := hevidenceRows ▸ hs.nodup
  sweptRows o ho := by
    obtain ⟨i, intent, hintent, hobject, hexpired, hstate⟩ :=
      (hswept o ho).elim (hs.sweptRows o) id
    exact ⟨i, intent, hintentRows ▸ hintent, hobject, Nat.le_trans hexpired hmoved.clock, hstate⟩

/-- A process goes on without a statement that writes. -/
lemma UploadInv.goOn (hs : UploadInv cfg s) {old : Phase Content Digest}
    (hold : s.processes p = some old) (hi : old.intent? = ph.intent?)
    (hr : old.prefill? = ph.prefill?) (he : old.evidence? = ph.evidence?)
    (hph : PhaseInv cfg s p ph) : UploadInv cfg (s.goOn p ph) :=
  hs.moves rfl ⟨Nat.le_refl _, .refl, .refl, fun _ run h => ⟨run, h, rfl⟩, fun _ h => .inl h⟩ rfl rfl rfl
    (hs.intents.goOn (by rw [hold]; exact hi)) (hs.prefills.goOn (by rw [hold]; exact hr))
    (hs.evidence.goOn (by rw [hold]; exact he)) hs.keyed hph.goOn fun _ h => .inl h

/-- A process begins. -/
lemma UploadInv.begins (hs : UploadInv cfg s) (hold : s.processes p = none)
    (hi : ph.intent? = none) (hr : ph.prefill? = none) (he : ph.evidence? = none)
    (hph : PhaseInv cfg s p ph) : UploadInv cfg (s.goOn p ph) :=
  hs.moves rfl ⟨Nat.le_refl _, .refl, .refl, fun _ run h => ⟨run, h, rfl⟩, fun _ h => .inl h⟩ rfl rfl rfl
    (hs.intents.goOn (by rw [hold]; exact hi.symm))
    (hs.prefills.goOn (by rw [hold]; exact hr.symm))
    (hs.evidence.goOn (by rw [hold]; exact he.symm)) hs.keyed hph.goOn fun _ h => .inl h

/-- The objects are not part of the invariant. -/
lemma UploadInv.withObjects (hs : UploadInv cfg s) (objects : Store ObjectName (StoredObject Content)) :
    UploadInv cfg { s with objects } where
  intents := hs.intents
  prefills := hs.prefills
  evidence := hs.evidence
  keyed := hs.keyed
  phases u q hu := (hs.phases u q hu).kept (Nat.le_refl _) rfl rfl rfl (fun _ h => h) fun _ h => h
  intentRows := hs.intentRows
  prefillRows := hs.prefillRows
  evidenceRows := hs.evidenceRows
  nodup := hs.nodup
  sweptRows := hs.sweptRows

/-- A process locks an intent. -/
lemma UploadInv.lock (hs : UploadInv cfg s) {x : Option (Phase Content Digest)}
    (hold : s.processes p = x) {i : IntentId} (hg : s.intents.Grants p i .update)
    (hi : x.bind Phase.intent? = ph.intent?) (hr : x.bind Phase.prefill? = ph.prefill?)
    (he : x.bind Phase.evidence? = ph.evidence?)
    (hph : PhaseInv cfg { s with intents := s.intents.lock p i .update hg } p ph) :
    UploadInv cfg ({ s with intents := s.intents.lock p i .update hg }.goOn p ph) := by
  have hwriting := hs.intents.goOn (p := ph) (t := p) (by rw [hold]; exact hi)
  refine hs.moves rfl ⟨Nat.le_refl _, Table.movedBy_lock hg, .refl, fun _ run h => ⟨run, h, rfl⟩,
    fun _ h => .inl h⟩ rfl rfl rfl (hwriting.of_pending fun _ _ => rfl)
    (hs.prefills.goOn (by rw [hold]; exact hr)) (hs.evidence.goOn (by rw [hold]; exact he)) ?_
    hph.goOn fun _ h => .inl h
  exact hs.keyed.mono fun _ row hrow => ⟨row, hrow, rfl⟩

/-- A process writes an intent that it has locked. -/
lemma UploadInv.updateIntent (hs : UploadInv cfg s) {old : Phase Content Digest}
    (hold : s.processes p = some old) {i : IntentId} {intent : EvidenceUploadIntent}
    {f : EvidenceUploadIntent → EvidenceUploadIntent} (h : s.updateIntent p i f ph = some s')
    (hintent : Dict.get? s.intents.committed i = some intent) (hi : old.intent? = none)
    (hi' : ph.intent? = some (i, f intent)) (hr : old.prefill? = ph.prefill?)
    (he : old.evidence? = ph.evidence?) (hf : ∀ intent, (f intent).object = intent.object)
    (hph : PhaseInv cfg s p ph) : UploadInv cfg s' := by
  obtain ⟨T, hT, rfl⟩ := Option.map_eq_some_iff.mp h
  have hkeyed := hs.keyed.update hT hf
  obtain ⟨row, hrow, hg, hm, rfl⟩ := Table.update?_eq_some.mp hT
  have hnone : (s.processes p).bind Phase.intent? = none := by rw [hold]; exact hi
  rw [hs.intents.read hnone, hintent] at hrow
  cases hrow
  exact hs.moves rfl ⟨Nat.le_refl _, Table.movedBy_write hg hm, .refl, fun _ run h => ⟨run, h, rfl⟩,
    fun _ h => .inl h⟩ rfl rfl rfl (hs.intents.goOn_write hg hm hnone hi')
    (hs.prefills.goOn (by rw [hold]; exact hr)) (hs.evidence.goOn (by rw [hold]; exact he)) hkeyed
    (hph.kept (Nat.le_refl _) rfl rfl rfl (fun _ h => h.write hg hm) fun _ h => h) fun _ h => .inl h

/-- A process inserts a row of `evidence`. -/
lemma UploadInv.insertEvidence (hs : UploadInv cfg s) {old : Phase Content Digest}
    (hold : s.processes p = some old) {id : EvidenceId} {row : Evidence Digest}
    (h : s.insertEvidence p id row ph = some s') (hi : old.intent? = ph.intent?)
    (hr : old.prefill? = ph.prefill?) (he : old.evidence? = none)
    (he' : ph.evidence? = some (id, row)) (hph : PhaseInv cfg s p ph) : UploadInv cfg s' := by
  obtain ⟨T, hT, rfl⟩ := Option.map_eq_some_iff.mp h
  exact hs.moves rfl ⟨Nat.le_refl _, .refl, .refl, fun _ run h => ⟨run, h, rfl⟩, fun _ h => .inl h⟩
    rfl rfl (Table.committed_insert? hT) (hs.intents.goOn (by rw [hold]; exact hi))
    (hs.prefills.goOn (by rw [hold]; exact hr))
    (hs.evidence.goOn_insert (by rw [hold]; exact he) hT he') hs.keyed
    (hph.kept (Nat.le_refl _) rfl rfl rfl (fun _ h => h) fun _ h => h) fun _ h => .inl h

/-- A process writes a prefill. -/
lemma UploadInv.writePrefill (hs : UploadInv cfg s) {old : Phase Content Digest}
    (hold : s.processes p = some old) {i : PrefillId} {run : IncidentPrefillRun Digest}
    {m : LockMode} {hg : s.prefills.Grants p i m} {hm : m ≠ .keyShare}
    (hi : old.intent? = ph.intent?) (hr : old.prefill? = none) (hr' : ph.prefill? = some (i, run))
    (he : old.evidence? = ph.evidence?)
    (hph : PhaseInv cfg { s with prefills := s.prefills.write p i m (some run) hg hm } p ph) :
    UploadInv cfg ({ s with prefills := s.prefills.write p i m (some run) hg hm }.goOn p ph) :=
  hs.moves rfl ⟨Nat.le_refl _, .refl, Table.movedBy_write hg hm, fun _ run h => ⟨run, h, rfl⟩,
    fun _ h => .inl h⟩ rfl rfl rfl (hs.intents.goOn (by rw [hold]; exact hi))
    (hs.prefills.goOn_write hg hm (by rw [hold]; exact hr) hr') (hs.evidence.goOn (by rw [hold]; exact he))
    hs.keyed hph.goOn fun _ h => .inl h

/-- A transaction that is rolled back leaves nothing behind. -/
lemma UploadInv.rollback (hs : UploadInv cfg s) {next : Option (Phase Content Digest)}
    (hi : next.bind Phase.intent? = none) (hr : next.bind Phase.prefill? = none)
    (he : next.bind Phase.evidence? = none)
    (hnext : ∀ ph, next = some ph → PhaseInv cfg (s.rollback p next) p ph) :
    UploadInv cfg (s.rollback p next) where
  intents := hs.intents.ends_rollback hi
  prefills := hs.prefills.ends_rollback hr
  evidence := hs.evidence.ends_rollback he
  keyed := hs.keyed.rollback
  phases u q hu := by
    by_cases hup : u = p
    · subst hup
      exact hnext q (by simpa using hu)
    · refine (hs.phases u q (by simpa [hup] using hu)).moved ?_ hs.keyed hup
      exact ⟨Nat.le_refl _, Table.movedBy_rollback, Table.movedBy_rollback,
        fun _ run h => ⟨run, h, rfl⟩, fun _ h => .inl h⟩
  intentRows := hs.intentRows
  prefillRows := hs.prefillRows
  evidenceRows := hs.evidenceRows
  nodup := hs.nodup
  sweptRows := hs.sweptRows

/-- A request ends without a commit. -/
lemma UploadInv.gives_up (hs : UploadInv cfg s) : UploadInv cfg (s.rollback p none) :=
  hs.rollback rfl rfl rfl (by simp)

/-! ## Commits -/

/-- How an intent may change while it is locked. -/
structure Succeeds (s : State Content Digest) (old new : EvidenceUploadIntent) : Prop where
  object : new.object = old.object
  expiresAt : new.expiresAt = old.expiresAt
  completed : old.state ≠ .completed
  unswept : new.state = .completed → old.object ∉ s.swept

section Commit

variable {old : Phase Content Digest} {next : Option (Phase Content Digest)}

/-- The intents after a commit. -/
lemma UploadInv.intents_commit (hs : UploadInv cfg s) (hold : s.processes p = some old)
    (i : IntentId) : Dict.get? (s.commit p next).intents.committed i =
      (old.intent?.bind fun e => if e.1 = i then some e.2 else none).or
        (Dict.get? s.intents.committed i) := by
  rw [State.commit_intents, hs.intents.get?_commit, hold]
  rfl

/-- The prefills after a commit. -/
lemma UploadInv.prefills_commit (hs : UploadInv cfg s) (hold : s.processes p = some old)
    (i : PrefillId) : Dict.get? (s.commit p next).prefills.committed i =
      (old.prefill?.bind fun e => if e.1 = i then some e.2 else none).or
        (Dict.get? s.prefills.committed i) := by
  rw [State.commit_prefills, hs.prefills.get?_commit, hold]
  rfl

/-- The rows of `evidence` after a commit. -/
lemma UploadInv.evidence_commit (hs : UploadInv cfg s) (hold : s.processes p = some old) :
    (s.commit p next).evidence.committed = s.evidence.committed ++ old.evidence?.toList := by
  rw [State.commit_evidence, hs.evidence.committed_commit, hold]
  rfl

/-- An intent after a commit is what has been written, or what it was. -/
lemma UploadInv.intent_cases (hs : UploadInv cfg s) (hold : s.processes p = some old) {i : IntentId}
    {intent : EvidenceUploadIntent}
    (h : Dict.get? (s.commit p next).intents.committed i = some intent) :
    old.intent? = some (i, intent) ∨ Dict.get? s.intents.committed i = some intent := by
  rw [hs.intents_commit hold] at h
  rcases Option.or_eq_some_iff.mp h with hnew | ⟨-, hsame⟩
  · obtain ⟨⟨j, new⟩, hwritten, hif⟩ := Option.bind_eq_some_iff.mp hnew
    split at hif
    · next hj =>
      cases hif
      exact .inl (by rw [hwritten, ← hj])
    · cases hif
  · exact .inr hsame

variable (next) in
/-- An intent that was committed before a commit is what has been written after it, or what it
was. -/
lemma UploadInv.intent_after (hs : UploadInv cfg s) (hold : s.processes p = some old) {i : IntentId}
    {intent : EvidenceUploadIntent} (h : Dict.get? s.intents.committed i = some intent) :
    (∃ new, old.intent? = some (i, new) ∧
      Dict.get? (s.commit p next).intents.committed i = some new) ∨
      Dict.get? (s.commit p next).intents.committed i = some intent := by
  rw [hs.intents_commit hold, h]
  rcases old.intent? with _ | ⟨j, new⟩
  · exact .inr rfl
  · by_cases hj : j = i
    · exact .inl ⟨new, by rw [hj], by simp [hj]⟩
    · exact .inr (by simp [hj])

/-- A commit preserves the invariant, where what has been written is what it should be. -/
lemma UploadInv.commit (hs : UploadInv cfg s) (hold : s.processes p = some old)
    (hi : next.bind Phase.intent? = none) (hr : next.bind Phase.prefill? = none)
    (he : next.bind Phase.evidence? = none)
    (hintent : ∀ i new, old.intent? = some (i, new) → IntentInv cfg i new ∧
      ∀ intent, Dict.get? s.intents.committed i = some intent → Succeeds s intent new)
    (hprefill : ∀ i new, old.prefill? = some (i, new) → IsPrefill cfg i new ∧
      ∀ run, Dict.get? s.prefills.committed i = some run → new.object = run.object)
    (hevidence : ∀ id row, old.evidence? = some (id, row) → Sourced (s.commit p next) id row)
    (hnext : ∀ ph, next = some ph → PhaseInv cfg (s.commit p next) p ph) :
    UploadInv cfg (s.commit p next) := by
  have hruns : ∀ i run, Dict.get? s.prefills.committed i = some run →
      ∃ run', Dict.get? (s.commit p next).prefills.committed i = some run' ∧
        run'.object = run.object := by
    intro i run hrun
    rw [hs.prefills_commit hold, hrun]
    cases hwritten : old.prefill? with
    | none => exact ⟨run, rfl, rfl⟩
    | some e =>
      by_cases hj : e.1 = i
      · exact ⟨e.2, by simp [hj], (hprefill e.1 e.2 hwritten).2 run (hj ▸ hrun)⟩
      · exact ⟨run, by simp [hj], rfl⟩
  constructor
  · exact hs.intents.ends_commit hi
  · exact hs.prefills.ends_commit hr
  · exact hs.evidence.ends_commit he
  · exact hs.keyed.commit
  · intro u q hu
    by_cases hup : u = p
    · subst hup
      exact hnext q (by simpa using hu)
    · refine (hs.phases u q (by simpa [hup] using hu)).moved ?_ hs.keyed hup
      exact ⟨Nat.le_refl _, Table.movedBy_commit, Table.movedBy_commit, hruns, fun _ h => .inl h⟩
  · intro i intent h
    rcases hs.intent_cases hold h with hnew | hsame
    · exact (hintent i intent hnew).1
    · exact hs.intentRows i intent hsame
  · intro i run h
    rw [hs.prefills_commit hold] at h
    rcases Option.or_eq_some_iff.mp h with hnew | ⟨-, hsame⟩
    · obtain ⟨e, hwritten, hif⟩ := Option.bind_eq_some_iff.mp hnew
      split at hif
      · next hj =>
        cases hif
        exact hj ▸ (hprefill e.1 e.2 hwritten).1
      · cases hif
    · exact hs.prefillRows i run hsame
  · intro e hmem
    rw [hs.evidence_commit hold] at hmem
    rcases List.mem_append.mp hmem with hmem | hmem
    · rcases hs.evidenceRows e hmem with ⟨i, run, hrun, hobject⟩ | ⟨i, intent, hrow, hrest⟩
      · obtain ⟨run', hrun', hobject'⟩ := hruns i run hrun
        exact .inl ⟨i, run', hrun', hobject'.trans hobject⟩
      · rcases hs.intent_after next hold hrow with ⟨new, hwritten, -⟩ | hsame
        · exact absurd hrest.2.1 ((hintent i new hwritten).2 intent hrow).completed
        · exact .inr ⟨i, intent, hsame, hrest⟩
    · exact hevidence e.1 e.2 (Option.mem_toList.mp hmem)
  · exact hs.evidence.nodup_commit hs.nodup
  · intro o ho
    obtain ⟨i, intent, hrow, hobject, hexpired, hstate⟩ := hs.sweptRows o ho
    rcases hs.intent_after next hold hrow with ⟨new, hwritten, hnew⟩ | hsame
    · have hsucc := (hintent i new hwritten).2 intent hrow
      refine ⟨i, new, hnew, hsucc.object.trans hobject, hsucc.expiresAt ▸ hexpired, ?_⟩
      intro hcompleted
      apply hsucc.unswept hcompleted
      rw [hobject]
      exact ho
    · exact ⟨i, intent, hsame, hobject, hexpired, hstate⟩

end Commit

/-! ## Steps -/

/-- An intent that has not expired has not been swept. -/
lemma UploadInv.unswept_of_lt (hs : UploadInv cfg s) {i : IntentId}
    {intent : EvidenceUploadIntent} (hintent : Dict.get? s.intents.committed i = some intent)
    (hexpires : s.clock < intent.expiresAt) : intent.object ∉ s.swept := by
  intro hmem
  obtain ⟨j, other, hother, hobject, hexpired, -⟩ := hs.sweptRows _ hmem
  obtain ⟨-, rfl⟩ := hs.intent_unique hother hintent hobject
  omega

/-- A step of `complete_upload` preserves the invariant. -/
lemma UploadInv.completeStep (hs : UploadInv cfg s) {c : Completing Content Digest} {st : Statement}
    (hold : s.processes p = some (.completing c)) (h : completeStep cfg s p c st = some s') :
    UploadInv cfg s' := by
  have hc : CompletingInv s p c := hs.phases p _ hold
  unfold Uploads.completeStep at h
  split at h
  · next c =>
    split at h
    · cases h
      exact hs.gives_up
    · next hok =>
      simp only [not_or, not_not] at hok
      split at h
      · exact hs.updateIntent hold h hc.committed rfl rfl rfl rfl (fun _ => rfl)
          ⟨hc.holds, hc.committed, fun _ => hok.2.2, by rintro ⟨⟩, by rintro _ ⟨⟩⟩
      · next hlater =>
        cases h
        exact hs.goOn hold rfl rfl rfl ⟨hc.holds, hc.committed, fun _ => hok.2.2,
          fun _ => hs.unswept_of_lt hc.committed (Nat.lt_of_not_le hlater), by rintro _ ⟨⟩⟩
  · next c =>
    split at h
    · cases h
      exact hs.gives_up
    · next version head _ =>
      split at h
      · cases h
        exact (hs.withObjects _).gives_up
      · cases h
        exact hs.goOn hold rfl rfl rfl
          ⟨hc.holds, hc.committed, hc.isOpen, hc.unswept, by rintro _ ⟨⟩⟩
  · next c version head =>
    split at h
    · cases h
      exact hs.gives_up
    · cases h
      refine hs.goOn hold rfl rfl rfl ⟨hc.holds, hc.committed, hc.isOpen, hc.unswept, ?_⟩
      rintro row ⟨⟩
      rfl
  · exact hs.insertEvidence hold h rfl rfl rfl rfl
      ⟨hc.holds, hc.committed, hc.isOpen, hc.unswept, hc.row⟩
  · next c id row =>
    split at h
    · exact hs.updateIntent hold h hc.committed rfl rfl rfl rfl (fun _ => rfl)
        ⟨hc.holds, hc.committed, hc.isOpen, hc.unswept, hc.row⟩
    · cases h
  · cases h

/-- A commit of `complete_upload` preserves the invariant. -/
lemma UploadInv.completeCommit (hs : UploadInv cfg s) {c : Completing Content Digest}
    {next : Option (Phase Content Digest)} (hold : s.processes p = some (.completing c))
    (h : (Phase.completing c).afterCommit = some next) : UploadInv cfg (s.commit p next) := by
  have hc : CompletingInv s p c := hs.phases p _ hold
  obtain ⟨his, hid⟩ := hs.intentRows _ _ hc.committed
  cases c with
  | lapsed c =>
    cases h
    have hopen : c.intent.state = .opened := hc.isOpen rfl
    have hstate : c.intent.state ≠ .completed := by simp [hopen]
    refine hs.commit hold rfl rfl rfl ?_ (by rintro _ _ ⟨⟩) (by rintro _ _ ⟨⟩) (by simp)
    rintro i new ⟨⟩
    refine ⟨⟨his, fun _ => hid hstate⟩, ?_⟩
    intro intent hintent
    cases hc.committed.symm.trans hintent
    exact ⟨rfl, rfl, hstate, by simp [EvidenceUploadIntent.expire]⟩
  | completed c id row =>
    cases h
    have hopen : c.intent.state = .opened := hc.isOpen rfl
    have hstate : c.intent.state ≠ .completed := by simp [hopen]
    refine hs.commit hold rfl rfl rfl ?_ (by rintro _ _ ⟨⟩) ?_ (by simp)
    · rintro i new ⟨⟩
      refine ⟨⟨his, fun hne => absurd rfl hne⟩, ?_⟩
      intro intent hintent
      cases hc.committed.symm.trans hintent
      exact ⟨rfl, rfl, hstate, fun _ => hc.unswept rfl⟩
    · rintro id' row' ⟨⟩
      refine .inr ⟨c.intentId, c.intent.complete id c.now, ?_, (hc.row _ rfl).symm, rfl, rfl⟩
      rw [hs.intents_commit hold]
      simp [Phase.intent?]
  | _ => cases h

/-- A row of `evidence` that is referenced has the object. -/
lemma referenced_spec {object : ObjectName} {id : EvidenceId} (h : s.referenced object = some id) :
    ∃ row, (id, row) ∈ s.evidence.committed ∧ row.object = object := by
  obtain ⟨tl, htl⟩ := List.head?_eq_some_iff.mp h
  have hmem : id ∈ s.evidence.select fun _ row => row.object = object := by
    rw [htl]
    exact List.mem_cons_self
  obtain ⟨row, hrow, hobject⟩ := Table.mem_select.mp hmem
  exact ⟨row, Dict.mem_of_get?_eq_some hrow, by simpa using hobject⟩

/-- An intent that a sweep has picked has no evidence. -/
lemma UploadInv.picked_unreferenced (hs : UploadInv cfg s) {pass : Pass} {i : IntentId}
    {intent : EvidenceUploadIntent} (hpicked : Picked s p pass i intent) :
    intent.evidenceId = none ∧ s.referenced intent.object = none := by
  refine ⟨(hs.intentRows i intent hpicked.committed).2 hpicked.state, ?_⟩
  cases hreferenced : s.referenced intent.object with
  | none => rfl
  | some id =>
    obtain ⟨row, hrow, hobject⟩ := referenced_spec hreferenced
    have hcompleted := hs.completed_of_object hrow hpicked.committed hobject
    exact absurd hcompleted.1 hpicked.state

/-- A sweep deletes a version of the object of the intent that it has picked. -/
lemma UploadInv.deleteVersion (hs : UploadInv cfg s) {pass : Pass} {i : IntentId}
    {intent : EvidenceUploadIntent} {page page' : List ℕ}
    (hold : s.processes p = some (.sweeping (.clearing pass i intent page)))
    (objects : Store ObjectName (StoredObject Content)) :
    UploadInv cfg ({ s with objects, swept := intent.object :: s.swept }.goOn p
      (.sweeping (.clearing pass i intent page'))) := by
  have hpicked : Picked s p pass i intent := hs.phases p _ hold
  refine hs.moves (p := p) rfl ⟨Nat.le_refl _, .refl, .refl, fun _ run h => ⟨run, h, rfl⟩, ?_⟩ rfl
    rfl rfl (hs.intents.goOn (by rw [hold]; rfl)) (hs.prefills.goOn (by rw [hold]; rfl))
    (hs.evidence.goOn (by rw [hold]; rfl)) hs.keyed ?_ ?_
  · intro o ho
    rcases List.mem_cons.mp ho with rfl | ho
    · exact .inr ⟨i, intent, hpicked.holds, hpicked.committed, rfl⟩
    · exact .inl ho
  · exact ⟨hpicked.holds, hpicked.committed, hpicked.state, hpicked.expired, hpicked.now⟩
  · intro o ho
    rcases List.mem_cons.mp ho with rfl | ho
    · have hexpired := Nat.le_trans hpicked.expired hpicked.now
      exact .inr ⟨i, intent, hpicked.committed, rfl, hexpired, hpicked.state⟩
    · exact .inl ho

/-- A step of a sweep preserves the invariant. -/
lemma UploadInv.sweepStep (hs : UploadInv cfg s) {w : Sweeping} {st : Statement}
    (hold : s.processes p = some (.sweeping w)) (h : sweepStep cfg s p w st = some s') :
    UploadInv cfg s' := by
  have hw : SweepingInv s p w := hs.phases p _ hold
  unfold Uploads.sweepStep at h
  split at h
  · next pass i =>
    split at h
    · cases h
    · obtain ⟨intent, hintent, h⟩ := Option.bind_eq_some_iff.mp h
      split at h
      · next hcandidate =>
        obtain ⟨T, hT, rfl⟩ := Option.map_eq_some_iff.mp h
        obtain ⟨hg, rfl⟩ := Table.lock?_eq_some.mp hT
        simp only [Pass.candidate, decide_eq_true_eq] at hcandidate
        obtain ⟨hstate, hexpired, -⟩ := hcandidate
        refine hs.lock hold hg rfl rfl rfl ⟨Table.holds_lock_self hg (by decide), hintent, ?_,
          hexpired, hw⟩
        rintro hcompleted
        simp [hcompleted] at hstate
      · cases h
  · split at h
    · cases h
      exact hs.gives_up
    · cases h
  · next pass i intent =>
    obtain ⟨hnone, hunreferenced⟩ := hs.picked_unreferenced hw
    rw [hnone] at h
    simp only [hunreferenced] at h
    split at h
    · cases h
      exact hs.goOn hold rfl rfl rfl hw
    · exact hs.updateIntent hold h hw.committed rfl rfl rfl rfl (fun _ => rfl)
        ⟨hw.holds, hw.committed, hw.state, hw.expired, hw.now⟩
  · cases h
    exact hs.goOn hold rfl rfl rfl hw
  · cases h
    exact hs.deleteVersion hold _
  · next pass i intent =>
    have hpicked : Picked s p pass i intent := hw
    exact hs.updateIntent hold h hpicked.committed rfl rfl rfl rfl (fun _ => rfl) hw
  · cases h

/-- A sweep commits what it has written of the intent that it has picked. -/
lemma UploadInv.sweepCommit_picked (hs : UploadInv cfg s) {pass : Pass} {i : IntentId}
    {intent new : EvidenceUploadIntent} {w : Sweeping}
    (hold : s.processes p = some (.sweeping w)) (hpicked : Picked s p pass i intent)
    (hw : (Phase.sweeping w : Phase Content Digest).intent? = some (i, new))
    (hr : (Phase.sweeping w : Phase Content Digest).prefill? = none)
    (he : (Phase.sweeping w : Phase Content Digest).evidence? = none)
    (hobject : new.object = intent.object) (hexpires : new.expiresAt = intent.expiresAt)
    (hid : new.evidenceId = intent.evidenceId) (hstate : new.state ≠ .completed) :
    UploadInv cfg (s.commit p (some (.sweeping (.between pass)))) := by
  obtain ⟨his, hnone⟩ := hs.intentRows _ _ hpicked.committed
  refine hs.commit hold rfl rfl rfl ?_ (by simp [hr]) (by simp [he]) ?_
  · intro j new' hnew
    rw [hw] at hnew
    cases hnew
    refine ⟨⟨?_, fun _ => hid.trans (hnone hpicked.state)⟩, ?_⟩
    · rw [IsIntent, hobject]
      exact his
    · intro old hintent
      cases hpicked.committed.symm.trans hintent
      exact ⟨hobject, hexpires, hpicked.state, fun hcompleted => absurd hcompleted hstate⟩
  · rintro ph ⟨⟩
    exact hpicked.now

/-- A commit of a sweep preserves the invariant. -/
lemma UploadInv.sweepCommit (hs : UploadInv cfg s) {w : Sweeping}
    {next : Option (Phase Content Digest)} (hold : s.processes p = some (.sweeping w))
    (h : (Phase.sweeping w : Phase Content Digest).afterCommit = some next) :
    UploadInv cfg (s.commit p next) := by
  have hw : SweepingInv s p w := hs.phases p _ hold
  cases w with
  | settled pass i intent id => exact hw.elim
  | refused pass i intent =>
    cases h
    exact hs.sweepCommit_picked hold hw rfl rfl rfl rfl rfl rfl (by simp [EvidenceUploadIntent.expire])
  | cleaned pass i intent =>
    cases h
    exact hs.sweepCommit_picked hold hw rfl rfl rfl rfl rfl rfl (by simp [EvidenceUploadIntent.clean])
  | _ => cases h

/-- A step of `attach_prefill_to_incident` preserves the invariant. -/
lemma UploadInv.attachStep (hs : UploadInv cfg s) {a : Attaching Digest} {st : Statement}
    (hold : s.processes p = some (.attaching a)) (h : attachStep cfg s p a st = some s') :
    UploadInv cfg s' := by
  have ha : AttachingInv s a := hs.phases p _ hold
  unfold Uploads.attachStep at h
  split at h
  · split at h
    · cases h
      exact hs.gives_up
    · cases h
      exact hs.goOn hold rfl rfl rfl ⟨ha.prefill, by rintro _ ⟨⟩, by rintro _ ⟨⟩⟩
  · split at h
    · cases h
      exact hs.gives_up
    · cases h
      refine hs.goOn hold rfl rfl rfl ⟨ha.prefill, ?_, by rintro _ ⟨⟩⟩
      rintro row ⟨⟩
      rfl
  · exact hs.insertEvidence hold h rfl rfl rfl rfl ⟨ha.prefill, ha.row, by rintro _ ⟨⟩⟩
  · next a id row =>
    split at h
    · cases h
      exact hs.goOn hold rfl rfl rfl ⟨ha.prefill, ha.row, by rintro _ ⟨⟩⟩
    · obtain ⟨run, hrun, h⟩ := Option.bind_eq_some_iff.mp h
      obtain ⟨T, hT, rfl⟩ := Option.map_eq_some_iff.mp h
      obtain ⟨hg, hm, rfl⟩ := Table.write?_eq_some.mp hT
      refine hs.writePrefill hold rfl rfl rfl rfl ⟨ha.prefill, ha.row, ?_⟩
      rintro run' ⟨⟩
      obtain ⟨old, hcommitted, hobject⟩ := ha.prefill
      rw [hs.prefills.read (by rw [hold]; rfl)] at hrun
      cases hcommitted.symm.trans hrun
      exact hobject
  · cases h

/-- A commit of `attach_prefill_to_incident` preserves the invariant. -/
lemma UploadInv.attachCommit (hs : UploadInv cfg s) {a : Attaching Digest}
    {next : Option (Phase Content Digest)} (hold : s.processes p = some (.attaching a))
    (h : (Phase.attaching a : Phase Content Digest).afterCommit = some next) :
    UploadInv cfg (s.commit p next) := by
  have ha : AttachingInv s a := hs.phases p _ hold
  cases a with
  | attached a id row run =>
    cases h
    obtain ⟨old, hcommitted, hobject⟩ := ha.prefill
    have hrun : ∀ run', run = some run' → run'.object = old.object :=
      fun run' hrun' => (ha.run run' hrun').trans hobject.symm
    refine hs.commit hold rfl rfl rfl (by rintro _ _ ⟨⟩) ?_ ?_ (by simp)
    · intro i new hwritten
      obtain ⟨run', hrun', heq⟩ := Option.map_eq_some_iff.mp hwritten
      cases heq
      refine ⟨?_, ?_⟩
      · rw [IsPrefill, hrun new hrun']
        exact hs.prefillRows _ old hcommitted
      · intro other hother
        cases hcommitted.symm.trans hother
        exact hrun new hrun'
    · rintro id' row' ⟨⟩
      have hrow : row.object = old.object := (ha.row row rfl).trans hobject.symm
      cases run with
      | none =>
        refine .inl ⟨a.prefillId, old, ?_, hrow.symm⟩
        rw [hs.prefills_commit hold]
        exact hcommitted
      | some run' =>
        refine .inl ⟨a.prefillId, run', ?_, (hrun run' rfl).trans hrow.symm⟩
        rw [hs.prefills_commit hold]
        simp [Phase.prefill?]
  | _ => cases h

/-- `request_upload_url` begins. -/
lemma UploadInv.requestUploadUrl (hs : UploadInv cfg s) {incident : IncidentId} {user : UserId}
    {evidenceType : EvidenceType} {filename : PyStr} {contentType : Option PyStr}
    {expectedByteSize : Option ℕ} {upload : IntentId} (hold : s.processes p = none)
    (h : requestUploadUrl cfg s p incident user evidenceType filename contentType expectedByteSize
      upload = some s') : UploadInv cfg s' := by
  unfold Uploads.requestUploadUrl at h
  split at h
  · cases h
    exact hs
  · dsimp only at h
    split at h
    · next hindex =>
      obtain ⟨T, hT, rfl⟩ := Option.map_eq_some_iff.mp h
      have hnone : (s.processes p).bind Phase.intent? = none := by rw [hold]; rfl
      have hkeyed := hs.keyed.insert (hs.intents.pending_eq_none hnone) hindex hT
      obtain ⟨hread, hg, hm, rfl⟩ := Table.insert?_eq_some.mp hT
      rw [hs.intents.read hnone] at hread
      refine hs.moves (p := p) rfl ⟨Nat.le_refl _, Table.movedBy_write hg hm, .refl,
        fun _ run h => ⟨run, h, rfl⟩, fun _ h => .inl h⟩ rfl rfl rfl
        (hs.intents.goOn_write hg hm hnone rfl) (hs.prefills.goOn (by rw [hold]; rfl))
        (hs.evidence.goOn (by rw [hold]; rfl)) hkeyed ?_ fun _ h => .inl h
      exact ⟨⟨incident, evidenceType, filename, rfl⟩, rfl, rfl, hread, Table.holds_write_self hg hm⟩
    · cases h

/-- `complete_upload` begins. -/
lemma UploadInv.completeUpload (hs : UploadInv cfg s) {incident : IncidentId} {user : UserId}
    {upload : IntentId} (hold : s.processes p = none)
    (h : completeUpload s p incident user upload = some s') : UploadInv cfg s' := by
  unfold Uploads.completeUpload at h
  split at h
  · cases h
    exact hs
  · split at h
    · cases h
      exact hs
    · next intent hintent =>
      obtain ⟨T, hT, rfl⟩ := Option.map_eq_some_iff.mp h
      obtain ⟨hg, rfl⟩ := Table.lock?_eq_some.mp hT
      exact hs.lock hold hg rfl rfl rfl
        ⟨Table.holds_lock_self hg (by decide), hintent, by rintro ⟨⟩, by rintro ⟨⟩, by rintro _ ⟨⟩⟩

/-- The prefill that a request inserts is named by its id. -/
lemma isPrefill_newPrefill (user : UserId) (content : Content) (filename mimeType : Option PyStr)
    (i : PrefillId) : IsPrefill cfg i (newPrefill cfg user content filename mimeType i) :=
  ⟨_, rfl⟩

/-- `create_incident_prefill` begins. -/
lemma UploadInv.createIncidentPrefill (hs : UploadInv cfg s) {user : UserId} {content : Content}
    {filename mimeType : Option PyStr} {prefill : PrefillId} (hold : s.processes p = none)
    (h : createIncidentPrefill cfg s p user content filename mimeType prefill = some s') :
    UploadInv cfg s' := by
  unfold Uploads.createIncidentPrefill at h
  split at h
  · cases h
    exact hs
  · cases h
    exact (hs.withObjects _).begins hold rfl rfl rfl
      ⟨isPrefill_newPrefill user content filename mimeType prefill, rfl⟩

/-- `attach_prefill_to_incident` begins. -/
lemma UploadInv.attachPrefillToIncident (hs : UploadInv cfg s) {user : UserId} {prefill : PrefillId}
    {incident : IncidentId} (hold : s.processes p = none)
    (h : attachPrefillToIncident s p user prefill incident = some s') : UploadInv cfg s' := by
  unfold Uploads.attachPrefillToIncident at h
  split at h
  · cases h
    exact hs
  · next run hrun =>
    split at h
    · cases h
      exact hs
    · cases h
      exact hs.begins hold rfl rfl rfl ⟨⟨run, hrun, rfl⟩, by rintro _ ⟨⟩, by rintro _ ⟨⟩⟩

/-- The flush of a prefill preserves the invariant. -/
lemma UploadInv.insertPrefill (hs : UploadInv cfg s) {i : PrefillId}
    {run : IncidentPrefillRun Digest} {st : Statement} (hold : s.processes p = some (.stored i run))
    (h : insertPrefill s p i run st = some s') : UploadInv cfg s' := by
  have hrun : IsPrefill cfg i run ∧ run.incidentId = none := hs.phases p _ hold
  unfold Uploads.insertPrefill at h
  split at h
  · obtain ⟨T, hT, rfl⟩ := Option.map_eq_some_iff.mp h
    obtain ⟨hread, hg, hm, rfl⟩ := Table.insert?_eq_some.mp hT
    rw [hs.prefills.read (by rw [hold]; rfl)] at hread
    exact hs.writePrefill hold rfl rfl rfl rfl
      ⟨hrun.1, hrun.2, hread, Table.holds_write_self hg hm⟩
  · cases h

/-- A commit preserves the invariant. -/
lemma UploadInv.commits (hs : UploadInv cfg s) {next : Option (Phase Content Digest)}
    (hold : s.processes p = some ph) (h : ph.afterCommit = some next) :
    UploadInv cfg (s.commit p next) := by
  have hph := hs.phases p ph hold
  cases ph with
  | requested i intent =>
    cases h
    obtain ⟨his, hopen, hid, hnone, -⟩ := hph
    refine hs.commit hold rfl rfl rfl ?_ (by rintro _ _ ⟨⟩) (by rintro _ _ ⟨⟩) (by simp)
    rintro j new ⟨⟩
    refine ⟨⟨his, fun _ => hid⟩, ?_⟩
    intro other hother
    rw [hnone] at hother
    cases hother
  | stored i run => cases h
  | prefilled i run =>
    cases h
    obtain ⟨his, -, hnone, -⟩ := hph
    refine hs.commit hold rfl rfl rfl (by rintro _ _ ⟨⟩) ?_ (by rintro _ _ ⟨⟩) (by simp)
    rintro j new ⟨⟩
    refine ⟨his, ?_⟩
    intro other hother
    rw [hnone] at hother
    cases hother
  | completing c => exact hs.completeCommit hold h
  | sweeping w => exact hs.sweepCommit hold h
  | attaching a => exact hs.attachCommit hold h

/-- A failure preserves the invariant. -/
lemma UploadInv.fails (hs : UploadInv cfg s) (hold : s.processes p = some ph) :
    UploadInv cfg (s.rollback p ph.afterFailure) := by
  have hph := hs.phases p ph hold
  cases ph with
  | sweeping w =>
    cases w with
    | settled => exact hph.elim
    | refused pass i intent | clearing pass i intent page | cleaned pass i intent =>
      have hnow : pass.now ≤ s.clock := Picked.now hph
      refine hs.rollback rfl rfl rfl ?_
      rintro next ⟨⟩
      exact hnow
    | between | picked => exact hs.gives_up
  | _ => exact hs.gives_up

/-- A step of a process preserves the invariant. -/
lemma UploadInv.processStep (hs : UploadInv cfg s) {st : Statement}
    (hold : s.processes p = some ph) (h : processStep cfg s p ph st = some s') :
    UploadInv cfg s' := by
  unfold Uploads.processStep at h
  split at h
  · obtain ⟨next, hnext, rfl⟩ := Option.map_eq_some_iff.mp h
    exact hs.commits hold hnext
  · cases h
    exact hs.fails hold
  · cases h
    exact hs.gives_up
  · split at h
    · exact hs.insertPrefill hold h
    · exact hs.completeStep hold h
    · exact hs.sweepStep hold h
    · exact hs.attachStep hold h
    · cases h
    · cases h

/-- A request begins when its process is free. -/
lemma start_eq_some {request : Option (State Content Digest)} (h : s.start p request = some s') :
    s.processes p = none ∧ request = some s' := by
  rw [State.start] at h
  split at h
  · next hfree => exact ⟨Option.isNone_iff_eq_none.mp hfree, h⟩
  · cases h

/-- What is not about the rows and the processes is not part of the invariant. -/
lemma UploadInv.later (hs : UploadInv cfg s) {clock : ℕ} (hclock : s.clock ≤ clock)
    (incidents : List IncidentId) : UploadInv cfg { s with clock, incidents } where
  intents := hs.intents
  prefills := hs.prefills
  evidence := hs.evidence
  keyed := hs.keyed
  phases u q hu := (hs.phases u q hu).kept hclock rfl rfl rfl (fun _ h => h) fun _ h => h
  intentRows := hs.intentRows
  prefillRows := hs.prefillRows
  evidenceRows := hs.evidenceRows
  nodup := hs.nodup
  sweptRows o ho := by
    obtain ⟨i, intent, hintent, hobject, hexpired, hstate⟩ := hs.sweptRows o ho
    exact ⟨i, intent, hintent, hobject, Nat.le_trans hexpired hclock, hstate⟩

/-- **Every step** preserves the invariant. -/
theorem uploadInv_step {a : Action Content} (hs : UploadInv cfg s) (h : step cfg s a = some s') :
    UploadInv cfg s' := by
  cases a with
  | tick =>
    cases h
    exact hs.later (Nat.le_succ _) _
  | addIncident incident =>
    cases h
    exact hs.later (Nat.le_refl _) _
  | upload i body =>
    obtain ⟨intent, -, rfl⟩ := Option.map_eq_some_iff.mp h
    exact hs.withObjects _
  | requestUploadUrl p =>
    obtain ⟨hfree, h⟩ := start_eq_some h
    exact hs.requestUploadUrl hfree h
  | completeUpload p =>
    obtain ⟨hfree, h⟩ := start_eq_some h
    exact hs.completeUpload hfree h
  | createIncidentPrefill p =>
    obtain ⟨hfree, h⟩ := start_eq_some h
    exact hs.createIncidentPrefill hfree h
  | attachPrefill p =>
    obtain ⟨hfree, h⟩ := start_eq_some h
    exact hs.attachPrefillToIncident hfree h
  | sweep p limit =>
    obtain ⟨hfree, h⟩ := start_eq_some h
    cases h
    exact hs.begins hfree rfl rfl rfl (Nat.le_refl _)
  | process p statement =>
    obtain ⟨ph, hold, h⟩ := Option.bind_eq_some_iff.mp h
    exact hs.processStep hold h

/-! ## The sweep -/

/-- No object of a row of `evidence` has been swept, and no intent has two rows. -/
def SweepSafe (s : State Content Digest) : Prop :=
  (∀ e ∈ s.evidence.committed, e.2.object ∉ s.swept) ∧
    ∀ i intent, Dict.get? s.intents.committed i = some intent →
      ∀ e ∈ s.evidence.committed, ∀ e' ∈ s.evidence.committed,
        e.2.object = intent.object → e'.2.object = intent.object → e = e'

lemma UploadInv.sweepSafe (hs : UploadInv cfg s) : SweepSafe s := by
  constructor
  · intro e he hswept
    obtain ⟨i, intent, hintent, hobject, -, hstate⟩ := hs.sweptRows _ hswept
    exact hstate (hs.completed_of_object he hintent hobject.symm).1
  · intro i intent hintent e he e' he' hobject hobject'
    have hid := (hs.completed_of_object he hintent hobject).2
    have hid' := (hs.completed_of_object he' hintent hobject').2
    have heq : e.1 = e'.1 := Option.some.inj (hid.symm.trans hid')
    have hrow := Dict.get?_of_mem hs.nodup he
    rw [heq, Dict.get?_of_mem hs.nodup he'] at hrow
    exact Prod.ext heq (Option.some.inj hrow.symm)

/-- **The sweep is safe.** In every state of every run, no version of the object of a row of
`evidence` has been deleted by a sweep, and each intent has given rise to one row at most. -/
theorem sweep_safe (cfg : Config Content Digest) (as : List (Action Content)) :
    EveryState (step cfg) SweepSafe .init as :=
  everyState_of_everyStep (I := UploadInv cfg) (P := fun _ _ => True)
    (fun _ _ _ hs _ h => uploadInv_step hs h) (fun _ hs => hs.sweepSafe) uploadInv_init
    fun _ _ _ _ _ _ => trivial

end Uploads
