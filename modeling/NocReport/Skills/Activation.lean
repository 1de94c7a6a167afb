import NocReport.Skills.Registry

set_option relaxedAutoImplicit false
set_option autoImplicit false

/-!
# Activation that fails

`get_or_create_snapshot` with `activate=True` clears the pointer of the skill before it checks the
new row; `set_active_snapshot` makes its checks first.

## Main definitions

* `Skills.SameFlags` — no row has lost or gained the pointer.
* `Skills.RowAccepted` — a new row passes its checks.

## Main results

* `Skills.getOrCreateSnapshot_extends` — a call that does not ask for activation only adds rows,
  however it ends.
* `Skills.activation_atomic_iff` — when a call that fails leaves the pointers alone.
-/

namespace Skills

variable {lib : ContractLibrary} {session : Session} {table table' : SkillTable}
  {skillName hash : String} {files : SkillFiles} {pins : Dict String String}

/-- Every row is there afterwards, and active as it was. -/
def SameFlags (table table' : SkillTable) : Prop :=
  ∀ row ∈ table.rows, ∃ row' ∈ table'.rows, row'.id = row.id ∧ row'.isActive = row.isActive

/-- A new row passes the checks that `get_or_create_snapshot` makes, and has an id of its own. -/
def RowAccepted (lib : ContractLibrary) (table : SkillTable) (row : SkillSnapshot) : Prop :=
  validateSnapshot lib table row = .ok () ∧
    (∃ hash, computeExecutionHash lib.toSkillLibrary table row = .ok hash) ∧
    row.id ∉ table.rows.map (·.id) ∧ row.id ≠ ""

/-- The table in which no row of the skill is active. -/
def SkillTable.deactivate (table : SkillTable) (skillName : String) : SkillTable :=
  table.setActive fun row => row.isActive && row.skillName ≠ skillName

/-! ## Calls that do not ask for activation -/

/-- Rows are added at the end. -/
def Extends (table table' : SkillTable) : Prop := table.rows <+: table'.rows

lemma Extends.refl (table : SkillTable) : Extends table table := List.prefix_rfl

lemma Extends.trans (s t u : SkillTable) (h : Extends s t) (h' : Extends t u) : Extends s u :=
  List.IsPrefix.trans h h'

lemma Extends.sameFlags (h : Extends table table') : SameFlags table table' :=
  fun row hrow => ⟨row, h.mem hrow, rfl, rfl⟩

/-- A pointer that stays as it is. -/
lemma rows_setActive_of_same {isActive : SkillSnapshot → Bool}
    (h : ∀ row ∈ table.rows, isActive row = row.isActive) :
    (table.setActive isActive).rows = table.rows := by
  rw [SkillTable.setActive]
  refine (List.map_congr_left fun row hrow => ?_).trans (List.map_id _)
  rw [h row hrow]
  rfl

lemma rows_deactivate (h : ∀ row ∈ table.rows, row.skillName = skillName → row.isActive = false) :
    (table.deactivate skillName).rows = table.rows := by
  refine rows_setActive_of_same fun row hrow => ?_
  by_cases hname : row.skillName = skillName
  · simp [hname, h row hrow hname]
  · simp [hname]

lemma insertSnapshot_extends (row : SkillSnapshot) :
    EStateM.MovesBy Extends (insertSnapshot row) := by
  intro t
  unfold insertSnapshot
  rw [EStateM.get_bind_apply]
  split
  · next hid =>
    exact List.prefix_append _ _
  · exact Extends.refl t

lemma recordSnapshot_extends (row : SkillSnapshot) :
    EStateM.MovesBy Extends (recordSnapshot lib row) :=
  .bind Extends.trans (.reading Extends.refl _) fun _ =>
    .bind Extends.trans (.reading Extends.refl _) fun _ => insertSnapshot_extends _

/-- The last part of a call clears the pointer, if it is to activate the new row, and then makes its
checks. -/
lemma createSnapshot_apply (activate : Option Bool) :
    createSnapshot lib session activate skillName hash files pins table =
      recordSnapshot lib (newSnapshot session table
          (activate.getD (table.history skillName).isEmpty) skillName hash files pins)
        (if activate.getD (table.history skillName).isEmpty then table.deactivate skillName
          else table) := by
  unfold createSnapshot
  rw [EStateM.get_bind_apply]
  cases activate.getD (table.history skillName).isEmpty with
  | true => rfl
  | false => rfl

lemma createSnapshot_extends :
    EStateM.MovesBy Extends (createSnapshot lib session none skillName hash files pins) := by
  intro t
  rw [createSnapshot_apply]
  have hsame : (if (t.history skillName).isEmpty then t.deactivate skillName else t).rows =
      t.rows := by
    split
    · next hempty =>
      refine rows_deactivate fun row hrow hname => ?_
      have hmem := mem_history.mpr ⟨hrow, hname⟩
      rw [List.isEmpty_iff.mp hempty] at hmem
      cases hmem
    · rfl
  have hrecord := @recordSnapshot_extends lib (newSnapshot session t
    (t.history skillName).isEmpty skillName hash files pins)
    (if (t.history skillName).isEmpty then t.deactivate skillName else t)
  unfold Extends at hrecord ⊢
  rwa [hsame] at hrecord

lemma pinDependency_extends {record : String → EStateM PyError SkillTable SkillSnapshot}
    (hrecord : ∀ name, EStateM.MovesBy Extends (record name)) (dependency : Yaml) :
    EStateM.MovesBy Extends (pinDependency lib record pins dependency) := by
  refine .bind Extends.trans (.reading Extends.refl _) fun name => ?_
  split
  · exact .pure Extends.refl _
  · refine .bind Extends.trans (.reading Extends.refl _) fun version => ?_
    cases name with
    | str name =>
      intro t
      simp only [EStateM.get_bind_apply]
      cases findVersion t name version with
      | some row => exact Extends.refl t
      | none =>
        have hbind := EStateM.MovesBy.bind Extends.trans (hrecord name) fun row =>
          .pure Extends.refl (Dict.set pins name row.id)
        exact hbind t
    | null | bool | int | float | bytes | other | seq | map => exact .throw Extends.refl _

/-- **A call that does not ask for activation only adds rows**, however it ends. -/
lemma getOrCreateSnapshot_extends (fuel : ℕ) (skillName : String) :
    EStateM.MovesBy Extends (getOrCreateSnapshot lib session fuel none skillName) := by
  induction fuel generalizing skillName with
  | zero => exact .throw Extends.refl _
  | succ fuel ih =>
    refine .bind Extends.trans (.reading Extends.refl _) fun skill => .bind Extends.trans
      (.foldlM Extends.refl Extends.trans (fun _ _ => pinDependency_extends ih _) _) fun pins => ?_
    intro t
    rw [EStateM.get_bind_apply]
    cases existingSnapshot t skillName skill.1 pins with
    | some candidate => exact Extends.refl t
    | none => exact createSnapshot_extends t

/-! ## Calls that ask for activation -/

lemma insertSnapshot_error_iff {row : SkillSnapshot} {e : PyError} :
    insertSnapshot row table = .error e table' ↔
      ¬ (row.id ∉ table.rows.map (·.id) ∧ row.id ≠ "") ∧ e = integrityError ∧ table' = table := by
  unfold insertSnapshot
  rw [EStateM.bind_eq_error]
  constructor
  · rintro (h | ⟨_, t, hget, h⟩)
    · exact absurd h EStateM.get_ne_error
    · obtain ⟨rfl, rfl⟩ := EStateM.get_eq_ok.mp hget
      split at h
      · rcases EStateM.bind_eq_error.mp h with h | ⟨_, _, -, h⟩
        · exact absurd h EStateM.set_ne_error
        · exact absurd h EStateM.pure_ne_error
      · next hid =>
        obtain ⟨rfl, rfl⟩ := EStateM.throw_eq_error.mp h
        exact ⟨hid, rfl, rfl⟩
  · rintro ⟨hid, rfl, rfl⟩
    refine .inr ⟨_, _, EStateM.get_eq_ok.mpr ⟨rfl, rfl⟩, ?_⟩
    rw [dif_neg hid]
    exact EStateM.throw_eq_error.mpr ⟨rfl, rfl⟩

/-- A row that is refused is not accepted, and leaves the table alone. -/
lemma recordSnapshot_error {row : SkillSnapshot} {e : PyError}
    (h : recordSnapshot lib row table = .error e table') :
    ¬ RowAccepted lib table row ∧ table' = table := by
  unfold recordSnapshot at h
  rcases EStateM.bind_eq_error.mp h with hbad | ⟨_, t, hvalid, h⟩
  · obtain ⟨hinvalid, rfl⟩ := EStateM.reading_eq_error.mp hbad
    refine ⟨fun hrow => ?_, rfl⟩
    rw [hrow.1] at hinvalid
    cases hinvalid
  obtain ⟨-, rfl⟩ := EStateM.reading_eq_ok.mp hvalid
  rcases EStateM.bind_eq_error.mp h with hbad | ⟨_, t, hhash, h⟩
  · obtain ⟨hnone, rfl⟩ := EStateM.reading_eq_error.mp hbad
    refine ⟨fun hrow => ?_, rfl⟩
    obtain ⟨-, ⟨hash, hhash⟩, -⟩ := hrow
    rw [hhash] at hnone
    cases hnone
  obtain ⟨-, rfl⟩ := EStateM.reading_eq_ok.mp hhash
  obtain ⟨hid, -, rfl⟩ := insertSnapshot_error_iff.mp h
  exact ⟨fun hrow => hid hrow.2.2, rfl⟩

/-- A row that is stored was accepted. -/
lemma recordSnapshot_accepted {row result : SkillSnapshot}
    (h : recordSnapshot lib row table = .ok result table') : RowAccepted lib table row := by
  unfold recordSnapshot at h
  obtain ⟨_, t, hvalid, h⟩ := EStateM.bind_eq_ok.mp h
  obtain ⟨hrow, rfl⟩ := EStateM.reading_eq_ok.mp hvalid
  obtain ⟨hash, t, hhash, h⟩ := EStateM.bind_eq_ok.mp h
  obtain ⟨hhash', rfl⟩ := EStateM.reading_eq_ok.mp hhash
  refine ⟨hrow, ⟨_, hhash'⟩, ?_⟩
  by_contra hid
  have herror : insertSnapshot (row.withExecutionHash hash) table = .error integrityError table :=
    insertSnapshot_error_iff.mpr ⟨hid, rfl, rfl⟩
  cases h.symm.trans herror

/-- The pointers that go when a skill is deactivated are those of its active rows. -/
lemma sameFlags_deactivate_iff (hadded : Extends table table') :
    SameFlags table (table'.deactivate skillName) ↔
      ∀ row ∈ table.rows, row.skillName = skillName → row.isActive = false := by
  constructor
  · intro hsame row hrow hname
    obtain ⟨row', hrow', hid, hactive⟩ := hsame row hrow
    obtain ⟨old, hold, rfl⟩ := List.mem_map.mp hrow'
    obtain rfl : old = row := List.inj_on_of_nodup_map table'.nodup hold (hadded.mem hrow) hid
    rw [← hactive]
    simp [hname]
  · intro hnone row hrow
    refine ⟨_, List.mem_map_of_mem (hadded.mem hrow), rfl, ?_⟩
    by_cases hname : row.skillName = skillName
    · simp [hname, hnone row hrow hname]
    · simp [hname]

/-- A rollback that fails changes nothing. -/
lemma setActiveSnapshot_error {versionLabel : ℤ} {e : PyError}
    (h : setActiveSnapshot lib skillName versionLabel table = .error e table') :
    table' = table := by
  unfold setActiveSnapshot at h
  rcases EStateM.bind_eq_error.mp h with h | ⟨_, t, hget, h⟩
  · exact absurd h EStateM.get_ne_error
  obtain ⟨rfl, rfl⟩ := EStateM.get_eq_ok.mp hget
  cases hfound : findVersion table skillName (some versionLabel) with
  | none =>
    rw [hfound] at h
    exact (EStateM.throw_eq_error.mp h).2.symm
  | some target =>
    rw [hfound] at h
    rcases EStateM.bind_eq_error.mp h with h | ⟨_, t, -, h⟩
    · exact (EStateM.reading_eq_error.mp h).2.symm
    rcases EStateM.bind_eq_error.mp h with h | ⟨_, t, -, h⟩
    · exact absurd h EStateM.set_ne_error
    rcases EStateM.bind_eq_error.mp h with h | ⟨_, t, -, h⟩
    · exact absurd h EStateM.modify_ne_error
    · exact absurd h EStateM.pure_ne_error

/-- **How a call that asks for activation fails**: before the pointer is cleared, or because the new
row is not accepted. -/
lemma getOrCreateSnapshot_error {limit : ℕ} {e : PyError}
    (h : getOrCreateSnapshot lib session (limit + 1) (some true) skillName table =
      .error e table') :
    Extends table table' ∨ ∃ hash files dependencies pins pinned,
      readSkill lib session skillName = .ok (hash, files, dependencies) ∧
      dependencies.foldlM (pinDependency lib (getOrCreateSnapshot lib session limit none)) [] table =
        .ok pins pinned ∧
      existingSnapshot pinned skillName hash pins = none ∧
      ¬ RowAccepted lib (pinned.deactivate skillName)
        (newSnapshot session pinned true skillName hash files pins) ∧
      table' = pinned.deactivate skillName := by
  have hpinning : ∀ dependencies : List Yaml, EStateM.MovesBy Extends
      (dependencies.foldlM (pinDependency lib (getOrCreateSnapshot lib session limit none)) []) :=
    fun _ => .foldlM Extends.refl Extends.trans
      (fun _ _ => pinDependency_extends (getOrCreateSnapshot_extends limit) _) _
  rcases EStateM.bind_eq_error.mp h with h | ⟨⟨hash, files, dependencies⟩, t, hread, h⟩
  · obtain ⟨-, rfl⟩ := EStateM.reading_eq_error.mp h
    exact .inl (Extends.refl _)
  obtain ⟨hskill, rfl⟩ := EStateM.reading_eq_ok.mp hread
  rcases EStateM.bind_eq_error.mp h with h | ⟨pins, pinned, hpins, h⟩
  · exact .inl ((hpinning dependencies).of_error h)
  rcases EStateM.bind_eq_error.mp h with h | ⟨_, t, hget, h⟩
  · exact absurd h EStateM.get_ne_error
  obtain ⟨rfl, rfl⟩ := EStateM.get_eq_ok.mp hget
  cases hfound : existingSnapshot pinned skillName hash pins with
  | some candidate =>
    rw [hfound] at h
    exact absurd h EStateM.pure_ne_error
  | none =>
    rw [hfound] at h
    have hcreate : createSnapshot lib session (some true) skillName hash files pins pinned =
      .error e table' := h
    rw [createSnapshot_apply] at hcreate
    obtain ⟨hrow, htable⟩ := recordSnapshot_error hcreate
    exact .inr ⟨hash, files, dependencies, pins, pinned, hskill, hpins, hfound, hrow, htable⟩

/-- A row that is not accepted fails the call that asks for its activation, where the pointer of the
skill has been cleared. -/
lemma getOrCreateSnapshot_refused {limit : ℕ} {dependencies : List Yaml} {pinned : SkillTable}
    (hread : readSkill lib session skillName = .ok (hash, files, dependencies))
    (hpins : dependencies.foldlM
      (pinDependency lib (getOrCreateSnapshot lib session limit none)) [] table = .ok pins pinned)
    (hfound : existingSnapshot pinned skillName hash pins = none)
    (hrow : ¬ RowAccepted lib (pinned.deactivate skillName)
      (newSnapshot session pinned true skillName hash files pins)) :
    ∃ e, getOrCreateSnapshot lib session (limit + 1) (some true) skillName table =
      .error e (pinned.deactivate skillName) := by
  have hcreate : ∃ e, createSnapshot lib session (some true) skillName hash files pins pinned =
      .error e (pinned.deactivate skillName) := by
    rw [createSnapshot_apply]
    cases hend : recordSnapshot lib (newSnapshot session pinned true skillName hash files pins)
        (pinned.deactivate skillName) with
    | ok row after => exact absurd (recordSnapshot_accepted hend) hrow
    | error e after =>
      obtain ⟨-, rfl⟩ := recordSnapshot_error hend
      exact ⟨e, hend⟩
  obtain ⟨e, he⟩ := hcreate
  refine ⟨e, EStateM.bind_eq_error.mpr (.inr ⟨_, _, EStateM.reading_eq_ok.mpr ⟨hread, rfl⟩,
    EStateM.bind_eq_error.mpr (.inr ⟨_, _, hpins, EStateM.bind_eq_error.mpr
      (.inr ⟨_, _, EStateM.get_eq_ok.mpr ⟨rfl, rfl⟩, ?_⟩)⟩)⟩)⟩
  show (_ : EStateM PyError SkillTable SkillSnapshot) pinned = _
  rw [hfound]
  exact he

/-- **When a call that fails leaves the pointers alone.** Whatever the table and whatever is on disk,
a call of `get_or_create_snapshot` with `activate=True` that raises leaves every row as active as it
was exactly if no row of the skill was active, or the new row that the call comes to, once the
dependencies are pinned, is accepted; and a call of `set_active_snapshot` that raises always
does. -/
theorem activation_atomic_iff (lib : ContractLibrary) (session : Session) (table : SkillTable)
    (skillName : String) (limit : ℕ) :
    ((∀ e table', getOrCreateSnapshot lib session (limit + 1) (some true) skillName table =
        .error e table' → SameFlags table table') ↔
      (∀ row ∈ table.rows, row.skillName = skillName → row.isActive = false) ∨
      ∀ hash files dependencies pins pinned,
        readSkill lib session skillName = .ok (hash, files, dependencies) →
        dependencies.foldlM
          (pinDependency lib (getOrCreateSnapshot lib session limit none)) [] table =
            .ok pins pinned →
        existingSnapshot pinned skillName hash pins = none →
        RowAccepted lib (pinned.deactivate skillName)
          (newSnapshot session pinned true skillName hash files pins)) ∧
    ∀ versionLabel e table', setActiveSnapshot lib skillName versionLabel table = .error e table' →
      SameFlags table table' := by
  have hpinned : ∀ {dependencies : List Yaml} {pins : Dict String String} {pinned : SkillTable},
      dependencies.foldlM (pinDependency lib (getOrCreateSnapshot lib session limit none)) [] table =
        .ok pins pinned → Extends table pinned := fun hpins =>
    EStateM.MovesBy.of_ok (.foldlM Extends.refl Extends.trans
      (fun _ _ => pinDependency_extends (getOrCreateSnapshot_extends limit) _) _) hpins
  refine ⟨⟨fun hatomic => ?_, fun hsafe e table' h => ?_⟩, fun versionLabel e table' h => ?_⟩
  · by_cases hnone : ∀ row ∈ table.rows, row.skillName = skillName → row.isActive = false
    · exact .inl hnone
    · right
      intro hash files dependencies pins pinned hread hpins hfound
      by_contra hrow
      obtain ⟨e, he⟩ := getOrCreateSnapshot_refused hread hpins hfound hrow
      exact hnone ((sameFlags_deactivate_iff (hpinned hpins)).mp (hatomic e _ he))
  · rcases getOrCreateSnapshot_error h with hadded |
      ⟨hash, files, dependencies, pins, pinned, hread, hpins, hfound, hrow, rfl⟩
    · exact hadded.sameFlags
    · rcases hsafe with hnone | haccepted
      · exact (sameFlags_deactivate_iff (hpinned hpins)).mpr hnone
      · exact absurd (haccepted hash files dependencies pins pinned hread hpins hfound) hrow
  · obtain rfl := setActiveSnapshot_error h
    exact (Extends.refl _).sameFlags

/-! ## A schema that cannot be read -/

/-- The files of the skill that writes reports, with half a schema. -/
def brokenFiles : SkillFiles := { reportFiles with outputSchemaJson := "\x7b" }

/-- **A skill that is left without an active snapshot**: the call that should activate the new files
refuses them, and the pointer of the skill is gone. -/
theorem brokenFiles_deactivate :
    ∃ e table', getOrCreateSnapshot sampleContract (sampleSession brokenFiles) 100 (some true)
        "report" sampleTable = .error e table' ∧
      ¬ SameFlags sampleTable table' := by
  have hfails : (getOrCreateSnapshot sampleContract (sampleSession brokenFiles) 100 (some true)
      "report" sampleTable).error?.isSome = true := by rfl
  have hrows : (getOrCreateSnapshot sampleContract (sampleSession brokenFiles) 100 (some true)
      "report" sampleTable).state.rows.map (fun row => (row.id, row.isActive)) =
        [(triageSnapshot.id, true), (reportSnapshot.id, false)] := by rfl
  cases hcall : getOrCreateSnapshot sampleContract (sampleSession brokenFiles) 100 (some true)
      "report" sampleTable with
  | ok row table' =>
    rw [hcall] at hfails
    cases hfails
  | error e table' =>
    refine ⟨e, table', rfl, fun hsame => ?_⟩
    rw [hcall] at hrows
    obtain ⟨row, hrow, hid, hactive⟩ := hsame reportSnapshot (by simp [sampleTable])
    have hmem : (reportSnapshot.id, true) ∈ table'.rows.map fun row => (row.id, row.isActive) :=
      List.mem_map.mpr ⟨row, hrow, by rw [hid, hactive]; rfl⟩
    rw [show table'.rows.map (fun row => (row.id, row.isActive)) = _ from hrows] at hmem
    revert hmem
    decide

end Skills
