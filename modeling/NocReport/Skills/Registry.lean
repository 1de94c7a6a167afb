import NocReport.Foundation.Stateful
import NocReport.Foundation.Transition
import NocReport.Skills.Contract

set_option relaxedAutoImplicit false
set_option autoImplicit false

/-!
# The registry of skills

The API records what it finds on disk as a snapshot, with what the snapshot depends on, and keeps
for each skill a pointer to the snapshot that new jobs run.

## Main definitions

* `Skills.Session` — what a call finds around it: the files on disk and new ids.
* `Skills.getOrCreateSnapshot`, `Skills.resolveActiveSnapshot`, `Skills.setActiveSnapshot` — the
  three calls, which change the table.
* `Skills.Registered` — one row of each skill is active, and the versions count up.
* `SkillTable.frozen` — the rows, but for the pointer.

## Main results

* `Skills.createSnapshot_eq_ok` — what a new snapshot changes.
* `Skills.registry_run` — every run of calls that succeed.
-/

namespace Skills

/-! ## The table -/

/-- The rows of a skill, in the order in which they were created. -/
def SkillTable.history (table : SkillTable) (skillName : String) : List SkillSnapshot :=
  table.rows.filter fun row => row.skillName = skillName

/-- The table with another pointer. -/
def SkillTable.setActive (table : SkillTable) (isActive : SkillSnapshot → Bool) : SkillTable where
  rows := table.rows.map fun row => { row with isActive := isActive row }
  nodup := by
    rw [List.map_map]
    exact table.nodup
  ids_ne := by
    intro row hrow
    obtain ⟨old, hold, rfl⟩ := List.mem_map.mp hrow
    exact table.ids_ne old hold

/-- The table with a new row. -/
def SkillTable.append (table : SkillTable) (row : SkillSnapshot)
    (h : row.id ∉ table.rows.map (·.id) ∧ row.id ≠ "") : SkillTable where
  rows := table.rows ++ [row]
  nodup := by
    rw [List.map_append, List.map_singleton]
    refine List.nodup_append.mpr ⟨table.nodup, List.nodup_singleton _, ?_⟩
    rintro a ha b hb rfl
    exact h.1 (List.mem_singleton.mp hb ▸ ha)
  ids_ne := by
    intro other hother
    rcases List.mem_append.mp hother with hother | hother
    · exact table.ids_ne other hother
    · exact List.mem_singleton.mp hother ▸ h.2

/-- The table before the first call. -/
def SkillTable.empty : SkillTable where
  rows := []
  nodup := List.nodup_nil
  ids_ne := by simp

/-- The primary key is taken. -/
def integrityError : PyError := .custom (py "IntegrityError") (py "duplicate key")

/-- `db.add` and `db.flush`. The unique index on the active rows is left out: where `Registered`
holds it refuses no row. -/
def insertSnapshot (row : SkillSnapshot) : EStateM PyError SkillTable SkillSnapshot := do
  let table ← get
  if h : row.id ∉ table.rows.map (·.id) ∧ row.id ≠ "" then do
    set (table.append row h)
    return row
  else throw integrityError

/-! ## Files on disk -/

/-- What a call finds around it. -/
structure Session where
  /-- the directory of the skills -/
  skillsDir : String
  /-- the bytes of a file of a skill, unless it is missing -/
  readBytes : String → String → Option (List UInt8)
  /-- the id of a new row, by the number of rows before it -/
  newId : ℕ → String
  /-- the time of the transaction -/
  now : ℤ
  /-- how deep calls of functions can be nested -/
  recursionLimit : ℕ

variable (lib : ContractLibrary) (session : Session)

/-- `path.read_bytes()`, in `compute_skill_hash`. -/
def readSkillFile (skillName filename : String) : Except PyError (List UInt8) :=
  match session.readBytes skillName filename with
  | some contents => pure contents
  | none => throw (.custom (py "SkillFilesMissing") (py (skillName ++ ": missing " ++ filename ++
      " at " ++ session.skillsDir ++ "/" ++ skillName ++ "/" ++ filename)))

/-- `compute_skill_hash`. -/
def computeSkillHash (skillName : String) : Except PyError String := do
  let prompt ← readSkillFile session skillName "SKILL.md"
  let schema ← readSkillFile session skillName "output.schema.json"
  let manifest ← readSkillFile session skillName "skill.yaml"
  contentHash lib.toSkillLibrary prompt schema manifest

/-- The line ends of a text that is read in text mode. -/
def universalNewlines : List Char → List Char
  | '\r' :: '\n' :: s => '\n' :: universalNewlines s
  | '\r' :: s => '\n' :: universalNewlines s
  | c :: s => c :: universalNewlines s
  | [] => []

/-- `path.read_text(encoding="utf-8")`. -/
def readText (skillName filename : String) : Except PyError String :=
  match session.readBytes skillName filename with
  | some contents =>
    match String.fromUTF8? ⟨contents.toArray⟩ with
    | some text => pure (String.ofList (universalNewlines text.toList))
    | none => throw (.custom (py "UnicodeDecodeError") (py "invalid utf-8"))
  | none => throw (.custom (py "FileNotFoundError") (py (session.skillsDir ++ "/" ++ skillName ++
      "/" ++ filename)))

/-- `read_skill_files`. -/
def readSkillFiles (skillName : String) : Except PyError SkillFiles := do
  let skillMd ← readText session skillName "SKILL.md"
  let outputSchemaJson ← readText session skillName "output.schema.json"
  let manifestYaml ← readText session skillName "skill.yaml"
  return ⟨skillMd, outputSchemaJson, manifestYaml⟩

/-- What is on disk: the content hash, the files, and the dependencies that the manifest
declares. -/
def readSkill (skillName : String) : Except PyError (String × SkillFiles × List Yaml) := do
  let hash ← computeSkillHash lib session skillName
  let files ← readSkillFiles session skillName
  let manifest ← lib.load files.manifestYaml
  let dependencies ← manifest.orEmpty.getD "dependencies" (.seq [])
  return (hash, files, ← dependencies.iter)

/-! ## A new snapshot -/

/-- The row of a skill with some version, or else the active one. -/
def findVersion (table : SkillTable) (skillName : String) (version : Option ℤ) :
    Option SkillSnapshot :=
  table.rows.find? fun row => row.skillName = skillName &&
    match version with
    | some version => row.versionLabel = version
    | none => row.isActive

/-- The id of the row that a dependency is pinned to, which is recorded first if there is none. -/
def pinDependency (record : String → EStateM PyError SkillTable SkillSnapshot)
    (pins : Dict String String) (dependency : Yaml) :
    EStateM PyError SkillTable (Dict String String) := do
  let name ← EStateM.reading fun _ => dependencyName dependency
  if !name.truthy then return pins
  else do
    let version ← EStateM.reading fun _ =>
      if (declaredVersion dependency).isNull then pure none
      else some <$> lib.int (declaredVersion dependency)
    match name with
    | .str name => do
      let table ← get
      match findVersion table name version with
      | some row => return Dict.set pins name row.id
      | none => do
        let row ← record name
        return Dict.set pins name row.id
    | _ => throw programmingError

/-- The newest row with some content and some pins. -/
def existingSnapshot (table : SkillTable) (skillName contentHash : String)
    (pins : Dict String String) : Option SkillSnapshot :=
  highestVersion ((table.history skillName).filter fun row =>
    row.contentHash = contentHash && Dict.same row.dependencySnapshotIds pins)

/-- `func.coalesce(func.max(SkillSnapshot.version_label), 0) + 1`. -/
def nextVersion (history : List SkillSnapshot) : ℤ :=
  (history.map (·.versionLabel)).max?.getD 0 + 1

/-- The end of `get_or_create_snapshot`: the new row is checked before it is stored. -/
def recordSnapshot (snapshot : SkillSnapshot) : EStateM PyError SkillTable SkillSnapshot := do
  EStateM.reading fun table => validateSnapshot lib table snapshot
  let executionHash ← EStateM.reading fun table =>
    computeExecutionHash lib.toSkillLibrary table snapshot
  insertSnapshot { snapshot with executionHash := some executionHash }

/-- The row of a new snapshot, before its execution hash is computed. -/
def newSnapshot (before : SkillTable) (isActive : Bool) (skillName contentHash : String)
    (files : SkillFiles) (pins : Dict String String) : SkillSnapshot where
  toSkillFiles := files
  id := session.newId before.rows.length
  skillName := skillName
  versionLabel := nextVersion (before.history skillName)
  contentHash := contentHash
  executionHash := none
  dependencySnapshotIds := pins
  createdAt := some session.now
  isActive := isActive

/-- The last part of `get_or_create_snapshot`, for what has not been seen before. -/
def createSnapshot (activate : Option Bool) (skillName contentHash : String) (files : SkillFiles)
    (pins : Dict String String) : EStateM PyError SkillTable SkillSnapshot := do
  let before ← get
  let shouldActivate := activate.getD (before.history skillName).isEmpty
  if shouldActivate then
    set (before.setActive fun row => row.isActive && row.skillName ≠ skillName)
  recordSnapshot lib
    (newSnapshot session before shouldActivate skillName contentHash files pins)

/-- `get_or_create_snapshot`, whose calls of itself nest at most as deep as there is fuel. -/
def getOrCreateSnapshot : ℕ → Option Bool → String → EStateM PyError SkillTable SkillSnapshot
  | 0, _, _ => throw (.custom (py "RecursionError") (py "maximum recursion depth exceeded"))
  | fuel + 1, activate, skillName => do
    let (hash, files, dependencies) ← EStateM.reading fun _ => readSkill lib session skillName
    let pins ← dependencies.foldlM (pinDependency lib (getOrCreateSnapshot fuel none)) []
    let table ← get
    match existingSnapshot table skillName hash pins with
    | some candidate => return candidate
    | none => createSnapshot lib session activate skillName hash files pins

/-! ## The active snapshot -/

/-- `resolve_active_snapshot`. -/
def resolveActiveSnapshot (skillName : String) : EStateM PyError SkillTable SkillSnapshot := do
  let _ ← getOrCreateSnapshot lib session session.recursionLimit none skillName
  let table ← get
  match findVersion table skillName none with
  | some active => return active
  | none => throw (.custom (py "NoActiveSkillSnapshot")
      (py (skillName ++ ": has snapshot history but no active snapshot")))

/-- `except SkillContractError as exc: raise ValueError(str(exc)) from exc`. -/
def asValueError : PyError → PyError
  | .custom name message =>
    if name = py "SkillContractError" then .valueError message else .custom name message
  | e => e

/-- `set_active_snapshot`. -/
def setActiveSnapshot (skillName : String) (versionLabel : ℤ) :
    EStateM PyError SkillTable SkillSnapshot := do
  let table ← get
  match findVersion table skillName (some versionLabel) with
  | none => throw (.custom (py "SkillVersionNotFound")
      (py (skillName ++ ": no snapshot with version_label=" ++ toString versionLabel)))
  | some target => do
    EStateM.reading fun table =>
      match validateSnapshot lib table target with
      | .ok () => pure ()
      | .error e => throw (asValueError e)
    set (table.setActive fun row =>
      row.isActive && !(row.skillName = skillName && row.id ≠ target.id))
    modify fun table => table.setActive fun row => row.isActive || row.id = target.id
    return { target with isActive := true }

/-! ## What each call changes -/

/-- A row without the pointer: its files, hashes and pins. -/
def SkillSnapshot.frozen (row : SkillSnapshot) : SkillSnapshot := { row with isActive := false }

/-- The rows without the pointer, in the order in which they were created. -/
def SkillTable.frozen (table : SkillTable) : List SkillSnapshot :=
  table.rows.map SkillSnapshot.frozen

/-- The versions of the first rows of a skill. -/
def versions (n : ℕ) : List ℤ := (List.range n).map fun i : ℕ => (i : ℤ) + 1

/-- One row of each skill is active, and the versions of its rows count up from 1. -/
structure Registered (table : SkillTable) : Prop where
  active : ∀ row ∈ table.rows, ∃! other, other ∈ table.rows ∧
    other.skillName = row.skillName ∧ other.isActive = true
  labels : ∀ skillName, (table.history skillName).map (·.versionLabel) =
    versions (table.history skillName).length

variable {lib session} {table table' : SkillTable}

lemma versions_succ (n : ℕ) : versions (n + 1) = versions n ++ [(n : ℤ) + 1] := by
  simp [versions, List.range_succ]

/-- The version after the first ones. -/
lemma nextVersion_eq {history : List SkillSnapshot}
    (h : history.map (·.versionLabel) = versions history.length) :
    nextVersion history = history.length + 1 := by
  rw [nextVersion, h]
  congr 1
  cases history.length with
  | zero => rfl
  | succ n =>
    have hmax : (versions (n + 1)).max? = some ((n : ℤ) + 1) := by
      refine List.max?_eq_some_iff.mpr ⟨?_, fun b hb => ?_⟩
      · rw [versions_succ]
        simp
      · obtain ⟨i, hi, rfl⟩ := List.mem_map.mp hb
        rw [List.mem_range] at hi
        omega
    rw [hmax]
    push_cast
    rfl

lemma setActive_frozen (isActive : SkillSnapshot → Bool) :
    (table.setActive isActive).frozen = table.frozen := by
  simp only [SkillTable.frozen, SkillTable.setActive, List.map_map]
  rfl

lemma setActive_history (isActive : SkillSnapshot → Bool) (skillName : String) :
    (table.setActive isActive).history skillName =
      (table.history skillName).map fun row => { row with isActive := isActive row } := by
  simp only [SkillTable.history, SkillTable.setActive, List.filter_map]
  rfl

@[simp] lemma setActive_length (isActive : SkillSnapshot → Bool) (skillName : String) :
    ((table.setActive isActive).history skillName).length = (table.history skillName).length := by
  rw [setActive_history, List.length_map]

@[simp] lemma setActive_labels (isActive : SkillSnapshot → Bool) (skillName : String) :
    ((table.setActive isActive).history skillName).map (·.versionLabel) =
      (table.history skillName).map (·.versionLabel) := by
  rw [setActive_history, List.map_map]
  rfl

lemma setActive_ids (isActive : SkillSnapshot → Bool) :
    (table.setActive isActive).rows.map (·.id) = table.rows.map (·.id) := by
  simp only [SkillTable.setActive, List.map_map]
  rfl

/-- The row with its execution hash. -/
def SkillSnapshot.withExecutionHash (row : SkillSnapshot) (hash : String) : SkillSnapshot :=
  { row with executionHash := some hash }

/-- What a new row changes. -/
lemma insertSnapshot_eq_ok {row result : SkillSnapshot}
    (h : insertSnapshot row table = .ok result table') :
    result = row ∧ row.id ∉ table.rows.map (·.id) ∧ table'.rows = table.rows ++ [row] := by
  obtain ⟨t, s, hget, h⟩ := EStateM.bind_eq_ok.mp h
  obtain ⟨rfl, rfl⟩ := EStateM.get_eq_ok.mp hget
  split at h
  · next hid =>
    obtain ⟨_, u, hset, h⟩ := EStateM.bind_eq_ok.mp h
    obtain ⟨rfl, rfl⟩ := EStateM.pure_eq_ok.mp h
    obtain rfl := EStateM.set_eq_ok.mp hset
    exact ⟨rfl, hid.1, rfl⟩
  · exact absurd h EStateM.throw_ne_ok

/-- What a new row that has been checked changes. -/
lemma recordSnapshot_eq_ok {row result : SkillSnapshot}
    (h : recordSnapshot lib row table = .ok result table') :
    ∃ hash, result = row.withExecutionHash hash ∧
      row.id ∉ table.rows.map (·.id) ∧ table'.rows = table.rows ++ [result] := by
  obtain ⟨_, t, hvalid, h⟩ := EStateM.bind_eq_ok.mp h
  obtain ⟨-, rfl⟩ := EStateM.reading_eq_ok.mp hvalid
  obtain ⟨hash, s, hhash, h⟩ := EStateM.bind_eq_ok.mp h
  obtain ⟨-, rfl⟩ := EStateM.reading_eq_ok.mp hhash
  obtain ⟨rfl, hid, hrows⟩ := insertSnapshot_eq_ok h
  exact ⟨hash, rfl, hid, hrows⟩

/-- **What a new snapshot changes**: the pointer of its skill, if the snapshot is activated, and a
row with the next version at the end. -/
lemma createSnapshot_eq_ok {activate : Option Bool} {skillName hash : String} {files : SkillFiles}
    {pins : Dict String String} {result : SkillSnapshot}
    (h : createSnapshot lib session activate skillName hash files pins table =
      .ok result table') :
    ∃ executionHash, result = (newSnapshot session table
        (activate.getD (table.history skillName).isEmpty) skillName hash files pins).withExecutionHash
          executionHash ∧
      result.id ∉ table.rows.map (·.id) ∧
      table'.rows = (table.setActive fun other =>
        other.isActive && !(result.isActive && other.skillName = skillName)).rows ++ [result] := by
  obtain ⟨before, s, hget, h⟩ := EStateM.bind_eq_ok.mp h
  obtain ⟨rfl, rfl⟩ := EStateM.get_eq_ok.mp hget
  dsimp only at h
  generalize activate.getD (table.history skillName).isEmpty = isActive at h ⊢
  cases isActive with
  | true =>
    obtain ⟨_, t, hset, h⟩ := EStateM.bind_eq_ok.mp h
    obtain rfl := EStateM.set_eq_ok.mp hset
    obtain ⟨executionHash, rfl, hid, hrows⟩ := recordSnapshot_eq_ok h
    rw [setActive_ids] at hid
    refine ⟨executionHash, rfl, hid, hrows.trans ?_⟩
    simp [newSnapshot, SkillSnapshot.withExecutionHash]
  | false =>
    obtain ⟨executionHash, rfl, hid, hrows⟩ := recordSnapshot_eq_ok h
    refine ⟨executionHash, rfl, hid, hrows.trans ?_⟩
    simp [newSnapshot, SkillSnapshot.withExecutionHash, SkillTable.setActive]

/-! ## Invariants -/

/-- What a call that succeeds does to the table: it keeps the invariant, and only adds rows. -/
def Kept (table table' : SkillTable) : Prop :=
  (Registered table → Registered table') ∧ table.frozen <+: table'.frozen

lemma Kept.refl (table : SkillTable) : Kept table table := ⟨id, List.prefix_refl _⟩

lemma Kept.trans {table table' table'' : SkillTable} (h : Kept table table')
    (h' : Kept table' table'') : Kept table table'' :=
  ⟨h'.1 ∘ h.1, h.2.trans h'.2⟩

/-- Rows of a skill are rows with its name. -/
lemma mem_history {row : SkillSnapshot} {skillName : String} :
    row ∈ table.history skillName ↔ row ∈ table.rows ∧ row.skillName = skillName := by
  simp [SkillTable.history]

/-- Where a new row is active, it is the only active one of its skill; otherwise the active row of
its skill stays. -/
lemma active_of_new {row : SkillSnapshot} (hregistered : Registered table)
    (hfirst : row.isActive = false → ∃ old ∈ table.rows, old.skillName = row.skillName)
    (hrows : table'.rows = (table.setActive fun other =>
      other.isActive && !(row.isActive && other.skillName = row.skillName)).rows ++ [row]) :
    ∀ other ∈ table'.rows, ∃! active, active ∈ table'.rows ∧
      active.skillName = other.skillName ∧ active.isActive = true := by
  intro other hother
  rw [hrows] at hother ⊢
  by_cases hnew : row.isActive = true ∧ row.skillName = other.skillName
  · refine ⟨row, ⟨by simp, hnew.2, hnew.1⟩, ?_⟩
    rintro active ⟨hmem, hname, hactive⟩
    rcases List.mem_append.mp hmem with hmem | hmem
    · obtain ⟨old, -, rfl⟩ := List.mem_map.mp hmem
      simp only [hnew.1, Bool.true_and, Bool.and_eq_true, Bool.not_eq_true',
        decide_eq_false_iff_not] at hactive
      exact absurd (hname.trans hnew.2.symm) hactive.2
    · exact List.mem_singleton.mp hmem
  · obtain ⟨old, hold, holdName⟩ :
        ∃ old ∈ table.rows, old.skillName = other.skillName := by
      rcases List.mem_append.mp hother with hother | hother
      · obtain ⟨old, hold, rfl⟩ := List.mem_map.mp hother
        exact ⟨old, hold, rfl⟩
      · obtain rfl := List.mem_singleton.mp hother
        apply hfirst
        simpa using hnew
    obtain ⟨active, ⟨hmem, hname, hactive⟩, hunique⟩ := hregistered.active old hold
    have hkept : ∀ r : SkillSnapshot, r.skillName = other.skillName →
        (row.isActive && decide (r.skillName = row.skillName)) = false := by
      intro r hr
      rw [Bool.eq_false_iff]
      intro htrue
      rw [Bool.and_eq_true, decide_eq_true_eq] at htrue
      exact hnew ⟨htrue.1, htrue.2.symm.trans hr⟩
    have hsame : { active with isActive := active.isActive &&
        !(row.isActive && decide (active.skillName = row.skillName)) } = active := by
      rw [hkept active (hname.trans holdName), Bool.not_false, Bool.and_true]
    refine ⟨active, ⟨List.mem_append_left _ ?_, hname.trans holdName, hactive⟩, ?_⟩
    · exact List.mem_map.mpr ⟨active, hmem, hsame⟩
    · rintro r ⟨hr, hrName, hrActive⟩
      rcases List.mem_append.mp hr with hr | hr
      · obtain ⟨r', hr', rfl⟩ := List.mem_map.mp hr
        have hr'Active : r'.isActive = true := (Bool.and_eq_true_iff.mp hrActive).1
        obtain rfl := hunique r' ⟨hr', hrName.trans holdName.symm, hr'Active⟩
        exact hsame
      · obtain rfl := List.mem_singleton.mp hr
        exact absurd ⟨hrActive, hrName⟩ hnew

/-- The new row has the version after those of its skill. -/
lemma labels_of_new {row : SkillSnapshot} {isActive : SkillSnapshot → Bool}
    (hlabels : ∀ skillName, (table.history skillName).map (·.versionLabel) =
      versions (table.history skillName).length)
    (hversion : row.versionLabel = nextVersion (table.history row.skillName))
    (hrows : table'.rows = (table.setActive isActive).rows ++ [row]) (skillName : String) :
    (table'.history skillName).map (·.versionLabel) =
      versions (table'.history skillName).length := by
  have hhistory : table'.history skillName = (table.setActive isActive).history skillName ++
      [row].filter fun row => row.skillName = skillName := by
    rw [SkillTable.history, hrows, List.filter_append]
    rfl
  rw [hhistory, List.map_append, setActive_labels, hlabels, List.length_append, setActive_length]
  by_cases hname : row.skillName = skillName
  · subst hname
    have hnext := nextVersion_eq (hlabels row.skillName)
    simp [versions_succ, hversion, hnext]
  · simp [hname]

/-- A new snapshot of a skill, which is activated where the skill has none yet, keeps the
invariant. -/
lemma createSnapshot_kept {activate : Option Bool} (hactivate : activate ≠ some false)
    {skillName hash : String} {files : SkillFiles} {pins : Dict String String}
    {result : SkillSnapshot}
    (h : createSnapshot lib session activate skillName hash files pins table =
      .ok result table') : Kept table table' := by
  obtain ⟨executionHash, rfl, -, hrows⟩ := createSnapshot_eq_ok h
  have hfrozen : table.frozen <+: table'.frozen := by
    rw [← setActive_frozen, SkillTable.frozen, SkillTable.frozen, hrows, List.map_append]
    exact List.prefix_append _ _
  have hfirst : activate.getD (table.history skillName).isEmpty = false →
      ∃ old ∈ table.rows, old.skillName = skillName := by
    intro hnot
    cases activate with
    | none =>
      obtain ⟨old, hold⟩ := List.exists_mem_of_ne_nil (table.history skillName)
        (by simpa using hnot)
      exact ⟨old, mem_history.mp hold⟩
    | some b => cases b <;> simp_all
  exact ⟨fun hregistered => ⟨active_of_new hregistered hfirst hrows,
    labels_of_new hregistered.labels rfl hrows⟩, hfrozen⟩

/-- What a dependency is recorded for on the way is all that its pinning does. -/
lemma pinDependency_rel {R : SkillTable → SkillTable → Prop} (hrefl : ∀ t, R t t)
    {record : String → EStateM PyError SkillTable SkillSnapshot}
    (hrecord : ∀ name table result table', record name table = .ok result table' → R table table')
    {pins pins' : Dict String String} {dependency : Yaml}
    (h : pinDependency lib record pins dependency table = .ok pins' table') : R table table' := by
  obtain ⟨name, t, hname, h⟩ := EStateM.bind_eq_ok.mp h
  obtain ⟨-, rfl⟩ := EStateM.reading_eq_ok.mp hname
  split at h
  · obtain ⟨-, rfl⟩ := EStateM.pure_eq_ok.mp h
    exact hrefl _
  · obtain ⟨version, t, hversion, h⟩ := EStateM.bind_eq_ok.mp h
    obtain ⟨-, rfl⟩ := EStateM.reading_eq_ok.mp hversion
    cases name with
    | str text =>
      obtain ⟨_, t, hget, h⟩ := EStateM.bind_eq_ok.mp h
      obtain ⟨rfl, rfl⟩ := EStateM.get_eq_ok.mp hget
      cases hfound : findVersion table text version with
      | some row =>
        rw [hfound] at h
        obtain ⟨-, rfl⟩ := EStateM.pure_eq_ok.mp h
        exact hrefl _
      | none =>
        rw [hfound] at h
        obtain ⟨row, t, hrow, h⟩ := EStateM.bind_eq_ok.mp h
        obtain ⟨-, rfl⟩ := EStateM.pure_eq_ok.mp h
        exact hrecord text _ row _ hrow
    | null | bool | int | float | bytes | other | seq | map =>
      exact absurd h EStateM.throw_ne_ok

/-- **The rule of `get_or_create_snapshot`.** A relation between tables that the end of a call
respects, where the call creates a row, holds before and after a call that succeeds, whatever is on
disk and however deep it calls itself. -/
lemma getOrCreateSnapshot_rel {R : SkillTable → SkillTable → Prop} (hrefl : ∀ t, R t t)
    (htrans : ∀ s t u, R s t → R t u → R s u) {p : Option Bool → Prop} (hnone : p none)
    (hcreate : ∀ activate skillName hash files dependencies pins t result t', p activate →
      readSkill lib session skillName = .ok (hash, files, dependencies) →
      createSnapshot lib session activate skillName hash files pins t = .ok result t' → R t t')
    {fuel : ℕ} {activate : Option Bool} (hactivate : p activate) {skillName : String}
    {result : SkillSnapshot}
    (h : getOrCreateSnapshot lib session fuel activate skillName table = .ok result table') :
    R table table' := by
  induction fuel generalizing activate skillName table result table' with
  | zero => exact absurd h EStateM.throw_ne_ok
  | succ fuel ih =>
    obtain ⟨⟨hash, files, dependencies⟩, t, hread, h⟩ := EStateM.bind_eq_ok.mp h
    obtain ⟨hskill, rfl⟩ := EStateM.reading_eq_ok.mp hread
    obtain ⟨pins, t, hpins, h⟩ := EStateM.bind_eq_ok.mp h
    have hbelow : R table t :=
      EStateM.foldlM_rel hrefl htrans (fun _ _ _ _ _ hpin =>
        pinDependency_rel hrefl (fun name _ _ _ hrecord => ih hnone hrecord) hpin) hpins
    refine htrans _ _ _ hbelow ?_
    obtain ⟨_, s, hget, h⟩ := EStateM.bind_eq_ok.mp h
    obtain ⟨rfl, rfl⟩ := EStateM.get_eq_ok.mp hget
    cases hfound : existingSnapshot t skillName hash pins with
    | some candidate =>
      rw [hfound] at h
      obtain ⟨-, rfl⟩ := EStateM.pure_eq_ok.mp h
      exact hrefl _
    | none =>
      rw [hfound] at h
      exact hcreate activate skillName hash files dependencies pins t result _ hactivate hskill h

/-- What `get_or_create_snapshot` keeps. -/
lemma getOrCreateSnapshot_kept {fuel : ℕ} {activate : Option Bool}
    (hactivate : activate ≠ some false) {skillName : String} {result : SkillSnapshot}
    (h : getOrCreateSnapshot lib session fuel activate skillName table = .ok result table') :
    Kept table table' :=
  getOrCreateSnapshot_rel Kept.refl (fun _ _ _ => Kept.trans)
    (p := fun activate => activate ≠ some false) (by simp)
    (fun _ _ _ _ _ _ _ _ _ hactivate _ hcreate => createSnapshot_kept hactivate hcreate) hactivate h

lemma resolveActiveSnapshot_kept {skillName : String} {result : SkillSnapshot}
    (h : resolveActiveSnapshot lib session skillName table = .ok result table') :
    Kept table table' := by
  obtain ⟨row, t, hrow, h⟩ := EStateM.bind_eq_ok.mp h
  obtain ⟨_, s, hget, h⟩ := EStateM.bind_eq_ok.mp h
  obtain ⟨rfl, rfl⟩ := EStateM.get_eq_ok.mp hget
  cases hfound : findVersion t skillName none with
  | some active =>
    rw [hfound] at h
    obtain ⟨-, rfl⟩ := EStateM.pure_eq_ok.mp h
    exact getOrCreateSnapshot_kept (by simp) hrow
  | none =>
    rw [hfound] at h
    exact absurd h EStateM.throw_ne_ok

/-- What a rollback changes: the pointer of its skill. -/
lemma setActiveSnapshot_eq_ok {skillName : String} {versionLabel : ℤ} {result : SkillSnapshot}
    (h : setActiveSnapshot lib skillName versionLabel table = .ok result table') :
    ∃ target ∈ table.rows, target.skillName = skillName ∧ target.versionLabel = versionLabel ∧
      table' = (table.setActive fun row =>
        row.isActive && !(row.skillName = skillName && row.id ≠ target.id)).setActive
          fun row => row.isActive || row.id = target.id := by
  obtain ⟨_, t, hget, h⟩ := EStateM.bind_eq_ok.mp h
  obtain ⟨rfl, rfl⟩ := EStateM.get_eq_ok.mp hget
  cases hfound : findVersion table skillName (some versionLabel) with
  | none =>
    rw [hfound] at h
    exact absurd h EStateM.throw_ne_ok
  | some target =>
    rw [hfound] at h
    obtain ⟨_, t, hvalid, h⟩ := EStateM.bind_eq_ok.mp h
    obtain ⟨-, rfl⟩ := EStateM.reading_eq_ok.mp hvalid
    obtain ⟨_, t, hset, h⟩ := EStateM.bind_eq_ok.mp h
    obtain rfl := EStateM.set_eq_ok.mp hset
    obtain ⟨_, t, hmodify, h⟩ := EStateM.bind_eq_ok.mp h
    obtain ⟨-, rfl⟩ := EStateM.pure_eq_ok.mp h
    obtain rfl := EStateM.modify_eq_ok.mp hmodify
    have hname := List.find?_some hfound
    rw [Bool.and_eq_true, decide_eq_true_eq, decide_eq_true_eq] at hname
    exact ⟨target, List.mem_of_find?_eq_some hfound, hname.1, hname.2, rfl⟩

/-- A rollback keeps the invariant. -/
lemma setActiveSnapshot_kept {skillName : String} {versionLabel : ℤ} {result : SkillSnapshot}
    (h : setActiveSnapshot lib skillName versionLabel table = .ok result table') :
    Kept table table' := by
  obtain ⟨target, htarget, rfl, -, rfl⟩ := setActiveSnapshot_eq_ok h
  refine ⟨fun hregistered => ⟨fun row hrow => ?_, fun skillName => ?_⟩, ?_⟩
  · -- a row is active afterwards if it is the target, or if it was and is of another skill
    have hmem : ∀ {r}, r ∈ ((table.setActive fun row =>
        row.isActive && !(row.skillName = target.skillName && row.id ≠ target.id)).setActive
          fun row => row.isActive || row.id = target.id).rows ↔
        ∃ old ∈ table.rows, r = { old with isActive :=
          old.isActive && !(old.skillName = target.skillName && old.id ≠ target.id) ||
            old.id = target.id } := by
      intro r
      simp [SkillTable.setActive, eq_comm]
    obtain ⟨old, hold, rfl⟩ := hmem.mp hrow
    by_cases hname : old.skillName = target.skillName
    · refine ⟨{ target with isActive := true }, ⟨hmem.mpr ⟨target, htarget, by simp⟩,
        hname.symm, rfl⟩, ?_⟩
      rintro r ⟨hr, hrName, hrActive⟩
      obtain ⟨r', hr', rfl⟩ := hmem.mp hr
      have hsame : r'.skillName = target.skillName := hrName.trans hname
      have hid : r'.id = target.id := by
        by_contra hne
        simp [hsame, hne] at hrActive
      obtain rfl := table.eq_of_id hr' htarget hid
      simp
    · obtain ⟨active, ⟨hactive, hactiveName, hisActive⟩, hunique⟩ :=
        hregistered.active old hold
      have hother : ∀ r : SkillSnapshot, r ∈ table.rows → r.skillName = old.skillName →
          (r.isActive && !(decide (r.skillName = target.skillName) && decide (r.id ≠ target.id)) ||
            decide (r.id = target.id)) = r.isActive := by
        intro r hr hrName
        have hne : r.skillName ≠ target.skillName := hrName ▸ hname
        have hid : r.id ≠ target.id := fun heq =>
          hne (congrArg SkillSnapshot.skillName (table.eq_of_id hr htarget heq))
        simp [hne, hid]
      refine ⟨active, ⟨hmem.mpr ⟨active, hactive, ?_⟩, hactiveName, hisActive⟩, ?_⟩
      · rw [hother active hactive hactiveName]
      · rintro r ⟨hr, hrName, hrActive⟩
        obtain ⟨r', hr', rfl⟩ := hmem.mp hr
        have hsame := hother r' hr' hrName
        rw [hsame]
        exact hunique r' ⟨hr', hrName, hsame ▸ hrActive⟩
  · simpa only [setActive_labels, setActive_length] using hregistered.labels skillName
  · simp only [setActive_frozen, List.prefix_rfl]

/-! ## Runs -/

/-- A call of the API. -/
inductive Call where
  /-- `get_or_create_snapshot` with `activate=True`, or without the argument -/
  | getOrCreate (session : Session) (activate : Bool) (skillName : String)
  /-- `resolve_active_snapshot` -/
  | resolveActive (session : Session) (skillName : String)
  /-- `set_active_snapshot` -/
  | setActive (skillName : String) (versionLabel : ℤ)

/-- What a call does. -/
def Call.perform (lib : ContractLibrary) : Call → EStateM PyError SkillTable SkillSnapshot
  | .getOrCreate session activate skillName =>
    getOrCreateSnapshot lib session session.recursionLimit (if activate then some true else none)
      skillName
  | .resolveActive session skillName => resolveActiveSnapshot lib session skillName
  | .setActive skillName versionLabel => setActiveSnapshot lib skillName versionLabel

/-- The table after a call, if that succeeds. -/
def callStep (lib : ContractLibrary) (table : SkillTable) (call : Call) : Option SkillTable :=
  match call.perform lib table with
  | .ok _ table' => some table'
  | .error _ _ => none

/-- What a call that succeeds keeps. -/
lemma callStep_kept {call : Call} (h : callStep lib table call = some table') :
    Kept table table' := by
  unfold callStep at h
  split at h
  · next result t hperform =>
    cases h
    cases call with
    | getOrCreate session activate skillName =>
      exact getOrCreateSnapshot_kept (by cases activate <;> simp) hperform
    | resolveActive session skillName => exact resolveActiveSnapshot_kept hperform
    | setActive skillName versionLabel => exact setActiveSnapshot_kept hperform
  · cases h

/-- What a run of calls that succeed keeps. -/
lemma run_kept {calls : List Call} (h : Transition.run (callStep lib) table calls = some table') :
    Kept table table' := by
  induction calls generalizing table with
  | nil =>
    cases h
    exact .refl _
  | cons call calls ih =>
    rw [Transition.run_cons] at h
    obtain ⟨t, hcall, h⟩ := Option.bind_eq_some_iff.mp h
    exact (callStep_kept hcall).trans (ih h)

lemma registered_empty : Registered .empty := ⟨by simp [SkillTable.empty], fun _ => rfl⟩

/-- **The registry.** After every sequence of calls that succeed, whatever is on disk at each, each
skill that has a row has exactly one active row, and the versions of its rows are 1, 2, … in the
order of their creation; and whatever sequence of calls follows, no row is lost or changed in
anything but the pointer. -/
theorem registry_run (lib : ContractLibrary) (calls more : List Call)
    (hcalls : Transition.run (callStep lib) .empty calls = some table)
    (hmore : Transition.run (callStep lib) table more = some table') :
    (∀ row ∈ table.rows, ∃! active, active ∈ table.rows ∧
        active.skillName = row.skillName ∧ active.isActive = true) ∧
      (∀ skillName, (table.history skillName).map (·.versionLabel) =
        (List.range (table.history skillName).length).map fun i : ℕ => (i : ℤ) + 1) ∧
      table.frozen <+: table'.frozen := by
  obtain ⟨hactive, hlabels⟩ := (run_kept hcalls).1 registered_empty
  exact ⟨hactive, hlabels, (run_kept hmore).2⟩

/-! ## A sample -/

/-- The skill that writes reports, after an edit. -/
def revisedFiles : SkillFiles := ⟨"# Report, again\n", "{}", "id: report\ndependencies: [triage]\n"⟩

/-- The digests of the texts that the edit adds. -/
def revisedDigests : Dict (List UInt8) String := [
  (framedFiles revisedFiles, "6040713d082b5ddaf9313d37f3172ebe5f9cb35686f4ffc1336e62b207f8e518"),
  (encodeUtf8 ("\x7b\"content_hash\":\"" ++
      "6040713d082b5ddaf9313d37f3172ebe5f9cb35686f4ffc1336e62b207f8e518" ++
      "\",\"dependencies\":[\x7b\"content_hash\":\"" ++
      "50da8b9915255272b3e0b46677161ceac971d433bb378a0f41aacd83e223bec5\",\"execution_hash\":\"" ++
      "868e1d65a08f810bd21a133300cf8192726a9f90228c041347b2a3e9e47ede2e\",\"id\":\"triage\"\x7d]\x7d"),
    "a56f244e6d0d0f117f5b9400fae8ff48cf011b069a3c4ab3d4c2cff419a11420")]

/-- Libraries that answer as the real ones do on the sample and the edit. -/
def revisedContract : ContractLibrary :=
  { sampleContract with
    sha256Hex := fun text => (Dict.get? revisedDigests text).getD (sampleSha256 text) }

/-- A session in which the skill that writes reports has some files. -/
def sampleSession (reportOnDisk : SkillFiles) : Session where
  skillsDir := "/app/skills"
  readBytes := fun skillName filename =>
    (Dict.get? [("triage", triageFiles), ("report", reportOnDisk)] skillName).bind fun files =>
      (Dict.get? [("SKILL.md", files.skillMd), ("output.schema.json", files.outputSchemaJson),
        ("skill.yaml", files.manifestYaml)] filename).map encodeUtf8
  newId := fun n => "00000000-0000-4000-8000-00000000000" ++ toString n
  now := 0
  recursionLimit := 100

/-- The skill is registered with what it depends on, edited, and resolved; then the edit is
activated. -/
def sampleCalls : List Call := [
  .getOrCreate (sampleSession reportFiles) false "report",
  .resolveActive (sampleSession revisedFiles) "report",
  .setActive "report" 2]

/-- `registry_run` at the sample, before and after a rollback. -/
theorem sampleCalls_run :
    ∃ table table', Transition.run (callStep revisedContract) .empty sampleCalls = some table ∧
      Transition.run (callStep revisedContract) table [.setActive "report" 1] = some table' ∧
      (table.history "report").map (fun row => (row.versionLabel, row.isActive)) =
        [(1, false), (2, true)] ∧
      (table'.history "report").map (fun row => (row.versionLabel, row.isActive)) =
        [(1, true), (2, false)] ∧
      table.frozen <+: table'.frozen := by
  have hrun : (Transition.run (callStep revisedContract) .empty sampleCalls).map (fun table =>
        (table.history "report").map fun row => (row.versionLabel, row.isActive)) =
      some [(1, false), (2, true)] := by decide +kernel
  have hrun' : (Transition.run (callStep revisedContract) .empty
        (sampleCalls ++ [.setActive "report" 1])).map (fun table =>
          (table.history "report").map fun row => (row.versionLabel, row.isActive)) =
      some [(1, true), (2, false)] := by decide +kernel
  obtain ⟨table, htable, hpointers⟩ := Option.map_eq_some_iff.mp hrun
  obtain ⟨table', htable', hpointers'⟩ := Option.map_eq_some_iff.mp hrun'
  rw [Transition.run_append, htable, Option.bind_some] at htable'
  exact ⟨table, table', htable, htable', hpointers, hpointers',
    (registry_run revisedContract sampleCalls _ htable htable').2.2⟩

end Skills
