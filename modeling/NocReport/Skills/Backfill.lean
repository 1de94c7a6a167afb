import Mathlib.Data.List.Induction
import NocReport.Skills.ExecutionHash

set_option relaxedAutoImplicit false
set_option autoImplicit false

/-!
# The migration that introduced execution hashes

When the column for the execution hash was added, a migration computed it for the rows there
were, and copied it to what refers to them. It has an implementation of its own, in which the
entry of a dependency has no content hash.

## Main definitions

* `Skills.backfillHash` — the hash of the migration.
* `Skills.upgrade` — the migration of the rows and of the references to them.
* `Skills.SkillTable.stamp` — a table with other execution hashes.

## Main results

* `Skills.hashWalk_stamp` — an execution hash does not depend on the column it is stored in.
* `Skills.backfillHash_eq_iff` — the migration agrees with the bridge on skills without
  dependencies only.
* `Skills.upgrade_agrees_iff` — the rows on which the migration agrees with the bridge and the API.
-/

namespace Skills

variable (lib : SkillLibrary) (table : SkillTable)

/-! ## The migration -/

/-- The row that the migration resolves a dependency to. -/
def backfillChild (row : SkillSnapshot) (dependency : Yaml) (name : String) :
    Except PyError (Option SkillSnapshot) :=
  match ((Dict.get? row.dependencySnapshotIds name).filter (· ≠ "")).bind table.get with
  | some child => pure (some child)
  | none => do
    let candidates ← (table.rows.filter fun candidate => candidate.skillName = name).filterM
      fun candidate =>
        if (declaredVersion dependency).isNull then pure true
        else do
          let version ← lib.int (declaredVersion dependency)
          return candidate.versionLabel = version
    return highestVersion candidates

/-- The text under the hash of a dependency that nothing resolves to. -/
def unresolvedText (name : String) : String :=
  String.ofList ("\x7b\"id\": ".toList ++ JsonText.quote name ++
    ", \"unresolved\": true\x7d".toList)

/-- The implementation of the migration. What it makes of a dependency whose name is no text,
which nothing resolves to, is not embedded. -/
def backfillHashing : Hashing (String × String) where
  cyclic name := .custom (py "RuntimeError") (py ("cyclic skill dependency: " ++ name))
  dependencies row := dependenciesOrEmpty lib row
  component row dependency hash := do
    match ← dependencyName dependency with
    | .str name => do
      match ← backfillChild lib table row dependency name with
      | some child => do
        let childHash ← hash child
        return (name, childHash)
      | none => return (name, lib.sha256Hex (encodeUtf8 (unresolvedText name)))
    | _ => throw .typeError
  objects components := (components.insertionSort fun a b => a.1 ≤ b.1).map fun c =>
    .obj [("id", .str c.1), ("execution_hash", .str c.2)]

/-- `_execution_hash` of the migration. -/
def backfillHash (row : SkillSnapshot) : Except PyError String :=
  hashWalk lib (backfillHashing lib table) table.depth [] row

/-- A row with another execution hash. -/
def SkillSnapshot.stamp (f : SkillSnapshot → Option String) (row : SkillSnapshot) :
    SkillSnapshot :=
  { row with executionHash := f row }

/-- The table with other execution hashes. -/
def SkillTable.stamp (f : SkillSnapshot → Option String) : SkillTable where
  rows := table.rows.map (SkillSnapshot.stamp f)
  nodup := by
    rw [List.map_map]
    exact table.nodup
  ids_ne := by
    intro row hrow
    obtain ⟨row, hmem, rfl⟩ := List.mem_map.mp hrow
    exact table.ids_ne row hmem

/-- A row of another table that refers to a snapshot. -/
structure Reference where
  skillSnapshotId : Option String
  skillExecutionHash : Option String
  deriving DecidableEq, Repr

/-- `UPDATE ... SET skill_execution_hash = s.execution_hash FROM skill_snapshots s`. -/
def Reference.copyHash (r : Reference) : Reference :=
  match r.skillSnapshotId.bind table.get with
  | some row => { r with skillExecutionHash := row.executionHash }
  | none => r

/-- The tables that the migration changes. -/
structure Database where
  snapshots : SkillTable
  jobs : List Reference
  analysisRuns : List Reference
  reportSnapshots : List Reference
  reports : List Reference

/-- The references of all tables. -/
def Database.references (db : Database) : List Reference :=
  db.jobs ++ db.analysisRuns ++ db.reportSnapshots ++ db.reports

/-- `upgrade`, online. -/
def upgrade (db : Database) : Except PyError Database := do
  let _ ← db.snapshots.rows.mapM (backfillHash lib db.snapshots)
  let snapshots := db.snapshots.stamp fun row => (backfillHash lib db.snapshots row).toOption
  return {
    snapshots
    jobs := db.jobs.map (Reference.copyHash snapshots)
    analysisRuns := db.analysisRuns.map (Reference.copyHash snapshots)
    reportSnapshots := db.reportSnapshots.map (Reference.copyHash snapshots)
    reports := db.reports.map (Reference.copyHash snapshots) }

variable {lib table}

/-! ## The column of the hash -/

section Stamp

variable {f : SkillSnapshot → Option String}

@[simp] lemma SkillTable.depth_stamp : (table.stamp f).depth = table.depth := by
  simp [SkillTable.depth, SkillTable.stamp]

lemma SkillTable.get_stamp (id : String) :
    (table.stamp f).get id = (table.get id).map (SkillSnapshot.stamp f) := by
  rw [SkillTable.get, SkillTable.stamp, List.find?_map]
  rfl

lemma SkillTable.named_stamp (name : Yaml) :
    (table.stamp f).named name = (table.named name).map (List.map (SkillSnapshot.stamp f)) := by
  unfold SkillTable.named SkillTable.stamp
  split
  · rw [List.filter_map]
    rfl
  · rfl
  · rfl

lemma highestVersion_stamp (rows : List SkillSnapshot) :
    highestVersion (rows.map (SkillSnapshot.stamp f)) =
      (highestVersion rows).map (SkillSnapshot.stamp f) := by
  unfold highestVersion
  induction rows using List.reverseRecOn with
  | nil => rfl
  | append_singleton rows row ih =>
    rw [List.map_append, List.map_singleton, List.argmax_concat, List.argmax_concat, ih]
    cases List.argmax SkillSnapshot.versionLabel rows with
    | none => rfl
    | some best =>
      dsimp only [Option.map_some]
      have hlabel : ∀ r : SkillSnapshot, (r.stamp f).versionLabel = r.versionLabel := fun _ => rfl
      rw [hlabel, hlabel]
      split <;> rfl

lemma highestVersion_filter_stamp (rows : List SkillSnapshot) (version : ℤ) :
    highestVersion ((rows.map (SkillSnapshot.stamp f)).filter
        fun row => row.versionLabel = version) =
      (highestVersion (rows.filter fun row => row.versionLabel = version)).map
        (SkillSnapshot.stamp f) := by
  rw [List.filter_map, highestVersion_stamp]
  rfl

lemma fetchDependencySnapshot_stamp (dependency : Yaml) :
    fetchDependencySnapshot lib (table.stamp f) dependency =
      (fetchDependencySnapshot lib table dependency).map (Option.map (SkillSnapshot.stamp f)) := by
  unfold fetchDependencySnapshot
  cases dependencyName dependency with
  | error e => rfl
  | ok name =>
    simp only [bind, Except.bind, SkillTable.named_stamp]
    split
    · cases table.named name with
      | error e => rfl
      | ok rows => exact congrArg Except.ok (highestVersion_stamp rows)
    · cases lib.int (declaredVersion dependency) with
      | error e => rfl
      | ok version =>
        cases table.named name with
        | error e => rfl
        | ok rows => exact congrArg Except.ok (highestVersion_filter_stamp rows version)

lemma fetchChild_stamp (row : SkillSnapshot) (dependency name : Yaml) :
    fetchChild lib (table.stamp f) (row.stamp f) dependency name =
      (fetchChild lib table row dependency name).map (Option.map (SkillSnapshot.stamp f)) := by
  have hpinned : pinnedId (row.stamp f) name = pinnedId row name := rfl
  unfold fetchChild
  rw [hpinned]
  cases pinnedId row name with
  | error e => rfl
  | ok pinned =>
    cases pinned with
    | none => exact fetchDependencySnapshot_stamp dependency
    | some id => exact congrArg Except.ok (SkillTable.get_stamp id)

lemma hashChild_stamp (row : SkillSnapshot) (dependency : Yaml) :
    hashChild lib (table.stamp f) (row.stamp f) dependency =
      (hashChild lib table row dependency).map (SkillSnapshot.stamp f) := by
  unfold hashChild
  cases dependencyName dependency with
  | error e => rfl
  | ok name =>
    simp only [bind, Except.bind, fetchChild_stamp]
    cases fetchChild lib table row dependency name with
    | error e => rfl
    | ok found =>
      cases found with
      | none => rfl
      | some child =>
        show (if name.isText child.skillName = true then _ else _) = _
        split
        · next htext => simp only [Except.map, htext, if_true]; rfl
        · next htext => simp only [Except.map, htext]; rfl

/-- **An execution hash does not depend on the column it is stored in.** -/
lemma hashWalk_stamp {γ : Type} (impl impl' : Hashing γ) (hcyclic : impl'.cyclic = impl.cyclic)
    (hobjects : impl'.objects = impl.objects)
    (hdependencies : ∀ row, impl'.dependencies (row.stamp f) = impl.dependencies row)
    (hcomponent : ∀ row dependency hash hash', (∀ c, hash' (SkillSnapshot.stamp f c) = hash c) →
      impl'.component (row.stamp f) dependency hash' = impl.component row dependency hash)
    (fuel : ℕ) (active : List String) (row : SkillSnapshot) :
    hashWalk lib impl' fuel active (row.stamp f) = hashWalk lib impl fuel active row := by
  induction fuel generalizing active row with
  | zero => rfl
  | succ fuel ih =>
    have hbelow : ∀ dependency, impl'.component (row.stamp f) dependency
        (hashWalk lib impl' fuel (row.skillName :: active)) = impl.component row dependency
          (hashWalk lib impl fuel (row.skillName :: active)) :=
      fun dependency => hcomponent row dependency _ _ fun c => ih _ c
    have hname : (row.stamp f).skillName = row.skillName := rfl
    have hcontent : (row.stamp f).contentHash = row.contentHash := rfl
    rw [hashWalk, hashWalk, hname, hcyclic, hobjects, hdependencies, hcontent]
    simp only [hbelow]

lemma executionHash_stamp (row : SkillSnapshot) :
    executionHash lib (table.stamp f) (row.stamp f) = executionHash lib table row := by
  unfold executionHash
  rw [SkillTable.depth_stamp]
  refine hashWalk_stamp (f := f) (bridgeHashing lib table) (bridgeHashing lib (table.stamp f)) rfl
    rfl (fun _ => rfl) (fun row dependency hash hash' hbelow => ?_) _ _ _
  show hashChild lib (table.stamp f) (row.stamp f) dependency >>= _ =
    hashChild lib table row dependency >>= _
  rw [hashChild_stamp]
  cases hashChild lib table row dependency with
  | error e => rfl
  | ok child =>
    show (hash' (child.stamp f) >>= _) = (hash child >>= _)
    rw [hbelow]
    rfl

end Stamp

/-! ## What the migration resolves -/

lemma filterM_pure {α : Type} (p : α → Bool) (xs : List α) :
    xs.filterM (fun x => (pure (p x) : Except PyError Bool)) = .ok (xs.filter p) := by
  have hloop : ∀ acc : List α, xs.filterAuxM (fun x => (pure (p x) : Except PyError Bool)) acc =
      .ok ((xs.filter p).reverse ++ acc) := by
    induction xs with
    | nil => exact fun acc => rfl
    | cons x xs ih =>
      intro acc
      rw [List.filterAuxM, pure_bind, ih]
      cases hp : p x <;> simp [hp]
  rw [List.filterM, hloop]
  show Except.ok _ = _
  simp

/-- Where the bridge resolves a dependency the migration resolves it to the same row. -/
lemma backfillChild_of_hashChild {row child : SkillSnapshot} {dependency : Yaml}
    (h : hashChild lib table row dependency = .ok child) :
    dependencyName dependency = .ok (.str child.skillName) ∧
      backfillChild lib table row dependency child.skillName = .ok (some child) := by
  obtain ⟨-, name, hname, htext, hfound⟩ := hashChild_mem h
  cases name with
  | str name =>
    have heq : name = child.skillName := by simpa [Yaml.isText] using htext
    subst heq
    refine ⟨hname, ?_⟩
    obtain ⟨pinned, hpinned, hfound⟩ := Except.bind_eq_ok.mp hfound
    rw [pinnedId, Except.pure_eq_ok] at hpinned
    unfold backfillChild
    rw [hpinned]
    cases pinned with
    | some id =>
      rw [Except.pure_eq_ok] at hfound
      rw [Option.bind_some, hfound]
      rfl
    | none =>
      rw [Option.bind_none]
      unfold fetchDependencySnapshot at hfound
      rw [hname] at hfound
      obtain ⟨name', hname', hfound⟩ := Except.bind_eq_ok.mp hfound
      cases hname'
      dsimp only at hfound ⊢
      by_cases hnull : (declaredVersion dependency).isNull = true
      · simp only [hnull, if_true] at hfound ⊢
        rw [filterM_pure]
        obtain ⟨rows, hrows, hfound⟩ := Except.bind_eq_ok.mp hfound
        cases hrows
        rw [Except.pure_eq_ok] at hfound
        simpa using hfound
      · simp only [hnull] at hfound ⊢
        obtain ⟨version, hversion, hfound⟩ := Except.bind_eq_ok.mp hfound
        obtain ⟨rows, hrows, hfound⟩ := Except.bind_eq_ok.mp hfound
        cases hrows
        rw [hversion]
        simp only [Except.bind_eq_ok]
        refine ⟨_, filterM_pure _ _, hfound⟩
  | null | bool | int | float | bytes | other | seq | map => cases htext

/-- The migration computes a hash where every dependency resolves and no skill depends on
itself. -/
lemma backfillHash_ok_of_sound {row : SkillSnapshot} (hrow : row ∈ table.rows)
    (hsound : DependencyGraph.Sound SkillSnapshot.skillName (hashChildren lib table) [] row) :
    ∃ hash, backfillHash lib table row = .ok hash := by
  refine hashWalk_ok_of_sound (hashChildren lib table) (fun _ _ => hashChildren_mem) ?_ hrow hsound
    ?_
  · intro row cs hcs
    obtain ⟨dependencies, hdependencies, hall⟩ := hashChildren_eq_some.mp hcs
    refine ⟨dependencies, hdependencies, fun dependency hdependency hash hhash => ?_⟩
    obtain ⟨c, hc, hchild⟩ := Except.exists_of_mapM_eq_ok (Except.mapM_eq_ok.mpr hall) hdependency
    obtain ⟨h, hh⟩ := hhash c hc
    obtain ⟨hname, hfound⟩ := backfillChild_of_hashChild hchild
    refine ⟨(c.skillName, h), ?_⟩
    refine Except.bind_eq_ok.mpr ⟨_, hname, Except.bind_eq_ok.mpr ⟨_, hfound, ?_⟩⟩
    exact Except.bind_eq_ok.mpr ⟨h, hh, rfl⟩
  · rw [DependencyGraph.remaining_nil, SkillTable.names, List.length_map, SkillTable.depth]
    omega

/-! ## Where the migration agrees -/

/-- The hash of a row without dependencies covers its content hash only. -/
lemma hashWalk_of_no_dependencies (lib : SkillLibrary) (table : SkillTable) {γ : Type}
    {impl : Hashing γ} {row : SkillSnapshot} (h : impl.dependencies row = .ok []) :
    hashWalk lib impl table.depth [] row =
      .ok (payloadHash lib row.contentHash (impl.objects [])) := by
  rw [SkillTable.depth, hashWalk, if_neg List.not_mem_nil, h]
  rfl

/-- **The migration agrees with the bridge on skills without dependencies only**: in the entry of
a dependency it leaves out the content hash. -/
lemma backfillHash_eq_iff (hsha : Function.Injective lib.sha256Hex) {row : SkillSnapshot}
    {hash hash' : String} (h : executionHash lib table row = .ok hash)
    (h' : backfillHash lib table row = .ok hash') :
    hash = hash' ↔ dependenciesOrEmpty lib row = .ok [] := by
  constructor
  · rintro rfl
    obtain ⟨-, _, dependencies, components, -, hdependencies, hall, hhash⟩ := hashWalk_eq_ok h
    obtain ⟨-, _, dependencies', components', -, -, -, hhash'⟩ := hashWalk_eq_ok h'
    have hobjects := (payload_dumps_inj (hsha (hhash.symm.trans hhash'))).2
    have hnone : components = [] := by
      by_contra hne
      obtain ⟨c, hc⟩ := List.exists_mem_of_ne_nil _ hne
      -- an entry of the bridge has three fields, one of the migration two
      have hmem : c.toJson.sorted ∈ ((sortComponents components).map Component.toJson).map
          JsonText.sorted :=
        List.mem_map_of_mem (List.mem_map_of_mem ((List.perm_insertionSort _ _).mem_iff.mpr hc))
      change _ = ((components'.insertionSort fun a b => a.1 ≤ b.1).map fun c : String × String =>
        JsonText.obj [("id", .str c.1), ("execution_hash", .str c.2)]).map JsonText.sorted at hobjects
      change ((sortComponents components).map Component.toJson).map JsonText.sorted = _ at hobjects
      rw [hobjects, List.map_map] at hmem
      obtain ⟨c', -, heq⟩ := List.mem_map.mp hmem
      rw [c.sorted_toJson] at heq
      simp [JsonText.sorted, JsonText.sortedFields, JsonText.sortFields] at heq
    rw [hnone, List.forall₂_nil_right_iff] at hall
    rw [← hall]
    exact hdependencies
  · intro hnone
    have hbridge : hashWalk lib (bridgeHashing lib table) table.depth [] row =
        .ok (payloadHash lib row.contentHash []) := hashWalk_of_no_dependencies lib table hnone
    have hbackfill : hashWalk lib (backfillHashing lib table) table.depth [] row =
        .ok (payloadHash lib row.contentHash []) := hashWalk_of_no_dependencies lib table hnone
    rw [executionHash, hbridge] at h
    rw [backfillHash, hbackfill] at h'
    cases h
    cases h'
    rfl

/-- A manifest declares no dependencies for the bridge where the API finds none. -/
lemma dependenciesOrEmpty_eq_nil_iff {row : SkillSnapshot} {dependencies : List Yaml}
    (h : (registryHashing lib table).dependencies row = .ok dependencies) :
    dependenciesOrEmpty lib row = .ok [] ↔ dependencies = [] := by
  obtain ⟨declared, hdeclared, h⟩ := Except.bind_eq_ok.mp h
  rw [dependenciesOrEmpty, hdeclared]
  show (if declared.truthy = true then declared.iter else .ok []) = _ ↔ _
  by_cases htruthy : declared.truthy = true
  · rw [if_pos htruthy, h]
    simp
  · rw [if_neg htruthy]
    refine iff_of_true rfl ?_
    cases declared with
    | seq xs | map xs | bytes xs =>
      have hnil : xs = [] := by simpa [Yaml.truthy] using htruthy
      subst hnil
      cases h
      rfl
    | str s =>
      have hnil : s = "" := by simpa [Yaml.truthy] using htruthy
      subst hnil
      cases h
      rfl
    | null | bool | int | float | other => cases h

/-- What refers to a row gets its hash. -/
lemma Reference.copyHash_of_id (r : Reference) {row : SkillSnapshot} (hrow : row ∈ table.rows)
    (hid : (r.copyHash table).skillSnapshotId = some row.id) :
    (r.copyHash table).skillExecutionHash = row.executionHash := by
  have hsame : (r.copyHash table).skillSnapshotId = r.skillSnapshotId := by
    unfold copyHash
    split <;> rfl
  rw [hsame] at hid
  simp only [copyHash, hid, Option.bind_some, table.get_of_mem hrow]

/-- The migration succeeds where every dependency resolves and no skill depends on itself; it
stores the hash of each row with the row and with what refers to the row. -/
lemma upgrade_ok {db : Database} (hresolved : ∀ row ∈ db.snapshots.rows,
      DependencyGraph.Sound SkillSnapshot.skillName (hashChildren lib db.snapshots) [] row) :
    ∃ db', upgrade lib db = .ok db' ∧
      db'.snapshots =
        db.snapshots.stamp (fun row => (backfillHash lib db.snapshots row).toOption) ∧
      db'.references = db.references.map (Reference.copyHash db'.snapshots) := by
  obtain ⟨hashes, hhashes⟩ := Except.exists_mapM_eq_ok fun row hrow =>
    backfillHash_ok_of_sound hrow (hresolved row hrow)
  refine ⟨_, Except.bind_eq_ok.mpr ⟨hashes, hhashes, rfl⟩, rfl, ?_⟩
  simp [Database.references]

/-- **Where the migration agrees with the bridge and the API.** For every database in which every
dependency resolves and no skill depends on itself, the migration succeeds, and what refers to a
row gets the hash of that row; but the hash of a row is the one that the bridge and the API
compute after the upgrade exactly when the manifest of the row declares no dependencies. -/
theorem upgrade_agrees_iff (lib : SkillLibrary) (hsha : Function.Injective lib.sha256Hex)
    (db : Database) (hresolved : ∀ row ∈ db.snapshots.rows,
      DependencyGraph.Sound SkillSnapshot.skillName (hashChildren lib db.snapshots) [] row) :
    ∃ db', upgrade lib db = .ok db' ∧
      (∀ reference ∈ db'.references, ∀ row ∈ db'.snapshots.rows,
        reference.skillSnapshotId = some row.id →
          reference.skillExecutionHash = row.executionHash) ∧
      ∀ row ∈ db'.snapshots.rows,
        (∃ hash, row.executionHash = some hash ∧
            executionHash lib db'.snapshots row = .ok hash ∧
            computeExecutionHash lib db'.snapshots row = .ok hash) ↔
          (registryHashing lib db'.snapshots).dependencies row = .ok [] := by
  obtain ⟨db', hupgrade, hsnapshots, hreferences⟩ := upgrade_ok hresolved
  refine ⟨db', hupgrade, fun reference hreference row hrow hid => ?_, fun row hrow => ?_⟩
  · rw [hreferences] at hreference
    obtain ⟨before, -, rfl⟩ := List.mem_map.mp hreference
    exact before.copyHash_of_id hrow hid
  · rw [hsnapshots] at hrow ⊢
    obtain ⟨before, hbefore, rfl⟩ := List.mem_map.mp hrow
    obtain ⟨hash, hhash⟩ := executionHash_ok_of_sound hbefore (hresolved before hbefore)
    obtain ⟨hash', hhash'⟩ := backfillHash_ok_of_sound hbefore (hresolved before hbefore)
    have hstored : (before.stamp fun row => (backfillHash lib db.snapshots row).toOption).executionHash
        = some hash' := congrArg Except.toOption hhash'
    rw [executionHash_stamp, hhash, hstored]
    constructor
    · rintro ⟨stored, hsame, hbridge, hregistry⟩
      cases hsame
      cases hbridge
      obtain ⟨-, _, dependencies, _, -, hdependencies, -⟩ := hashWalk_eq_ok hregistry
      have hnone : dependenciesOrEmpty lib before = .ok [] :=
        (backfillHash_eq_iff hsha hhash hhash').mp rfl
      rw [hdependencies, (dependenciesOrEmpty_eq_nil_iff hdependencies).mp hnone]
    · intro hdependencies
      have hnone : dependenciesOrEmpty lib before = .ok [] :=
        (dependenciesOrEmpty_eq_nil_iff hdependencies).mpr rfl
      have hregistry := hashWalk_of_no_dependencies lib (db.snapshots.stamp
        fun row => (backfillHash lib db.snapshots row).toOption) hdependencies
      have hbridge : hashWalk lib (bridgeHashing lib db.snapshots) db.snapshots.depth [] before =
          .ok (payloadHash lib before.contentHash []) :=
        hashWalk_of_no_dependencies lib db.snapshots hnone
      have hsame := (backfillHash_eq_iff hsha hhash hhash').mpr hnone
      rw [executionHash, hbridge] at hhash
      cases hhash
      exact ⟨hash', rfl, congrArg Except.ok hsame, hsame ▸ hregistry⟩

/-- A database with the sample and with a job of each skill. -/
def sampleDatabase : Database where
  snapshots := sampleTable
  jobs := [⟨some triageSnapshot.id, none⟩, ⟨some reportSnapshot.id, none⟩]
  analysisRuns := []
  reportSnapshots := []
  reports := []

lemma sampleDatabase_resolved : ∀ row ∈ sampleDatabase.snapshots.rows,
    DependencyGraph.Sound SkillSnapshot.skillName
      (hashChildren sampleLibrary sampleDatabase.snapshots) [] row := by
  have htriage : ∀ active, "triage" ∉ active → DependencyGraph.Sound SkillSnapshot.skillName
      (hashChildren sampleLibrary sampleDatabase.snapshots) active triageSnapshot :=
    fun active hactive => .intro hactive (by rfl :
      hashChildren sampleLibrary sampleDatabase.snapshots triageSnapshot = some []) (by simp)
  intro row hrow
  simp only [sampleDatabase, sampleTable, List.mem_cons, List.not_mem_nil, or_false] at hrow
  rcases hrow with rfl | rfl
  · exact htriage [] (by decide)
  · refine .intro List.not_mem_nil (by rfl : hashChildren sampleLibrary
      sampleDatabase.snapshots reportSnapshot = some [triageSnapshot]) fun c hc => ?_
    rw [List.mem_singleton.mp hc]
    exact htriage _ (by decide)

/-- The migration agrees on the skill of the sample that has no dependencies. -/
theorem sampleDatabase_agrees :
    ∃ db', upgrade sampleLibrary sampleDatabase = .ok db' ∧
      ∀ row ∈ db'.snapshots.rows,
        (∃ hash, row.executionHash = some hash ∧
            executionHash sampleLibrary db'.snapshots row = .ok hash ∧
            computeExecutionHash sampleLibrary db'.snapshots row = .ok hash) ↔
          (registryHashing sampleLibrary db'.snapshots).dependencies row = .ok [] := by
  obtain ⟨db', hupgrade, -, hagrees⟩ := upgrade_agrees_iff sampleLibrary sampleSha256_injective
    sampleDatabase sampleDatabase_resolved
  exact ⟨db', hupgrade, hagrees⟩

/-- The migration does not agree on the skill of the sample that depends on the other: its hash is
not the one that the bridge computes, and the job of that skill gets it. -/
theorem sampleDatabase_disagrees :
    ¬ ∀ lib : SkillLibrary, Function.Injective lib.sha256Hex → ∀ db : Database,
      (∀ row ∈ db.snapshots.rows, DependencyGraph.Sound SkillSnapshot.skillName
        (hashChildren lib db.snapshots) [] row) →
      ∃ db', upgrade lib db = .ok db' ∧ ∀ row ∈ db'.snapshots.rows, ∃ hash,
        row.executionHash = some hash ∧ executionHash lib db'.snapshots row = .ok hash ∧
          computeExecutionHash lib db'.snapshots row = .ok hash := by
  intro h
  obtain ⟨db', hupgrade, hagrees⟩ :=
    h sampleLibrary sampleSha256_injective sampleDatabase sampleDatabase_resolved
  obtain ⟨_, hupgrade', hsnapshots, -⟩ := upgrade_ok sampleDatabase_resolved
  cases hupgrade.symm.trans hupgrade'
  have hrow : reportSnapshot ∈ sampleDatabase.snapshots.rows := by
    simp [sampleDatabase, sampleTable]
  obtain ⟨hash, hhash⟩ := executionHash_ok_of_sound hrow (sampleDatabase_resolved _ hrow)
  obtain ⟨hash', hhash'⟩ := backfillHash_ok_of_sound hrow (sampleDatabase_resolved _ hrow)
  have hmem : reportSnapshot.stamp (fun row =>
      (backfillHash sampleLibrary sampleDatabase.snapshots row).toOption) ∈ db'.snapshots.rows := by
    rw [hsnapshots]
    exact List.mem_map_of_mem hrow
  obtain ⟨stored, hstored, hbridge, -⟩ := hagrees _ hmem
  rw [hsnapshots, executionHash_stamp, hhash] at hbridge
  have hsame : some hash' = some stored := (congrArg Except.toOption hhash').symm.trans hstored
  cases hbridge
  cases hsame
  -- the hashes are the same only where no dependencies are declared
  have hnone : dependenciesOrEmpty sampleLibrary reportSnapshot = .ok [] :=
    (backfillHash_eq_iff sampleSha256_injective hhash hhash').mp rfl
  have hdeclared : dependenciesOrEmpty sampleLibrary reportSnapshot = .ok [.str "triage"] := rfl
  cases hdeclared.symm.trans hnone

end Skills
