import Mathlib.Data.List.Nodup
import NocReport.Skills.Contract

set_option relaxedAutoImplicit false
set_option autoImplicit false

/-!
# Materialised skills

The bridge writes the files of a snapshot and of everything it depends on into a directory, one
directory a skill. It verifies the rows on the way, and refuses a graph in which a name stands
for two rows.

## Main definitions

* `Skills.Materialized` — what has been written.
* `Skills.materializeTree` — the walk that writes a row and what it depends on.
* `Skills.materializeSnapshot` — the files of a snapshot.
* `Skills.copyChildren` — the rows the walk resolves the dependencies of a row to.

## Main results

* `Skills.materializeTree_spec` — what a walk that succeeds has written.
* `Skills.materializeTree_ok` — where a walk succeeds.
-/

namespace Skills

variable (lib : SkillLibrary) (table : SkillTable)

/-! ## The bridge -/

/-- `fetch_skill_snapshot`. -/
def fetchSkillSnapshot (contentHash snapshotId : Option String) : Option SkillSnapshot :=
  match snapshotId.filter (· ≠ "") with
  | some id => table.get id
  | none => latestCreated (table.rows.filter fun row => some row.contentHash = contentHash)

/-- `_verify_snapshot_row`. -/
def verifySnapshotRow (row : SkillSnapshot) (expectedHash : Option String) :
    Except PyError Unit := do
  let actual ← contentHash lib (encodeUtf8 row.skillMd) (encodeUtf8 row.outputSchemaJson)
    (encodeUtf8 row.manifestYaml)
  raiseIf (row.contentHash.length = 64 && actual != row.contentHash) (snapshotMissing
    ("snapshot " ++ (if row.id = "" then row.contentHash else row.id) ++
      " failed content hash verification"))
  match expectedHash with
  | some expected =>
    raiseIf (expected != row.contentHash) (snapshotMissing
      ("snapshot " ++ (if row.id = "" then expected else row.id) ++
        " hash does not match the job reference"))
  | none => return ()

/-- What has been written: the files of each skill, the keys of their rows, and which row each
skill name stands for. -/
structure Materialized where
  files : Dict String SkillFiles
  ids : List String
  names : Dict String String
  deriving DecidableEq, Repr

/-- `str(snapshot.get("id") or snapshot["content_hash"])`. -/
def snapshotKey (row : SkillSnapshot) : String := if row.id = "" then row.contentHash else row.id

/-- `_write_snapshot_files`, and what is noted about the row. -/
def Materialized.write (acc : Materialized) (row : SkillSnapshot) : Materialized where
  files := Dict.set acc.files row.skillName row.toSkillFiles
  ids := acc.ids ++ [snapshotKey row]
  names := Dict.set acc.names row.skillName (snapshotKey row)

/-- The dependencies of a row, which are a list. -/
def copyDependencies (row : SkillSnapshot) : Except PyError (List Yaml) := do
  match ← declaredDependencies lib row with
  | .seq dependencies => return dependencies
  | _ => throw (snapshotMissing ("dependencies for " ++ row.skillName ++ " must be a list"))

/-- The row of a dependency, which has the name and the version that are declared. -/
def copyChild (row : SkillSnapshot) (dependency : Yaml) : Except PyError SkillSnapshot := do
  let name ← dependencyName dependency
  raiseIf (!name.truthy) (snapshotMissing ("dependency is missing an id: " ++ lib.repr dependency))
  match ← fetchChild lib table row dependency name with
  | none => throw (snapshotMissing ("dependency snapshot is missing: " ++ lib.str dependency))
  | some child => do
    raiseIf (!name.isText child.skillName) (snapshotMissing
      ("dependency snapshot " ++ child.skillName ++ " does not satisfy " ++ lib.str name))
    if (declaredVersion dependency).isNull then return child
    else do
      let requested ← lib.intOr
        (snapshotMissing ("invalid dependency version: " ++ lib.str dependency))
        (declaredVersion dependency)
      raiseIf (child.versionLabel != requested) (snapshotMissing
        ("dependency snapshot version does not satisfy " ++ lib.str dependency))
      return child

/-- The check of the execution hash that a job asks for. -/
def checkExecutionHash (row : SkillSnapshot) (expected : Option String) : Except PyError Unit :=
  match expected with
  | none => pure ()
  | some expected => do
    let actual ← executionHash lib table row
    raiseIf (actual != expected) (snapshotMissing
      ("snapshot " ++ snapshotKey row ++ " execution hash does not match the job reference"))

/-- `_materialize_snapshot_tree`, which goes down at most as far as there is fuel. -/
def materializeTree : ℕ → List String → Option String → Materialized → SkillSnapshot →
    Except PyError Materialized
  | 0, _, _, _, _ =>
    throw (.custom (py "RecursionError") (py "maximum recursion depth exceeded"))
  | fuel + 1, active, expected, acc, row => do
    raiseIf (active.contains row.skillName)
      (snapshotMissing ("cyclic skill dependency: " ++ row.skillName))
    let previous := Dict.get? acc.names row.skillName
    raiseIf (previous.any (· != snapshotKey row)) (snapshotMissing
      ("dependency name " ++ row.skillName ++ " resolves to multiple snapshots: " ++
        previous.getD "" ++ " and " ++ snapshotKey row))
    if acc.ids.contains (snapshotKey row) then return acc
    else do
      verifySnapshotRow lib row none
      checkExecutionHash lib table row expected
      let dependencies ← copyDependencies lib row
      dependencies.foldlM (fun acc dependency => do
        let child ← copyChild lib table row dependency
        materializeTree fuel (row.skillName :: active) none acc child) (acc.write row)

/-- `materialize_snapshot`: the files of each skill in the directory that it fills. -/
def materializeSnapshot (skillName : String) (contentHash snapshotId executionHash : Option String) :
    Except PyError (Dict String SkillFiles) := do
  let reference := ((snapshotId.filter (· ≠ "")).or contentHash).getD "None"
  match fetchSkillSnapshot table contentHash snapshotId with
  | none => throw (snapshotMissing ("no SkillSnapshot found for " ++ skillName ++
      " with snapshot_id=" ++ reference ++
      " — cannot execute this job against an immutable snapshot that no longer exists"))
  | some row => do
    raiseIf (row.skillName != skillName) (snapshotMissing
      ("snapshot " ++ reference ++ " belongs to " ++ row.skillName ++ ", not " ++ skillName))
    verifySnapshotRow lib row contentHash
    let written ← materializeTree lib table table.depth [] executionHash ⟨[], [], []⟩ row
    return written.files

variable {lib table}

/-! ## The graph -/

/-- The rows that the walk resolves the dependencies of a row to, if it can resolve all. -/
def copyChildren (lib : SkillLibrary) (table : SkillTable) (row : SkillSnapshot) :
    Option (List SkillSnapshot) :=
  match copyDependencies lib row with
  | .ok dependencies => (dependencies.mapM (copyChild lib table row)).toOption
  | .error _ => none

lemma copyChildren_eq_some {row : SkillSnapshot} {cs : List SkillSnapshot} :
    copyChildren lib table row = some cs ↔ ∃ dependencies,
      copyDependencies lib row = .ok dependencies ∧
        List.Forall₂ (fun dependency c => copyChild lib table row dependency = .ok c)
          dependencies cs := by
  unfold copyChildren
  cases hdependencies : copyDependencies lib row with
  | error e => simp
  | ok dependencies =>
    rw [← Except.eq_ok_iff_toOption, Except.mapM_eq_ok]
    simp

/-- The row of a dependency is the one that the hash covers. -/
lemma copyChild_hashChild {row child : SkillSnapshot} {dependency : Yaml}
    (h : copyChild lib table row dependency = .ok child) :
    hashChild lib table row dependency = .ok child := by
  obtain ⟨name, hname, h⟩ := Except.bind_eq_ok.mp h
  obtain ⟨-, -, h⟩ := Except.bind_eq_ok.mp h
  obtain ⟨found, hfound, h⟩ := Except.bind_eq_ok.mp h
  cases found with
  | none => exact absurd h Except.throw_ne_ok
  | some found =>
    obtain ⟨_, htext, h⟩ := Except.bind_eq_ok.mp h
    rw [raiseIf_eq_ok, Bool.not_eq_false'] at htext
    have hchild : found = child := by
      split at h
      · exact Except.pure_eq_ok.mp h
      · obtain ⟨number, -, h⟩ := Except.bind_eq_ok.mp h
        obtain ⟨-, -, h⟩ := Except.bind_eq_ok.mp h
        exact Except.pure_eq_ok.mp h
    subst hchild
    refine Except.bind_eq_ok.mpr ⟨name, hname, Except.bind_eq_ok.mpr ⟨_, hfound, ?_⟩⟩
    simp only [htext, if_true]
    rfl

lemma copyDependencies_hash {row : SkillSnapshot} {dependencies : List Yaml}
    (h : copyDependencies lib row = .ok dependencies) :
    dependenciesOrEmpty lib row = .ok dependencies := by
  obtain ⟨declared, hdeclared, h⟩ := Except.bind_eq_ok.mp h
  cases declared with
  | seq xs =>
    rw [Except.pure_eq_ok] at h
    subst h
    refine Except.bind_eq_ok.mpr ⟨_, hdeclared, ?_⟩
    cases xs <;> rfl
  | null | bool | int | float | str | bytes | other | map => exact absurd h Except.throw_ne_ok

/-- The rows that are written are those that the hash covers. -/
lemma copyChildren_hashChildren {row : SkillSnapshot} {cs : List SkillSnapshot}
    (h : copyChildren lib table row = some cs) : hashChildren lib table row = some cs := by
  obtain ⟨dependencies, hdependencies, hall⟩ := copyChildren_eq_some.mp h
  exact hashChildren_eq_some.mpr ⟨dependencies, copyDependencies_hash hdependencies,
    hall.imp fun _ _ => copyChild_hashChild⟩

lemma copyChildren_mem {row : SkillSnapshot} {cs : List SkillSnapshot}
    (h : copyChildren lib table row = some cs) : ∀ c ∈ cs, c ∈ table.rows :=
  hashChildren_mem (copyChildren_hashChildren h)

lemma reaches_mem {row other : SkillSnapshot} (hrow : row ∈ table.rows)
    (h : DependencyGraph.Reaches (copyChildren lib table) row other) : other ∈ table.rows := by
  induction h with
  | refl => exact hrow
  | tail _ hchild _ =>
    obtain ⟨cs, hcs, hc⟩ := hchild
    exact copyChildren_mem hcs _ hc

/-! ## What a walk has written -/

/-- What has been written for some rows. -/
def Materialized.ofRows (rows : List SkillSnapshot) : Materialized where
  files := rows.map fun row => (row.skillName, row.toSkillFiles)
  ids := rows.map snapshotKey
  names := rows.map fun row => (row.skillName, snapshotKey row)

lemma SkillTable.snapshotKey_eq {row : SkillSnapshot} (h : row ∈ table.rows) :
    snapshotKey row = row.id := by
  rw [snapshotKey, if_neg (table.ids_ne row h)]

/-- Writing a row with a new name. -/
lemma Materialized.write_ofRows {rows : List SkillSnapshot} {row : SkillSnapshot}
    (h : row.skillName ∉ rows.map SkillSnapshot.skillName) :
    (ofRows rows).write row = ofRows (rows ++ [row]) := by
  have hset : ∀ {β : Type} (f : SkillSnapshot → β) (v : β),
      Dict.set (rows.map fun r => (r.skillName, f r)) row.skillName v =
        rows.map (fun r => (r.skillName, f r)) ++ [(row.skillName, v)] := by
    intro β f v
    refine Dict.set_of_notMem _ ?_
    rwa [Dict.keys, List.map_map]
  simp [ofRows, write, hset]

/-- A row is finished: every way down from it ends, and everything below has been written. -/
def Finished (lib : SkillLibrary) (table : SkillTable) (written : List SkillSnapshot)
    (row : SkillSnapshot) : Prop :=
  DependencyGraph.Grounded (copyChildren lib table) row ∧
    ∀ c, DependencyGraph.Reaches (copyChildren lib table) row c → c ∈ written

lemma Finished.mono {written more : List SkillSnapshot} {row : SkillSnapshot}
    (h : Finished lib table written row) : Finished lib table (written ++ more) row :=
  ⟨h.1, fun c hc => List.mem_append_left _ (h.2 c hc)⟩

/-- What holds of the rows written so far, below the skills in `active`. -/
structure Writing (lib : SkillLibrary) (table : SkillTable) (active : List String)
    (written : List SkillSnapshot) : Prop where
  rows : ∀ row ∈ written, row ∈ table.rows
  names : (written.map SkillSnapshot.skillName).Nodup
  finished : ∀ row ∈ written, row.skillName ∉ active → Finished lib table written row

/-- The row that a name stands for. -/
lemma Writing.get?_names {active : List String} {written : List SkillSnapshot}
    (h : Writing lib table active written) {row : SkillSnapshot} {name : String}
    (hrow : row ∈ written) (hname : row.skillName = name) :
    Dict.get? (Materialized.ofRows written).names name = some (snapshotKey row) := by
  subst hname
  refine Dict.get?_of_mem ?_ (List.mem_map_of_mem hrow)
  rw [Dict.keys, Materialized.ofRows, List.map_map]
  exact h.names

/-- Writing a row with a new name, before what is below it. -/
lemma Writing.write {active : List String} {written : List SkillSnapshot}
    (h : Writing lib table active written) {row : SkillSnapshot} (hrow : row ∈ table.rows)
    (hname : row.skillName ∉ written.map SkillSnapshot.skillName) :
    Writing lib table (row.skillName :: active) (written ++ [row]) := by
  refine ⟨fun r hr => ?_, ?_, fun r hr hactive => ?_⟩
  · rcases List.mem_append.mp hr with hr | hr
    · exact h.rows r hr
    · exact List.mem_singleton.mp hr ▸ hrow
  · rw [List.map_append, List.map_singleton]
    refine List.nodup_append.mpr ⟨h.names, List.nodup_singleton _, ?_⟩
    rintro a ha b hb rfl
    exact hname (List.mem_singleton.mp hb ▸ ha)
  · rw [List.mem_cons, not_or] at hactive
    rcases List.mem_append.mp hr with hr | hr
    · exact (h.finished r hr hactive.2).mono
    · exact absurd (congrArg SkillSnapshot.skillName (List.mem_singleton.mp hr)) hactive.1

/-- What a walk from a row has added to what had been written. -/
structure Added (lib : SkillLibrary) (table : SkillTable) (active : List String)
    (written : List SkillSnapshot) (root : SkillSnapshot → Prop) (added : List SkillSnapshot) :
    Prop where
  writing : Writing lib table active (written ++ added)
  finished : ∀ row ∈ added, Finished lib table (written ++ added) row
  verified : ∀ row ∈ added, verifySnapshotRow lib row none = .ok ()
  below : ∀ row ∈ added, ∃ r, root r ∧ DependencyGraph.Reaches (copyChildren lib table) r row

/-- A step of the walk. -/
lemma materializeTree_succ {fuel : ℕ} {active : List String} {expected : Option String}
    {acc acc' : Materialized} {row : SkillSnapshot} :
    materializeTree lib table (fuel + 1) active expected acc row = .ok acc' ↔
      row.skillName ∉ active ∧
        (∀ previous, Dict.get? acc.names row.skillName = some previous →
          previous = snapshotKey row) ∧
        (snapshotKey row ∈ acc.ids ∧ acc = acc' ∨
          snapshotKey row ∉ acc.ids ∧ verifySnapshotRow lib row none = .ok () ∧
            checkExecutionHash lib table row expected = .ok () ∧
            ∃ dependencies, copyDependencies lib row = .ok dependencies ∧
              dependencies.foldlM (fun acc dependency => do
                let child ← copyChild lib table row dependency
                materializeTree lib table fuel (row.skillName :: active) none acc child)
                (acc.write row) = .ok acc') := by
  rw [materializeTree]
  simp only [Except.bind_eq_ok, raiseIf_eq_ok]
  constructor
  · rintro ⟨_, hactive, _, hprevious, h⟩
    refine ⟨by simpa using hactive, fun previous hget => ?_, ?_⟩
    · rw [hget] at hprevious
      simpa using hprevious
    · split at h
      · next hmem => exact .inl ⟨by simpa using hmem, Except.pure_eq_ok.mp h⟩
      · next hmem =>
        simp only [Except.bind_eq_ok] at h
        obtain ⟨⟨⟩, hverify, ⟨⟩, hcheck, dependencies, hdependencies, h⟩ := h
        exact .inr ⟨by simpa using hmem, hverify, hcheck, dependencies, hdependencies, h⟩
  · rintro ⟨hactive, hprevious, h⟩
    refine ⟨(), by simpa using hactive, (), ?_, ?_⟩
    · cases hget : Dict.get? acc.names row.skillName with
      | none => rfl
      | some previous => simpa using hprevious previous hget
    · rcases h with ⟨hmem, rfl⟩ | ⟨hmem, hverify, hcheck, dependencies, hdependencies, h⟩
      · rw [if_pos (by simpa using hmem)]
        exact Except.pure_eq_ok.mpr rfl
      · rw [if_neg (by simpa using hmem)]
        simp only [Except.bind_eq_ok]
        exact ⟨(), hverify, (), hcheck, dependencies, hdependencies, h⟩

/-- The loop over the dependencies of a row. -/
lemma materializeTree_loop {fuel : ℕ} {active : List String} {row : SkillSnapshot}
    (hstep : ∀ written child acc', Writing lib table active written → child ∈ table.rows →
      materializeTree lib table fuel active none (.ofRows written) child = .ok acc' →
      ∃ added, acc' = .ofRows (written ++ added) ∧
        Added lib table active written (· = child) added ∧
        Finished lib table (written ++ added) child)
    {dependencies : List Yaml} {written : List SkillSnapshot} {acc' : Materialized}
    (hwriting : Writing lib table active written)
    (h : dependencies.foldlM (fun acc dependency => do
      let child ← copyChild lib table row dependency
      materializeTree lib table fuel active none acc child) (.ofRows written) = .ok acc') :
    ∃ added cs, acc' = .ofRows (written ++ added) ∧
      List.Forall₂ (fun dependency c => copyChild lib table row dependency = .ok c)
        dependencies cs ∧
      Added lib table active written (· ∈ cs) added ∧
      ∀ c ∈ cs, Finished lib table (written ++ added) c := by
  induction dependencies generalizing written with
  | nil =>
    rw [List.foldlM_nil, Except.pure_eq_ok] at h
    refine ⟨[], [], by rw [List.append_nil, h], .nil, ⟨?_, ?_, ?_, ?_⟩, ?_⟩
    · rwa [List.append_nil]
    all_goals simp
  | cons dependency dependencies ih =>
    rw [List.foldlM_cons] at h
    obtain ⟨acc₁, hfirst, h⟩ := Except.bind_eq_ok.mp h
    obtain ⟨child, hchild, hfirst⟩ := Except.bind_eq_ok.mp hfirst
    have hmem := (hashChild_mem (copyChild_hashChild hchild)).1
    obtain ⟨added, rfl, hadded, hfinished⟩ := hstep written child acc₁ hwriting hmem hfirst
    obtain ⟨more, cs, rfl, hcs, hmore, hall⟩ := ih hadded.writing h
    refine ⟨added ++ more, child :: cs, by rw [List.append_assoc], .cons hchild hcs,
      ⟨?_, ?_, ?_, ?_⟩, ?_⟩
    · rw [← List.append_assoc]
      exact hmore.writing
    · intro r hr
      rw [← List.append_assoc]
      exact (List.mem_append.mp hr).elim (fun hr => (hadded.finished r hr).mono)
        (hmore.finished r)
    · intro r hr
      exact (List.mem_append.mp hr).elim (hadded.verified r) (hmore.verified r)
    · intro r hr
      rcases List.mem_append.mp hr with hr | hr
      · obtain ⟨_, rfl, hreach⟩ := hadded.below r hr
        exact ⟨_, List.mem_cons_self, hreach⟩
      · obtain ⟨c, hc, hreach⟩ := hmore.below r hr
        exact ⟨c, List.mem_cons_of_mem _ hc, hreach⟩
    · intro c hc
      rw [← List.append_assoc]
      rcases List.mem_cons.mp hc with rfl | hc
      · exact hfinished.mono
      · exact hall c hc

/-- **What a walk that succeeds has written**: it has added verified rows below the one it started
from, everything below which has been written and no way down from which is endless. -/
lemma materializeTree_spec {fuel : ℕ} {active : List String} {expected : Option String}
    {written : List SkillSnapshot} {row : SkillSnapshot} {acc' : Materialized}
    (hwriting : Writing lib table active written) (hrow : row ∈ table.rows)
    (h : materializeTree lib table fuel active expected (.ofRows written) row = .ok acc') :
    ∃ added, acc' = .ofRows (written ++ added) ∧ Added lib table active written (· = row) added ∧
      Finished lib table (written ++ added) row := by
  induction fuel generalizing active expected written row acc' with
  | zero => exact absurd h Except.throw_ne_ok
  | succ fuel ih =>
    obtain ⟨hactive, hprevious, h⟩ := materializeTree_succ.mp h
    rcases h with ⟨hid, rfl⟩ | ⟨hid, hverify, -, dependencies, hdependencies, h⟩
    · -- the row has been written, and no skill above has its name
      obtain ⟨other, hother, hkey⟩ := List.mem_map.mp hid
      have hsame : other = row := by
        refine table.eq_of_id (hwriting.rows other hother) hrow ?_
        rwa [table.snapshotKey_eq (hwriting.rows other hother), table.snapshotKey_eq hrow] at hkey
      subst hsame
      refine ⟨[], by rw [List.append_nil], ⟨?_, by simp, by simp, by simp⟩, ?_⟩
      · rwa [List.append_nil]
      · rw [List.append_nil]
        exact hwriting.finished other hother hactive
    · have hname : row.skillName ∉ written.map SkillSnapshot.skillName := by
        intro hmem
        obtain ⟨other, hother, heq⟩ := List.mem_map.mp hmem
        have hkey := hprevious _ (hwriting.get?_names hother heq)
        exact hid (hkey ▸ List.mem_map_of_mem hother)
      rw [Materialized.write_ofRows hname] at h
      obtain ⟨added, cs, rfl, hcs, hadded, hall⟩ := materializeTree_loop
        (fun written child acc' hw hc hrun => ih hw hc hrun) (hwriting.write hrow hname) h
      have hchildren : copyChildren lib table row = some cs :=
        copyChildren_eq_some.mpr ⟨dependencies, hdependencies, hcs⟩
      have hfinished : Finished lib table (written ++ [row] ++ added) row := by
        refine ⟨.intro hchildren fun c hc => (hall c hc).1, fun c hc => ?_⟩
        rcases Relation.ReflTransGen.cases_head hc with rfl | ⟨d, ⟨cs', hcs', hd⟩, hdc⟩
        · simp
        · rw [hchildren] at hcs'
          cases hcs'
          exact (hall d hd).2 c hdc
      have hlist : written ++ [row] ++ added = written ++ row :: added := by simp
      have hafter := hadded.writing
      have hothers := hadded.finished
      rw [hlist] at hfinished hafter hothers ⊢
      refine ⟨row :: added, rfl, ⟨⟨hafter.rows, hafter.names, fun r hr hname => ?_⟩,
        fun r hr => ?_, fun r hr => ?_, fun r hr => ?_⟩, hfinished⟩
      · by_cases hsame : r.skillName = row.skillName
        · have heq : r = row :=
            List.inj_on_of_nodup_map hafter.names hr (by simp) hsame
          exact heq ▸ hfinished
        · exact hafter.finished r hr (by simp [hsame, hname])
      · rcases List.mem_cons.mp hr with rfl | hr
        · exact hfinished
        · exact hothers r hr
      · rcases List.mem_cons.mp hr with rfl | hr
        · exact hverify
        · exact hadded.verified r hr
      · rcases List.mem_cons.mp hr with rfl | hr
        · exact ⟨r, rfl, .refl⟩
        · obtain ⟨c, hc, hreach⟩ := hadded.below r hr
          exact ⟨row, rfl, .head ⟨cs, hchildren, hc⟩ hreach⟩

/-! ## Where a walk succeeds -/

section Success

variable {root : SkillSnapshot}

/-- The loop over the dependencies of a row succeeds when the walks do. -/
lemma materializeTree_loop_ok {fuel : ℕ} {active : List String} {row : SkillSnapshot}
    (hroot : root ∈ table.rows)
    (hstep : ∀ written child, Writing lib table active written →
      (∀ r ∈ written, DependencyGraph.Reaches (copyChildren lib table) root r) →
      DependencyGraph.Child (copyChildren lib table) row child →
      ∃ acc', materializeTree lib table fuel active none (.ofRows written) child = .ok acc')
    (hreach : DependencyGraph.Reaches (copyChildren lib table) root row)
    {dependencies : List Yaml} {written : List SkillSnapshot}
    (hchildren : ∀ dependency ∈ dependencies, ∃ c, copyChild lib table row dependency = .ok c ∧
      DependencyGraph.Child (copyChildren lib table) row c)
    (hwriting : Writing lib table active written)
    (hwritten : ∀ r ∈ written, DependencyGraph.Reaches (copyChildren lib table) root r) :
    ∃ acc', dependencies.foldlM (fun acc dependency => do
      let child ← copyChild lib table row dependency
      materializeTree lib table fuel active none acc child) (.ofRows written) = .ok acc' := by
  induction dependencies generalizing written with
  | nil => exact ⟨_, rfl⟩
  | cons dependency dependencies ih =>
    obtain ⟨c, hc, hchild⟩ := hchildren dependency List.mem_cons_self
    obtain ⟨acc₁, hfirst⟩ := hstep written c hwriting hwritten hchild
    have hmem := reaches_mem hroot (hreach.tail hchild)
    obtain ⟨added, rfl, hadded, -⟩ := materializeTree_spec hwriting hmem hfirst
    obtain ⟨acc', hrest⟩ := ih
      (fun d hd => hchildren d (List.mem_cons_of_mem _ hd)) hadded.writing fun r hr => by
        rcases List.mem_append.mp hr with hr | hr
        · exact hwritten r hr
        · obtain ⟨_, rfl, hbelow⟩ := hadded.below r hr
          exact (hreach.tail hchild).trans hbelow
    refine ⟨acc', ?_⟩
    rw [List.foldlM_cons]
    exact Except.bind_eq_ok.mpr ⟨_, Except.bind_eq_ok.mpr ⟨c, hc, hfirst⟩, hrest⟩

/-- **Where a walk succeeds**: below a row no two descendants of which share a name and all
descendants of which verify, from every descendant that is sound. -/
lemma materializeTree_ok (hroot : root ∈ table.rows)
    (hunique : DependencyGraph.NamesUnique SkillSnapshot.skillName (copyChildren lib table) root)
    (hverified : ∀ r, DependencyGraph.Reaches (copyChildren lib table) root r →
      verifySnapshotRow lib r none = .ok ())
    {fuel : ℕ} {active : List String} {expected : Option String} {written : List SkillSnapshot}
    {row : SkillSnapshot} (hwriting : Writing lib table active written)
    (hwritten : ∀ r ∈ written, DependencyGraph.Reaches (copyChildren lib table) root r)
    (hreach : DependencyGraph.Reaches (copyChildren lib table) root row)
    (hsound : DependencyGraph.Sound SkillSnapshot.skillName (copyChildren lib table) active row)
    (hcheck : checkExecutionHash lib table row expected = .ok ())
    (hfuel : DependencyGraph.remaining table.names active < fuel) :
    ∃ acc', materializeTree lib table fuel active expected (.ofRows written) row = .ok acc' := by
  induction fuel generalizing active expected written row with
  | zero => omega
  | succ fuel ih =>
    have hrow := reaches_mem hroot hreach
    have hchild : ∀ c, DependencyGraph.Child (copyChildren lib table) row c →
        DependencyGraph.Sound SkillSnapshot.skillName (copyChildren lib table)
          (row.skillName :: active) c := fun c => hsound.child
    obtain ⟨hactive, hcs, -⟩ := hsound
    obtain ⟨dependencies, hdependencies, hall⟩ := copyChildren_eq_some.mp hcs
    have hsame : ∀ r ∈ written, r.skillName = row.skillName → r = row := fun r hr hname =>
      hunique r row (hwritten r hr) hreach hname
    have hless : DependencyGraph.remaining table.names (row.skillName :: active) <
        DependencyGraph.remaining table.names active :=
      DependencyGraph.remaining_cons_lt (List.mem_map_of_mem hrow) hactive
    have hprevious : ∀ previous, Dict.get? (Materialized.ofRows written).names row.skillName =
        some previous → previous = snapshotKey row := by
      intro previous hget
      obtain ⟨r, hr, heq⟩ := List.mem_map.mp (Dict.mem_of_get?_eq_some hget)
      obtain ⟨hname, rfl⟩ := Prod.mk.inj heq
      rw [hsame r hr hname]
    by_cases hid : snapshotKey row ∈ (Materialized.ofRows written).ids
    · exact ⟨_, materializeTree_succ.mpr ⟨hactive, hprevious, .inl ⟨hid, rfl⟩⟩⟩
    · have hname : row.skillName ∉ written.map SkillSnapshot.skillName := by
        intro hmem
        obtain ⟨r, hr, hname⟩ := List.mem_map.mp hmem
        exact hid (hsame r hr hname ▸ List.mem_map_of_mem hr)
      obtain ⟨acc', hloop⟩ := materializeTree_loop_ok hroot
        (fun w c hw hwr hc => ih hw hwr (hreach.tail hc) (hchild c hc) rfl (by omega)) hreach
        (fun dependency hdependency => by
          obtain ⟨c, hc, hok⟩ :=
            Except.exists_of_mapM_eq_ok (Except.mapM_eq_ok.mpr hall) hdependency
          exact ⟨c, hok, _, hcs, hc⟩) (hwriting.write hrow hname) fun r hr => by
          rcases List.mem_append.mp hr with hr | hr
          · exact hwritten r hr
          · exact List.mem_singleton.mp hr ▸ hreach
      refine ⟨acc', materializeTree_succ.mpr ⟨hactive, hprevious, .inr ⟨hid, hverified row hreach,
        hcheck, dependencies, hdependencies, ?_⟩⟩⟩
      rwa [Materialized.write_ofRows hname]

end Success

/-! ## The API and the bridge -/

/-- Of the rows of each skill, and of those with each version, the one that was created last has
the highest version. -/
def CreatedInOrder (table : SkillTable) : Prop :=
  ∀ name, latestCreated (table.rows.filter fun row => row.skillName = name) =
      highestVersion (table.rows.filter fun row => row.skillName = name) ∧
    ∀ version : ℤ,
      latestCreated ((table.rows.filter fun row => row.skillName = name).filter
          fun row => row.versionLabel = version) =
        highestVersion ((table.rows.filter fun row => row.skillName = name).filter
          fun row => row.versionLabel = version)

lemma require_eq_ok {condition : Bool} {message : String} {u : Unit} :
    require condition message = .ok u ↔ condition = true := by
  rw [require, raiseIf_eq_ok, Bool.not_eq_false']

lemma declaredDependency_eq_ok {dependency name version : Yaml}
    (h : declaredDependency dependency = .ok (name, version)) :
    dependencyName dependency = .ok name ∧ declaredVersion dependency = version := by
  cases dependency with
  | str s =>
    cases h
    exact ⟨rfl, rfl⟩
  | map fields =>
    cases h
    exact ⟨rfl, rfl⟩
  | null | bool | int | float | bytes | other | seq => exact absurd h Except.throw_ne_ok

/-- A row with the name and the version that a dependency declares is what the walk takes, where
it finds it. -/
lemma copyChild_of_fetchChild {lib : SkillLibrary} {row child : SkillSnapshot} {dependency : Yaml}
    (hname : dependencyName dependency = .ok (.str child.skillName))
    (hne : (Yaml.str child.skillName).truthy = true)
    (hfetch : fetchChild lib table row dependency (.str child.skillName) = .ok (some child))
    (hversion : (declaredVersion dependency).isNull = true ∨
      lib.int (declaredVersion dependency) = .ok child.versionLabel) :
    copyChild lib table row dependency = .ok child := by
  have htext : (Yaml.str child.skillName).isText child.skillName = true := by simp [Yaml.isText]
  refine Except.bind_eq_ok.mpr ⟨_, hname, Except.bind_eq_ok.mpr ⟨(), ?_, ?_⟩⟩
  · rw [raiseIf_eq_ok, hne]
    rfl
  refine Except.bind_eq_ok.mpr ⟨_, hfetch, Except.bind_eq_ok.mpr ⟨(), ?_, ?_⟩⟩
  · rw [raiseIf_eq_ok, htext]
    rfl
  by_cases hnull : (declaredVersion dependency).isNull = true
  · rw [if_pos hnull]
    rfl
  · rw [if_neg hnull]
    refine Except.bind_eq_ok.mpr ⟨_, SkillLibrary.intOr_eq_ok.mpr (hversion.resolve_left hnull),
      Except.bind_eq_ok.mpr ⟨(), ?_, rfl⟩⟩
    rw [raiseIf_eq_ok]
    simp

lemma pinnedId_of_pinFor {row : SkillSnapshot} {name : Yaml}
    (h : pinFor row.dependencySnapshotIds name = .ok none) : pinnedId row name = .ok none := by
  cases name with
  | str s =>
    rw [pinFor, Except.pure_eq_ok] at h
    rw [pinnedId, h]
    rfl
  | seq | map => exact absurd h Except.throw_ne_ok
  | null | bool | int | float | bytes | other => rfl

/-- The walk takes the row that the API finds pinned. -/
lemma copyChild_of_resolvePinned {lib : ContractLibrary} {row child : SkillSnapshot}
    {dependency name : Yaml} {id : String} (hname : dependencyName dependency = .ok name)
    (htruthy : name.truthy = true) (hpin : pinFor row.dependencySnapshotIds name = .ok (some id))
    (h : resolvePinned lib table dependency name (declaredVersion dependency) id = .ok child) :
    copyChild lib.toSkillLibrary table row dependency = .ok child := by
  unfold resolvePinned at h
  split at h
  · next pinned hpinned =>
    split at h
    · next htext =>
      have hchild : pinned = child ∧ ((declaredVersion dependency).isNull = true ∨
          lib.int (declaredVersion dependency) = .ok pinned.versionLabel) := by
        split at h
        · next hnull => exact ⟨Except.pure_eq_ok.mp h, .inl hnull⟩
        · obtain ⟨requested, hrequested, h⟩ := Except.bind_eq_ok.mp h
          obtain ⟨_, hversion, h⟩ := Except.bind_eq_ok.mp h
          rw [require_eq_ok, decide_eq_true_eq] at hversion
          exact ⟨Except.pure_eq_ok.mp h,
            .inr (hversion ▸ SkillLibrary.intOr_eq_ok.mp hrequested)⟩
      obtain ⟨rfl, hversion⟩ := hchild
      obtain ⟨hmem, hid⟩ := table.get_mem hpinned
      have hne : id ≠ "" := hid ▸ table.ids_ne pinned hmem
      cases name with
      | str name =>
        have hsame : name = pinned.skillName := by simpa [Yaml.isText] using htext
        subst hsame
        refine copyChild_of_fetchChild hname htruthy ?_ hversion
        refine Except.bind_eq_ok.mpr ⟨some id, ?_, congrArg Except.ok hpinned⟩
        rw [pinFor, Except.pure_eq_ok] at hpin
        rw [pinnedId, hpin, Except.pure_eq_ok, Option.filter_some, if_pos (by simpa using hne)]
      | null | bool | int | float | bytes | other | seq | map => cases htext
    · exact absurd h Except.throw_ne_ok
  · exact absurd h Except.throw_ne_ok

/-- Where rows are created in order, the walk takes the row that the API finds by its name. -/
lemma copyChild_of_resolveNamed {lib : ContractLibrary} (horder : CreatedInOrder table)
    {row child : SkillSnapshot} {dependency name : Yaml}
    (hname : dependencyName dependency = .ok name) (htruthy : name.truthy = true)
    (hpin : pinFor row.dependencySnapshotIds name = .ok none)
    (h : resolveNamed lib table dependency name (declaredVersion dependency) = .ok (some child)) :
    copyChild lib.toSkillLibrary table row dependency = .ok child := by
  unfold resolveNamed at h
  split at h
  · next hnull =>
    obtain ⟨rows, hrows, h⟩ := Except.bind_eq_ok.mp h
    rw [Except.pure_eq_ok] at h
    obtain ⟨-, rfl⟩ := table.mem_of_named hrows (latestCreated_mem h)
    refine copyChild_of_fetchChild hname htruthy ?_ (.inl hnull)
    refine Except.bind_eq_ok.mpr ⟨none, pinnedId_of_pinFor hpin,
      Except.bind_eq_ok.mpr ⟨_, hname, ?_⟩⟩
    dsimp only
    rw [if_pos hnull]
    refine Except.bind_eq_ok.mpr ⟨rows, hrows, ?_⟩
    rw [SkillTable.named, Except.pure_eq_ok] at hrows
    subst hrows
    exact congrArg Except.ok ((horder child.skillName).1.symm.trans h)
  · next hnull =>
    obtain ⟨requested, hrequested, h⟩ := Except.bind_eq_ok.mp h
    obtain ⟨rows, hrows, h⟩ := Except.bind_eq_ok.mp h
    rw [Except.pure_eq_ok] at h
    have hmem := List.mem_filter.mp (latestCreated_mem h)
    obtain ⟨-, rfl⟩ := table.mem_of_named hrows hmem.1
    have hint := SkillLibrary.intOr_eq_ok.mp hrequested
    have hversion : child.versionLabel = requested := by simpa using hmem.2
    refine copyChild_of_fetchChild hname htruthy ?_ (.inr (hversion ▸ hint))
    refine Except.bind_eq_ok.mpr ⟨none, pinnedId_of_pinFor hpin,
      Except.bind_eq_ok.mpr ⟨_, hname, ?_⟩⟩
    dsimp only
    rw [if_neg hnull]
    refine Except.bind_eq_ok.mpr ⟨requested, hint, Except.bind_eq_ok.mpr ⟨rows, hrows, ?_⟩⟩
    rw [SkillTable.named, Except.pure_eq_ok] at hrows
    subst hrows
    exact congrArg Except.ok (((horder child.skillName).2 requested).symm.trans h)

/-- Where rows are created in order, the walk resolves a dependency as the API does. -/
lemma copyChild_of_resolveDependencySnapshot {lib : ContractLibrary} (horder : CreatedInOrder table)
    {row child : SkillSnapshot} {dependency : Yaml}
    (h : resolveDependencySnapshot lib table dependency row.dependencySnapshotIds = .ok child) :
    copyChild lib.toSkillLibrary table row dependency = .ok child := by
  obtain ⟨⟨name, version⟩, hdeclared, h⟩ := Except.bind_eq_ok.mp h
  obtain ⟨hname, rfl⟩ := declaredDependency_eq_ok hdeclared
  obtain ⟨_, htruthy, h⟩ := Except.bind_eq_ok.mp h
  rw [require_eq_ok] at htruthy
  obtain ⟨pin, hpin, h⟩ := Except.bind_eq_ok.mp h
  cases pin with
  | some id => exact copyChild_of_resolvePinned hname htruthy hpin h
  | none =>
    obtain ⟨found, hfound, h⟩ := Except.bind_eq_ok.mp h
    cases found with
    | none => exact absurd h Except.throw_ne_ok
    | some found =>
      rw [Except.pure_eq_ok] at h
      subst h
      exact copyChild_of_resolveNamed horder hname htruthy hpin hfound

/-- The walk reads the dependencies that the API reads. -/
lemma copyDependencies_of_manifest {lib : ContractLibrary} {row : SkillSnapshot}
    {manifest : List (Yaml × Yaml)} {dependencies : List Yaml}
    (hmanifest : loadManifest lib row = .ok manifest)
    (hdependencies : manifestDependencies manifest = .ok dependencies) :
    copyDependencies lib.toSkillLibrary row = .ok dependencies := by
  unfold loadManifest at hmanifest
  split at hmanifest
  · next manifest' hload =>
    rw [Except.pure_eq_ok] at hmanifest
    subst hmanifest
    have hdeclared : declaredDependencies lib.toSkillLibrary row =
        .ok (fieldOr manifest' "dependencies" (.seq [])) := by
      refine Except.bind_eq_ok.mpr ⟨.map manifest', ?_, ?_⟩
      · rw [SkillLibrary.load, hload]
        rfl
      · cases manifest' with
        | nil => rfl
        | cons _ _ => rfl
    have hlist : fieldOr manifest' "dependencies" (.seq []) = .seq dependencies := by
      unfold manifestDependencies at hdependencies
      split at hdependencies
      · next xs hxs => exact Except.pure_eq_ok.mp hdependencies ▸ hxs
      · exact absurd hdependencies Except.throw_ne_ok
    rw [hlist] at hdeclared
    exact Except.bind_eq_ok.mpr ⟨_, hdeclared, rfl⟩
  · exact absurd hmanifest Except.throw_ne_ok
  · exact absurd hmanifest Except.throw_ne_ok

lemma copyChildren_of_contractChildren {lib : ContractLibrary} (horder : CreatedInOrder table)
    {row : SkillSnapshot} {cs : List SkillSnapshot} (h : contractChildren lib table row = some cs) :
    copyChildren lib.toSkillLibrary table row = some cs := by
  unfold contractChildren at h
  split at h
  · next manifest hmanifest =>
    split at h
    · next dependencies hdependencies =>
      refine copyChildren_eq_some.mpr ⟨dependencies, ?_, ?_⟩
      · exact copyDependencies_of_manifest hmanifest hdependencies
      · exact (Except.mapM_eq_ok.mp (Except.eq_ok_iff_toOption.mpr h)).imp
          fun _ _ => copyChild_of_resolveDependencySnapshot horder
    · cases h
  · cases h

/-- An accepted snapshot has a graph that the walk can go down, where rows are created in order. -/
lemma sound_of_validateSnapshot {lib : ContractLibrary} (horder : CreatedInOrder table)
    {row : SkillSnapshot} (h : validateSnapshot lib table row = .ok ()) :
    DependencyGraph.Sound SkillSnapshot.skillName (copyChildren lib.toSkillLibrary table) [] row :=
  (validateSnapshot_sound h).of_children fun _ _ => copyChildren_of_contractChildren horder

/-- The content hash of the row is that of its files. -/
def Verifies (lib : SkillLibrary) (row : SkillSnapshot) : Prop :=
  contentHash lib (encodeUtf8 row.skillMd) (encodeUtf8 row.outputSchemaJson)
    (encodeUtf8 row.manifestYaml) = .ok row.contentHash

lemma Verifies.verifySnapshotRow {lib : SkillLibrary} {row : SkillSnapshot}
    (h : Verifies lib row) {expected : Option String}
    (hexpected : ∀ hash, expected = some hash → hash = row.contentHash) :
    verifySnapshotRow lib row expected = .ok () := by
  refine Except.bind_eq_ok.mpr ⟨_, h, Except.bind_eq_ok.mpr ⟨(), ?_, ?_⟩⟩
  · rw [raiseIf_eq_ok]
    simp
  · cases expected with
    | none => rfl
    | some hash =>
      rw [raiseIf_eq_ok, hexpected hash rfl]
      simp

lemma writing_nil : Writing lib table [] [] := ⟨by simp, List.nodup_nil, by simp⟩

lemma fetchSkillSnapshot_mem {skillHash snapshotId : Option String} {row : SkillSnapshot}
    (h : fetchSkillSnapshot table skillHash snapshotId = some row) : row ∈ table.rows := by
  unfold fetchSkillSnapshot at h
  split at h
  · exact (table.get_mem h).1
  · exact (List.mem_filter.mp (latestCreated_mem h)).1

/-- A row is fetched by its id. -/
lemma fetchSkillSnapshot_of_id {row : SkillSnapshot} (hrow : row ∈ table.rows)
    (skillHash : Option String) :
    fetchSkillSnapshot table skillHash (some row.id) = some row := by
  rw [fetchSkillSnapshot, Option.filter_some, if_pos (by simpa using table.ids_ne row hrow)]
  exact table.get_of_mem hrow

/-- What a materialisation that succeeds has written: the rows that are reached. -/
lemma materializeSnapshot_eq_ok {skillName : String}
    {skillHash snapshotId skillExecutionHash : Option String} {files : Dict String SkillFiles}
    (h : materializeSnapshot lib table skillName skillHash snapshotId skillExecutionHash =
      .ok files) :
    ∃ row ∈ table.rows, fetchSkillSnapshot table skillHash snapshotId = some row ∧
      row.skillName = skillName ∧ checkExecutionHash lib table row skillExecutionHash =
        .ok () ∧
      ∃ written, files = (Materialized.ofRows written).files ∧
        Added lib table [] [] (· = row) written ∧ Finished lib table written row := by
  unfold materializeSnapshot at h
  dsimp only at h
  split at h
  · exact absurd h Except.throw_ne_ok
  · next row hfetch =>
    have hrow := fetchSkillSnapshot_mem hfetch
    obtain ⟨_, hname, h⟩ := Except.bind_eq_ok.mp h
    rw [raiseIf_eq_ok] at hname
    obtain ⟨_, -, h⟩ := Except.bind_eq_ok.mp h
    obtain ⟨acc, hwalk, h⟩ := Except.bind_eq_ok.mp h
    rw [Except.pure_eq_ok] at h
    have hstart : (⟨[], [], []⟩ : Materialized) = .ofRows [] := rfl
    rw [hstart] at hwalk
    have hcheck : checkExecutionHash lib table row skillExecutionHash = .ok () := by
      obtain ⟨-, -, ⟨hid, -⟩ | ⟨-, -, hcheck, -⟩⟩ := materializeTree_succ.mp hwalk
      · cases hid
      · exact hcheck
    obtain ⟨written, rfl, hadded, hfinished⟩ := materializeTree_spec writing_nil hrow hwalk
    exact ⟨row, hrow, hfetch, by simpa using hname, hcheck, written, h.symm, hadded, hfinished⟩

/-- Every name stands for one of the rows that are reached. -/
lemma namesUnique_of_finished {row : SkillSnapshot} {written : List SkillSnapshot}
    (hnames : (written.map SkillSnapshot.skillName).Nodup)
    (h : Finished lib table written row) :
    DependencyGraph.NamesUnique SkillSnapshot.skillName (copyChildren lib table) row :=
  fun a b ha hb hname => List.inj_on_of_nodup_map hnames (h.2 a ha) (h.2 b hb) hname

/-- **Where a materialisation succeeds**: every dependency resolves, no row depends on itself, and
no name stands for two rows. -/
lemma materializeSnapshot_ok {row : SkillSnapshot} (hrow : row ∈ table.rows)
    (hverifies : ∀ row ∈ table.rows, Verifies lib row)
    (hgrounded : DependencyGraph.Grounded (copyChildren lib table) row)
    (hunique : DependencyGraph.NamesUnique SkillSnapshot.skillName (copyChildren lib table) row)
    {skillHash skillExecutionHash : Option String}
    (hskillHash : ∀ hash, skillHash = some hash → hash = row.contentHash)
    (hexecutionHash : ∀ hash, skillExecutionHash = some hash →
      executionHash lib table row = .ok hash) :
    ∃ files, materializeSnapshot lib table row.skillName skillHash (some row.id)
      skillExecutionHash = .ok files := by
  have hfetch := fetchSkillSnapshot_of_id hrow skillHash
  have hcheck : checkExecutionHash lib table row skillExecutionHash = .ok () := by
    cases skillExecutionHash with
    | none => rfl
    | some hash =>
      refine Except.bind_eq_ok.mpr ⟨hash, hexecutionHash hash rfl, ?_⟩
      rw [raiseIf_eq_ok]
      simp
  have hsound := hgrounded.sound hunique .refl [] (by simp)
  have hfuel : DependencyGraph.remaining table.names [] < table.depth := by
    rw [DependencyGraph.remaining_nil, SkillTable.names, List.length_map, SkillTable.depth]
    omega
  obtain ⟨acc, hwalk⟩ := materializeTree_ok hrow hunique
    (fun r hr => (hverifies r (reaches_mem hrow hr)).verifySnapshotRow (by simp)) writing_nil
    (by simp) .refl hsound hcheck hfuel
  refine ⟨acc.files, ?_⟩
  rw [materializeSnapshot]
  simp only [hfetch]
  refine Except.bind_eq_ok.mpr ⟨(), ?_, Except.bind_eq_ok.mpr ⟨(),
    (hverifies row hrow).verifySnapshotRow hskillHash, Except.bind_eq_ok.mpr ⟨acc, hwalk, rfl⟩⟩⟩
  rw [raiseIf_eq_ok]
  simp

/-- An execution hash that is met makes no difference. -/
lemma materializeSnapshot_of_executionHash {table : SkillTable} {row : SkillSnapshot}
    {skillName hash : String} {skillHash snapshotId : Option String}
    (hfetch : fetchSkillSnapshot table skillHash snapshotId = some row)
    (hhash : executionHash lib table row = .ok hash) :
    materializeSnapshot lib table skillName skillHash snapshotId (some hash) =
      materializeSnapshot lib table skillName skillHash snapshotId none := by
  have hcheck : checkExecutionHash lib table row (some hash) =
      checkExecutionHash lib table row none := by
    show (executionHash lib table row >>= _) = Except.ok ()
    rw [hhash, Except.ok_bind, raiseIf_eq_ok]
    simp
  unfold materializeSnapshot
  rw [hfetch, SkillTable.depth]
  simp only [materializeTree, hcheck]

/-- **When an accepted snapshot can be materialised.** For every table whose content hashes verify,
every row that the API accepts, and every job that refers to the row by its id and, where it says
so, by its hashes: the bridge materialises the snapshot exactly when, following its own lookups,
every dependency resolves, no row depends on itself, and no skill name stands for two rows. Where
rows are created in the order of their versions the last condition is the only one. -/
theorem materializeSnapshot_ok_iff (lib : ContractLibrary) (table : SkillTable)
    (hverifies : ∀ row ∈ table.rows, Verifies lib.toSkillLibrary row) (row : SkillSnapshot)
    (hrow : row ∈ table.rows) (haccepted : validateSnapshot lib table row = .ok ())
    (skillHash skillExecutionHash : Option String)
    (hskillHash : ∀ hash, skillHash = some hash → hash = row.contentHash)
    (hexecutionHash : ∀ hash, skillExecutionHash = some hash →
      executionHash lib.toSkillLibrary table row = .ok hash) :
    ((∃ files, materializeSnapshot lib.toSkillLibrary table row.skillName skillHash (some row.id)
        skillExecutionHash = .ok files) ↔
      DependencyGraph.Grounded (copyChildren lib.toSkillLibrary table) row ∧
        DependencyGraph.NamesUnique SkillSnapshot.skillName
          (copyChildren lib.toSkillLibrary table) row) ∧
    (CreatedInOrder table →
      ((∃ files, materializeSnapshot lib.toSkillLibrary table row.skillName skillHash
          (some row.id) skillExecutionHash = .ok files) ↔
        DependencyGraph.NamesUnique SkillSnapshot.skillName
          (copyChildren lib.toSkillLibrary table) row)) := by
  have hiff : (∃ files, materializeSnapshot lib.toSkillLibrary table row.skillName skillHash
        (some row.id) skillExecutionHash = .ok files) ↔
      DependencyGraph.Grounded (copyChildren lib.toSkillLibrary table) row ∧
        DependencyGraph.NamesUnique SkillSnapshot.skillName
          (copyChildren lib.toSkillLibrary table) row := by
    constructor
    · rintro ⟨files, h⟩
      obtain ⟨row', -, hfetch, -, -, written, -, hadded, hfinished⟩ := materializeSnapshot_eq_ok h
      rw [fetchSkillSnapshot_of_id hrow] at hfetch
      cases hfetch
      have hnames := hadded.writing.names
      rw [List.nil_append] at hnames
      exact ⟨hfinished.1, namesUnique_of_finished hnames hfinished⟩
    · rintro ⟨hgrounded, hunique⟩
      exact materializeSnapshot_ok hrow hverifies hgrounded hunique hskillHash hexecutionHash
  refine ⟨hiff, fun horder => hiff.trans (and_iff_right ?_)⟩
  exact (sound_of_validateSnapshot horder haccepted).grounded

lemma sampleTable_verifies : ∀ row ∈ sampleTable.rows, Verifies sampleLibrary row := by
  intro row hrow
  simp only [sampleTable, List.mem_cons, List.not_mem_nil, or_false] at hrow
  unfold Verifies
  rcases hrow with rfl | rfl
  all_goals rfl

/-- `materializeSnapshot_ok_iff` at the sample, whose snapshot of reports is accepted and
materialised. -/
theorem sampleTable_materialised :
    validateSnapshot sampleContract sampleTable reportSnapshot = .ok () ∧
      DependencyGraph.NamesUnique SkillSnapshot.skillName
        (copyChildren sampleContract.toSkillLibrary sampleTable) reportSnapshot := by
  have haccepted : validateSnapshot sampleContract sampleTable reportSnapshot = .ok () := by
    rfl
  have hexecution : executionHash sampleContract.toSkillLibrary sampleTable reportSnapshot =
      .ok "2086ee6fae469cb0599cc740147d4914fef12e7e1ac5fab86ca1e6e27ea74b14" :=
    executionHash_report rfl rfl rfl rfl rfl rfl rfl
  have hfiles : materializeSnapshot sampleContract.toSkillLibrary sampleTable "report"
      (some reportSnapshot.contentHash) (some reportSnapshot.id)
      (some "2086ee6fae469cb0599cc740147d4914fef12e7e1ac5fab86ca1e6e27ea74b14") =
        .ok [("report", reportFiles), ("triage", triageFiles)] := by
    have hfetch : fetchSkillSnapshot sampleTable (some reportSnapshot.contentHash)
        (some reportSnapshot.id) = some reportSnapshot := rfl
    rw [materializeSnapshot_of_executionHash hfetch hexecution]
    rfl
  have hiff := (materializeSnapshot_ok_iff sampleContract sampleTable sampleTable_verifies
    reportSnapshot (by simp [sampleTable]) haccepted (some reportSnapshot.contentHash)
    (some "2086ee6fae469cb0599cc740147d4914fef12e7e1ac5fab86ca1e6e27ea74b14") (by simp)
    (by rintro hash ⟨⟩; exact hexecution)).1
  exact ⟨haccepted, (hiff.mp ⟨_, hfiles⟩).2⟩

/-! ## A diamond -/

/-- The files of a skill that two others depend on, and those after an edit. -/
def sharedFiles : SkillFiles := ⟨"# C\n", "{}", "id: c\n"⟩

def editedFiles : SkillFiles := ⟨"# C, again\n", "{}", "id: c\n"⟩

/-- The files of the two skills that depend on it, and of the one that depends on both. -/
def leftFiles : SkillFiles := ⟨"# A\n", "{}", "id: a\ndependencies: [c]\n"⟩

def rightFiles : SkillFiles := ⟨"# B\n", "{}", "id: b\ndependencies: [c]\n"⟩

def topFiles : SkillFiles := ⟨"# R\n", "{}", "id: r\ndependencies: [a, b]\n"⟩

/-- The digests of the files of the diamond. -/
def diamondDigests : Dict (List UInt8) String := [
  (framedFiles sharedFiles, "5d1f4c2294fe8dac47e3a543c4183c02872af64656c87659b0432db3d876588b"),
  (framedFiles editedFiles, "4fd29b890582aacd681662e54b79edefe678bb76d9730235bf1b26d0ba65c77b"),
  (framedFiles leftFiles, "faf2c11ac85c64b4f9861e58e6ec8ddfde07349b1b0865459dbc6afab0a9ebac"),
  (framedFiles rightFiles, "23db244fd12cbafa33af9815bba47fc980e168b016a238de2fa3356e60e56eba"),
  (framedFiles topFiles, "86a6fc4942da4703f2c55612e33e848f66c3a541351503acb07308b1a6491354")]

/-- What the manifests of the diamond say. -/
def diamondManifests : Dict String Yaml := [
  (sharedFiles.manifestYaml, .map [(.str "id", .str "c")]),
  (leftFiles.manifestYaml, .map [(.str "id", .str "a"), (.str "dependencies", .seq [.str "c"])]),
  (rightFiles.manifestYaml, .map [(.str "id", .str "b"), (.str "dependencies", .seq [.str "c"])]),
  (topFiles.manifestYaml,
    .map [(.str "id", .str "r"), (.str "dependencies", .seq [.str "a", .str "b"])])]

/-- Libraries that answer as the real ones do on the diamond. -/
def diamondLibrary : ContractLibrary where
  sha256Hex := fun text => (Dict.get? diamondDigests text).getD ""
  safeLoad := fun text => match Dict.get? diamondManifests text with
    | some manifest => .ok manifest
    | none => .error "not in the sample"
  parseInt := fun _ => none
  repr := fun _ => ""
  loadSchema := sampleLoadSchema

/-- A row of the diamond. -/
def diamondRow (files : SkillFiles) (id skillName : String) (versionLabel createdAt : ℤ)
    (dependencySnapshotIds : Dict String String) (isActive : Bool) : SkillSnapshot where
  toSkillFiles := files
  id := id
  skillName := skillName
  versionLabel := versionLabel
  contentHash := (Dict.get? diamondDigests (framedFiles files)).getD ""
  executionHash := none
  dependencySnapshotIds := dependencySnapshotIds
  createdAt := some createdAt
  isActive := isActive

/-- The skill that depends on both others, each of which is pinned to a version of its own of the
shared one. -/
def topSnapshot : SkillSnapshot :=
  diamondRow topFiles "55555555-5555-4555-8555-555555555555" "r" 1 5
    [("a", "33333333-3333-4333-8333-333333333333"),
      ("b", "44444444-4444-4444-8444-444444444444")] true

/-- A skill that was published, edited, and published again between two that depend on it. -/
def diamondTable : SkillTable where
  rows := [
    diamondRow sharedFiles "11111111-1111-4111-8111-111111111111" "c" 1 1 [] false,
    diamondRow leftFiles "33333333-3333-4333-8333-333333333333" "a" 1 2
      [("c", "11111111-1111-4111-8111-111111111111")] true,
    diamondRow editedFiles "22222222-2222-4222-8222-222222222222" "c" 2 3 [] true,
    diamondRow rightFiles "44444444-4444-4444-8444-444444444444" "b" 1 4
      [("c", "22222222-2222-4222-8222-222222222222")] true,
    topSnapshot]
  nodup := by decide
  ids_ne := by decide

/-- **An accepted snapshot that cannot be materialised**: the API follows each pin on its own, and
the bridge refuses the name that is reached over two paths. -/
theorem diamondTable_not_materialised :
    (∀ row ∈ diamondTable.rows, Verifies diamondLibrary.toSkillLibrary row) ∧
      validateSnapshot diamondLibrary diamondTable topSnapshot = .ok () ∧
      materializeSnapshot diamondLibrary.toSkillLibrary diamondTable "r" none
          (some topSnapshot.id) none =
        .error (snapshotMissing ("dependency name c resolves to multiple snapshots: " ++
          "11111111-1111-4111-8111-111111111111 and " ++
          "22222222-2222-4222-8222-222222222222")) := by
  refine ⟨fun row hrow => ?_, by rfl, by rfl⟩
  simp only [diamondTable, List.mem_cons, List.not_mem_nil, or_false] at hrow
  unfold Verifies
  rcases hrow with rfl | rfl | rfl | rfl | rfl
  all_goals rfl

end Skills
