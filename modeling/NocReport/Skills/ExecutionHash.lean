import NocReport.Foundation.DependencyGraph
import NocReport.Skills.Snapshot

set_option relaxedAutoImplicit false
set_option autoImplicit false

/-!
# The execution hash

The execution hash of a snapshot covers its own content hash and, recursively, those of the
snapshots its dependencies were resolved to. The API computes it when it creates a snapshot, the
bridge when it runs one, and a migration computed it for the rows there were before. The three
walk the same graph, each with code of its own.

## Main definitions

* `Skills.Hashing`, `Skills.hashWalk` — what the implementations differ in, and the recursion.
* `Skills.computeExecutionHash` — the hash of the API.
* `Skills.executionHash` — the hash of the bridge.
* `Skills.backfillHash` — the hash of the migration.

## Main results

* `Skills.hashWalk_fuel` — the recursion ends.
* `Skills.computeExecutionHash_agrees` — the API and the bridge agree.
-/

namespace Skills

variable (lib : SkillLibrary) (table : SkillTable)

/-! ## The recursion -/

/-- What the implementations of the execution hash differ in; `γ` is what they say about a
dependency. -/
structure Hashing (γ : Type) where
  /-- the exception for a skill that depends on itself -/
  cyclic : String → PyError
  /-- the dependencies that the manifest of a row declares -/
  dependencies : SkillSnapshot → Except PyError (List Yaml)
  /-- what is said about a dependency of a row, given the hashes of rows below -/
  component : SkillSnapshot → Yaml → (SkillSnapshot → Except PyError String) → Except PyError γ
  /-- the list of what is said, sorted, as objects -/
  objects : List γ → List JsonText

/-- The execution hash of a row below the skills in `active`; the recursion goes down at most as
far as there is fuel. -/
def hashWalk {γ : Type} (impl : Hashing γ) :
    ℕ → List String → SkillSnapshot → Except PyError String
  | 0, _, _ => throw (.custom (py "RecursionError") (py "maximum recursion depth exceeded"))
  | fuel + 1, active, row =>
    if row.skillName ∈ active then throw (impl.cyclic row.skillName)
    else do
      let dependencies ← impl.dependencies row
      let components ← dependencies.mapM fun dependency =>
        impl.component row dependency (hashWalk impl fuel (row.skillName :: active))
      return payloadHash lib row.contentHash (impl.objects components)

/-- The names of the skills in the table. -/
def SkillTable.names : List String := table.rows.map SkillSnapshot.skillName

/-- As far as a walk over the table can go down. -/
def SkillTable.depth : ℕ := table.rows.length + 2

/-! ## Dependencies -/

/-- `dependency if isinstance(dependency, str) else dependency.get("id")`. -/
def dependencyName : Yaml → Except PyError Yaml
  | .str name => pure (.str name)
  | dependency => dependency.get "id"

/-- The version that a dependency asks for; a bare name asks for none. -/
def declaredVersion : Yaml → Yaml
  | .map fields => (Yaml.field? fields "version").getD .null
  | _ => .null

/-- The id under which a dependency is pinned, unless it is empty. -/
def pinnedId (snapshot : SkillSnapshot) (name : Yaml) : Except PyError (Option String) :=
  match name with
  | .str name => pure ((Dict.get? snapshot.dependencySnapshotIds name).filter (· ≠ ""))
  | .seq _ | .map _ => throw .typeError
  | _ => pure none

/-- `manifest.get("dependencies", [])` of the manifest of a row. -/
def declaredDependencies (row : SkillSnapshot) : Except PyError Yaml := do
  let manifest ← lib.load row.manifestYaml
  manifest.orEmpty.getD "dependencies" (.seq [])

/-! ## The API -/

/-- `_dependency_snapshot`. -/
def dependencySnapshot (snapshot : SkillSnapshot) (dependency : Yaml) :
    Except PyError (Option SkillSnapshot) := do
  let name ← dependencyName dependency
  match ← pinnedId snapshot name with
  | some id => return table.get id
  | none => do
    let rows ← table.named name
    let version := declaredVersion dependency
    if version.isNull then return highestVersion rows
    else do
      let version ← lib.int version
      return highestVersion (rows.filter fun row => row.versionLabel = version)

/-- The row of a dependency, which has the name that is declared. -/
def registryChild (snapshot : SkillSnapshot) (dependency : Yaml) :
    Except PyError SkillSnapshot := do
  let name ← dependencyName dependency
  let unresolvable := PyError.valueError
    (py ("unresolvable skill dependency: " ++ lib.repr dependency))
  match ← dependencySnapshot lib table snapshot dependency with
  | some child => if name.isText child.skillName then return child else throw unresolvable
  | none => throw unresolvable

/-- The implementation of the API. -/
def registryHashing : Hashing Component where
  cyclic name := .valueError (py ("cyclic skill dependency: " ++ name))
  dependencies row := do (← declaredDependencies lib row).iter
  component row dependency hash := do
    let child ← registryChild lib table row dependency
    let executionHash ← hash child
    return ⟨child.skillName, child.contentHash, executionHash⟩
  objects components := (sortComponents components).map Component.toJson

/-- `compute_execution_hash`. -/
def computeExecutionHash (snapshot : SkillSnapshot) : Except PyError String :=
  hashWalk lib (registryHashing lib table) table.depth [] snapshot

/-! ## The bridge -/

/-- `fetch_dependency_snapshot`. -/
def fetchDependencySnapshot (dependency : Yaml) : Except PyError (Option SkillSnapshot) := do
  let name ← dependencyName dependency
  let version := declaredVersion dependency
  if version.isNull then do
    let rows ← table.named name
    return highestVersion rows
  else do
    let version ← lib.int version
    let rows ← table.named name
    return highestVersion (rows.filter fun row => row.versionLabel = version)

/-- The row that a dependency is pinned to, or else the one that is found by its name. -/
def fetchChild (snapshot : SkillSnapshot) (dependency : Yaml) (name : Yaml) :
    Except PyError (Option SkillSnapshot) := do
  match ← pinnedId snapshot name with
  | some id => return table.get id
  | none => fetchDependencySnapshot lib table dependency

/-- The row of a dependency, which has the name that is declared. -/
def hashChild (snapshot : SkillSnapshot) (dependency : Yaml) : Except PyError SkillSnapshot := do
  let name ← dependencyName dependency
  let missing := snapshotMissing ("dependency snapshot is missing: " ++ lib.repr dependency)
  match ← fetchChild lib table snapshot dependency name with
  | some child => if name.isText child.skillName then return child else throw missing
  | none => throw missing

/-- `manifest.get("dependencies", []) or []`. -/
def dependenciesOrEmpty (row : SkillSnapshot) : Except PyError (List Yaml) := do
  let dependencies ← declaredDependencies lib row
  if dependencies.truthy then dependencies.iter else return []

/-- The implementation of the bridge. -/
def bridgeHashing : Hashing Component where
  cyclic name := snapshotMissing ("cyclic skill dependency: " ++ name)
  dependencies row := dependenciesOrEmpty lib row
  component row dependency hash := do
    let child ← hashChild lib table row dependency
    let executionHash ← hash child
    return ⟨child.skillName, child.contentHash, executionHash⟩
  objects components := (sortComponents components).map Component.toJson

/-- `_execution_hash`. -/
def executionHash (snapshot : SkillSnapshot) : Except PyError String :=
  hashWalk lib (bridgeHashing lib table) table.depth [] snapshot

/-! ## The recursion ends -/

/-- What an implementation says about a dependency depends on the hashes of rows of the table. -/
def Hashing.Local {γ : Type} (impl : Hashing γ) : Prop :=
  ∀ row dependency hash hash', (∀ child ∈ table.rows, hash child = hash' child) →
    impl.component row dependency hash = impl.component row dependency hash'

variable {lib table}

/-- **The recursion ends.** Fuel for more skills than there are names left is as good as any. -/
lemma hashWalk_fuel {γ : Type} {impl : Hashing γ} (hlocal : impl.Local table) {fuel fuel' : ℕ}
    {active : List String} {row : SkillSnapshot} (hrow : row ∈ table.rows)
    (hfuel : DependencyGraph.remaining table.names active < fuel)
    (hfuel' : DependencyGraph.remaining table.names active < fuel') :
    hashWalk lib impl fuel active row = hashWalk lib impl fuel' active row := by
  induction fuel generalizing fuel' active row with
  | zero => omega
  | succ fuel ih =>
    cases fuel' with
    | zero => omega
    | succ fuel' =>
      rw [hashWalk, hashWalk]
      split
      · rfl
      · next hactive =>
        have hless : DependencyGraph.remaining table.names (row.skillName :: active) <
            DependencyGraph.remaining table.names active :=
          DependencyGraph.remaining_cons_lt (List.mem_map_of_mem hrow) hactive
        have hbelow : ∀ child ∈ table.rows,
            hashWalk lib impl fuel (row.skillName :: active) child =
              hashWalk lib impl fuel' (row.skillName :: active) child :=
          fun child hchild => ih hchild (by omega) (by omega)
        simp only [fun dependency => hlocal row dependency _ _ hbelow]

/-- Implementations agree when they agree about dependencies. -/
lemma hashWalk_agree {γ : Type} (impl impl' : Hashing γ) (hobjects : impl.objects = impl'.objects)
    (hdependencies : ∀ row ∈ table.rows, (impl.dependencies row).Agree (impl'.dependencies row))
    (hcomponent : ∀ row dependency hash hash',
      (∀ child ∈ table.rows, (hash child).Agree (hash' child)) →
      (impl.component row dependency hash).Agree (impl'.component row dependency hash'))
    (fuel : ℕ) (active : List String) {row : SkillSnapshot} (hrow : row ∈ table.rows) :
    (hashWalk lib impl fuel active row).Agree (hashWalk lib impl' fuel active row) := by
  induction fuel generalizing active row with
  | zero => exact fun h => ⟨fun h' => absurd h' Except.throw_ne_ok,
      fun h' => absurd h' Except.throw_ne_ok⟩
  | succ fuel ih =>
    rw [hashWalk, hashWalk]
    split
    · exact fun h => ⟨fun h' => absurd h' Except.throw_ne_ok,
        fun h' => absurd h' Except.throw_ne_ok⟩
    · refine (hdependencies row hrow).bind fun dependencies _ => ?_
      refine Except.Agree.bind (.mapM fun dependency _ => ?_) fun components _ => ?_
      · exact hcomponent row dependency _ _ fun child hchild => ih _ hchild
      · rw [hobjects]
        exact .refl _

/-! ## The rows that dependencies are resolved to -/

lemma highestVersion_named {name : Yaml} {rows : List SkillSnapshot}
    (h : table.named name = .ok rows) {p : SkillSnapshot → Bool} {child : SkillSnapshot}
    (hchild : highestVersion (rows.filter p) = some child) : child ∈ table.rows :=
  (table.mem_of_named h (List.mem_filter.mp (highestVersion_mem hchild)).1).1

lemma fetchDependencySnapshot_mem {dependency : Yaml} {child : SkillSnapshot}
    (h : fetchDependencySnapshot lib table dependency = .ok (some child)) : child ∈ table.rows := by
  obtain ⟨name, -, h⟩ := Except.bind_eq_ok.mp h
  dsimp only at h
  split at h
  · obtain ⟨rows, hrows, h⟩ := Except.bind_eq_ok.mp h
    rw [Except.pure_eq_ok] at h
    exact (table.mem_of_named hrows (highestVersion_mem h)).1
  · obtain ⟨number, -, h⟩ := Except.bind_eq_ok.mp h
    obtain ⟨rows, hrows, h⟩ := Except.bind_eq_ok.mp h
    rw [Except.pure_eq_ok] at h
    exact highestVersion_named hrows h

lemma fetchChild_mem {snapshot : SkillSnapshot} {dependency name : Yaml} {child : SkillSnapshot}
    (h : fetchChild lib table snapshot dependency name = .ok (some child)) :
    child ∈ table.rows := by
  obtain ⟨pinned, -, h⟩ := Except.bind_eq_ok.mp h
  split at h
  · rw [Except.pure_eq_ok] at h
    exact (table.get_mem h).1
  · exact fetchDependencySnapshot_mem h

/-- The row of a dependency is in the table, and has the name that is declared. -/
lemma hashChild_mem {snapshot : SkillSnapshot} {dependency : Yaml} {child : SkillSnapshot}
    (h : hashChild lib table snapshot dependency = .ok child) :
    child ∈ table.rows ∧ ∃ name, dependencyName dependency = .ok name ∧
      name.isText child.skillName = true ∧
      fetchChild lib table snapshot dependency name = .ok (some child) := by
  obtain ⟨name, hname, h⟩ := Except.bind_eq_ok.mp h
  obtain ⟨found, hfound, h⟩ := Except.bind_eq_ok.mp h
  split at h
  · next found' =>
    split at h
    · next htext =>
      rw [Except.pure_eq_ok] at h
      subst h
      exact ⟨fetchChild_mem hfound, name, hname, htext, hfound⟩
    · exact absurd h Except.throw_ne_ok
  · exact absurd h Except.throw_ne_ok

/-! ## The API and the bridge -/

/-- The API and the bridge find the same row by name. -/
lemma fetchDependencySnapshot_agrees {dependency name : Yaml}
    (hname : dependencyName dependency = .ok name) :
    Except.Agree (do
      let rows ← table.named name
      if (declaredVersion dependency).isNull then return highestVersion rows
      else do
        let version ← lib.int (declaredVersion dependency)
        return highestVersion (rows.filter fun row => row.versionLabel = version))
      (fetchDependencySnapshot lib table dependency) := by
  intro found
  rw [fetchDependencySnapshot, hname]
  by_cases hnull : (declaredVersion dependency).isNull = true
  · simp only [hnull, if_true]
    exact Iff.rfl
  · simp only [hnull]
    constructor
    · intro h
      obtain ⟨rows, hrows, h⟩ := Except.bind_eq_ok.mp h
      obtain ⟨version, hversion, h⟩ := Except.bind_eq_ok.mp h
      exact Except.bind_eq_ok.mpr ⟨name, rfl, Except.bind_eq_ok.mpr ⟨version, hversion,
        Except.bind_eq_ok.mpr ⟨rows, hrows, h⟩⟩⟩
    · intro h
      obtain ⟨name', hname', h⟩ := Except.bind_eq_ok.mp h
      cases hname'
      obtain ⟨version, hversion, h⟩ := Except.bind_eq_ok.mp h
      obtain ⟨rows, hrows, h⟩ := Except.bind_eq_ok.mp h
      exact Except.bind_eq_ok.mpr ⟨rows, hrows, Except.bind_eq_ok.mpr ⟨version, hversion, h⟩⟩

/-- The API and the bridge resolve a dependency to the same row. -/
lemma dependencySnapshot_agrees (snapshot : SkillSnapshot) {dependency name : Yaml}
    (hname : dependencyName dependency = .ok name) :
    (dependencySnapshot lib table snapshot dependency).Agree
      (fetchChild lib table snapshot dependency name) := by
  have hunfold : dependencySnapshot lib table snapshot dependency = (do
      match ← pinnedId snapshot name with
      | some id => return table.get id
      | none => do
        let rows ← table.named name
        if (declaredVersion dependency).isNull then return highestVersion rows
        else do
          let version ← lib.int (declaredVersion dependency)
          return highestVersion (rows.filter fun row => row.versionLabel = version)) := by
    rw [dependencySnapshot, hname]
    rfl
  rw [hunfold, fetchChild]
  refine (Except.Agree.refl _).bind fun pinned _ => ?_
  split
  · exact .refl _
  · exact fetchDependencySnapshot_agrees hname

lemma registryChild_agrees (snapshot : SkillSnapshot) (dependency : Yaml) :
    (registryChild lib table snapshot dependency).Agree
      (hashChild lib table snapshot dependency) := by
  refine (Except.Agree.refl _).bind fun name hname => ?_
  refine (dependencySnapshot_agrees snapshot hname).bind fun found _ => ?_
  have hthrow : ∀ e e' : PyError,
      Except.Agree (throw e : Except PyError SkillSnapshot) (throw e') := fun e e' h =>
    ⟨fun h' => absurd h' Except.throw_ne_ok, fun h' => absurd h' Except.throw_ne_ok⟩
  split
  · split
    · exact .refl _
    · exact hthrow _ _
  · exact hthrow _ _

/-- Every manifest that is an object has a list of dependencies, or none. -/
def DependenciesAreLists (lib : SkillLibrary) (table : SkillTable) : Prop :=
  ∀ row ∈ table.rows, ∀ fields, lib.safeLoad row.manifestYaml = .ok (.map fields) →
    ∀ dependencies, Yaml.field? fields "dependencies" = some dependencies →
      ∃ xs, dependencies = .seq xs

lemma declaredDependencies_isList (hlists : DependenciesAreLists lib table) {row : SkillSnapshot}
    (hrow : row ∈ table.rows) {dependencies : Yaml}
    (h : declaredDependencies lib row = .ok dependencies) : ∃ xs, dependencies = .seq xs := by
  obtain ⟨manifest, hmanifest, h⟩ := Except.bind_eq_ok.mp h
  unfold SkillLibrary.load at hmanifest
  split at hmanifest
  · next loaded hloaded =>
    rw [Except.pure_eq_ok] at hmanifest
    subst hmanifest
    unfold Yaml.orEmpty at h
    split at h
    · cases loaded with
      | map fields =>
        rw [Yaml.getD, Except.pure_eq_ok] at h
        cases hfield : Yaml.field? fields "dependencies" with
        | none => exact ⟨[], by rw [← h, hfield, Option.getD_none]⟩
        | some v =>
          obtain ⟨xs, rfl⟩ := hlists row hrow fields hloaded v hfield
          exact ⟨xs, by rw [← h, hfield, Option.getD_some]⟩
      | null | bool | int | float | str | bytes | other | seq =>
        exact absurd h Except.throw_ne_ok
    · exact ⟨[], (Except.pure_eq_ok.mp h).symm⟩
  · exact absurd hmanifest Except.throw_ne_ok

lemma registryHashing_local : (registryHashing lib table).Local table := by
  intro row dependency hash hash' hbelow
  show registryChild lib table row dependency >>= _ = registryChild lib table row dependency >>= _
  cases hchild : registryChild lib table row dependency with
  | error e => rfl
  | ok child =>
    have hmem := (hashChild_mem ((registryChild_agrees row dependency child).mp hchild)).1
    simp only [bind, Except.bind, hbelow child hmem]

lemma bridgeHashing_local : (bridgeHashing lib table).Local table := by
  intro row dependency hash hash' hbelow
  show hashChild lib table row dependency >>= _ = hashChild lib table row dependency >>= _
  cases hchild : hashChild lib table row dependency with
  | error e => rfl
  | ok child => simp only [bind, Except.bind, hbelow child (hashChild_mem hchild).1]

/-- Fuel for more skills than there are rows is as good as any. -/
lemma hashWalk_depth {γ : Type} {impl : Hashing γ} (hlocal : impl.Local table)
    {row : SkillSnapshot} (hrow : row ∈ table.rows) {fuel : ℕ} (hfuel : table.rows.length < fuel) :
    hashWalk lib impl fuel [] row = hashWalk lib impl table.depth [] row := by
  have hremaining : DependencyGraph.remaining table.names [] = table.rows.length := by
    rw [DependencyGraph.remaining_nil, SkillTable.names, List.length_map]
  refine hashWalk_fuel hlocal hrow (by omega) ?_
  rw [hremaining, SkillTable.depth]
  omega

/-- **The API and the bridge agree** on the execution hash of every row of every table whose
manifests have lists of dependencies or none: either both reject the row, or they compute the same
hash. Both recursions end: fuel for more skills than there are rows changes nothing. -/
theorem computeExecutionHash_agrees (lib : SkillLibrary) (table : SkillTable)
    (hlists : DependenciesAreLists lib table) (row : SkillSnapshot) (hrow : row ∈ table.rows) :
    (∀ hash, computeExecutionHash lib table row = .ok hash ↔
        executionHash lib table row = .ok hash) ∧
      ∀ fuel, table.rows.length < fuel →
        hashWalk lib (registryHashing lib table) fuel [] row = computeExecutionHash lib table row ∧
          hashWalk lib (bridgeHashing lib table) fuel [] row = executionHash lib table row := by
  refine ⟨hashWalk_agree (registryHashing lib table) (bridgeHashing lib table) rfl ?_ ?_ _ _ hrow,
    fun fuel hfuel => ⟨hashWalk_depth registryHashing_local hrow hfuel,
      hashWalk_depth bridgeHashing_local hrow hfuel⟩⟩
  · intro row hrow
    refine (Except.Agree.refl _).bind fun dependencies hdependencies => ?_
    obtain ⟨xs, rfl⟩ := declaredDependencies_isList hlists hrow hdependencies
    cases xs <;> exact .refl _
  · intro row dependency hash hash' hbelow
    refine (registryChild_agrees row dependency).bind fun child hchild => ?_
    have hmem := (hashChild_mem ((registryChild_agrees row dependency child).mp hchild)).1
    exact (hbelow child hmem).bind fun _ _ => .refl _

/-! ## Walks over the graph of dependencies -/

/-- What a hash that has been computed is made of. -/
lemma hashWalk_eq_ok {γ : Type} {impl : Hashing γ} {fuel : ℕ} {active : List String}
    {row : SkillSnapshot} {hash : String} (h : hashWalk lib impl fuel active row = .ok hash) :
    row.skillName ∉ active ∧ ∃ below dependencies components, fuel = below + 1 ∧
      impl.dependencies row = .ok dependencies ∧
      List.Forall₂ (fun dependency c => impl.component row dependency
        (hashWalk lib impl below (row.skillName :: active)) = .ok c) dependencies components ∧
      hash = payloadHash lib row.contentHash (impl.objects components) := by
  cases fuel with
  | zero => exact absurd h Except.throw_ne_ok
  | succ below =>
    rw [hashWalk] at h
    split at h
    · exact absurd h Except.throw_ne_ok
    · next hactive =>
      obtain ⟨dependencies, hdependencies, h⟩ := Except.bind_eq_ok.mp h
      obtain ⟨components, hcomponents, h⟩ := Except.bind_eq_ok.mp h
      exact ⟨hactive, below, dependencies, components, rfl, hdependencies,
        Except.mapM_eq_ok.mp hcomponents, (Except.pure_eq_ok.mp h).symm⟩

lemma hashWalk_ok {γ : Type} {impl : Hashing γ} {fuel : ℕ} {active : List String}
    {row : SkillSnapshot} {dependencies : List Yaml} {components : List γ}
    (hactive : row.skillName ∉ active) (hdependencies : impl.dependencies row = .ok dependencies)
    (hcomponents : List.Forall₂ (fun dependency c => impl.component row dependency
      (hashWalk lib impl fuel (row.skillName :: active)) = .ok c) dependencies components) :
    hashWalk lib impl (fuel + 1) active row =
      .ok (payloadHash lib row.contentHash (impl.objects components)) := by
  rw [hashWalk, if_neg hactive, hdependencies, Except.ok_bind, Except.mapM_eq_ok.mpr hcomponents]
  rfl

/-- A hash is computed where a walk does not fail, if an implementation can say something about
each dependency once there are hashes for the children. -/
lemma hashWalk_ok_of_sound {γ : Type} {impl : Hashing γ}
    (children : SkillSnapshot → Option (List SkillSnapshot))
    (hmem : ∀ row cs, children row = some cs → ∀ c ∈ cs, c ∈ table.rows)
    (hcomponent : ∀ row cs, children row = some cs → ∃ dependencies,
      impl.dependencies row = .ok dependencies ∧ ∀ dependency ∈ dependencies, ∀ hash,
        (∀ c ∈ cs, ∃ h, hash c = .ok h) → ∃ c, impl.component row dependency hash = .ok c)
    {fuel : ℕ} {active : List String} {row : SkillSnapshot} (hrow : row ∈ table.rows)
    (hsound : DependencyGraph.Sound SkillSnapshot.skillName children active row)
    (hfuel : DependencyGraph.remaining table.names active < fuel) :
    ∃ hash, hashWalk lib impl fuel active row = .ok hash := by
  induction fuel generalizing active row with
  | zero => omega
  | succ fuel ih =>
    obtain ⟨hactive, hcs, hchildren⟩ := hsound
    obtain ⟨dependencies, hdependencies, hall⟩ := hcomponent _ _ hcs
    have hless : DependencyGraph.remaining table.names (row.skillName :: active) <
        DependencyGraph.remaining table.names active :=
      DependencyGraph.remaining_cons_lt (List.mem_map_of_mem hrow) hactive
    obtain ⟨components, hcomponents⟩ := Except.exists_mapM_eq_ok fun dependency hdependency =>
      hall dependency hdependency
        (hashWalk lib impl fuel (row.skillName :: active)) fun c hc =>
          ih (hmem _ _ hcs c hc) (hchildren c hc) (by omega)
    refine ⟨payloadHash lib row.contentHash (impl.objects components), ?_⟩
    rw [hashWalk, if_neg hactive, hdependencies]
    exact Except.bind_eq_ok.mpr ⟨dependencies, rfl, Except.bind_eq_ok.mpr
      ⟨components, hcomponents, rfl⟩⟩

/-- The rows that the bridge resolves the dependencies of a row to, if it can resolve all. -/
def hashChildren (lib : SkillLibrary) (table : SkillTable) (row : SkillSnapshot) :
    Option (List SkillSnapshot) :=
  match dependenciesOrEmpty lib row with
  | .ok dependencies => (dependencies.mapM (hashChild lib table row)).toOption
  | .error _ => none

lemma hashChildren_eq_some {row : SkillSnapshot} {cs : List SkillSnapshot} :
    hashChildren lib table row = some cs ↔ ∃ dependencies,
      dependenciesOrEmpty lib row = .ok dependencies ∧
        List.Forall₂ (fun dependency c => hashChild lib table row dependency = .ok c)
          dependencies cs := by
  unfold hashChildren
  cases hdependencies : dependenciesOrEmpty lib row with
  | error e => simp
  | ok dependencies =>
    rw [← Except.eq_ok_iff_toOption, Except.mapM_eq_ok]
    simp

lemma hashChildren_mem {row : SkillSnapshot} {cs : List SkillSnapshot}
    (h : hashChildren lib table row = some cs) : ∀ c ∈ cs, c ∈ table.rows := by
  obtain ⟨dependencies, -, hall⟩ := hashChildren_eq_some.mp h
  clear h
  induction hall with
  | nil => simp
  | cons hchild _ ih =>
    intro c hc
    rcases List.mem_cons.mp hc with rfl | hc
    · exact (hashChild_mem hchild).1
    · exact ih c hc

/-- **The bridge computes a hash where every dependency resolves and no skill depends on
itself.** -/
lemma executionHash_ok_of_sound {row : SkillSnapshot} (hrow : row ∈ table.rows)
    (hsound : DependencyGraph.Sound SkillSnapshot.skillName (hashChildren lib table) [] row) :
    ∃ hash, executionHash lib table row = .ok hash := by
  refine hashWalk_ok_of_sound (hashChildren lib table) (fun _ _ => hashChildren_mem) ?_ hrow hsound
    ?_
  · intro row cs hcs
    obtain ⟨dependencies, hdependencies, hall⟩ := hashChildren_eq_some.mp hcs
    refine ⟨dependencies, hdependencies, fun dependency hdependency hash hhash => ?_⟩
    obtain ⟨c, hc, hchild⟩ := Except.exists_of_mapM_eq_ok (Except.mapM_eq_ok.mpr hall) hdependency
    obtain ⟨h, hh⟩ := hhash c hc
    exact ⟨_, Except.bind_eq_ok.mpr ⟨c, hchild, Except.bind_eq_ok.mpr ⟨h, hh, rfl⟩⟩⟩
  · rw [DependencyGraph.remaining_nil, SkillTable.names, List.length_map, SkillTable.depth]
    omega

/-! ## A sample -/

/-- Bytes of a text with its length. -/
def framed (s : String) : List UInt8 := bigEndian8 (encodeUtf8 s).length ++ encodeUtf8 s

/-- The text under the content hash of some files. -/
def framedFiles (files : SkillFiles) : List UInt8 :=
  framed files.skillMd ++ framed files.outputSchemaJson ++ framed files.manifestYaml

/-- The files of the skill that reads logs. -/
def triageFiles : SkillFiles := ⟨"# Triage\n", "{}", "id: triage\ndependencies: []\n"⟩

/-- The files of the skill that writes reports, which depends on the other. -/
def reportFiles : SkillFiles := ⟨"# Report\n", "{}", "id: report\ndependencies: [triage]\n"⟩

/-- The digests of the texts that the sample hashes. -/
def sampleDigests : Dict (List UInt8) String := [
  (framed triageFiles.skillMd ++ framed triageFiles.outputSchemaJson ++
      framed triageFiles.manifestYaml,
    "50da8b9915255272b3e0b46677161ceac971d433bb378a0f41aacd83e223bec5"),
  (framed reportFiles.skillMd ++ framed reportFiles.outputSchemaJson ++
      framed reportFiles.manifestYaml,
    "51f75cbcbfb54838325c7dc3eec4306b789211f4a134c3f580a5ce886a5948e4"),
  (encodeUtf8 ("\x7b\"content_hash\":\"" ++
      "50da8b9915255272b3e0b46677161ceac971d433bb378a0f41aacd83e223bec5" ++
      "\",\"dependencies\":[]\x7d"),
    "868e1d65a08f810bd21a133300cf8192726a9f90228c041347b2a3e9e47ede2e"),
  (encodeUtf8 ("\x7b\"content_hash\":\"" ++
      "51f75cbcbfb54838325c7dc3eec4306b789211f4a134c3f580a5ce886a5948e4" ++
      "\",\"dependencies\":[\x7b\"content_hash\":\"" ++
      "50da8b9915255272b3e0b46677161ceac971d433bb378a0f41aacd83e223bec5\",\"execution_hash\":\"" ++
      "868e1d65a08f810bd21a133300cf8192726a9f90228c041347b2a3e9e47ede2e\",\"id\":\"triage\"\x7d]\x7d"),
    "2086ee6fae469cb0599cc740147d4914fef12e7e1ac5fab86ca1e6e27ea74b14"),
  (encodeUtf8 ("\x7b\"content_hash\":\"" ++
      "51f75cbcbfb54838325c7dc3eec4306b789211f4a134c3f580a5ce886a5948e4" ++
      "\",\"dependencies\":[\x7b\"execution_hash\":\"" ++
      "868e1d65a08f810bd21a133300cf8192726a9f90228c041347b2a3e9e47ede2e\",\"id\":\"triage\"\x7d]\x7d"),
    "b2b73733cda224f205c2be2db76d0d65bb33945b78ecba74cb5f068377d86f8e")]

/-- The digests of the sample; any other text is written out. -/
def sampleSha256 (text : List UInt8) : String :=
  (Dict.get? sampleDigests text).getD
    (String.ofList ('x' :: text.map fun b => Char.ofNat b.toNat))

/-- The sample has no collisions. -/
lemma sampleSha256_injective : Function.Injective sampleSha256 := by
  have hvalues : (sampleDigests.map (·.2)).Nodup := by decide +kernel
  have hdigit : ∀ p ∈ sampleDigests, p.2.toList.head? ≠ some 'x' := by decide +kernel
  have hwritten : Function.Injective fun b : UInt8 => Char.ofNat b.toNat := by
    have hall : ∀ m < 256, (Char.ofNat m).toNat = m := by decide +kernel
    intro a b hab
    have hnat := congrArg Char.toNat hab
    rw [hall _ a.toNat_lt, hall _ b.toNat_lt] at hnat
    exact UInt8.toNat_inj.mp hnat
  intro a b hab
  unfold sampleSha256 at hab
  cases ha : Dict.get? sampleDigests a with
  | none =>
    cases hb : Dict.get? sampleDigests b with
    | none =>
      rw [ha, hb, Option.getD_none, Option.getD_none] at hab
      have hchars := String.ofList_injective hab
      exact hwritten.list_map (List.cons.inj hchars).2
    | some d =>
      rw [ha, hb, Option.getD_none, Option.getD_some] at hab
      exact absurd (by rw [← hab, String.toList_ofList, List.head?_cons])
        (hdigit _ (Dict.mem_of_get?_eq_some hb))
  | some d =>
    cases hb : Dict.get? sampleDigests b with
    | none =>
      rw [ha, hb, Option.getD_none, Option.getD_some] at hab
      exact absurd (by rw [hab, String.toList_ofList, List.head?_cons])
        (hdigit _ (Dict.mem_of_get?_eq_some ha))
    | some e =>
      rw [ha, hb, Option.getD_some, Option.getD_some] at hab
      have hpair := List.inj_on_of_nodup_map hvalues (Dict.mem_of_get?_eq_some ha)
        (Dict.mem_of_get?_eq_some hb) hab
      exact congrArg Prod.fst hpair

/-- What the manifests of the sample say. -/
def sampleManifests : Dict String Yaml := [
  (triageFiles.manifestYaml, .map [(.str "id", .str "triage"), (.str "dependencies", .seq [])]),
  (reportFiles.manifestYaml,
    .map [(.str "id", .str "report"), (.str "dependencies", .seq [.str "triage"])])]

/-- Libraries that answer as the real ones do on the sample. -/
def sampleLibrary : SkillLibrary where
  sha256Hex := sampleSha256
  safeLoad := fun text => match Dict.get? sampleManifests text with
    | some manifest => .ok manifest
    | none => .error "not in the sample"
  parseInt := fun _ => none
  repr := fun _ => ""

/-- The snapshot of the skill that reads logs. -/
def triageSnapshot : SkillSnapshot where
  toSkillFiles := triageFiles
  id := "11111111-1111-4111-8111-111111111111"
  skillName := "triage"
  versionLabel := 1
  contentHash := "50da8b9915255272b3e0b46677161ceac971d433bb378a0f41aacd83e223bec5"
  executionHash := none
  dependencySnapshotIds := []
  createdAt := some 0
  isActive := true

/-- The snapshot of the skill that writes reports. -/
def reportSnapshot : SkillSnapshot where
  toSkillFiles := reportFiles
  id := "22222222-2222-4222-8222-222222222222"
  skillName := "report"
  versionLabel := 1
  contentHash := "51f75cbcbfb54838325c7dc3eec4306b789211f4a134c3f580a5ce886a5948e4"
  executionHash := none
  dependencySnapshotIds := [("triage", "11111111-1111-4111-8111-111111111111")]
  createdAt := some 0
  isActive := true

/-- A table of the two snapshots. -/
def sampleTable : SkillTable where
  rows := [triageSnapshot, reportSnapshot]
  nodup := by decide
  ids_ne := by decide

lemma sampleTable_lists : DependenciesAreLists sampleLibrary sampleTable := by
  intro row hrow fields hfields dependencies hdependencies
  simp only [sampleTable, List.mem_cons, List.not_mem_nil, or_false] at hrow
  rcases hrow with rfl | rfl
  · cases hfields
    cases hdependencies
    exact ⟨_, rfl⟩
  · cases hfields
    cases hdependencies
    exact ⟨_, rfl⟩

lemma triageSnapshot_payloadHash : payloadHash sampleLibrary triageSnapshot.contentHash [] =
    "868e1d65a08f810bd21a133300cf8192726a9f90228c041347b2a3e9e47ede2e" := by decide +kernel

lemma reportSnapshot_payloadHash :
    payloadHash sampleLibrary reportSnapshot.contentHash [Component.toJson ⟨"triage",
      triageSnapshot.contentHash,
      "868e1d65a08f810bd21a133300cf8192726a9f90228c041347b2a3e9e47ede2e"⟩] =
    "2086ee6fae469cb0599cc740147d4914fef12e7e1ac5fab86ca1e6e27ea74b14" := by decide +kernel

/-- The execution hash of the skill that writes reports, where its dependency is the other. -/
lemma executionHash_report {table : SkillTable} {row child : SkillSnapshot}
    (hdependencies : dependenciesOrEmpty sampleLibrary row = .ok [.str "triage"])
    (hchild : hashChild sampleLibrary table row (.str "triage") = .ok child)
    (hleaf : dependenciesOrEmpty sampleLibrary child = .ok [])
    (hrow : row.skillName = "report") (hname : child.skillName = "triage")
    (hcontent : row.contentHash = reportSnapshot.contentHash)
    (hchildContent : child.contentHash = triageSnapshot.contentHash) :
    executionHash sampleLibrary table row =
      .ok "2086ee6fae469cb0599cc740147d4914fef12e7e1ac5fab86ca1e6e27ea74b14" := by
  have hbelow : hashWalk sampleLibrary (bridgeHashing sampleLibrary table) (table.rows.length + 1)
      [row.skillName] child =
        .ok "868e1d65a08f810bd21a133300cf8192726a9f90228c041347b2a3e9e47ede2e" := by
    have hactive : child.skillName ∉ [row.skillName] := by
      rw [hrow, hname]
      decide
    refine (hashWalk_ok hactive hleaf .nil).trans ?_
    rw [hchildContent]
    exact congrArg _ triageSnapshot_payloadHash
  have hcomponent : (bridgeHashing sampleLibrary table).component row (.str "triage")
      (hashWalk sampleLibrary (bridgeHashing sampleLibrary table) (table.rows.length + 1)
        [row.skillName]) = .ok ⟨"triage", triageSnapshot.contentHash,
          "868e1d65a08f810bd21a133300cf8192726a9f90228c041347b2a3e9e47ede2e"⟩ := by
    refine Except.bind_eq_ok.mpr ⟨child, hchild, Except.bind_eq_ok.mpr ⟨_, hbelow, ?_⟩⟩
    rw [hname, hchildContent]
    rfl
  refine (hashWalk_ok List.not_mem_nil hdependencies (.cons hcomponent .nil)).trans ?_
  rw [hcontent]
  exact congrArg _ reportSnapshot_payloadHash

/-- `computeExecutionHash_agrees` speaks about the sample, which both accept. -/
theorem sampleTable_agrees :
    computeExecutionHash sampleLibrary sampleTable reportSnapshot =
        .ok "2086ee6fae469cb0599cc740147d4914fef12e7e1ac5fab86ca1e6e27ea74b14" ∧
      executionHash sampleLibrary sampleTable reportSnapshot =
        .ok "2086ee6fae469cb0599cc740147d4914fef12e7e1ac5fab86ca1e6e27ea74b14" := by
  have hexecution : executionHash sampleLibrary sampleTable reportSnapshot =
      .ok "2086ee6fae469cb0599cc740147d4914fef12e7e1ac5fab86ca1e6e27ea74b14" :=
    executionHash_report rfl rfl rfl rfl rfl rfl rfl
  exact ⟨((computeExecutionHash_agrees sampleLibrary sampleTable sampleTable_lists reportSnapshot
    (by simp [sampleTable])).1 _).mpr hexecution, hexecution⟩

end Skills
