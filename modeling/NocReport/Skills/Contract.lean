import NocReport.Skills.ExecutionHash

set_option relaxedAutoImplicit false
set_option autoImplicit false

/-!
# The contract of a skill

Before the API stores or activates a snapshot it checks what the manifest declares, and that the
dependencies resolve without a cycle. A dependency that is not pinned is resolved to the row that
was created last.

## Main definitions

* `Skills.ContractLibrary` — the libraries, with the one that reads JSON Schemas.
* `Skills.resolveDependencySnapshot` — the row that a dependency is resolved to.
* `Skills.validateDependencyGraph` — the walk over the graph of dependencies.
* `Skills.validateSnapshot` — all checks.

## Main results

* `Skills.validateDependencyGraph_sound` — an accepted graph is sound.
* `Skills.validateSnapshot_sound` — so is that of an accepted snapshot.
-/

namespace Skills

/-- The libraries, with the one that reads JSON Schemas. -/
structure ContractLibrary extends SkillLibrary where
  /-- `json.loads` followed by `Draft7Validator.check_schema`, or the message of its error -/
  loadSchema : String → Except String Json

variable (lib : ContractLibrary) (table : SkillTable)

/-- `SkillContractError`. -/
def contractError (message : String) : PyError := .custom (py "SkillContractError") (py message)

/-! ## Values -/

/-- `v in s` and `v not in s` for a set `s` hash the value, which a list or an object cannot be. -/
def inSet (v : Yaml) (texts : List String) : Except PyError Bool :=
  match v with
  | .str s => pure (texts.contains s)
  | .seq _ | .map _ => throw .typeError
  | _ => pure false

/-- `isinstance(v, str)`. -/
def isStr : Yaml → Bool
  | .str _ => true
  | _ => false

/-- `isinstance(v, bool)`. -/
def isBool : Yaml → Bool
  | .bool _ => true
  | _ => false

/-- `manifest.get(k)` of a manifest that is an object. -/
def fieldOr (manifest : List (Yaml × Yaml)) (k : String) (d : Yaml) : Yaml :=
  (Yaml.field? manifest k).getD d

/-- Raises the error unless the condition holds. -/
def require (condition : Bool) (message : String) : Except PyError Unit :=
  raiseIf (!condition) (contractError message)

/-- `load_manifest`. -/
def loadManifest (snapshot : SkillSnapshot) : Except PyError (List (Yaml × Yaml)) :=
  match lib.safeLoad snapshot.manifestYaml with
  | .ok (.map manifest) => pure manifest
  | .ok _ => throw (contractError "skill manifest must be an object")
  | .error message =>
    throw (contractError (snapshot.skillName ++ " manifest is invalid: " ++ message))

/-- `load_schema`. -/
def loadSchema (snapshot : SkillSnapshot) : Except PyError Json :=
  match lib.loadSchema snapshot.outputSchemaJson with
  | .ok schema => pure schema
  | .error message =>
    throw (contractError (snapshot.skillName ++ " output schema is invalid: " ++ message))

/-- `load_schema(snapshot).get("properties") or {}`; in a schema that has been checked it is an
object. -/
def schemaProperties (snapshot : SkillSnapshot) : Except PyError Json.Fields := do
  let schema ← loadSchema lib snapshot
  let properties ← schema.getD (py "properties") .null
  match properties.or (.obj []) with
  | .obj fields => return fields
  | _ => throw .typeError

/-! ## The graph of dependencies -/

/-- The name and the version that a dependency declares. -/
def declaredDependency (dependency : Yaml) : Except PyError (Yaml × Yaml) :=
  match dependency with
  | .str name => pure (.str name, .null)
  | .map fields => pure (fieldOr fields "id" .null, fieldOr fields "version" .null)
  | _ => throw (contractError "skill dependency must be a name or \x7bid, version\x7d")

/-- `pinned_ids.get(name)`. -/
def pinFor (pinnedIds : Dict String String) (name : Yaml) : Except PyError (Option String) :=
  match name with
  | .str name => pure (Dict.get? pinnedIds name)
  | .seq _ | .map _ => throw .typeError
  | _ => pure none

/-- The row that a dependency is pinned to, which has the name and the version that are declared. -/
def resolvePinned (dependency name version : Yaml) (id : String) : Except PyError SkillSnapshot :=
  match table.get id with
  | some pinned =>
    if name.isText pinned.skillName then
      if version.isNull then pure pinned
      else do
        let requested ← lib.intOr
          (contractError ("invalid dependency version: " ++ lib.str dependency)) version
        require (pinned.versionLabel = requested)
          ("pinned dependency version does not match: " ++ lib.str dependency)
        return pinned
    else throw (contractError ("unresolvable pinned skill dependency: " ++ lib.str dependency))
  | none => throw (contractError ("unresolvable pinned skill dependency: " ++ lib.str dependency))

/-- The row that was created last, of those with the name and the version that are declared. -/
def resolveNamed (dependency name version : Yaml) : Except PyError (Option SkillSnapshot) :=
  if version.isNull then do
    let rows ← table.named name
    return latestCreated rows
  else do
    let requested ← lib.intOr
      (contractError ("invalid dependency version: " ++ lib.str dependency)) version
    let rows ← table.named name
    return latestCreated (rows.filter fun row => row.versionLabel = requested)

/-- `_resolve_dependency_snapshot`. -/
def resolveDependencySnapshot (dependency : Yaml) (pinnedIds : Dict String String) :
    Except PyError SkillSnapshot := do
  let (name, version) ← declaredDependency dependency
  require name.truthy ("skill dependency is missing an id: " ++ lib.str dependency)
  match ← pinFor pinnedIds name with
  | some id => resolvePinned lib table dependency name version id
  | none =>
    match ← resolveNamed lib table dependency name version with
    | some row => return row
    | none => throw (contractError ("unresolvable skill dependency: " ++ lib.str dependency))

/-- The dependencies of a manifest. -/
def manifestDependencies (manifest : List (Yaml × Yaml)) : Except PyError (List Yaml) :=
  match fieldOr manifest "dependencies" (.seq []) with
  | .seq dependencies => pure dependencies
  | _ => throw (contractError "manifest dependencies must be a list")

/-- `_validate_dependency_graph`, which goes down at most as far as there is fuel. -/
def validateDependencyGraph : ℕ → List String → SkillSnapshot → Except PyError Unit
  | 0, _, _ => throw (.custom (py "RecursionError") (py "maximum recursion depth exceeded"))
  | fuel + 1, active, snapshot =>
    if snapshot.skillName ∈ active then
      throw (contractError ("cyclic skill dependency: " ++ snapshot.skillName))
    else do
      let manifest ← loadManifest lib snapshot
      let dependencies ← manifestDependencies manifest
      dependencies.forM fun dependency => do
        let child ← resolveDependencySnapshot lib table dependency snapshot.dependencySnapshotIds
        validateDependencyGraph fuel (snapshot.skillName :: active) child

/-! ## The manifest -/

/-- The names of the renderer profiles; none at all is also supported. -/
def supportedRendererProfiles : List String := ["daily_report_docx", "report-document-v1"]

def supportedInputContracts : List String := ["log-evidence-v1", "daily-report-context-v1"]

def supportedReportExportContracts : List String := ["report-fragment-v1"]

def supportedPresentationExportContracts : List String := ["analysis-presentation-v1"]

def supportedReasoningExportAdapters : List String := ["log-triage-v1"]

def supportedPresentationExportAdapters : List String := ["log-triage-v1"]

/-- The check of one of the two exports. -/
def validateExport (snapshot : SkillSnapshot) (exports : List (Yaml × Yaml)) (kind : String)
    (contracts adapters : List String) (property : String) (adapterMessage : String) :
    Except PyError Unit :=
  match fieldOr exports kind .null with
  | .null => pure ()
  | .map fields =>
    match fieldOr fields "contract" .null with
    | .str contract => do
      require (contracts.contains contract)
        ("unsupported " ++ kind ++ " export contract: " ++ contract)
      let properties ← schemaProperties lib snapshot
      let adapter ← inSet (fieldOr fields "adapter" .null) adapters
      require (adapter || Dict.contains properties (py property)) adapterMessage
    | _ => throw (contractError ("manifest exports." ++ kind ++ ".contract is required"))
  | _ => throw (contractError ("manifest exports." ++ kind ++ ".contract is required"))

/-- The check of the field `exports`. -/
def validateExports (snapshot : SkillSnapshot) (manifest : List (Yaml × Yaml)) :
    Except PyError Unit :=
  match fieldOr manifest "exports" .null with
  | .null => pure ()
  | .map exports => do
    validateExport lib snapshot exports "reasoning" supportedReportExportContracts
      supportedReasoningExportAdapters "report_context"
      "reasoning export needs a supported adapter or report_context output"
    validateExport lib snapshot exports "presentation" supportedPresentationExportContracts
      supportedPresentationExportAdapters "report_presentation"
      "presentation export needs a supported adapter or report_presentation output"
  | _ => throw (contractError "manifest exports must be an object")

/-- The check of the field `coverage`. -/
def validateCoverage (manifest : List (Yaml × Yaml)) : Except PyError Unit :=
  match fieldOr manifest "coverage" .null with
  | .null => pure ()
  | .map coverage => do
    let incidents ← inSet (fieldOr coverage "incidents" (.str "optional"))
      ["all", "optional", "none"]
    require incidents "manifest coverage.incidents is invalid"
    let analyses ← inSet (fieldOr coverage "analyses" (.str "optional"))
      ["all_available", "optional", "none"]
    require analyses "manifest coverage.analyses is invalid"
    ["allow_duplicate_incidents", "allow_duplicate_analyses"].forM fun key =>
      require (((Yaml.field? coverage key).map isBool).getD true)
        ("manifest coverage." ++ key ++ " must be boolean")
  | _ => throw (contractError "manifest coverage must be an object")

/-- `fields or {}` maps texts to texts. -/
def textFields (fields : Yaml) (notObject notTexts : String) : Except PyError Unit :=
  match fields.orEmpty with
  | .map fields => require (fields.all fun p => isStr p.1 && isStr p.2) notTexts
  | _ => throw (contractError notObject)

/-- The check of one of the collections of the field `input_projection`. -/
def validateCollection (name collection : Yaml) : Except PyError Unit :=
  match name, collection with
  | .str name, .map collection => do
    require (isStr (fieldOr collection "source" .null))
      ("input_projection collection " ++ name ++ " source is required")
    textFields (fieldOr collection "fields" .null)
      ("input_projection collection " ++ name ++ " fields are invalid")
      ("input_projection collection " ++ name ++ " fields are invalid")
  | _, _ => throw (contractError "input_projection collection is invalid")

/-- The check of the field `input_projection`. -/
def validateProjection (manifest : List (Yaml × Yaml)) : Except PyError Unit :=
  match fieldOr manifest "input_projection" .null with
  | .null => pure ()
  | .map projection => do
    textFields (fieldOr projection "fields" .null) "input_projection fields must be an object"
      "input_projection fields must map names to JSON paths"
    match (fieldOr projection "collections" .null).orEmpty with
    | .map collections => collections.forM fun p => validateCollection p.1 p.2
    | _ => throw (contractError "input_projection collections must be an object")
  | _ => throw (contractError "manifest input_projection must be an object")

/-- A text that is not blank. -/
def notBlank : Yaml → Bool
  | .str s => s.toList.any fun c => !PyStr.isSpace c.toNat
  | _ => false

/-- `validate_input` for an input that is not null. -/
def validateInput (snapshot : SkillSnapshot) : Except PyError Unit := do
  let manifest ← loadManifest lib snapshot
  match fieldOr manifest "input_contract" .null with
  | .str contract =>
    require (supportedInputContracts.contains contract) ("unsupported input contract: " ++ contract)
  | .null => return ()
  | .map contract => do
    let version := fieldOr contract "version" .null
    if !version.isNull then do
      let supported ← inSet version supportedInputContracts
      require supported ("unsupported input contract: " ++ lib.str version)
    require (notBlank (fieldOr contract "filename" .null)) "input contract filename is required"
    require (notBlank (fieldOr contract "intro_text" .null))
      "input contract intro_text is required"
  | _ => throw (contractError "manifest input_contract must be a supported name or object")

/-- The check that the manifest is that of the skill, before the graph is walked over. -/
def validateIdentity (snapshot : SkillSnapshot) (manifest : List (Yaml × Yaml)) :
    Except PyError Unit := do
  require ((fieldOr manifest "id" (fieldOr manifest "name" .null)).isText snapshot.skillName)
    "manifest id does not match snapshot skill name"
  match fieldOr manifest "output_schema" .null with
  | .null => return ()
  | .map schema =>
    require ((fieldOr schema "file" .null).isText "output.schema.json")
      "manifest must declare output.schema.json"
  | _ => throw (contractError "manifest must declare output.schema.json")

/-- The checks of the remaining fields of the manifest, after the graph has been walked over. -/
def validateFields (snapshot : SkillSnapshot) (manifest : List (Yaml × Yaml)) :
    Except PyError Unit := do
  let rendererProfile := fieldOr manifest "renderer_profile" .null
  let rendererSupported ← inSet rendererProfile supportedRendererProfiles
  require (rendererProfile.isNull || rendererSupported)
    ("unsupported renderer profile: " ++ lib.str rendererProfile)
  let exportContract := fieldOr manifest "report_export_contract" .null
  let exportSupported ← inSet exportContract supportedReportExportContracts
  require (exportContract.isNull || exportSupported)
    ("unsupported report export contract: " ++ lib.str exportContract)
  validateExports lib snapshot manifest
  match fieldOr manifest "execution_policy" .null with
  | .null | .map _ => pure ()
  | _ => throw (contractError "manifest execution_policy must be an object")
  validateCoverage manifest
  validateProjection manifest
  let _ ← loadSchema lib snapshot
  validateInput lib snapshot

/-- `validate_snapshot`. -/
def validateSnapshot (snapshot : SkillSnapshot) : Except PyError Unit := do
  require (notBlank (.str snapshot.skillMd)) "skill instructions must not be empty"
  let manifest ← loadManifest lib snapshot
  validateIdentity snapshot manifest
  let _ ← manifestDependencies manifest
  validateDependencyGraph lib table table.depth [] snapshot
  validateFields lib snapshot manifest

variable {lib table}

/-! ## An accepted graph is sound -/

/-- The rows that the API resolves the dependencies of a row to, if it can resolve all. -/
def contractChildren (lib : ContractLibrary) (table : SkillTable) (row : SkillSnapshot) :
    Option (List SkillSnapshot) :=
  match loadManifest lib row with
  | .ok manifest =>
    match manifestDependencies manifest with
    | .ok dependencies => (dependencies.mapM fun dependency =>
        resolveDependencySnapshot lib table dependency row.dependencySnapshotIds).toOption
    | .error _ => none
  | .error _ => none

lemma forM_eq_ok {α : Type} {f : α → Except PyError Unit} {xs : List α}
    (h : xs.forM f = .ok ()) : ∀ x ∈ xs, f x = .ok () := by
  induction xs with
  | nil => simp
  | cons x xs ih =>
    change (f x >>= fun _ => xs.forM f) = _ at h
    obtain ⟨u, hu, h⟩ := Except.bind_eq_ok.mp h
    intro y hy
    rcases List.mem_cons.mp hy with rfl | hy
    · exact hu
    · exact ih h y hy

/-- **An accepted graph is sound**: every dependency resolves, and no name recurs on a way
down. -/
lemma validateDependencyGraph_sound {fuel : ℕ} {active : List String} {row : SkillSnapshot}
    (h : validateDependencyGraph lib table fuel active row = .ok ()) :
    DependencyGraph.Sound SkillSnapshot.skillName (contractChildren lib table) active row := by
  induction fuel generalizing active row with
  | zero => exact absurd h Except.throw_ne_ok
  | succ fuel ih =>
    rw [validateDependencyGraph] at h
    split at h
    · exact absurd h Except.throw_ne_ok
    · next hactive =>
      obtain ⟨manifest, hmanifest, h⟩ := Except.bind_eq_ok.mp h
      obtain ⟨dependencies, hdependencies, h⟩ := Except.bind_eq_ok.mp h
      have hall := forM_eq_ok h
      obtain ⟨cs, hcs⟩ := Except.exists_mapM_eq_ok fun dependency hmem => by
        obtain ⟨child, hchild, -⟩ := Except.bind_eq_ok.mp (hall dependency hmem)
        exact ⟨child, hchild⟩
      have hchildren : contractChildren lib table row = some cs := by
        simp only [contractChildren, hmanifest, hdependencies]
        exact Except.eq_ok_iff_toOption.mp hcs
      refine .intro hactive hchildren fun c hc => ?_
      obtain ⟨dependency, hmem, hchild⟩ := Except.mem_of_mapM_eq_ok hcs hc
      obtain ⟨child, hchild', hgraph⟩ := Except.bind_eq_ok.mp (hall dependency hmem)
      rw [hchild] at hchild'
      cases hchild'
      exact ih hgraph

lemma validateSnapshot_sound {row : SkillSnapshot} (h : validateSnapshot lib table row = .ok ()) :
    DependencyGraph.Sound SkillSnapshot.skillName (contractChildren lib table) [] row := by
  obtain ⟨-, -, h⟩ := Except.bind_eq_ok.mp h
  obtain ⟨manifest, -, h⟩ := Except.bind_eq_ok.mp h
  obtain ⟨-, -, h⟩ := Except.bind_eq_ok.mp h
  obtain ⟨-, -, h⟩ := Except.bind_eq_ok.mp h
  obtain ⟨⟨⟩, hgraph, -⟩ := Except.bind_eq_ok.mp h
  exact validateDependencyGraph_sound hgraph

/-! ## A sample -/

/-- The library of schemas of the samples, whose schemas are all empty. -/
def sampleLoadSchema (text : String) : Except String Json :=
  if text = "{}" then .ok (.obj []) else .error "not in the sample"

/-- The libraries of the sample, with the one that reads schemas. -/
def sampleContract : ContractLibrary where
  toSkillLibrary := sampleLibrary
  loadSchema := sampleLoadSchema

end Skills
