import Mathlib.Logic.Relation
import NocReport.Foundation.Fuel
import NocReport.Skills.Activation
import NocReport.Skills.Depth

set_option relaxedAutoImplicit false
set_option autoImplicit false

/-!
# Registration and cycles

`get_or_create_snapshot` records a dependency that is not in the table by a call of itself, before
it checks anything about cycles. Here is when these calls end.

## Main definitions

* `Skills.Terminates` — the calls nest only so deep, whatever the limit.
* `Skills.Visit`, `Skills.Calls` — a call for a skill with the table it finds, and the call it makes
  for a dependency that is not in the table.
* `Skills.Adds`, `Skills.Grows` — the new rows of calls that succeed.

## Main results

* `Skills.persists` — what is registered stays registered.
* `Skills.cycle_at_end` — a skill that comes up below itself comes up again below that, with the
  same table.
* `Skills.registration_terminates_iff` — the calls end exactly when no skill comes up below itself.
* `Skills.registration_terminates_of_acyclic` — which is so when the dependencies that are not in
  the table form no cycle.
-/

namespace Skills

open Relation (ReflTransGen TransGen)

section Terms

variable (lib : ContractLibrary) (session : Session)

/-- However deep calls may nest, the registration does not run out of that: it returns, or raises an
error of its own. -/
def Terminates (activate : Option Bool) (skillName : String) (table : SkillTable) : Prop :=
  ∃ depth, ∀ limit, depth ≤ limit → ∀ table',
    getOrCreateSnapshot lib session limit activate skillName table ≠ .error recursionError table'

/-- What a declared dependency asks for: a skill, and a version of it or the active one. -/
def dependencyTarget (dependency : Yaml) : Except PyError (Option (String × Option ℤ)) := do
  let name ← dependencyName dependency
  if !name.truthy then return none
  else do
    let version ← if (declaredVersion dependency).isNull then pure none
      else some <$> lib.int (declaredVersion dependency)
    match name with
    | .str name => return some (name, version)
    | _ => throw programmingError

/-- The pins with that of what a dependency asks for. -/
def pinTarget (record : String → EStateM PyError SkillTable SkillSnapshot)
    (pins : Dict String String) (target : Option (String × Option ℤ)) :
    EStateM PyError SkillTable (Dict String String) :=
  match target with
  | none => return pins
  | some (name, version) => do
    let table ← get
    match findVersion table name version with
    | some row => return Dict.set pins name row.id
    | none => do
      let row ← record name
      return Dict.set pins name row.id

/-- The calls for the dependencies of a skill. -/
def pinAll (fuel : ℕ) (dependencies : List Yaml) (pins : Dict String String) :
    EStateM PyError SkillTable (Dict String String) :=
  dependencies.foldlM (pinDependency lib (getOrCreateSnapshot lib session fuel none)) pins

/-- A call for a skill, with the table that it finds. -/
structure Visit where
  table : SkillTable
  skillName : String

/-- A call makes another one: for a dependency that is not in the table once the dependencies
before it are pinned. -/
def Calls (p q : Visit) : Prop :=
  ∃ hash files before dependency after version fuel pins,
    readSkill lib session p.skillName = .ok (hash, files, before ++ dependency :: after) ∧
      pinAll lib session fuel before [] p.table = .ok pins q.table ∧
      dependencyTarget lib dependency = .ok (some (q.skillName, version)) ∧
      findVersion q.table q.skillName version = none

/-- The manifests on disk declare finitely many dependencies. -/
def FinitelyDeclared : Prop :=
  ∃ names : List String, ∀ skillName hash files dependencies dependency name version,
    readSkill lib session skillName = .ok (hash, files, dependencies) →
    dependency ∈ dependencies →
    dependencyTarget lib dependency = .ok (some (name, version)) → name ∈ names

end Terms

variable {lib : ContractLibrary} {session : Session} {table table' : SkillTable}
  {skillName hash : String} {files : SkillFiles} {pins pins' : Dict String String}
  {dependencies : List Yaml} {dependency : Yaml} {fuel fuel' : ℕ} {row result : SkillSnapshot}

/-! ## How a call goes -/

section Going

variable {record : String → EStateM PyError SkillTable SkillSnapshot}

lemma pinDependency_eq (pins : Dict String String) (dependency : Yaml) :
    pinDependency lib record pins dependency =
      (EStateM.reading fun _ => dependencyTarget lib dependency) >>= pinTarget record pins := by
  funext table
  simp only [pinDependency, dependencyTarget, bind, EStateM.bind, EStateM.reading]
  cases dependencyName dependency with
  | error e => rfl
  | ok name =>
    simp only [Except.bind]
    cases name.truthy with
    | false => rfl
    | true =>
      cases (declaredVersion dependency).isNull with
      | true => cases name <;> rfl
      | false =>
        cases hversion : lib.int (declaredVersion dependency) with
        | error e => rfl
        | ok version => cases name <;> rfl

lemma pinDependency_eq_ok :
    pinDependency lib record pins dependency table = .ok pins' table' ↔
      ∃ target, dependencyTarget lib dependency = .ok target ∧
        pinTarget record pins target table = .ok pins' table' := by
  rw [pinDependency_eq, EStateM.bind_eq_ok]
  constructor
  · rintro ⟨target, t, hread, h⟩
    obtain ⟨htarget, rfl⟩ := EStateM.reading_eq_ok.mp hread
    exact ⟨target, htarget, h⟩
  · rintro ⟨target, htarget, h⟩
    exact ⟨target, table, EStateM.reading_eq_ok.mpr ⟨htarget, rfl⟩, h⟩

lemma pinDependency_eq_error {e : PyError} :
    pinDependency lib record pins dependency table = .error e table' ↔
      (dependencyTarget lib dependency = .error e ∧ table = table') ∨
        ∃ target, dependencyTarget lib dependency = .ok target ∧
          pinTarget record pins target table = .error e table' := by
  rw [pinDependency_eq, EStateM.bind_eq_error, EStateM.reading_eq_error]
  refine or_congr_right ⟨?_, ?_⟩
  · rintro ⟨target, t, hread, h⟩
    obtain ⟨htarget, rfl⟩ := EStateM.reading_eq_ok.mp hread
    exact ⟨target, htarget, h⟩
  · rintro ⟨target, htarget, h⟩
    exact ⟨target, table, EStateM.reading_eq_ok.mpr ⟨htarget, rfl⟩, h⟩

variable {name : String} {version : Option ℤ}

lemma pinTarget_of_found (h : findVersion table name version = some row) :
    pinTarget record pins (some (name, version)) table = .ok (Dict.set pins name row.id) table := by
  simp only [pinTarget]
  rw [EStateM.get_bind_apply, h]
  rfl

lemma pinTarget_of_none (h : findVersion table name version = none) :
    pinTarget record pins (some (name, version)) table =
      (record name >>= fun row => pure (Dict.set pins name row.id)) table := by
  simp only [pinTarget]
  rw [EStateM.get_bind_apply, h]

/-- How a dependency is pinned. -/
lemma pinTarget_eq_ok {target : Option (String × Option ℤ)}
    (h : pinTarget record pins target table = .ok pins' table') :
    (target = none ∧ pins' = pins ∧ table = table') ∨
      ∃ name version, target = some (name, version) ∧
        ((∃ row, findVersion table name version = some row ∧
            pins' = Dict.set pins name row.id ∧ table = table') ∨
          (findVersion table name version = none ∧
            ∃ row, record name table = .ok row table' ∧ pins' = Dict.set pins name row.id)) := by
  cases target with
  | none =>
    obtain ⟨rfl, rfl⟩ := EStateM.pure_eq_ok.mp h
    exact .inl ⟨rfl, rfl, rfl⟩
  | some target =>
    obtain ⟨name, version⟩ := target
    refine .inr ⟨name, version, rfl, ?_⟩
    cases hfound : findVersion table name version with
    | some row =>
      rw [pinTarget_of_found hfound] at h
      cases h
      exact .inl ⟨row, rfl, rfl, rfl⟩
    | none =>
      rw [pinTarget_of_none hfound] at h
      obtain ⟨row, t, hrow, h⟩ := EStateM.bind_eq_ok.mp h
      obtain ⟨rfl, rfl⟩ := EStateM.pure_eq_ok.mp h
      exact .inr ⟨rfl, row, hrow, rfl⟩

/-- Only the call for a dependency that is not in the table raises. -/
lemma pinTarget_eq_error {target : Option (String × Option ℤ)} {e : PyError}
    (h : pinTarget record pins target table = .error e table') :
    ∃ name version, target = some (name, version) ∧ findVersion table name version = none ∧
      record name table = .error e table' := by
  cases target with
  | none => exact absurd h EStateM.pure_ne_error
  | some target =>
    obtain ⟨name, version⟩ := target
    refine ⟨name, version, rfl, ?_⟩
    cases hfound : findVersion table name version with
    | some row =>
      rw [pinTarget_of_found hfound] at h
      cases h
    | none =>
      rw [pinTarget_of_none hfound] at h
      rcases EStateM.bind_eq_error.mp h with h | ⟨row, t, -, h⟩
      · exact ⟨rfl, h⟩
      · exact absurd h EStateM.pure_ne_error

end Going

/-- How a call that returns has gone. -/
lemma getOrCreateSnapshot_eq_ok {activate : Option Bool} :
    getOrCreateSnapshot lib session (fuel + 1) activate skillName table = .ok result table' ↔
      ∃ hash files dependencies pins pinned,
        readSkill lib session skillName = .ok (hash, files, dependencies) ∧
        pinAll lib session fuel dependencies [] table = .ok pins pinned ∧
        ((existingSnapshot pinned skillName hash pins = some result ∧ pinned = table') ∨
          (existingSnapshot pinned skillName hash pins = none ∧
            createSnapshot lib session activate skillName hash files pins pinned =
              .ok result table')) := by
  constructor
  · intro h
    obtain ⟨⟨hash, files, dependencies⟩, t, hread, h⟩ := EStateM.bind_eq_ok.mp h
    obtain ⟨hskill, rfl⟩ := EStateM.reading_eq_ok.mp hread
    obtain ⟨pins, pinned, hpins, h⟩ := EStateM.bind_eq_ok.mp h
    obtain ⟨_, t, hget, h⟩ := EStateM.bind_eq_ok.mp h
    obtain ⟨rfl, rfl⟩ := EStateM.get_eq_ok.mp hget
    refine ⟨hash, files, dependencies, pins, pinned, hskill, hpins, ?_⟩
    cases hfound : existingSnapshot pinned skillName hash pins with
    | some candidate =>
      rw [hfound] at h
      obtain ⟨rfl, rfl⟩ := EStateM.pure_eq_ok.mp h
      exact .inl ⟨rfl, rfl⟩
    | none =>
      rw [hfound] at h
      exact .inr ⟨rfl, h⟩
  · rintro ⟨hash, files, dependencies, pins, pinned, hread, hpins, hend⟩
    refine EStateM.bind_eq_ok.mpr ⟨_, _, EStateM.reading_eq_ok.mpr ⟨hread, rfl⟩,
      EStateM.bind_eq_ok.mpr ⟨_, _, hpins, EStateM.bind_eq_ok.mpr
        ⟨_, _, EStateM.get_eq_ok.mpr ⟨rfl, rfl⟩, ?_⟩⟩⟩
    rcases hend with ⟨hfound, rfl⟩ | ⟨hfound, hcreate⟩
    · rw [hfound]
      exact EStateM.pure_eq_ok.mpr ⟨rfl, rfl⟩
    · rw [hfound]
      exact hcreate

/-- How a call that raises has gone. -/
lemma getOrCreateSnapshot_eq_error {activate : Option Bool} {e : PyError}
    (h : getOrCreateSnapshot lib session (fuel + 1) activate skillName table = .error e table') :
    readSkill lib session skillName = .error e ∨ ∃ hash files dependencies,
      readSkill lib session skillName = .ok (hash, files, dependencies) ∧
        (pinAll lib session fuel dependencies [] table = .error e table' ∨ ∃ pins pinned,
          createSnapshot lib session activate skillName hash files pins pinned =
            .error e table') := by
  rcases EStateM.bind_eq_error.mp h with h | ⟨⟨hash, files, dependencies⟩, t, hread, h⟩
  · exact .inl (EStateM.reading_eq_error.mp h).1
  obtain ⟨hskill, rfl⟩ := EStateM.reading_eq_ok.mp hread
  refine .inr ⟨hash, files, dependencies, hskill, ?_⟩
  rcases EStateM.bind_eq_error.mp h with h | ⟨pins, pinned, -, h⟩
  · exact .inl h
  rcases EStateM.bind_eq_error.mp h with h | ⟨_, t, hget, h⟩
  · exact absurd h EStateM.get_ne_error
  obtain ⟨rfl, rfl⟩ := EStateM.get_eq_ok.mp hget
  cases hfound : existingSnapshot pinned skillName hash pins with
  | some candidate =>
    rw [hfound] at h
    exact absurd h EStateM.pure_ne_error
  | none =>
    rw [hfound] at h
    exact .inr ⟨pins, pinned, h⟩

/-- What its dependencies raise, a call raises. -/
lemma getOrCreateSnapshot_error_of_pins {activate : Option Bool} {e : PyError}
    (hread : readSkill lib session skillName = .ok (hash, files, dependencies))
    (hpins : pinAll lib session fuel dependencies [] table = .error e table') :
    getOrCreateSnapshot lib session (fuel + 1) activate skillName table = .error e table' :=
  EStateM.bind_eq_error.mpr (.inr ⟨_, _, EStateM.reading_eq_ok.mpr ⟨hread, rfl⟩,
    EStateM.bind_eq_error.mpr (.inl hpins)⟩)

/-! ## More fuel -/

/-- Dependencies are pinned alike by calls that do alike. -/
lemma pinDependency_upTo {record record' : String → EStateM PyError SkillTable SkillSnapshot}
    (hrecord : ∀ name, EStateM.UpTo recursionError (record name) (record' name))
    (pins : Dict String String) (dependency : Yaml) :
    EStateM.UpTo recursionError (pinDependency lib record pins dependency)
      (pinDependency lib record' pins dependency) := by
  rw [pinDependency_eq, pinDependency_eq]
  refine .bind (.refl _ _) fun target => ?_
  cases target with
  | none => exact .refl _ _
  | some target =>
    obtain ⟨name, version⟩ := target
    intro t
    cases hfound : findVersion t name version with
    | some row =>
      rw [pinTarget_of_found hfound, pinTarget_of_found hfound]
      exact .inr rfl
    | none =>
      rw [pinTarget_of_none hfound, pinTarget_of_none hfound]
      exact (hrecord name).bind (fun _ => .refl _ _) t

/-- With more fuel a call does the same, unless it ran out. -/
lemma getOrCreateSnapshot_upTo (h : fuel ≤ fuel') (activate : Option Bool) (skillName : String) :
    EStateM.UpTo recursionError (getOrCreateSnapshot lib session fuel activate skillName)
      (getOrCreateSnapshot lib session fuel' activate skillName) := by
  induction fuel generalizing fuel' activate skillName with
  | zero => exact fun t => .inl ⟨t, rfl⟩
  | succ fuel ih =>
    cases fuel' with
    | zero => omega
    | succ fuel' =>
      exact .bind (.refl _ _) fun skill => .bind
        (.foldlM (fun _ _ => pinDependency_upTo (ih (by omega) none) _ _) _ _)
        fun pins => .refl _ _

lemma pinAll_upTo (h : fuel ≤ fuel') (dependencies : List Yaml) (pins : Dict String String) :
    EStateM.UpTo recursionError (pinAll lib session fuel dependencies pins)
      (pinAll lib session fuel' dependencies pins) :=
  .foldlM (fun _ _ => pinDependency_upTo (getOrCreateSnapshot_upTo h none) _ _) _ _

/-- Two calls that return, return the same, whatever the fuel. -/
lemma getOrCreateSnapshot_unique {activate : Option Bool} {result' : SkillSnapshot}
    {table'' : SkillTable}
    (h : getOrCreateSnapshot lib session fuel activate skillName table = .ok result table')
    (h' : getOrCreateSnapshot lib session fuel' activate skillName table = .ok result' table'') :
    result = result' ∧ table' = table'' :=
  EStateM.UpTo.unique (f := fun fuel => getOrCreateSnapshot lib session fuel activate skillName)
    (fun _ _ hle => getOrCreateSnapshot_upTo hle activate skillName) h h'

lemma pinAll_unique {table'' : SkillTable}
    (h : pinAll lib session fuel dependencies [] table = .ok pins table')
    (h' : pinAll lib session fuel' dependencies [] table = .ok pins' table'') :
    pins = pins' ∧ table' = table'' :=
  EStateM.UpTo.unique (f := fun fuel => pinAll lib session fuel dependencies [])
    (fun _ _ hle => pinAll_upTo hle dependencies []) h h'

/-! ## What is registered stays registered -/

/-- A row is added, of a skill that is not registered: a call for it would change the table. -/
structure Adds (lib : ContractLibrary) (session : Session) (table table' : SkillTable)
    (row : SkillSnapshot) : Prop where
  rows : table'.rows = table.rows ++ [row]
  fresh : ∀ fuel result,
    getOrCreateSnapshot lib session fuel none row.skillName table ≠ .ok result table

lemma SkillTable.eq_of_rows (h : table.rows = table'.rows) : table = table' := by
  cases table
  cases table'
  cases h
  rfl

lemma Extends.antisymm (h : Extends table table') (h' : Extends table' table) : table = table' :=
  SkillTable.eq_of_rows (h.eq_of_length_le h'.length_le)

lemma pinAll_extends (fuel : ℕ) (dependencies : List Yaml) (pins : Dict String String) :
    EStateM.MovesBy Extends (pinAll lib session fuel dependencies pins) :=
  .foldlM Extends.refl Extends.trans
    (fun _ _ => pinDependency_extends (getOrCreateSnapshot_extends fuel) _) _

lemma pinDependency_moves (fuel : ℕ) (dependency : Yaml) (pins : Dict String String) :
    EStateM.MovesBy Extends
      (pinDependency lib (getOrCreateSnapshot lib session fuel none) pins dependency) :=
  pinDependency_extends (getOrCreateSnapshot_extends fuel) dependency

section Versions

variable {name : String} {version : Option ℤ}

/-- A row that is found is still found when rows are added. -/
lemma findVersion_of_extends (h : Extends table table')
    (hfound : findVersion table name version = some row) :
    findVersion table' name version = some row := by
  obtain ⟨more, hmore⟩ := h
  rw [findVersion] at hfound ⊢
  rw [← hmore, List.find?_append, hfound]
  rfl

/-- What is found only later is one of the rows that have been added. -/
lemma findVersion_new (hnone : findVersion table name version = none)
    (hfound : findVersion table' name version = some row) :
    row ∈ table'.rows ∧ row ∉ table.rows ∧ row.skillName = name := by
  have hrow := List.find?_some hfound
  refine ⟨List.mem_of_find?_eq_some hfound, fun hmem => ?_, ?_⟩
  · exact List.find?_eq_none.mp hnone row hmem hrow
  · exact of_decide_eq_true (Bool.and_eq_true_iff.mp hrow).1

lemma Adds.findVersion_eq_none (h : Adds lib session table table' row)
    (hne : row.skillName ≠ name) (hnone : findVersion table name version = none) :
    findVersion table' name version = none := by
  rw [findVersion] at hnone ⊢
  rw [h.rows, List.find?_append, hnone]
  simp [hne]

end Versions

lemma Adds.extended (h : Adds lib session table table' row) : Extends table table' :=
  ⟨[row], h.rows.symm⟩

lemma Adds.existingSnapshot_eq (h : Adds lib session table table' row)
    (hne : row.skillName ≠ skillName) :
    existingSnapshot table' skillName hash pins = existingSnapshot table skillName hash pins := by
  have hhistory : table'.history skillName = table.history skillName := by
    rw [SkillTable.history, h.rows, List.filter_append]
    simp [SkillTable.history, hne]
  rw [existingSnapshot, existingSnapshot, hhistory]

/-- The calls for dependencies that are registered are the same after a row is added. -/
lemma pinAll_persists (hadds : Adds lib session table table' row)
    (hcall : ∀ name result, getOrCreateSnapshot lib session fuel none name table = .ok result table →
      getOrCreateSnapshot lib session fuel none name table' = .ok result table')
    {pins pins' : Dict String String}
    (h : pinAll lib session fuel dependencies pins table = .ok pins' table) :
    pinAll lib session fuel dependencies pins table' = .ok pins' table' := by
  induction dependencies generalizing pins with
  | nil =>
    obtain ⟨rfl, -⟩ := EStateM.foldlM_nil_eq_ok.mp h
    exact EStateM.foldlM_nil_eq_ok.mpr ⟨rfl, rfl⟩
  | cons dependency dependencies ih =>
    obtain ⟨pins₁, t, hfirst, hrest⟩ := EStateM.foldlM_cons_eq_ok.mp h
    -- rows are only added, so none is
    obtain rfl : table = t :=
      ((pinDependency_moves fuel dependency pins).of_ok hfirst).antisymm
        ((pinAll_extends fuel dependencies pins₁).of_ok hrest)
    refine EStateM.foldlM_cons_eq_ok.mpr ⟨pins₁, table', ?_, ih hrest⟩
    obtain ⟨target, htarget, hpin⟩ := pinDependency_eq_ok.mp hfirst
    refine pinDependency_eq_ok.mpr ⟨target, htarget, ?_⟩
    rcases pinTarget_eq_ok hpin with ⟨rfl, rfl, -⟩ |
      ⟨name, version, rfl, ⟨found, hfound, rfl, -⟩ | ⟨hnone, found, hrecord, rfl⟩⟩
    · exact EStateM.pure_eq_ok.mpr ⟨rfl, rfl⟩
    · exact pinTarget_of_found (findVersion_of_extends hadds.extended hfound)
    · have hne : row.skillName ≠ name := by
        intro heq
        exact hadds.fresh fuel found (heq ▸ hrecord)
      rw [pinTarget_of_none (hadds.findVersion_eq_none hne hnone)]
      exact EStateM.bind_eq_ok.mpr ⟨found, table', hcall name found hrecord,
        EStateM.pure_eq_ok.mpr ⟨rfl, rfl⟩⟩

/-- A call that adds no row finds one. -/
lemma existingSnapshot_of_unchanged
    (h : getOrCreateSnapshot lib session (fuel + 1) none skillName table = .ok result table) :
    ∃ hash files dependencies pins,
      readSkill lib session skillName = .ok (hash, files, dependencies) ∧
      pinAll lib session fuel dependencies [] table = .ok pins table ∧
      existingSnapshot table skillName hash pins = some result := by
  obtain ⟨hash, files, dependencies, pins, pinned, hread, hpins, hend⟩ :=
    getOrCreateSnapshot_eq_ok.mp h
  have hpinned := (pinAll_extends fuel dependencies []).of_ok hpins
  rcases hend with ⟨hfound, rfl⟩ | ⟨-, hcreate⟩
  · exact ⟨hash, files, dependencies, pins, hread, hpins, hfound⟩
  · -- the new row would make the table longer
    obtain ⟨executionHash, -, -, hrows⟩ := createSnapshot_eq_ok hcreate
    have hlength := congrArg List.length hrows
    have hle := hpinned.length_le
    simp only [SkillTable.setActive, List.length_append, List.length_map,
      List.length_singleton] at hlength
    omega

/-- **What is registered stays registered** when a row is added. -/
lemma persists (hadds : Adds lib session table table' row)
    (h : getOrCreateSnapshot lib session fuel none skillName table = .ok result table) :
    getOrCreateSnapshot lib session fuel none skillName table' = .ok result table' := by
  induction fuel generalizing skillName result with
  | zero => exact absurd h EStateM.throw_ne_ok
  | succ fuel ih =>
    obtain ⟨hash, files, dependencies, pins, hread, hpins, hfound⟩ :=
      existingSnapshot_of_unchanged h
    have hne : row.skillName ≠ skillName := by
      intro heq
      exact hadds.fresh (fuel + 1) result (heq ▸ h)
    refine getOrCreateSnapshot_eq_ok.mpr ⟨hash, files, dependencies, pins, table', hread,
      pinAll_persists hadds (fun name result => ih) hpins, .inl ⟨?_, rfl⟩⟩
    rw [hadds.existingSnapshot_eq hne, hfound]

/-! ## The rows of calls that succeed -/

/-- A row that is added is registered afterwards. -/
def AddsRegistered (lib : ContractLibrary) (session : Session) (table table' : SkillTable) : Prop :=
  ∃ row, Adds lib session table table' row ∧
    ∃ fuel, getOrCreateSnapshot lib session fuel none row.skillName table' = .ok row table'

/-- Rows are added one after the other, each of a skill that was not registered and is then. -/
abbrev Grows (lib : ContractLibrary) (session : Session) : SkillTable → SkillTable → Prop :=
  ReflTransGen (AddsRegistered lib session)

namespace Grows

lemma extended (h : Grows lib session table table') : Extends table table' := by
  induction h with
  | refl => exact Extends.refl _
  | tail _ hadds ih =>
    obtain ⟨row, hrow, -⟩ := hadds
    exact Extends.trans _ _ _ ih hrow.extended

lemma persists (h : Grows lib session table table')
    (hcall : getOrCreateSnapshot lib session fuel none skillName table = .ok result table) :
    getOrCreateSnapshot lib session fuel none skillName table' = .ok result table' := by
  induction h with
  | refl => exact hcall
  | tail _ hadds ih =>
    obtain ⟨row, hrow, -⟩ := hadds
    exact Skills.persists hrow ih

lemma pinAll_persists (h : Grows lib session table table')
    (hpins : pinAll lib session fuel dependencies pins table = .ok pins' table) :
    pinAll lib session fuel dependencies pins table' = .ok pins' table' := by
  induction h with
  | refl => exact hpins
  | tail _ hadds ih =>
    obtain ⟨row, hrow, -⟩ := hadds
    exact Skills.pinAll_persists hrow (fun _ _ => Skills.persists hrow) ih

/-- A row that is new is what its skill is registered as. -/
lemma registered_of_new (h : Grows lib session table table') (hrow : row ∈ table'.rows)
    (hnew : row ∉ table.rows) :
    ∃ fuel, getOrCreateSnapshot lib session fuel none row.skillName table' = .ok row table' := by
  induction h with
  | refl => exact absurd hrow hnew
  | tail _ hadds ih =>
    obtain ⟨last, hlast, hregistered⟩ := hadds
    rw [hlast.rows] at hrow
    rcases List.mem_append.mp hrow with hrow | hrow
    · obtain ⟨fuel, hcall⟩ := ih hrow
      exact ⟨fuel, Skills.persists hlast hcall⟩
    · rw [List.mem_singleton.mp hrow]
      exact hregistered

end Grows

/-- The pins have each key once. -/
lemma pinAll_nodup (hnodup : (Dict.keys pins).Nodup)
    (h : pinAll lib session fuel dependencies pins table = .ok pins' table') :
    (Dict.keys pins').Nodup := by
  induction dependencies generalizing pins table with
  | nil =>
    obtain ⟨rfl, -⟩ := EStateM.foldlM_nil_eq_ok.mp h
    exact hnodup
  | cons dependency dependencies ih =>
    obtain ⟨pins₁, t, hfirst, hrest⟩ := EStateM.foldlM_cons_eq_ok.mp h
    refine ih ?_ hrest
    obtain ⟨target, -, hpin⟩ := pinDependency_eq_ok.mp hfirst
    rcases pinTarget_eq_ok hpin with ⟨-, rfl, -⟩ |
      ⟨name, version, -, ⟨found, -, rfl, -⟩ | ⟨-, found, -, rfl⟩⟩
    · exact hnodup
    · exact Dict.nodup_keys_set hnodup name found.id
    · exact Dict.nodup_keys_set hnodup name found.id

/-- A new row is the one with its files and pins, where there was none. -/
lemma existingSnapshot_new (hrows : table'.rows = table.rows ++ [row])
    (hnodup : (Dict.keys row.dependencySnapshotIds).Nodup)
    (hnone : existingSnapshot table row.skillName row.contentHash row.dependencySnapshotIds =
      none) :
    existingSnapshot table' row.skillName row.contentHash row.dependencySnapshotIds =
      some row := by
  have hhistory : table'.history row.skillName = table.history row.skillName ++ [row] := by
    rw [SkillTable.history, hrows, List.filter_append]
    simp [SkillTable.history]
  have hbefore := List.argmax_eq_none.mp hnone
  rw [existingSnapshot, hhistory, List.filter_append, hbefore]
  simp [highestVersion, Dict.same_self hnodup, List.argmax_singleton]

/-- A row that is created without an activation is added, and nothing else changes. -/
lemma createSnapshot_rows
    (h : createSnapshot lib session none skillName hash files pins table = .ok result table') :
    result.skillName = skillName ∧ result.contentHash = hash ∧
      result.dependencySnapshotIds = pins ∧ table'.rows = table.rows ++ [result] := by
  obtain ⟨executionHash, hresult, -, hrows⟩ := createSnapshot_eq_ok h
  subst hresult
  refine ⟨rfl, rfl, rfl, hrows.trans ?_⟩
  congr 1
  -- the new row is active only where its skill has no row yet
  refine rows_setActive_of_same fun other hother => ?_
  by_cases hname : other.skillName = skillName
  · have hmem := mem_history.mpr ⟨hother, hname⟩
    have hempty : (table.history skillName).isEmpty = false := by
      cases hhistory : table.history skillName with
      | nil =>
        rw [hhistory] at hmem
        cases hmem
      | cons first rest => rfl
    simp [newSnapshot, SkillSnapshot.withExecutionHash, hempty]
  · simp [hname]

/-- What is pinned is registered. -/
lemma pinAll_grows
    (hcall : ∀ {name table result table'},
      getOrCreateSnapshot lib session fuel none name table = .ok result table' →
      Grows lib session table table' ∧
        getOrCreateSnapshot lib session fuel none name table' = .ok result table')
    (h : pinAll lib session fuel dependencies pins table = .ok pins' table') :
    Grows lib session table table' ∧
      pinAll lib session fuel dependencies pins table' = .ok pins' table' := by
  induction dependencies generalizing pins table with
  | nil =>
    obtain ⟨rfl, rfl⟩ := EStateM.foldlM_nil_eq_ok.mp h
    exact ⟨.refl, EStateM.foldlM_nil_eq_ok.mpr ⟨rfl, rfl⟩⟩
  | cons dependency dependencies ih =>
    obtain ⟨pins₁, t, hfirst, hrest⟩ := EStateM.foldlM_cons_eq_ok.mp h
    obtain ⟨hgrows, hrest⟩ := ih hrest
    have hstep : Grows lib session table t ∧
        pinDependency lib (getOrCreateSnapshot lib session fuel none) pins dependency t =
          .ok pins₁ t := by
      obtain ⟨target, htarget, hpin⟩ := pinDependency_eq_ok.mp hfirst
      rcases pinTarget_eq_ok hpin with ⟨rfl, rfl, rfl⟩ |
        ⟨name, version, rfl, ⟨found, hfound, rfl, rfl⟩ | ⟨hnone, found, hrecord, rfl⟩⟩
      · exact ⟨.refl, hfirst⟩
      · exact ⟨.refl, hfirst⟩
      · obtain ⟨hgrown, hregistered⟩ := hcall hrecord
        refine ⟨hgrown, pinDependency_eq_ok.mpr ⟨_, htarget, ?_⟩⟩
        cases hagain : findVersion t name version with
        | none =>
          rw [pinTarget_of_none hagain]
          exact EStateM.bind_eq_ok.mpr ⟨found, t, hregistered, EStateM.pure_eq_ok.mpr ⟨rfl, rfl⟩⟩
        | some row =>
          -- the row that is found now is the one that has been recorded
          obtain ⟨hmem, hnew, hname⟩ := findVersion_new hnone hagain
          obtain ⟨fuel', hrow⟩ := hgrown.registered_of_new hmem hnew
          rw [hname] at hrow
          obtain ⟨rfl, -⟩ := getOrCreateSnapshot_unique hrow hregistered
          exact pinTarget_of_found hagain
    refine ⟨hstep.1.trans hgrows, EStateM.foldlM_cons_eq_ok.mpr ⟨pins₁, table', ?_, hrest⟩⟩
    have hone : pinAll lib session fuel [dependency] pins t = .ok pins₁ t :=
      EStateM.foldlM_cons_eq_ok.mpr ⟨pins₁, t, hstep.2, EStateM.foldlM_nil_eq_ok.mpr ⟨rfl, rfl⟩⟩
    obtain ⟨pins₂, u, hpin, hend⟩ := EStateM.foldlM_cons_eq_ok.mp (hgrows.pinAll_persists hone)
    obtain ⟨rfl, rfl⟩ := EStateM.foldlM_nil_eq_ok.mp hend
    exact hpin

/-- **A call that succeeds adds rows of skills that were not registered**, and the same call finds
its row afterwards. -/
lemma getOrCreateSnapshot_grows
    (h : getOrCreateSnapshot lib session fuel none skillName table = .ok result table') :
    Grows lib session table table' ∧
      getOrCreateSnapshot lib session fuel none skillName table' = .ok result table' := by
  induction fuel generalizing skillName table result table' with
  | zero => exact absurd h EStateM.throw_ne_ok
  | succ fuel ih =>
    obtain ⟨hash, files, dependencies, pins, pinned, hread, hpins, hend⟩ :=
      getOrCreateSnapshot_eq_ok.mp h
    obtain ⟨hgrows, hsettled⟩ := pinAll_grows ih hpins
    rcases hend with ⟨hfound, rfl⟩ | ⟨hnone, hcreate⟩
    · exact ⟨hgrows, getOrCreateSnapshot_eq_ok.mpr
        ⟨hash, files, dependencies, pins, pinned, hread, hsettled, .inl ⟨hfound, rfl⟩⟩⟩
    · obtain ⟨rfl, rfl, rfl, hrows⟩ := createSnapshot_rows hcreate
      have hadds : Adds lib session pinned table' result := by
        refine ⟨hrows, fun fuel' found hcall => ?_⟩
        cases fuel' with
        | zero => exact absurd hcall EStateM.throw_ne_ok
        | succ fuel' =>
          obtain ⟨hash', files', dependencies', pins', hread', hpins', hfound⟩ :=
            existingSnapshot_of_unchanged hcall
          rw [hread] at hread'
          cases hread'
          obtain ⟨hsame, -⟩ := pinAll_unique hpins' hsettled
          rw [hsame, hnone] at hfound
          cases hfound
      have hagain : getOrCreateSnapshot lib session (fuel + 1) none result.skillName table' =
          .ok result table' := by
        refine getOrCreateSnapshot_eq_ok.mpr ⟨_, files, dependencies, _, table', hread,
          pinAll_persists hadds (fun _ _ => persists hadds) hsettled, .inl ⟨?_, rfl⟩⟩
        have hnil : (Dict.keys ([] : Dict String String)).Nodup := List.nodup_nil
        exact existingSnapshot_new hrows (pinAll_nodup hnil hpins) hnone
      exact ⟨hgrows.tail ⟨result, hadds, fuel + 1, hagain⟩, hagain⟩

/-! ## Calls without end -/

section Endless

variable {p q s : Visit}

/-- The call returns, with fuel enough. -/
def Returns (lib : ContractLibrary) (session : Session) (p : Visit) : Prop :=
  ∃ fuel result table',
    getOrCreateSnapshot lib session fuel none p.skillName p.table = .ok result table'

/-- The call runs out of fuel. -/
def RunsOut (lib : ContractLibrary) (session : Session) (activate : Option Bool) (p : Visit)
    (fuel : ℕ) : Prop :=
  ∃ table', getOrCreateSnapshot lib session fuel activate p.skillName p.table =
    .error recursionError table'

lemma runsOut_zero (activate : Option Bool) (p : Visit) : RunsOut lib session activate p 0 :=
  ⟨p.table, rfl⟩

lemma Calls.grows (h : Calls lib session p q) : Grows lib session p.table q.table := by
  obtain ⟨hash, files, before, dependency, after, version, fuel, pins, -, hpins, -, -⟩ := h
  exact (pinAll_grows getOrCreateSnapshot_grows hpins).1

lemma grows_of_reflTransGen (h : ReflTransGen (Calls lib session) p q) :
    Grows lib session p.table q.table := by
  induction h with
  | refl => exact .refl
  | tail _ hcalls ih => exact ih.trans hcalls.grows

/-- The call is made again where its skill is still not in the table. -/
lemma Calls.again (h : Calls lib session p q) (hgrows : Grows lib session q.table table)
    (hnew : ∀ row ∈ table.rows, row ∉ q.table.rows → row.skillName ≠ q.skillName) :
    Calls lib session ⟨table, p.skillName⟩ ⟨table, q.skillName⟩ := by
  obtain ⟨hash, files, before, dependency, after, version, fuel, pins, hread, hpins, htarget,
    hnone⟩ := h
  have hsettled := (pinAll_grows getOrCreateSnapshot_grows hpins).2
  refine ⟨hash, files, before, dependency, after, version, fuel, pins, hread,
    hgrows.pinAll_persists hsettled, htarget, ?_⟩
  cases hfound : findVersion table q.skillName version with
  | none => rfl
  | some row =>
    obtain ⟨hmem, hnot, hname⟩ := findVersion_new hnone hfound
    exact absurd hname (hnew row hmem hnot)

/-- A call runs out when a call that it makes does. -/
lemma Calls.runsOut (h : Calls lib session p q) (activate : Option Bool)
    (hout : RunsOut lib session none q fuel) : RunsOut lib session activate p (fuel + 1) := by
  obtain ⟨hash, files, before, dependency, after, version, fuel₀, pins, hread, hpins, htarget,
    hnone⟩ := h
  obtain ⟨t, hout⟩ := hout
  -- the dependencies before it are pinned as they were, or run out themselves
  have hbefore : (∃ t, pinAll lib session fuel before [] p.table = .error recursionError t) ∨
      pinAll lib session fuel before [] p.table = .ok pins q.table := by
    rcases Nat.le_total fuel fuel₀ with hle | hle
    · exact (pinAll_upTo hle before []).ok_or_error hpins
    · exact .inr ((pinAll_upTo hle before []).of_ok hpins)
  rcases hbefore with ⟨t', ht'⟩ | hpins
  · exact ⟨t', getOrCreateSnapshot_error_of_pins hread (EStateM.foldlM_append_error ht')⟩
  · refine ⟨t, getOrCreateSnapshot_error_of_pins hread (EStateM.foldlM_error_of_turn hpins ?_)⟩
    refine pinDependency_eq_error.mpr (.inr ⟨_, htarget, ?_⟩)
    rw [pinTarget_of_none hnone]
    exact EStateM.bind_eq_error.mpr (.inl hout)

/-- A call runs out when one below it does with less fuel. -/
lemma runsOut_of_transGen (h : TransGen (Calls lib session) p q)
    (hout : ∀ less < fuel, RunsOut lib session none q less) : RunsOut lib session none p fuel := by
  induction h using TransGen.head_induction_on generalizing fuel with
  | single hcalls =>
    cases fuel with
    | zero => exact runsOut_zero _ _
    | succ fuel => exact hcalls.runsOut none (hout fuel (Nat.lt_succ_self fuel))
  | head hcalls _ ih =>
    cases fuel with
    | zero => exact runsOut_zero _ _
    | succ fuel =>
      exact hcalls.runsOut none (ih fun less hless => hout less (Nat.lt_succ_of_lt hless))

/-- **A call that comes to itself again runs out**, however much fuel there is. -/
lemma runsOut_of_cycle (h : TransGen (Calls lib session) p p) (fuel : ℕ) :
    RunsOut lib session none p fuel := by
  induction fuel using Nat.strong_induction_on with
  | _ fuel ih => exact runsOut_of_transGen h ih

lemma not_returns_of_cycle (h : TransGen (Calls lib session) p p) : ¬ Returns lib session p := by
  rintro ⟨fuel, result, table', hcall⟩
  obtain ⟨t, ht⟩ := runsOut_of_cycle h fuel
  rw [hcall] at ht
  cases ht

/-! ## Where new rows come from -/

/-- A row that is new after the calls for dependencies comes from a call below. -/
lemma exists_call_of_pins {after rest seen : List Yaml} {pinned : SkillTable}
    (hcall : ∀ {name table result table' row},
      getOrCreateSnapshot lib session fuel none name table = .ok result table' →
      row ∈ table'.rows → row ∉ table.rows →
      ∃ s, ReflTransGen (Calls lib session) ⟨table, name⟩ s ∧ s.skillName = row.skillName ∧
        Returns lib session s ∧ s.table.rows.length < table'.rows.length)
    (hread : readSkill lib session p.skillName = .ok (hash, files, seen ++ rest ++ after))
    (hseen : pinAll lib session fuel seen [] p.table = .ok pins pinned)
    (hrest : pinAll lib session fuel rest pins pinned = .ok pins' table')
    (hrow : row ∈ table'.rows) (hnew : row ∉ pinned.rows) :
    ∃ s, TransGen (Calls lib session) p s ∧ s.skillName = row.skillName ∧
      Returns lib session s ∧ s.table.rows.length < table'.rows.length := by
  induction rest generalizing seen pins pinned with
  | nil =>
    obtain ⟨-, rfl⟩ := EStateM.foldlM_nil_eq_ok.mp hrest
    exact absurd hrow hnew
  | cons dependency rest ih =>
    obtain ⟨pins₁, t, hfirst, hlater⟩ := EStateM.foldlM_cons_eq_ok.mp hrest
    by_cases hmem : row ∈ t.rows
    · obtain ⟨target, htarget, hpin⟩ := pinDependency_eq_ok.mp hfirst
      rcases pinTarget_eq_ok hpin with ⟨-, -, rfl⟩ |
        ⟨name, version, rfl, ⟨found, -, -, rfl⟩ | ⟨hnone, found, hrecord, -⟩⟩
      · exact absurd hmem hnew
      · exact absurd hmem hnew
      · obtain ⟨s, hpath, hname, hreturns, hless⟩ := hcall hrecord hmem hnew
        have hcalls : Calls lib session p ⟨pinned, name⟩ :=
          ⟨hash, files, seen, dependency, rest ++ after, version, fuel, pins,
            by simpa using hread, hseen, htarget, hnone⟩
        refine ⟨s, TransGen.head' hcalls hpath, hname, hreturns, hless.trans_le ?_⟩
        exact ((pinAll_extends fuel rest pins₁).of_ok hlater).length_le
    · have hread' : readSkill lib session p.skillName =
          .ok (hash, files, (seen ++ [dependency]) ++ rest ++ after) := by simpa using hread
      refine ih hread' ?_ hlater hmem
      exact EStateM.foldlM_append_eq_ok.mpr ⟨pins, pinned, hseen,
        EStateM.foldlM_cons_eq_ok.mpr ⟨pins₁, t, hfirst, EStateM.foldlM_nil_eq_ok.mpr ⟨rfl, rfl⟩⟩⟩

/-- A row that is new after a call comes from a call for its skill. -/
lemma exists_call_of_new
    (h : getOrCreateSnapshot lib session fuel none skillName table = .ok result table')
    (hrow : row ∈ table'.rows) (hnew : row ∉ table.rows) :
    ∃ s, ReflTransGen (Calls lib session) ⟨table, skillName⟩ s ∧ s.skillName = row.skillName ∧
      Returns lib session s ∧ s.table.rows.length < table'.rows.length := by
  induction fuel generalizing skillName table result table' row with
  | zero => exact absurd h EStateM.throw_ne_ok
  | succ fuel ih =>
    obtain ⟨hash, files, dependencies, pins, pinned, hread, hpins, hend⟩ :=
      getOrCreateSnapshot_eq_ok.mp h
    have hpinned : ∀ {row : SkillSnapshot}, row ∈ pinned.rows → row ∉ table.rows →
        ∃ s, ReflTransGen (Calls lib session) ⟨table, skillName⟩ s ∧
          s.skillName = row.skillName ∧ Returns lib session s ∧
          s.table.rows.length < pinned.rows.length := by
      intro row hrow hnew
      have hread' : readSkill lib session skillName =
          .ok (hash, files, [] ++ dependencies ++ []) := by simpa using hread
      obtain ⟨s, hpath, hs⟩ := exists_call_of_pins (p := ⟨table, skillName⟩) ih hread'
        (EStateM.foldlM_nil_eq_ok.mpr ⟨rfl, rfl⟩) hpins hrow hnew
      exact ⟨s, hpath.to_reflTransGen, hs⟩
    rcases hend with ⟨-, rfl⟩ | ⟨-, hcreate⟩
    · exact hpinned hrow hnew
    · obtain ⟨hname, -, -, hrows⟩ := createSnapshot_rows hcreate
      have hlength : table'.rows.length = pinned.rows.length + 1 := by
        rw [hrows, List.length_append, List.length_singleton]
      have hle := ((pinAll_extends fuel dependencies []).of_ok hpins).length_le
      rw [hrows] at hrow
      rcases List.mem_append.mp hrow with hrow | hrow
      · obtain ⟨s, hpath, hs, hreturns, hless⟩ := hpinned hrow hnew
        exact ⟨s, hpath, hs, hreturns, by omega⟩
      · refine ⟨⟨table, skillName⟩, .refl, ?_, ⟨fuel + 1, result, table', h⟩, by simp only; omega⟩
        rw [List.mem_singleton.mp hrow]
        exact hname.symm

/-- A row that is new where a chain of calls has come to is from a call below its start. -/
lemma exists_call_of_chain (h : ReflTransGen (Calls lib session) p q) (hrow : row ∈ q.table.rows)
    (hnew : row ∉ p.table.rows) :
    ∃ s, TransGen (Calls lib session) p s ∧ s.skillName = row.skillName ∧
      Returns lib session s ∧ s.table.rows.length < q.table.rows.length := by
  induction h using ReflTransGen.head_induction_on with
  | refl => exact absurd hrow hnew
  | @head p c hcalls hchain ih =>
    by_cases hmem : row ∈ c.table.rows
    · obtain ⟨hash, files, before, dependency, after, version, fuel, pins, hread, hpins, -, -⟩ :=
        hcalls
      have hread' : readSkill lib session p.skillName =
          .ok (hash, files, [] ++ before ++ dependency :: after) := by simpa using hread
      obtain ⟨s, hpath, hname, hreturns, hless⟩ := exists_call_of_pins exists_call_of_new hread'
        (EStateM.foldlM_nil_eq_ok.mpr ⟨rfl, rfl⟩) hpins hmem hnew
      exact ⟨s, hpath, hname, hreturns,
        hless.trans_le (grows_of_reflTransGen hchain).extended.length_le⟩
    · obtain ⟨s, hpath, hs⟩ := ih hmem
      exact ⟨s, TransGen.head hcalls hpath, hs⟩

/-- **A skill that comes up below itself comes up again below that**, with the table as it is
there. The induction is on the rows of that table. -/
lemma cycle_at_end (h : TransGen (Calls lib session) p q) (hname : p.skillName = q.skillName) :
    TransGen (Calls lib session) q q := by
  induction hrows : q.table.rows.length using Nat.strong_induction_on generalizing p q with
  | _ n ih =>
    subst hrows
    have hagain : ∀ {c}, TransGen (Calls lib session) c q →
        TransGen (Calls lib session) ⟨q.table, c.skillName⟩ q := by
      intro c hc
      induction hc using TransGen.head_induction_on with
      | single hcalls => exact .single (hcalls.again .refl fun row hrow hnew => absurd hrow hnew)
      | @head c d hcalls hchain ihd =>
        refine TransGen.head (hcalls.again (grows_of_reflTransGen hchain.to_reflTransGen) ?_) ihd
        -- a call for the skill that has returned meanwhile would be such a cycle itself
        intro row hrow hnew heq
        obtain ⟨s, hpath, hs, hreturns, hless⟩ :=
          exists_call_of_chain hchain.to_reflTransGen hrow hnew
        exact not_returns_of_cycle (ih _ hless hpath (heq ▸ hs).symm rfl) hreturns
    have hloop := hagain h
    rw [hname] at hloop
    exact hloop

end Endless

/-! ## Calls that end -/

lemma readSkill_bounded : Bounded (readSkill lib session skillName) := by
  have hfile : ∀ filename, Bounded (readSkillFile session skillName filename) := by
    intro filename
    unfold readSkillFile
    split
    · exact .pure _
    · exact .throw (custom_ne_recursionError (by decide))
  have htext : ∀ filename, Bounded (readText session skillName filename) := by
    intro filename
    unfold readText
    split
    · split
      · exact .pure _
      · exact .throw (custom_ne_recursionError (by decide))
    · exact .throw (custom_ne_recursionError (by decide))
  have hhash : Bounded (computeSkillHash lib session skillName) :=
    (hfile _).bind fun _ _ => (hfile _).bind fun _ _ => (hfile _).bind fun _ _ =>
      contentHash_bounded
  have hfiles : Bounded (readSkillFiles session skillName) :=
    (htext _).bind fun _ _ => (htext _).bind fun _ _ => (htext _).bind fun _ _ => .pure _
  exact hhash.bind fun _ _ => hfiles.bind fun _ _ => load_bounded.bind fun _ _ =>
    getD_bounded.bind fun _ _ => iter_bounded.bind fun _ _ => .pure _

lemma dependencyTarget_bounded : Bounded (dependencyTarget lib dependency) := by
  have hversion : Bounded (some <$> lib.int (declaredVersion dependency)) := by
    have hint : Bounded (lib.int (declaredVersion dependency)) := int_bounded
    cases hv : lib.int (declaredVersion dependency) with
    | ok version => exact .pure _
    | error e =>
      have he := hint e hv
      exact .throw he
  refine dependencyName_bounded.bind fun name _ => ?_
  split
  · exact .pure _
  · cases name with
    | str =>
      dsimp only
      split
      · exact .bind (.pure _) fun _ _ => .pure _
      · exact hversion.bind fun _ _ => .pure _
    | null | bool | int | float | bytes | other | seq | map =>
      dsimp only
      split
      · exact .bind (.pure _) fun _ _ => throw_programmingError_bounded
      · exact hversion.bind fun _ _ => throw_programmingError_bounded

/-- The end of a call does not call anything. -/
lemma createSnapshot_bounded {activate : Option Bool} :
    createSnapshot lib session activate skillName hash files pins table ≠
      .error recursionError table' := by
  intro h
  rw [createSnapshot_apply] at h
  rcases EStateM.bind_eq_error.mp h with h | ⟨_, t, hvalid, h⟩
  · exact validateSnapshot_bounded _ _ (EStateM.reading_eq_error.mp h).1 rfl
  rcases EStateM.bind_eq_error.mp h with h | ⟨_, u, -, h⟩
  · exact computeExecutionHash_bounded _ _ (EStateM.reading_eq_error.mp h).1 rfl
  · have herror := (insertSnapshot_error_iff.mp h).2.1
    exact custom_ne_recursionError (by decide) herror.symm

section Ending

variable {root p q : Visit} {names : List String}

/-- A call that runs out makes a call that does. -/
lemma exists_call_of_runsOut {activate : Option Bool}
    (h : RunsOut lib session activate p (fuel + 1)) :
    ∃ q, Calls lib session p q ∧ RunsOut lib session none q fuel := by
  obtain ⟨t, h⟩ := h
  rcases getOrCreateSnapshot_eq_error h with h | ⟨hash, files, dependencies, hread, h | h⟩
  · exact absurd rfl (readSkill_bounded _ h)
  · obtain ⟨before, dependency, after, pins, pinned, rfl, hpins, hpin⟩ :=
      EStateM.foldlM_eq_error h
    rcases pinDependency_eq_error.mp hpin with ⟨htarget, -⟩ | ⟨target, htarget, hpin⟩
    · exact absurd rfl (dependencyTarget_bounded _ htarget)
    · obtain ⟨name, version, rfl, hnone, hrecord⟩ := pinTarget_eq_error hpin
      exact ⟨⟨pinned, name⟩, ⟨hash, files, before, dependency, after, version, fuel, pins, hread,
        hpins, htarget, hnone⟩, t, hrecord⟩
  · obtain ⟨pins, pinned, hcreate⟩ := h
    exact absurd hcreate createSnapshot_bounded

lemma Calls.mem_names (h : Calls lib session p q)
    (hnames : ∀ skillName hash files dependencies dependency name version,
      readSkill lib session skillName = .ok (hash, files, dependencies) →
      dependency ∈ dependencies →
      dependencyTarget lib dependency = .ok (some (name, version)) → name ∈ names) :
    q.skillName ∈ names := by
  obtain ⟨hash, files, before, dependency, after, version, fuel, pins, hread, -, htarget, -⟩ := h
  exact hnames _ _ _ _ _ _ _ hread (by simp) htarget

/-- There is fuel enough for the names that have not come up, where none comes up below itself. -/
lemma not_runsOut (names active : List String)
    (hnames : ∀ skillName hash files dependencies dependency name version,
      readSkill lib session skillName = .ok (hash, files, dependencies) →
      dependency ∈ dependencies →
      dependencyTarget lib dependency = .ok (some (name, version)) → name ∈ names)
    (hnever : ∀ p q, ReflTransGen (Calls lib session) root p → TransGen (Calls lib session) p q →
      q.skillName ≠ p.skillName)
    {activate : Option Bool} (hroot : ReflTransGen (Calls lib session) root p)
    (hactive : ∀ name ∈ active, ∃ o, ReflTransGen (Calls lib session) root o ∧
      o.skillName = name ∧ TransGen (Calls lib session) o p)
    (hp : p.skillName ∈ names) (hfuel : DependencyGraph.remaining names active < fuel) :
    ¬ RunsOut lib session activate p fuel := by
  induction fuel generalizing active p activate with
  | zero => omega
  | succ fuel ih =>
    intro hout
    obtain ⟨q, hcalls, hout⟩ := exists_call_of_runsOut hout
    have hfresh : p.skillName ∉ active := by
      intro hmem
      obtain ⟨o, ho, hname, hop⟩ := hactive _ hmem
      exact hnever o p ho hop hname.symm
    have hless := DependencyGraph.remaining_cons_lt hp hfresh
    refine ih (p.skillName :: active) (hroot.tail hcalls) (fun name hname => ?_) (hcalls.mem_names hnames)
      (by omega) hout
    rcases List.mem_cons.mp hname with rfl | hname
    · exact ⟨p, hroot, rfl, .single hcalls⟩
    · obtain ⟨o, ho, hoName, hop⟩ := hactive name hname
      exact ⟨o, ho, hoName, hop.tail hcalls⟩

/-- Where no skill comes up below itself, the calls end. -/
lemma terminates_of_never (root : Visit) (hfinite : FinitelyDeclared lib session)
    (activate : Option Bool)
    (hnever : ∀ p q, ReflTransGen (Calls lib session) root p → TransGen (Calls lib session) p q →
      q.skillName ≠ p.skillName) :
    Terminates lib session activate root.skillName root.table := by
  obtain ⟨names, hnames⟩ := hfinite
  refine ⟨DependencyGraph.remaining (root.skillName :: names) [] + 1, fun limit hlimit t h => ?_⟩
  refine not_runsOut (root.skillName :: names) [] ?_ hnever .refl (by simp)
    List.mem_cons_self hlimit ⟨t, h⟩
  intro _ _ _ _ _ _ _ hread hdependency htarget
  exact List.mem_cons_of_mem _ (hnames _ _ _ _ _ _ _ hread hdependency htarget)

end Ending

/-- **When a registration ends.** Whatever the table and whatever finite directory is on disk, the
calls of `get_or_create_snapshot` for a skill nest only so deep, whatever the limit, exactly if
among the calls that it sets off no skill comes up again below itself. -/
theorem registration_terminates_iff (lib : ContractLibrary) (session : Session)
    (hfinite : FinitelyDeclared lib session) (activate : Option Bool) (skillName : String)
    (table : SkillTable) :
    Terminates lib session activate skillName table ↔
      ∀ p q, ReflTransGen (Calls lib session) ⟨table, skillName⟩ p →
        TransGen (Calls lib session) p q → q.skillName ≠ p.skillName := by
  constructor
  · rintro ⟨depth, hends⟩ p q hpath hcycle hname
    have hloop := cycle_at_end hcycle hname.symm
    obtain ⟨c, hcalls, hchain⟩ := TransGen.head'_iff.mp (TransGen.trans_right hpath hcycle)
    -- the cycle runs out, so what leads to it does
    have hout : RunsOut lib session none c depth := by
      rcases Relation.reflTransGen_iff_eq_or_transGen.mp hchain with heq | hchain
      · subst heq
        exact runsOut_of_cycle hloop depth
      · exact runsOut_of_transGen hchain fun less _ => runsOut_of_cycle hloop less
    obtain ⟨t, ht⟩ := hcalls.runsOut activate hout
    exact hends (depth + 1) (Nat.le_succ depth) t ht
  · exact terminates_of_never ⟨table, skillName⟩ hfinite activate

/-! ## Directories without a cycle -/

section Acyclic

variable {root p q : Visit}

/-- A skill declares another one that is not in the table. -/
def Missing (lib : ContractLibrary) (session : Session) (table : SkillTable)
    (skillName other : String) : Prop :=
  ∃ hash files dependencies dependency version,
    readSkill lib session skillName = .ok (hash, files, dependencies) ∧
      dependency ∈ dependencies ∧
      dependencyTarget lib dependency = .ok (some (other, version)) ∧
      findVersion table other version = none

lemma Calls.missing (h : Calls lib session p q) (htable : Extends table p.table) :
    Missing lib session table p.skillName q.skillName := by
  have hgrown := Extends.trans _ _ _ htable h.grows.extended
  obtain ⟨hash, files, before, dependency, after, version, fuel, pins, hread, -, htarget, hnone⟩ :=
    h
  refine ⟨hash, files, _, dependency, version, hread, by simp, htarget, ?_⟩
  cases hfound : findVersion table q.skillName version with
  | none => rfl
  | some row =>
    rw [findVersion_of_extends hgrown hfound] at hnone
    cases hnone

lemma missing_of_reflTransGen (h : ReflTransGen (Calls lib session) p q)
    (htable : Extends table p.table) :
    ReflTransGen (Missing lib session table) p.skillName q.skillName ∧ Extends table q.table := by
  induction h with
  | refl => exact ⟨.refl, htable⟩
  | tail _ hcalls ih =>
    exact ⟨ih.1.tail (hcalls.missing ih.2), Extends.trans _ _ _ ih.2 hcalls.grows.extended⟩

/-- **A registration ends where the dependencies that are not in the table form no cycle.** -/
theorem registration_terminates_of_acyclic (hfinite : FinitelyDeclared lib session)
    (activate : Option Bool) (skillName : String) (table : SkillTable)
    (hacyclic : ∀ name, ReflTransGen (Missing lib session table) skillName name →
      ¬ TransGen (Missing lib session table) name name) :
    Terminates lib session activate skillName table := by
  refine terminates_of_never ⟨table, skillName⟩ hfinite activate fun p q hpath hcycle hname => ?_
  obtain ⟨hreach, hp⟩ := missing_of_reflTransGen hpath (Extends.refl table)
  refine hacyclic p.skillName hreach ?_
  obtain ⟨c, hcalls, hchain⟩ := TransGen.head'_iff.mp hcycle
  have hc := Extends.trans _ _ _ hp hcalls.grows.extended
  have hmissing := TransGen.head' (hcalls.missing hp) (missing_of_reflTransGen hchain hc).1
  rwa [hname] at hmissing

end Acyclic

/-! ## Samples -/

/-- A call that returns ends. -/
lemma terminates_of_ok {activate : Option Bool}
    (h : getOrCreateSnapshot lib session fuel activate skillName table = .ok result table') :
    Terminates lib session activate skillName table := by
  refine ⟨fuel, fun limit hlimit t ht => ?_⟩
  rw [(getOrCreateSnapshot_upTo hlimit activate skillName).of_ok h] at ht
  cases ht

/-- There are no files of other skills than the two of the sample. -/
lemma sampleSession_readBytes (hnot : skillName ∉ ["triage", "report"]) (filename : String) :
    (sampleSession files).readBytes skillName filename = none := by
  simp only [List.mem_cons, List.not_mem_nil, or_false, not_or] at hnot
  have hnone : Dict.get? [("triage", triageFiles), ("report", files)] skillName = none := by
    rw [Dict.get?_cons, if_neg (Ne.symm hnot.1), Dict.get?_cons, if_neg (Ne.symm hnot.2),
      Dict.get?_nil]
  rw [sampleSession]
  dsimp only
  rw [hnone]
  rfl

/-- The skills of the sample are two. -/
lemma sampleSession_finitelyDeclared :
    FinitelyDeclared sampleContract (sampleSession reportFiles) := by
  refine ⟨["triage", "report"], ?_⟩
  intro skillName hash files dependencies dependency name version hread hdependency htarget
  have hname : skillName ∈ ["triage", "report"] := by
    by_contra hnot
    obtain ⟨_, hhash, -⟩ := Except.bind_eq_ok.mp hread
    obtain ⟨_, hfile, -⟩ := Except.bind_eq_ok.mp hhash
    rw [readSkillFile, sampleSession_readBytes hnot] at hfile
    exact absurd hfile Except.throw_ne_ok
  have hall : ∀ skillName ∈ ["triage", "report"],
      ((readSkill sampleContract (sampleSession reportFiles) skillName).toOption.all fun skill =>
        skill.2.2.all fun dependency =>
          (dependencyTarget sampleContract dependency).toOption.all fun target =>
            target.all fun target => decide (target.1 ∈ ["triage", "report"])) = true := by
    decide +kernel
  have hskill := hall skillName hname
  rw [hread] at hskill
  have htargets := List.all_eq_true.mp hskill dependency hdependency
  rw [htarget] at htargets
  exact of_decide_eq_true htargets

/-- `registration_terminates_iff` speaks about the sample, whose skills depend on each other without
a cycle. -/
theorem sampleSession_terminates :
    Terminates sampleContract (sampleSession reportFiles) none "report" .empty ∧
      ∀ p q, ReflTransGen (Calls sampleContract (sampleSession reportFiles))
          ⟨.empty, "report"⟩ p →
        TransGen (Calls sampleContract (sampleSession reportFiles)) p q →
          q.skillName ≠ p.skillName := by
  have hreturns : (getOrCreateSnapshot sampleContract (sampleSession reportFiles) 2 none "report"
      .empty).error?.isNone = true := by
    rfl
  have hends : Terminates sampleContract (sampleSession reportFiles) none "report" .empty := by
    cases hcall : getOrCreateSnapshot sampleContract (sampleSession reportFiles) 2 none "report"
        .empty with
    | ok row table' => exact terminates_of_ok hcall
    | error e table' =>
      rw [hcall] at hreturns
      cases hreturns
  exact ⟨hends, (registration_terminates_iff sampleContract (sampleSession reportFiles)
    sampleSession_finitelyDeclared none "report" .empty).mp hends⟩

/-- The files of a skill that declares itself as a dependency. -/
def loopFiles : SkillFiles := ⟨"# Loop\n", "{}", "id: loop\ndependencies: [loop]\n"⟩

/-- Libraries that read its manifest. -/
def loopContract : ContractLibrary :=
  { sampleContract with
    safeLoad := fun _ => .ok
      (.map [(.str "id", .str "loop"), (.str "dependencies", .seq [.str "loop"])]) }

/-- A session with that skill on disk. -/
def loopSession : Session :=
  { sampleSession reportFiles with
    readBytes := fun skillName filename =>
      if skillName = "loop" then
        (Dict.get? [("SKILL.md", loopFiles.skillMd), ("output.schema.json",
          loopFiles.outputSchemaJson), ("skill.yaml", loopFiles.manifestYaml)] filename).map
            encodeUtf8
      else none }

/-- **A registration without an end**: that of a skill that declares itself. -/
theorem loopSession_endless : ¬ Terminates loopContract loopSession none "loop" .empty := by
  have hdeclared : ((readSkill loopContract loopSession "loop").toOption.map fun skill =>
      skill.2.2.map fun dependency => (dependencyTarget loopContract dependency).toOption) =
        some [some (some ("loop", none))] := by
    rfl
  obtain ⟨⟨hash, files, dependencies⟩, hread, htargets⟩ := Option.map_eq_some_iff.mp hdeclared
  obtain ⟨dependency, hdependencies, htarget⟩ := List.map_eq_singleton_iff.mp htargets
  subst hdependencies
  have hcalls : Calls loopContract loopSession ⟨.empty, "loop"⟩ ⟨.empty, "loop"⟩ :=
    ⟨hash, files, [], dependency, [], none, 0, [], Except.eq_ok_iff_toOption.mpr hread,
      EStateM.foldlM_nil_eq_ok.mpr ⟨rfl, rfl⟩, Except.eq_ok_iff_toOption.mpr htarget, rfl⟩
  rintro ⟨depth, hends⟩
  obtain ⟨table', hout⟩ := runsOut_of_cycle (.single hcalls) depth
  exact hends depth (Nat.le_refl depth) table' hout

end Skills
