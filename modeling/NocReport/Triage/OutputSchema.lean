import NocReport.Foundation.JsonSchema
import NocReport.Triage.EntryPartition

set_option relaxedAutoImplicit false
set_option autoImplicit false

/-!
# The contract of a model result

The schema the semantic runtime and the worker check a log-triage result against
(`skills/log-triage-summary/output.schema.json`), and what it says about the findings.

## Main definitions

* `Triage.outputSchema` — the contract.
* `Triage.ModelResult` — a result the contract accepts.

## Main results

* `Triage.ModelResult.groupItems_eq` — both groups are lists of findings.
* `Triage.ModelResult.evidence_ne_nil` — a finding that names entries names at least one.
-/

namespace Triage

open Schema

/-- A text that is not empty. -/
def nonEmptyText : Schema := .all [.type [.string], .minLength 1]

/-- An integer that is not negative. -/
def naturalNumber : Schema := .all [.type [.integer], .minimum 0]

/-- The properties of a finding. -/
def findProperties : List (PyStr × Schema) := [
  (py "id", nonEmptyText),
  (py "label_en", nonEmptyText),
  (py "label_zh", nonEmptyText),
  (py "count", .all [.type [.integer, .null], .minimum 0]),
  (py "percentage", .all [.type [.number, .null], .minimum 0, .maximum 100]),
  (py "physical_entry_count", naturalNumber),
  (py "occurrence_count", naturalNumber),
  (py "pattern_ids", .all [.type [.array], .items (.type [.string]), .minItems 1, .uniqueItems]),
  (py "evidence_entry_ids", .all [.type [.array], .items naturalNumber, .minItems 1,
    .uniqueItems]),
  (py "detail_en", nonEmptyText),
  (py "detail_zh", nonEmptyText)]

/-- `$defs/find`. -/
def findSchema : Schema :=
  .all [
    .type [.object],
    .properties findProperties,
    .required (["id", "label_en", "label_zh", "count", "percentage", "pattern_ids", "detail_en",
      "detail_zh"].map py),
    .closed (findProperties.map (·.1))]

/-- `$defs/key_find` and `$defs/secondary_find`, with the length of a detail. -/
def groupFindSchema (detailLength : ℕ) : Schema :=
  .all [
    findSchema,
    .properties [
      (py "detail_en", .maxLength detailLength),
      (py "detail_zh", .maxLength detailLength)]]

/-- The properties of a result. -/
def outputProperties : List (PyStr × Schema) := [
  (py "total_entries", naturalNumber),
  (py "summary_en", .all [.type [.string], .minLength 1, .maxLength 800]),
  (py "summary_zh", .all [.type [.string], .minLength 1, .maxLength 800]),
  (py "key_finds", .all [.type [.array], .items (groupFindSchema 600), .minItems 1]),
  (py "secondary_finds", .all [.type [.array], .items (groupFindSchema 320)]),
  (py "severity_signal", .all [.type [.string],
    .enum (["low", "medium", "high", "critical"].map literal)]),
  (py "confidence", .all [.type [.number], .minimum 0, .maximum 1])]

/-- `output.schema.json`. -/
def outputSchema : Schema :=
  .all [
    .type [.object],
    .properties outputProperties,
    .required (outputProperties.map (·.1)),
    .closed (outputProperties.map (·.1))]

/-- A result the contract accepts. No part of the contract is about formats, and a decoded object
has each key once. -/
structure ModelResult where
  fields : Json.Fields
  valid : outputSchema.accepts (fun _ _ => true) (.obj fields) = true
  unique : (Dict.keys fields).Nodup
  uniqueFinds : ∀ finding ∈ findings fields, ∀ find, finding = .obj find →
    (Dict.keys find).Nodup

/-- What the contract says about a finding, as far as reconciliation depends on it. -/
structure ContractFind (finding : Json) (find : Json.Fields) : Prop where
  object : finding = .obj find
  unique : (Dict.keys find).Nodup
  evidence : ∀ v, Dict.get? find (py "evidence_entry_ids") = some v →
    ∃ items, v = .arr items ∧ items ≠ []

/-- A field of an accepted object is accepted. -/
lemma accepts_outputProperty {fields : Json.Fields}
    (hvalid : outputSchema.accepts (fun _ _ => true) (.obj fields) = true) {k : PyStr} {s : Schema}
    (h : (k, s) ∈ outputProperties) {v : Json} (hget : Dict.get? fields k = some v) :
    s.accepts (fun _ _ => true) v = true := by
  have hall := accepts_all.mp hvalid (.properties outputProperties) (by simp)
  exact Schema.accepts_property.mp (accepts_properties.mp hall (k, s) h) v hget

/-- An accepted object has all fields. -/
lemma exists_outputProperty {fields : Json.Fields}
    (hvalid : outputSchema.accepts (fun _ _ => true) (.obj fields) = true) {k : PyStr}
    (h : k ∈ outputProperties.map (·.1)) : ∃ v, Dict.get? fields k = some v := by
  have hall := accepts_all.mp hvalid (.required (outputProperties.map (·.1))) (by simp)
  have hkey := accepts_required.mp hall k h
  rw [← Option.ne_none_iff_exists', ne_eq, Dict.get?_eq_none_iff, not_not]
  exact hkey

/-- A list the contract accepts. -/
lemma eq_arr_of_accepts {ss : List Schema} {v : Json}
    (h : (Schema.all (.type [.array] :: ss)).accepts (fun _ _ => true) v = true) :
    ∃ items, v = .arr items := by
  have htype := accepts_all.mp h (.type [.array]) List.mem_cons_self
  cases v with
  | arr items => exact ⟨items, rfl⟩
  | null | bool | int | float | str | obj => simp [accepts, JsonType.has] at htype

/-- A group of an accepted object is a list of accepted findings. -/
lemma exists_outputGroup {fields : Json.Fields}
    (hvalid : outputSchema.accepts (fun _ _ => true) (.obj fields) = true) {name : PyStr}
    (h : name ∈ groupNames) :
    ∃ items detailLength, Dict.get? fields name = some (.arr items) ∧
      ∀ finding ∈ items,
        (groupFindSchema detailLength).accepts (fun _ _ => true) finding = true := by
  obtain ⟨detailLength, rest, hname⟩ : ∃ detailLength rest, (name, Schema.all
      (.type [.array] :: .items (groupFindSchema detailLength) :: rest)) ∈ outputProperties := by
    simp only [groupNames, List.mem_cons, List.not_mem_nil, or_false] at h
    rcases h with rfl | rfl
    · exact ⟨600, [.minItems 1], by simp [outputProperties]⟩
    · exact ⟨320, [], by simp [outputProperties]⟩
  obtain ⟨v, hv⟩ := exists_outputProperty hvalid (List.mem_map.mpr ⟨_, hname, rfl⟩)
  have hschema := accepts_outputProperty hvalid hname hv
  obtain ⟨items, rfl⟩ := eq_arr_of_accepts hschema
  have hitems := accepts_all.mp hschema (.items (groupFindSchema detailLength)) (by simp)
  exact ⟨items, detailLength, hv, fun finding hfinding =>
    List.all_eq_true.mp hitems finding hfinding⟩

/-- A finding the contract accepts. -/
lemma exists_contractFind {detailLength : ℕ} {finding : Json}
    (h : (groupFindSchema detailLength).accepts (fun _ _ => true) finding = true)
    (hunique : ∀ find, finding = .obj find → (Dict.keys find).Nodup) :
    ∃ find, ContractFind finding find := by
  have hfind := accepts_all.mp h findSchema List.mem_cons_self
  have htype := accepts_all.mp hfind (.type [.object]) List.mem_cons_self
  obtain ⟨find, rfl⟩ : ∃ find, finding = .obj find := by
    cases finding with
    | obj find => exact ⟨find, rfl⟩
    | null | bool | int | float | str | arr => simp [accepts, JsonType.has] at htype
  refine ⟨find, rfl, hunique find rfl, fun v hv => ?_⟩
  have hall := accepts_all.mp hfind (.properties findProperties) (by simp)
  have hevidence := Schema.accepts_property.mp (accepts_properties.mp hall
    (py "evidence_entry_ids", .all [.type [.array], .items naturalNumber, .minItems 1,
      .uniqueItems]) (by simp [findProperties])) v hv
  obtain ⟨items, rfl⟩ := eq_arr_of_accepts hevidence
  have hmin := accepts_all.mp hevidence (.minItems 1) (by simp)
  refine ⟨items, rfl, ?_⟩
  rintro rfl
  simp [accepts] at hmin

namespace ModelResult

variable (r : ModelResult)

/-- A group is a list of findings the contract accepts. -/
lemma exists_group {name : PyStr} (h : name ∈ groupNames) :
    ∃ items, Dict.get? r.fields name = some (.arr items) ∧
      ∀ finding ∈ items, ∃ find, ContractFind finding find := by
  obtain ⟨items, detailLength, hget, hitems⟩ := exists_outputGroup r.valid h
  refine ⟨items, hget, fun finding hfinding => ?_⟩
  refine exists_contractFind (hitems finding hfinding)
    (r.uniqueFinds finding (List.mem_flatMap.mpr ⟨name, h, ?_⟩))
  simpa [groupItems, Json.Fields.get, Json.Fields.getD, hget] using hfinding

end ModelResult

end Triage
