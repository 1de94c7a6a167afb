import Mathlib.Data.Finset.Card
import NocReport.Triage.Statistics

set_option relaxedAutoImplicit false
set_option autoImplicit false

/-!
# The findings of a model result

A log-triage result is a JSON object with two lists of findings, `key_finds` and
`secondary_finds`. Reconciliation updates it in place; when it raises an exception the object is
left behind as far as it has come, and a later attempt goes on with that object.

## Main definitions

* `Triage.Failure` — an exception and the object left behind.
* `Triage.groupNames`, `Triage.findings` — the two lists, and all findings of a result.
* `Triage.Quantified`, `Triage.texts` — whether a finding is quantified, and the texts of a list.
* `Triage.percentage` — the percentage of a count.
-/

namespace Triage

/-- An exception, and what it leaves behind. -/
abbrev Failure (α : Type) := PyError × α

/-- The two lists of findings. -/
def groupNames : List PyStr := [py "key_finds", py "secondary_finds"]

/-- The elements of a list of findings. -/
def groupItems (result : Json.Fields) (name : PyStr) : List Json :=
  match result.get name with
  | .arr items => items
  | _ => []

/-- The findings of a result. -/
def findings (result : Json.Fields) : List Json := groupNames.flatMap (groupItems result)

/-- The marker of unquantified findings. -/
def unquantifiedIds : Json := .arr [.str (py "unquantified")]

/-- `v == ["unquantified"]`. -/
def isUnquantified (v : Json) : Bool :=
  match v with
  | .arr [.str s] => s == py "unquantified"
  | _ => false

/-- The finding is quantified: its `pattern_ids` is not the marker. -/
def Quantified (finding : Json.Fields) : Prop :=
  isUnquantified (finding.get (py "pattern_ids")) = false

instance (finding : Json.Fields) : Decidable (Quantified finding) :=
  inferInstanceAs (Decidable (_ = _))

/-- The texts of a list. -/
def texts (xs : List PyStr) : Json := .arr (xs.map .str)

/-- A text literal as a value. -/
def literal (s : String) : Json := .str (py s)

/-- `round((count / total) * 100, 2) if total else 0.0`. -/
def percentage (count total : ℕ) : Json :=
  .float (.finite (if total = 0 then 0
    else Double.roundTo 2 (Double.mul (Double.div count total) 100)))

/-- `"evidence_entry_ids" in finding`, which asks a text for a part and a list for an element. -/
def hasEvidence (finding : Json) : Except PyError Bool :=
  match finding with
  | .obj fields => return Dict.contains fields (py "evidence_entry_ids")
  | .arr xs => return xs.any (·.isText "evidence_entry_ids")
  | .str s => return hasText (py "evidence_entry_ids") s
  | _ => throw .typeError

lemma isUnquantified_iff {v : Json} : isUnquantified v = true ↔ v = unquantifiedIds := by
  constructor
  · intro h
    unfold isUnquantified at h
    split at h
    · rw [eq_of_beq h]
      rfl
    · cases h
  · rintro rfl
    rfl

end Triage
