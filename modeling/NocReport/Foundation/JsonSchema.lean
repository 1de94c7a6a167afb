import NocReport.Foundation.Json

set_option relaxedAutoImplicit false
set_option autoImplicit false

/-!
# JSON Schema, draft 7

The keywords of draft 7 that flat contracts use. A keyword constrains only values of the types
it is about; a schema with several keywords accepts the values all of them accept. Checking of
`format` is a parameter, since it is the validating library that decides it.

## Main definitions

* `Schema`, `Schema.all` — the keywords, and a schema with several of them.
* `Schema.accepts` — whether a value validates.

## Main results

* `Schema.accepts_all` — a schema with several keywords is their conjunction.
* `Schema.accepts_required`, `Schema.accepts_closed`, `Schema.accepts_property` — what the object
  keywords say about the fields.
* `Schema.accepts_record_congr` — an object with other values under the same keys.
-/

/-- The values of the keyword `type`. -/
inductive JsonType
  | null | boolean | integer | number | string | array | object
  deriving DecidableEq, Repr

namespace JsonType

/-- Whether a value has a type; a float with an integral value is an `integer`. -/
def has : JsonType → Json → Bool
  | null, .null => true
  | boolean, .bool _ => true
  | integer, .int _ => true
  | integer, .float (.finite q) => q.den == 1
  | number, .int _ => true
  | number, .float _ => true
  | string, .str _ => true
  | array, .arr _ => true
  | object, .obj _ => true
  | _, _ => false

end JsonType

/-- A schema. Each constructor but the first two is one keyword; `closed` is
`additionalProperties: false` next to the properties named. -/
inductive Schema
  | any
  | both (a b : Schema)
  | type (ts : List JsonType)
  | const (v : Json)
  | enum (vs : List Json)
  | format (name : PyStr)
  | minLength (n : ℕ)
  | maxLength (n : ℕ)
  | minimum (q : ℚ)
  | maximum (q : ℚ)
  | required (ks : List PyStr)
  | property (k : PyStr) (s : Schema)
  | closed (ks : List PyStr)
  | items (s : Schema)
  | minItems (n : ℕ)
  | uniqueItems
  deriving Repr

namespace Schema

/-- A schema with several keywords. -/
def all (ss : List Schema) : Schema := ss.foldr both any

/-- The keyword `properties`. -/
def properties (ps : List (PyStr × Schema)) : Schema :=
  all (ps.map fun p => property p.1 p.2)

/-- Whether `x < q` for a number `x`; no comparison with a NaN holds. -/
def numberLt (v : Json) (q : ℚ) : Bool :=
  match v with
  | .int i => (i : ℚ) < q
  | .float (.finite x) => x < q
  | .float .negInf => true
  | _ => false

/-- Whether `q < x` for a number `x`. -/
def numberGt (v : Json) (q : ℚ) : Bool :=
  match v with
  | .int i => q < (i : ℚ)
  | .float (.finite x) => q < x
  | .float .posInf => true
  | _ => false

section Accepts

variable (formatOk : PyStr → PyStr → Bool)

/-- Whether a value validates, with `formatOk name s` deciding the format `name` of a text. -/
def accepts : Schema → Json → Bool
  | any, _ => true
  | both a b, v => accepts a v && accepts b v
  | type ts, v => ts.any (·.has v)
  | const c, v => Json.equal v c
  | enum vs, v => vs.any (Json.equal v)
  | format name, v => match v with
    | .str s => formatOk name s
    | _ => true
  | minLength n, v => match v with
    | .str s => n ≤ s.length
    | _ => true
  | maxLength n, v => match v with
    | .str s => s.length ≤ n
    | _ => true
  | minimum q, v => !numberLt v q
  | maximum q, v => !numberGt v q
  | required ks, v => match v with
    | .obj fields => ks.all (Dict.contains fields)
    | _ => true
  | property k s, v => match v with
    | .obj fields => match Dict.get? fields k with
      | some x => accepts s x
      | none => true
    | _ => true
  | closed ks, v => match v with
    | .obj fields => (Dict.keys fields).all (ks.contains ·)
    | _ => true
  | items s, v => match v with
    | .arr xs => xs.all (accepts s)
    | _ => true
  | minItems n, v => match v with
    | .arr xs => n ≤ xs.length
    | _ => true
  | uniqueItems, v => match v with
    | .arr xs => decide (xs.Pairwise fun x y => Json.equal x y = false)
    | _ => true

attribute [local simp] accepts

variable {formatOk}

/-- A schema with several keywords is their conjunction. -/
lemma accepts_all {ss : List Schema} {v : Json} :
    accepts formatOk (all ss) v = true ↔ ∀ s ∈ ss, accepts formatOk s v = true := by
  induction ss with
  | nil => simp [all]
  | cons s ss ih =>
    have hfold : all (s :: ss) = both s (all ss) := rfl
    rw [hfold, accepts, Bool.and_eq_true, ih, List.forall_mem_cons]

lemma accepts_properties {ps : List (PyStr × Schema)} {v : Json} :
    accepts formatOk (properties ps) v = true ↔
      ∀ p ∈ ps, accepts formatOk (property p.1 p.2) v = true := by
  rw [properties, accepts_all]
  simp only [List.forall_mem_map]

/-- `required` asks for each of its keys. -/
lemma accepts_required {ks : List PyStr} {fields : Json.Fields} :
    accepts formatOk (required ks) (.obj fields) = true ↔ ∀ k ∈ ks, k ∈ Dict.keys fields := by
  simp [List.all_eq_true, Dict.contains_iff]

/-- `additionalProperties: false` allows no key but those named. -/
lemma accepts_closed {ks : List PyStr} {fields : Json.Fields} :
    accepts formatOk (closed ks) (.obj fields) = true ↔ ∀ k ∈ Dict.keys fields, k ∈ ks := by
  simp [List.all_eq_true]

/-- A property schema constrains the field, if it is there. -/
lemma accepts_property {k : PyStr} {s : Schema} {fields : Json.Fields} :
    accepts formatOk (property k s) (.obj fields) = true ↔
      ∀ x, Dict.get? fields k = some x → accepts formatOk s x = true := by
  simp only [accepts]
  cases Dict.get? fields k with
  | none => simp
  | some x => simp

/-- What a contract for objects without other keys says. -/
lemma accepts_record {ps : List (PyStr × Schema)} {ks : List PyStr} {fields : Json.Fields} :
    accepts formatOk (all [.type [.object], properties ps, .required ks, .closed (ps.map (·.1))])
        (.obj fields) = true ↔
      (∀ p ∈ ps, ∀ v, Dict.get? fields p.1 = some v → accepts formatOk p.2 v = true) ∧
        (∀ k ∈ ks, k ∈ Dict.keys fields) ∧ ∀ k ∈ Dict.keys fields, k ∈ ps.map (·.1) := by
  have htype : accepts formatOk (.type [.object]) (.obj fields) = true := rfl
  rw [accepts_all]
  simp only [List.forall_mem_cons, List.not_mem_nil, false_imp_iff, implies_true, and_true, htype,
    true_and, accepts_properties, accepts_property, accepts_required, accepts_closed]

/-- An object with other values under the same keys. -/
lemma accepts_record_congr {ps : List (PyStr × Schema)} {ks : List PyStr}
    {fields fields' : Json.Fields}
    (hkeys : ∀ k, k ∈ Dict.keys fields' ↔ k ∈ Dict.keys fields)
    (hvalues : ∀ p ∈ ps, ∀ v', Dict.get? fields' p.1 = some v' → ∃ v,
      Dict.get? fields p.1 = some v ∧ (accepts formatOk p.2 v = true → accepts formatOk p.2 v' = true))
    (h : accepts formatOk (all [.type [.object], properties ps, .required ks,
      .closed (ps.map (·.1))]) (.obj fields) = true) :
    accepts formatOk (all [.type [.object], properties ps, .required ks, .closed (ps.map (·.1))])
      (.obj fields') = true := by
  rw [accepts_record] at h ⊢
  obtain ⟨hproperties, hrequired, hclosed⟩ := h
  refine ⟨fun p hp v' hv' => ?_, fun k hk => (hkeys k).mpr (hrequired k hk), fun k hk =>
    hclosed k ((hkeys k).mp hk)⟩
  obtain ⟨v, hv, haccepts⟩ := hvalues p hp v' hv'
  exact haccepts (hproperties p hp v hv)

/-- A text validates against `type: string` and other keywords as a text. -/
lemma eq_str_of_accepts_type {v : Json} (h : accepts formatOk (type [.string]) v = true) :
    ∃ s, v = .str s := by
  cases v with
  | str s => exact ⟨s, rfl⟩
  | null | bool | int | float | arr | obj => simp [JsonType.has] at h

end Accepts

end Schema
