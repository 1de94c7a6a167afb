import Mathlib.Data.Rat.Defs
import Mathlib.Algebra.Order.Ring.Rat
import NocReport.Foundation.Dict
import NocReport.Foundation.Text

set_option relaxedAutoImplicit false
set_option autoImplicit false

/-!
# JSON values

The values `json.loads` returns. Integers and floats are different values; a float is a rational
number or one of the three literals the parser accepts besides numbers. A float of any rational
value is allowed, not only one with a binary representation, and the sign of zero is not kept.

## Main definitions

* `Json`, `JsonFloat` — the values.
* `Json.number?` — the numeric value of an integer or a finite float.
* `Json.equal` — the equality JSON Schema compares values by, where `1` and `1.0` are the same
  and `true` and `1` are not.
* `Json.beq` — whether two values are one.
-/

/-- A JSON float. -/
inductive JsonFloat where
  | finite (q : ℚ)
  | nan
  | posInf
  | negInf
  deriving DecidableEq, Repr

/-- A JSON value; an object keeps the order of its fields. -/
inductive Json where
  | null
  | bool (b : Bool)
  | int (i : ℤ)
  | float (f : JsonFloat)
  | str (s : PyStr)
  | arr (xs : List Json)
  | obj (fields : List (PyStr × Json))
  deriving Repr

namespace Json

/-- The fields of an object. -/
abbrev Fields := Dict PyStr Json

/-- The field `k` of an object. -/
def get? (v : Json) (k : PyStr) : Option Json :=
  match v with
  | obj fields => Dict.get? fields k
  | _ => none

/-- The numeric value of an integer or a finite float. -/
def number? : Json → Option ℚ
  | int i => some i
  | float (.finite q) => some q
  | _ => none

mutual

/-- Equality up to the order of the fields and the representation of numbers. -/
def equal : Json → Json → Bool
  | null, null => true
  | bool a, bool b => a == b
  | str a, str b => a == b
  | arr xs, arr ys => equalList xs ys
  | obj xs, obj ys => xs.length == ys.length && equalFields xs ys
  | float .posInf, float .posInf => true
  | float .negInf, float .negInf => true
  | int a, b => number? b == some (a : ℚ)
  | float (.finite a), b => number? b == some a
  | _, _ => false

/-- Elementwise equality. -/
def equalList : List Json → List Json → Bool
  | [], [] => true
  | x :: xs, y :: ys => equal x y && equalList xs ys
  | _, _ => false

/-- Every field of the first object is an equal field of the second. -/
def equalFields : List (PyStr × Json) → List (PyStr × Json) → Bool
  | [], _ => true
  | (k, x) :: xs, ys =>
    (match Dict.get? ys k with
      | some y => equal x y
      | none => false) && equalFields xs ys

end

mutual

/-- The values are one. -/
def beq : Json → Json → Bool
  | null, null => true
  | bool a, bool b => a == b
  | int a, int b => a == b
  | float a, float b => a == b
  | str a, str b => a == b
  | arr xs, arr ys => beqList xs ys
  | obj xs, obj ys => beqFields xs ys
  | _, _ => false

def beqList : List Json → List Json → Bool
  | [], [] => true
  | x :: xs, y :: ys => beq x y && beqList xs ys
  | _, _ => false

def beqFields : List (PyStr × Json) → List (PyStr × Json) → Bool
  | [], [] => true
  | (k, x) :: xs, (i, y) :: ys => k == i && beq x y && beqFields xs ys
  | _, _ => false

end

mutual

lemma beq_iff_eq : ∀ v w : Json, beq v w = true ↔ v = w
  | null, w => by cases w <;> simp [beq]
  | bool a, w => by cases w <;> simp [beq]
  | int a, w => by cases w <;> simp [beq]
  | float a, w => by cases w <;> simp [beq]
  | str a, w => by cases w <;> simp [beq]
  | arr xs, w => by cases w <;> simp [beq, beqList_iff_eq xs]
  | obj xs, w => by cases w <;> simp [beq, beqFields_iff_eq xs]

lemma beqList_iff_eq : ∀ xs ys : List Json, beqList xs ys = true ↔ xs = ys
  | [], ys => by cases ys <;> simp [beqList]
  | x :: xs, ys => by cases ys <;> simp [beqList, beq_iff_eq x, beqList_iff_eq xs]

lemma beqFields_iff_eq : ∀ xs ys : List (PyStr × Json), beqFields xs ys = true ↔ xs = ys
  | [], ys => by cases ys <;> simp [beqFields]
  | (k, x) :: xs, ys => by
    cases ys <;> simp [beqFields, Prod.ext_iff, beq_iff_eq x, beqFields_iff_eq xs]

end

instance : DecidableEq Json := fun v w => decidable_of_iff _ (beq_iff_eq v w)

@[simp] lemma get?_obj (fields : List (PyStr × Json)) (k : PyStr) :
    (obj fields).get? k = Dict.get? fields k := rfl

end Json
