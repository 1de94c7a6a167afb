import Mathlib.Data.List.Basic
import Mathlib.Data.List.Infix
import Mathlib.Data.List.Lex
import Mathlib.Data.Nat.Notation

set_option relaxedAutoImplicit false
set_option autoImplicit false

/-!
# Text as code points

Python's `str` is a sequence of code points, lone surrogates included, so it is modelled by the
list of them rather than by Lean's `String`.

## Main definitions

* `PyStr` — a sequence of code points.
* `py` — the code points of a string literal.

## Main results

* `py_inj` — different literals are different texts.
-/

/-- A sequence of code points. -/
abbrev PyStr := List ℕ

/-- Texts are compared by their code points. -/
instance instLawfulBEqPyStr : LawfulBEq PyStr := inferInstance

/-- The code points of a literal. -/
def py (s : String) : PyStr := s.toList.map Char.toNat

/-- Different literals are different texts. -/
@[simp] lemma py_inj {s t : String} : py s = py t ↔ s = t := by
  constructor
  · intro h
    have hinj : Function.Injective Char.toNat := fun a b hab => Char.toNat_inj.mp hab
    exact String.toList_inj.mp (hinj.list_map h)
  · exact fun h => h ▸ rfl
