import Mathlib.Algebra.Order.Floor.Semiring
import Mathlib.Data.Rat.Floor
import Mathlib.Tactic.FieldSimp
import Mathlib.Tactic.Linarith
import Mathlib.Tactic.Positivity

set_option relaxedAutoImplicit false
set_option autoImplicit false

/-!
# Double-precision arithmetic

The results of Python's float operations on numbers in the range of doubles, as the rational
numbers they are: the exact result, rounded to 53 significant bits, ties to even.

## Main definitions

* `Double.roundHalfEven` — the nearest integer, ties to even.
* `Double.nearest` — the nearest double.
* `Double.div`, `Double.mul` — `/` and `*`.
* `Double.roundTo` — `round(x, ndigits)`.

## Main results

* `Double.nearest_nonneg`, `Double.nearest_le` — rounding does not pass a number it keeps.
* `Double.percentage_bounds` — a share that is rounded is a percentage.
-/

namespace Double

/-- The nearest integer, ties to even. -/
def roundHalfEven (q : ℚ) : ℤ :=
  let floor := q.floor
  let rest := q - floor
  if rest < 1 / 2 then floor
  else if 1 / 2 < rest then floor + 1
  else if floor % 2 = 0 then floor else floor + 1

/-- The exponent of the leading bit of a positive rational: the largest `e` with `2 ^ e ≤ q`. -/
def exponent (q : ℚ) : ℤ :=
  let e : ℤ := Nat.log2 q.num.natAbs - Nat.log2 q.den
  if (2 : ℚ) ^ e ≤ q then e else e - 1

/-- The double nearest to a rational, subnormal ones included. -/
def nearest (q : ℚ) : ℚ :=
  if q = 0 then 0
  else
    let ulp : ℚ := (2 : ℚ) ^ max (exponent |q| - 52) (-1074)
    roundHalfEven (q / ulp) * ulp

/-- `a / b` for a divisor that is not zero. -/
def div (a b : ℚ) : ℚ := nearest (a / b)

/-- `a * b`. -/
def mul (a b : ℚ) : ℚ := nearest (a * b)

/-- `round(x, digits)`: the nearest decimal with that many digits, and the double nearest to it. -/
def roundTo (digits : ℕ) (x : ℚ) : ℚ :=
  nearest (roundHalfEven (x * 10 ^ digits) / 10 ^ digits)

/-! ## What rounding keeps -/

/-- Rounding stays below an integer bound. -/
lemma roundHalfEven_le {q : ℚ} {n : ℤ} (h : q ≤ n) : roundHalfEven q ≤ n := by
  have hfloor : q.floor ≤ n := by
    have := Rat.floor_le q
    exact_mod_cast this.trans h
  unfold roundHalfEven
  dsimp only
  rcases hfloor.lt_or_eq with hlt | heq
  · split_ifs <;> omega
  · rw [if_pos]
    · exact hfloor
    · have hrest : q - q.floor ≤ 0 := by
        rw [heq]
        linarith
      linarith

/-- Rounding stays above an integer bound. -/
lemma le_roundHalfEven {q : ℚ} {n : ℤ} (h : (n : ℚ) ≤ q) : n ≤ roundHalfEven q := by
  have hfloor : n ≤ q.floor := Rat.le_floor_iff.mpr h
  unfold roundHalfEven
  dsimp only
  split_ifs <;> omega

/-- The leading bit is not above the number. -/
lemma zpow_exponent_le {q : ℚ} (hq : 0 < q) : (2 : ℚ) ^ exponent q ≤ q := by
  unfold exponent
  dsimp only
  split
  · assumption
  · have hnum : (2 : ℚ) ^ (Nat.log2 q.num.natAbs : ℤ) ≤ q.num := by
      have hne : q.num.natAbs ≠ 0 := by simpa using hq.ne'
      have hpow := Nat.log2_self_le hne
      have hnat : ((q.num.natAbs : ℤ) : ℚ) = q.num :=
        congrArg _ (Int.natAbs_of_nonneg (Rat.num_nonneg.mpr hq.le))
      rw [zpow_natCast, ← hnat, Int.cast_natCast]
      exact_mod_cast hpow
    have hden : (q.den : ℚ) ≤ 2 ^ (Nat.log2 q.den + 1 : ℤ) := by
      have hpow : q.den < 2 ^ (Nat.log2 q.den + 1) := Nat.lt_log2_self
      have : (q.den : ℚ) < ((2 ^ (Nat.log2 q.den + 1) : ℕ) : ℚ) := by exact_mod_cast hpow
      have hcast : ((2 ^ (Nat.log2 q.den + 1) : ℕ) : ℚ) = 2 ^ (Nat.log2 q.den + 1 : ℤ) := by
        push_cast
        exact_mod_cast rfl
      exact (hcast ▸ this).le
    have hdenPos : (0 : ℚ) < q.den := by exact_mod_cast q.den_pos
    have hpos : (0 : ℚ) < 2 ^ (Nat.log2 q.den + 1 : ℤ) := zpow_pos (by norm_num) _
    calc (2 : ℚ) ^ ((Nat.log2 q.num.natAbs : ℤ) - Nat.log2 q.den - 1)
        = 2 ^ (Nat.log2 q.num.natAbs : ℤ) / 2 ^ (Nat.log2 q.den + 1 : ℤ) := by
          rw [← zpow_sub₀ (by norm_num)]
          congr 1
          ring
      _ ≤ q.num / q.den := by
          rw [div_le_div_iff₀ hpos hdenPos]
          have hnum' : (0 : ℚ) ≤ q.num := by exact_mod_cast Rat.num_nonneg.mpr hq.le
          exact mul_le_mul hnum hden hdenPos.le hnum'
      _ = q := Rat.num_div_den q

/-- The double nearest to a number that is not negative is not negative. -/
lemma nearest_nonneg {q : ℚ} (h : 0 ≤ q) : 0 ≤ nearest q := by
  unfold nearest
  split
  · exact le_rfl
  · have hulp : (0 : ℚ) < 2 ^ max (exponent |q| - 52) (-1074) := zpow_pos (by norm_num) _
    have hround : 0 ≤ roundHalfEven (q / 2 ^ max (exponent |q| - 52) (-1074)) :=
      le_roundHalfEven (by simpa using div_nonneg h hulp.le)
    exact mul_nonneg (by exact_mod_cast hround) hulp.le

/-- The double nearest to a number stays below an integer that is a double. -/
lemma nearest_le {q : ℚ} {n : ℕ} (hn : n < 2 ^ 53) (h0 : 0 ≤ q) (h : q ≤ n) : nearest q ≤ n := by
  unfold nearest
  split
  · exact Nat.cast_nonneg n
  · next hne =>
    have hq : 0 < q := lt_of_le_of_ne h0 (Ne.symm hne)
    have hexponent : exponent |q| ≤ 52 := by
      rw [abs_of_pos hq]
      by_contra hlt
      have hpow : (2 : ℚ) ^ (53 : ℤ) ≤ 2 ^ exponent q :=
        zpow_le_zpow_right₀ (by norm_num) (by omega)
      have hbound : (n : ℚ) < 2 ^ (53 : ℤ) := by exact_mod_cast hn
      linarith [zpow_exponent_le hq]
    obtain ⟨k, hk⟩ : ∃ k : ℕ, max (exponent |q| - 52) (-1074) = -(k : ℤ) :=
      ⟨(-max (exponent |q| - 52) (-1074)).toNat, by omega⟩
    rw [hk]
    have hulp : (0 : ℚ) < 2 ^ (-(k : ℤ)) := zpow_pos (by norm_num) _
    -- the bound is a multiple of the unit in the last place
    have hmultiple : ((n * 2 ^ k : ℤ) : ℚ) * 2 ^ (-(k : ℤ)) = n := by
      rw [zpow_neg, zpow_natCast]
      push_cast
      field_simp
    have hround : roundHalfEven (q / 2 ^ (-(k : ℤ))) ≤ n * 2 ^ k := by
      refine roundHalfEven_le ?_
      rw [div_le_iff₀ hulp, hmultiple]
      exact h
    calc (roundHalfEven (q / 2 ^ (-(k : ℤ))) : ℚ) * 2 ^ (-(k : ℤ))
        ≤ ((n * 2 ^ k : ℤ) : ℚ) * 2 ^ (-(k : ℤ)) :=
          mul_le_mul_of_nonneg_right (by exact_mod_cast hround) hulp.le
      _ = n := hmultiple

/-- A share of a whole, as a percentage with two digits, is a percentage. -/
lemma percentage_bounds {count total : ℕ} (h : count ≤ total) :
    0 ≤ roundTo 2 (mul (div count total) 100) ∧ roundTo 2 (mul (div count total) 100) ≤ 100 := by
  have hshare : (count : ℚ) / total ≤ (1 : ℕ) := by
    rw [Nat.cast_one]
    exact div_le_one_of_le₀ (by exact_mod_cast h) (Nat.cast_nonneg _)
  have hshare0 : (0 : ℚ) ≤ count / total := by positivity
  have hdiv0 : 0 ≤ div count total := nearest_nonneg hshare0
  have hdiv : div count total ≤ (1 : ℕ) := nearest_le (by norm_num) hshare0 hshare
  have hmul0 : 0 ≤ mul (div count total) 100 := nearest_nonneg (by linarith)
  have hmul : mul (div count total) 100 ≤ (100 : ℕ) :=
    nearest_le (by norm_num) (by linarith) (by push_cast at hdiv ⊢; linarith)
  have hround0 : 0 ≤ roundHalfEven (mul (div count total) 100 * 10 ^ 2) :=
    le_roundHalfEven (by push_cast; linarith)
  have hround : roundHalfEven (mul (div count total) 100 * 10 ^ 2) ≤ (10000 : ℤ) :=
    roundHalfEven_le (by push_cast at hmul ⊢; linarith)
  have hround0' : (0 : ℚ) ≤ roundHalfEven (mul (div count total) 100 * 10 ^ 2) := by
    exact_mod_cast hround0
  have hround' : (roundHalfEven (mul (div count total) 100 * 10 ^ 2) : ℚ) ≤ 10000 := by
    exact_mod_cast hround
  have h100 : nearest (roundHalfEven (mul (div count total) 100 * 10 ^ 2) / 10 ^ 2) ≤ (100 : ℕ) :=
    nearest_le (by norm_num) (by positivity) (by
      rw [div_le_iff₀ (by norm_num)]
      push_cast
      linarith)
  exact ⟨nearest_nonneg (by positivity), by simpa [roundTo] using h100⟩

end Double
