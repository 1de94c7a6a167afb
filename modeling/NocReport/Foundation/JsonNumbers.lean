import Mathlib.Data.List.TakeWhile
import NocReport.Foundation.Python

set_option relaxedAutoImplicit false
set_option autoImplicit false

/-!
# The numbers of JSON

The texts that JSON takes for numbers, `(-?(?:0|[1-9][0-9]*))(\.[0-9]+)?([eE][-+]?[0-9]+)?`, read
part by part, each as long as can be.

## Main definitions

* `PyJson.Number` — a number in parts, and `PyJson.Number.Valid`, what parts make a number.
* `PyJson.scanNumber` — the reader of a number.
* `PyJson.decimalValue` — the value of digits.

## Main results

* `PyJson.scanNumber_text` — a number that stops where it is meant to is read as it was written.
* `PyJson.intNumber_valid`, `PyJson.intNumber_text`, `PyJson.intNumber_value` — the text of an
  integer is a number of that value.
-/

namespace PyJson

/-- `[0-9]` -/
def isDecimal (c : ℕ) : Bool := 48 ≤ c && c ≤ 57

/-- A number in parts: the sign, the digits before the point, the point with the digits after it,
and the exponent. -/
structure Number where
  sign : PyStr
  digits : PyStr
  fraction : PyStr
  exponent : PyStr
  deriving DecidableEq

/-! ## Reading -/

/-- `-?` -/
def scanSign (text : PyStr) : PyStr × PyStr :=
  match text with
  | [] => ([], [])
  | c :: rest => if c = 45 then ([c], rest) else ([], text)

/-- `0|[1-9][0-9]*` -/
def scanDigits (text : PyStr) : Option (PyStr × PyStr) :=
  match text with
  | [] => none
  | c :: rest =>
    if c = 48 then some ([c], rest)
    else if isDecimal c then some (text.takeWhile isDecimal, text.dropWhile isDecimal)
    else none

/-- `(\.[0-9]+)?` -/
def scanFraction (text : PyStr) : PyStr × PyStr :=
  match text with
  | [] => ([], [])
  | c :: rest =>
    if c = 46 ∧ rest.takeWhile isDecimal ≠ [] then
      (c :: rest.takeWhile isDecimal, rest.dropWhile isDecimal)
    else ([], text)

/-- `[-+]?` -/
def scanExponentSign (text : PyStr) : PyStr × PyStr :=
  match text with
  | [] => ([], [])
  | c :: rest => if c = 45 ∨ c = 43 then ([c], rest) else ([], text)

/-- `([eE][-+]?[0-9]+)?` -/
def scanExponent (text : PyStr) : PyStr × PyStr :=
  match text with
  | [] => ([], [])
  | c :: rest =>
    let signed := scanExponentSign rest
    if (c = 101 ∨ c = 69) ∧ signed.2.takeWhile isDecimal ≠ [] then
      (c :: signed.1 ++ signed.2.takeWhile isDecimal, signed.2.dropWhile isDecimal)
    else ([], text)

/-- `(-?(?:0|[1-9][0-9]*))(\.[0-9]+)?([eE][-+]?[0-9]+)?` -/
def scanNumber (text : PyStr) : Option (Number × PyStr) :=
  let signed := scanSign text
  (scanDigits signed.2).map fun whole =>
    let fraction := scanFraction whole.2
    let exponent := scanExponent fraction.2
    (⟨signed.1, whole.1, fraction.1, exponent.1⟩, exponent.2)

/-- The number that decimal digits make. -/
def decimalValue (digits : PyStr) : ℕ := digits.foldl (fun n c => 10 * n + (c - 48)) 0

/-! ## Texts of numbers -/

/-- A run of digits. -/
def IsDigits (t : PyStr) : Prop := t ≠ [] ∧ ∀ c ∈ t, isDecimal c = true

/-- The parts make a number. -/
structure Number.Valid (n : Number) : Prop where
  sign : n.sign = [] ∨ n.sign = [45]
  digits : IsDigits n.digits
  /-- there is no leading zero -/
  whole : n.digits.head? = some 48 → n.digits = [48]
  fraction : n.fraction = [] ∨ ∃ ds, IsDigits ds ∧ n.fraction = 46 :: ds
  exponent : n.exponent = [] ∨ ∃ e s ds, (e = 101 ∨ e = 69) ∧ (s = [] ∨ s = [45] ∨ s = [43]) ∧
    IsDigits ds ∧ n.exponent = e :: s ++ ds

/-- The text of a number. -/
def Number.text (n : Number) : PyStr := n.sign ++ n.digits ++ n.fraction ++ n.exponent

/-- No number goes on with this text. -/
def Stops (rest : PyStr) : Prop :=
  ∀ c ∈ rest.head?, isDecimal c = false ∧ c ≠ 46 ∧ c ≠ 101 ∧ c ≠ 69

section Reading

variable {n : Number} {ds rest : PyStr}

lemma takeWhile_digits (hds : ∀ c ∈ ds, isDecimal c = true)
    (hrest : ∀ c ∈ rest.head?, isDecimal c = false) :
    (ds ++ rest).takeWhile isDecimal = ds ∧ (ds ++ rest).dropWhile isDecimal = rest := by
  have hstop : rest.takeWhile isDecimal = [] ∧ rest.dropWhile isDecimal = rest := by
    cases rest with
    | nil => exact ⟨rfl, rfl⟩
    | cons c rest =>
      have hc := hrest c rfl
      simp [hc]
  rw [List.takeWhile_append_of_pos hds, List.dropWhile_append_of_pos hds, hstop.1, hstop.2]
  simp

lemma scanSign_text (hsign : n.sign = [] ∨ n.sign = [45]) (hrest : ∀ c ∈ rest.head?, c ≠ 45) :
    scanSign (n.sign ++ rest) = (n.sign, rest) := by
  rcases hsign with h | h
  · rw [h, List.nil_append]
    cases rest with
    | nil => rfl
    | cons c rest => simp [scanSign, hrest c rfl]
  · rw [h]
    rfl

lemma scanDigits_text (hds : IsDigits ds) (hwhole : ds.head? = some 48 → ds = [48])
    (hrest : ∀ c ∈ rest.head?, isDecimal c = false) :
    scanDigits (ds ++ rest) = some (ds, rest) := by
  obtain ⟨hne, hall⟩ := hds
  cases ds with
  | nil => exact absurd rfl hne
  | cons c ds =>
    have hspan := takeWhile_digits hall hrest
    rw [List.cons_append] at hspan ⊢
    by_cases hc : c = 48
    · obtain rfl : ds = [] := by simpa [hc] using hwhole
      simp [scanDigits, hc]
    · rw [scanDigits, if_neg hc, if_pos (hall c List.mem_cons_self), hspan.1, hspan.2]

lemma scanFraction_text {fraction : PyStr}
    (h : fraction = [] ∨ ∃ ds, IsDigits ds ∧ fraction = 46 :: ds)
    (hrest : ∀ c ∈ rest.head?, isDecimal c = false ∧ c ≠ 46) :
    scanFraction (fraction ++ rest) = (fraction, rest) := by
  rcases h with rfl | ⟨ds, ⟨hne, hall⟩, rfl⟩
  · cases rest with
    | nil => rfl
    | cons c rest => simp [scanFraction, (hrest c rfl).2]
  · have hspan := takeWhile_digits hall fun c hc => (hrest c hc).1
    rw [List.cons_append, scanFraction, hspan.1, hspan.2, if_pos ⟨rfl, hne⟩]

lemma scanExponentSign_text {s : PyStr} (h : s = [] ∨ s = [45] ∨ s = [43]) (hds : IsDigits ds) :
    scanExponentSign (s ++ ds ++ rest) = (s, ds ++ rest) := by
  obtain ⟨hne, hall⟩ := hds
  rcases h with rfl | rfl | rfl
  · cases ds with
    | nil => exact absurd rfl hne
    | cons c ds =>
      have hc := hall c List.mem_cons_self
      have hno : ¬ (c = 45 ∨ c = 43) := by
        simp only [isDecimal, Bool.and_eq_true, decide_eq_true_eq] at hc
        omega
      simp [scanExponentSign, hno]
  · rfl
  · rfl

lemma scanExponent_text {exponent : PyStr}
    (h : exponent = [] ∨ ∃ e s ds, (e = 101 ∨ e = 69) ∧ (s = [] ∨ s = [45] ∨ s = [43]) ∧
      IsDigits ds ∧ exponent = e :: s ++ ds) (hrest : Stops rest) :
    scanExponent (exponent ++ rest) = (exponent, rest) := by
  rcases h with rfl | ⟨e, s, ds, he, hs, hds, rfl⟩
  · cases rest with
    | nil => rfl
    | cons c rest =>
      obtain ⟨-, -, h1, h2⟩ := hrest c rfl
      simp [scanExponent, h1, h2]
  · have hspan := takeWhile_digits hds.2 fun c hc => (hrest c hc).1
    rw [List.cons_append, List.cons_append, scanExponent, scanExponentSign_text hs hds]
    dsimp only
    rw [hspan.1, hspan.2, if_pos ⟨he, hds.1⟩, List.cons_append]

/-- A number that stops where it is meant to is read as it was written. -/
theorem scanNumber_text (hn : n.Valid) (hrest : Stops rest) :
    scanNumber (n.text ++ rest) = some (n, rest) := by
  obtain ⟨sign, digits, fraction, exponent⟩ := n
  obtain ⟨hsign, hdigits, hwhole, hfraction, hexponent⟩ := hn
  dsimp only at hsign hdigits hwhole hfraction hexponent
  -- what each part is followed by
  have hthird : ∀ c ∈ (exponent ++ rest).head?, isDecimal c = false ∧ c ≠ 46 := by
    intro c hc
    rcases hexponent with rfl | ⟨e, s, ds, he, -, -, rfl⟩
    · exact ⟨(hrest c hc).1, (hrest c hc).2.1⟩
    · obtain rfl : e = c := by simpa using hc
      rcases he with rfl | rfl <;> exact ⟨rfl, by omega⟩
  have hsecond : ∀ c ∈ (fraction ++ (exponent ++ rest)).head?, isDecimal c = false := by
    intro c hc
    rcases hfraction with rfl | ⟨ds, -, rfl⟩
    · exact (hthird c hc).1
    · obtain rfl : 46 = c := by simpa using hc
      rfl
  have hfirst : ∀ c ∈ (digits ++ (fraction ++ (exponent ++ rest))).head?, c ≠ 45 := by
    intro c hc
    obtain ⟨hne, hall⟩ := hdigits
    cases digits with
    | nil => exact absurd rfl hne
    | cons d digits =>
      obtain rfl : d = c := by simpa using hc
      have := hall d List.mem_cons_self
      simp only [isDecimal, Bool.and_eq_true, decide_eq_true_eq] at this
      omega
  have hsigned := scanSign_text (n := ⟨sign, digits, fraction, exponent⟩) hsign hfirst
  simp only [Number.text, List.append_assoc, scanNumber] at hsigned ⊢
  rw [hsigned, scanDigits_text hdigits hwhole hsecond, Option.map_some,
    scanFraction_text hfraction hthird, scanExponent_text hexponent hrest]

end Reading

/-! ## Integers -/

section Integers

lemma isDecimal_of_mem_ofNat {n c : ℕ} (hc : c ∈ PyStr.ofNat n) : isDecimal c = true := by
  obtain ⟨d, hd, rfl⟩ := List.mem_map.mp hc
  have hdigit := Nat.isDigit_of_mem_toDigits (by decide) (by decide) hd
  simp only [Char.isDigit, Bool.and_eq_true, decide_eq_true_eq] at hdigit
  simp only [isDecimal, Bool.and_eq_true, decide_eq_true_eq]
  exact hdigit

lemma isDigits_ofNat (n : ℕ) : IsDigits (PyStr.ofNat n) :=
  ⟨by simp [PyStr.ofNat, Nat.toDigits_ne_nil], fun _ hc => isDecimal_of_mem_ofNat hc⟩

/-- The digits of a number make the number. -/
lemma decimalValue_ofNat (n : ℕ) : decimalValue (PyStr.ofNat n) = n := by
  have hread := @Nat.ofDigitChars_ten_toDigits n
  rw [Nat.ofDigitChars_eq_foldl] at hread
  rw [decimalValue, PyStr.ofNat, List.foldl_map]
  exact hread

/-- Only zero starts with a zero. -/
lemma ofNat_of_head_zero {n : ℕ} (h : (PyStr.ofNat n).head? = some 48) : PyStr.ofNat n = [48] := by
  induction n using Nat.strong_induction_on with
  | _ n ih =>
    by_cases hn : n < 10
    · rw [PyStr.ofNat, Nat.toDigits_of_lt_base hn] at h ⊢
      exact congrArg (fun c => [c]) (Option.some.inj h)
    · have hsplit : PyStr.ofNat n = PyStr.ofNat (n / 10) ++ [(n % 10).digitChar.toNat] := by
        rw [PyStr.ofNat, Nat.toDigits_of_base_le (by decide) (by omega), List.map_append]
        rfl
      have hne := (isDigits_ofNat (n / 10)).1
      rw [hsplit, List.head?_append_of_ne_nil _ hne] at h
      have hzero := decimalValue_ofNat (n / 10)
      rw [ih (n / 10) (by omega) h] at hzero
      have : decimalValue [48] = 0 := by decide
      omega

/-- An integer as a number. -/
def intNumber (i : ℤ) : Number :=
  ⟨if i < 0 then [45] else [], PyStr.ofNat i.natAbs, [], []⟩

lemma intNumber_valid (i : ℤ) : (intNumber i).Valid where
  sign := by
    unfold intNumber
    split
    · exact .inr rfl
    · exact .inl rfl
  digits := isDigits_ofNat _
  whole := ofNat_of_head_zero
  fraction := .inl rfl
  exponent := .inl rfl

/-- The text of an integer is that of the number. -/
lemma intNumber_text (i : ℤ) : (intNumber i).text = PyStr.ofInt i := by
  unfold intNumber Number.text PyStr.ofInt
  split <;> simp [py]

/-- The sign and the digits of an integer make the integer. -/
lemma intNumber_value (i : ℤ) :
    (if (intNumber i).sign = [] then (decimalValue (intNumber i).digits : ℤ)
      else -decimalValue (intNumber i).digits) = i := by
  have hdigits : decimalValue (intNumber i).digits = i.natAbs := decimalValue_ofNat _
  rw [hdigits]
  unfold intNumber
  split
  · simp only [List.cons_ne_nil, if_false]
    omega
  · simp only [if_true]
    omega

end Integers

end PyJson
