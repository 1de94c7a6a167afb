import Mathlib.Data.List.Basic
import Mathlib.Data.Nat.Notation
import Mathlib.Data.Set.Basic

set_option relaxedAutoImplicit false
set_option autoImplicit false

/-!
# Numbers in a text

A number is a run of digits, or two such runs with a point between them. Of the places of a text
that hold numbers only the largest count: the `3` of `3.5` is no number of the text.

## Main definitions

* `Numerals` — digits and a point.
* `Numerals.NumberAt`, `Numerals.MaximalAt` — a place that holds a number, and one that is part of
  no larger one.
* `Numerals.numbers` — the numbers of a text.
* `Numerals.Splits` — a cut between the whole part of a number and its fraction.

## Main results

* `Numerals.numbers_pad` — characters around a text that are no digits add no numbers.
* `Numerals.numbers_cut_subset_iff` — when a piece from the front has only numbers of the text.
-/

/-- The characters numbers are made of. -/
structure Numerals (α : Type) where
  isDigit : α → Bool
  point : α
  point_not_digit : isDigit point = false

namespace Numerals

variable {α : Type} (num : Numerals α)

/-- A digit stands at the place. -/
def DigitAt (text : List α) (i : ℕ) : Prop := ∃ c, text[i]? = some c ∧ num.isDigit c = true

/-- The point stands at the place. -/
def PointAt (text : List α) (i : ℕ) : Prop := text[i]? = some num.point

/-- A number begins at the first place and ends before the second. -/
def NumberAt (text : List α) (start stop : ℕ) : Prop :=
  ∃ whole, start < whole ∧ (∀ i, start ≤ i → i < whole → num.DigitAt text i) ∧
    (stop = whole ∨ (num.PointAt text whole ∧ whole + 1 < stop ∧
      ∀ i, whole < i → i < stop → num.DigitAt text i))

/-- A number that is part of no larger one. -/
structure MaximalAt (text : List α) (start stop : ℕ) : Prop where
  number : num.NumberAt text start stop
  maximal : ∀ start' stop', num.NumberAt text start' stop' → start' ≤ start → stop ≤ stop' →
    start' = start ∧ stop' = stop

/-- The numbers of a text. -/
def numbers (text : List α) : Set (List α) :=
  {number | ∃ start stop, num.MaximalAt text start stop ∧ number = (text.take stop).drop start}

variable {num} {text text' : List α} {start stop : ℕ}

/-! ## Places -/

lemma not_pointAt_of_digitAt {i : ℕ} (h : num.DigitAt text i) : ¬ num.PointAt text i := by
  obtain ⟨c, hc, hdigit⟩ := h
  intro hpoint
  rw [PointAt, hc, Option.some.injEq] at hpoint
  rw [hpoint, num.point_not_digit] at hdigit
  cases hdigit

/-- A number ends after a digit, and starts with one. -/
lemma NumberAt.ends (h : num.NumberAt text start stop) :
    start < stop ∧ num.DigitAt text start ∧ num.DigitAt text (stop - 1) := by
  obtain ⟨whole, hlt, hwhole, rfl | ⟨-, hstop, hfraction⟩⟩ := h
  · exact ⟨hlt, hwhole _ le_rfl hlt, hwhole _ (by omega) (by omega)⟩
  · exact ⟨by omega, hwhole _ le_rfl hlt, hfraction _ (by omega) (by omega)⟩

/-- What is no digit within a number is its point, with digits on both sides. -/
lemma NumberAt.inside (h : num.NumberAt text start stop) {i : ℕ} (hstart : start ≤ i)
    (hstop : i < stop) (hi : ¬ num.DigitAt text i) :
    num.PointAt text i ∧ start < i ∧ i + 1 < stop ∧
      (∀ j, start ≤ j → j < i → num.DigitAt text j) ∧
      ∀ j, i < j → j < stop → num.DigitAt text j := by
  obtain ⟨whole, hlt, hwhole, rfl | ⟨hpoint, hlong, hfraction⟩⟩ := h
  · exact absurd (hwhole i hstart hstop) hi
  · rcases Nat.lt_trichotomy i whole with h | rfl | h
    · exact absurd (hwhole i hstart h) hi
    · exact ⟨hpoint, hlt, hlong, hwhole, hfraction⟩
    · exact absurd (hfraction i h hstop) hi

/-- Digits alone are a number. -/
lemma numberAt_of_digits (hlt : start < stop)
    (h : ∀ i, start ≤ i → i < stop → num.DigitAt text i) : num.NumberAt text start stop :=
  ⟨stop, hlt, h, .inl rfl⟩

/-- A text that has the characters of a number at another place has the number there. -/
lemma NumberAt.move {d e : ℕ} (h : num.NumberAt text (start + e) (stop + e))
    (hget : ∀ k, start ≤ k → k < stop → text'[k + d]? = text[k + e]?) :
    num.NumberAt text' (start + d) (stop + d) := by
  have hmove : ∀ {a b : ℕ}, start ≤ a → b ≤ stop →
      (∀ i, a + e ≤ i → i < b + e → num.DigitAt text i) →
      ∀ i, a + d ≤ i → i < b + d → num.DigitAt text' i := by
    intro a b ha hb hall i hi hi'
    obtain ⟨c, hc, hdigit⟩ := hall (i - d + e) (by omega) (by omega)
    rw [← hget (i - d) (by omega) (by omega), Nat.sub_add_cancel (by omega)] at hc
    exact ⟨c, hc, hdigit⟩
  obtain ⟨whole, hlt, hwhole, hrest⟩ := h
  obtain ⟨w, rfl⟩ : ∃ w, whole = w + e := ⟨whole - e, by omega⟩
  refine ⟨w + d, by omega, ?_⟩
  rcases hrest with hstop | ⟨hpoint, hlong, hfraction⟩
  · exact ⟨hmove le_rfl (by omega) hwhole, .inl (by omega)⟩
  · refine ⟨hmove le_rfl (by omega) hwhole, .inr ⟨?_, by omega, fun i hi hi' => ?_⟩⟩
    · exact (hget w (by omega) (by omega)).trans hpoint
    · exact hmove (show start ≤ w + 1 by omega) le_rfl (fun j hj => hfraction j (by omega)) i
        (by omega) hi'

/-! ## Characters around a text -/

section Pad

variable {front back : List α}

lemma getElem?_pad {i : ℕ} (hi : i < text.length) :
    (front ++ text ++ back)[i + front.length]? = text[i]? := by
  rw [List.append_assoc, List.getElem?_append_right (by omega), Nat.add_sub_cancel,
    List.getElem?_append_left hi]

/-- The places of numbers move with the text. -/
lemma numberAt_pad (hfront : ∀ c ∈ front, num.isDigit c = false)
    (hback : ∀ c ∈ back, num.isDigit c = false) :
    num.NumberAt (front ++ text ++ back) start stop ↔
      ∃ i j, start = i + front.length ∧ stop = j + front.length ∧ num.NumberAt text i j := by
  constructor
  · intro h
    obtain ⟨hlt, ⟨c, hc, hfirst⟩, d, hd, hlast⟩ := h.ends
    have hlow : front.length ≤ start := by
      by_contra hlow
      rw [List.append_assoc, List.getElem?_append_left (by omega)] at hc
      rw [hfront c (List.mem_of_getElem? hc)] at hfirst
      cases hfirst
    have hhigh : stop - 1 < front.length + text.length := by
      by_contra hhigh
      rw [List.getElem?_append_right (by rw [List.length_append]; omega)] at hd
      rw [hback d (List.mem_of_getElem? hd)] at hlast
      cases hlast
    obtain ⟨i, rfl⟩ : ∃ i, start = i + front.length := ⟨start - front.length, by omega⟩
    obtain ⟨j, rfl⟩ : ∃ j, stop = j + front.length := ⟨stop - front.length, by omega⟩
    exact ⟨i, j, rfl, rfl, NumberAt.move (d := 0) h fun k _ hk => (getElem?_pad (by omega)).symm⟩
  · rintro ⟨i, j, rfl, rfl, h⟩
    obtain ⟨hlt, -, c, hc, -⟩ := h.ends
    obtain ⟨hlast, -⟩ := List.getElem?_eq_some_iff.mp hc
    exact NumberAt.move (d := front.length) (e := 0) h fun k _ hk => getElem?_pad (by omega)

/-- Characters that are no digits, around a text, add no numbers. -/
theorem numbers_pad (hfront : ∀ c ∈ front, num.isDigit c = false)
    (hback : ∀ c ∈ back, num.isDigit c = false) :
    num.numbers (front ++ text ++ back) = num.numbers text := by
  have hmaximal : ∀ {i j : ℕ}, num.MaximalAt (front ++ text ++ back) (i + front.length)
      (j + front.length) ↔ num.MaximalAt text i j := by
    intro i j
    have hnumber : ∀ {i j : ℕ}, num.NumberAt (front ++ text ++ back) (i + front.length)
        (j + front.length) ↔ num.NumberAt text i j := by
      intro i j
      rw [numberAt_pad hfront hback]
      constructor
      · rintro ⟨i', j', hi, hj, h⟩
        rwa [show i = i' by omega, show j = j' by omega]
      · exact fun h => ⟨i, j, rfl, rfl, h⟩
    constructor
    · intro h
      refine ⟨hnumber.mp h.number, fun i' j' hn hi hj => ?_⟩
      have := h.maximal _ _ (hnumber.mpr hn) (by omega) (by omega)
      omega
    · intro h
      refine ⟨hnumber.mpr h.number, fun start' stop' hn hi hj => ?_⟩
      obtain ⟨i', j', rfl, rfl, hinner⟩ := (numberAt_pad hfront hback).mp hn
      have := h.maximal i' j' hinner (by omega) (by omega)
      omega
  have hslice : ∀ {i j : ℕ}, num.NumberAt text i j →
      ((front ++ text ++ back).take (j + front.length)).drop (i + front.length) =
        (text.take j).drop i := by
    intro i j h
    obtain ⟨hlt, -, c, hc, -⟩ := h.ends
    obtain ⟨hlast, -⟩ := List.getElem?_eq_some_iff.mp hc
    rw [List.append_assoc, List.take_append, List.drop_append]
    simp only [List.length_take, Nat.add_sub_cancel]
    rw [List.take_of_length_le (by omega), List.drop_of_length_le (by omega), List.nil_append,
      List.take_append_of_le_length (by omega), Nat.min_eq_right (by omega), Nat.add_sub_cancel]
  ext number
  constructor
  · rintro ⟨start, stop, h, rfl⟩
    obtain ⟨i, j, rfl, rfl, hn⟩ := (numberAt_pad hfront hback).mp h.number
    exact ⟨i, j, hmaximal.mp h, hslice hn⟩
  · rintro ⟨i, j, h, rfl⟩
    exact ⟨_, _, hmaximal.mpr h, (hslice h.number).symm⟩

end Pad

/-! ## Cutting -/

section Cut

variable {before after run : List α} {last : α}

variable (num) in
/-- A cut after `before ++ [last]` splits a number: the digits of its whole part stay, and its
fraction goes. -/
structure Splits (before : List α) (last : α) (after run : List α) : Prop where
  isPoint : last = num.point
  nonempty : run ≠ []
  digits : ∀ c ∈ run, num.isDigit c = true
  /-- the run is neither part of a longer one nor the fraction of another number -/
  front : ∃ front, before = front ++ run ∧ (∀ init c, front = init ++ [c] → num.isDigit c = false) ∧
    ∀ init c, front = init ++ [c, num.point] → num.isDigit c = false
  fraction : ∃ c rest, after = c :: rest ∧ num.isDigit c = true

lemma digitAt_cut (after : List α) (hlast : num.isDigit last = false) {i : ℕ} :
    num.DigitAt (before ++ [last]) i ↔
      i < before.length ∧ num.DigitAt (before ++ last :: after) i := by
  constructor
  · rintro ⟨c, hc, hdigit⟩
    have hlt : i < before.length := by
      by_contra hge
      rw [List.getElem?_append_right (by omega)] at hc
      have hmem := List.mem_of_getElem? hc
      rw [List.mem_singleton] at hmem
      rw [hmem, hlast] at hdigit
      cases hdigit
    rw [List.getElem?_append_left hlt] at hc
    exact ⟨hlt, c, by rwa [List.getElem?_append_left hlt], hdigit⟩
  · rintro ⟨hlt, c, hc, hdigit⟩
    rw [List.getElem?_append_left hlt] at hc
    exact ⟨c, by rwa [List.getElem?_append_left hlt], hdigit⟩

/-- The numbers of a piece from the front are at the places that are left of it. -/
lemma numberAt_cut (after : List α) (hlast : num.isDigit last = false) :
    num.NumberAt (before ++ [last]) start stop ↔
      stop ≤ before.length ∧ num.NumberAt (before ++ last :: after) start stop := by
  have hget : ∀ k, k < before.length → (before ++ [last])[k]? = (before ++ last :: after)[k]? :=
    fun k hk => by rw [List.getElem?_append_left hk, List.getElem?_append_left hk]
  constructor
  · intro h
    have hend := ((digitAt_cut after hlast).mp h.ends.2.2).1
    have hlt := h.ends.1
    exact ⟨by omega, NumberAt.move (d := 0) (e := 0) h fun k _ hk => (hget k (by omega)).symm⟩
  · rintro ⟨hstop, h⟩
    exact NumberAt.move (d := 0) (e := 0) h fun k _ hk => hget k (by omega)

/-- The whole part of a number that is split is a number of what is left. -/
lemma Splits.mem_numbers (h : num.Splits before last after run) :
    run ∈ num.numbers (before ++ [last]) := by
  have hlast : num.isDigit last = false := h.isPoint ▸ num.point_not_digit
  obtain ⟨front, rfl, hdigit, hpoint⟩ := h.front
  have hrun : 0 < run.length := List.length_pos_iff.mpr h.nonempty
  refine ⟨front.length, (front ++ run).length, ⟨?_, fun start' stop' hn hstart hstop => ?_⟩,
    by rw [List.take_left', List.drop_left]; rfl⟩
  · refine numberAt_of_digits (by rw [List.length_append]; omega) fun i hi hi' => ?_
    rw [List.length_append] at hi'
    refine ⟨run[i - front.length], ?_, h.digits _ (List.getElem_mem _)⟩
    rw [List.append_assoc, List.getElem?_append_right hi, List.getElem?_append_left (by omega)]
    exact List.getElem?_eq_getElem _
  · have hend := ((numberAt_cut [] hlast).mp hn).1
    refine ⟨?_, by omega⟩
    by_contra hne
    -- a larger number would contain the character before the run
    obtain ⟨init, x, rfl⟩ : ∃ init x, front = init ++ [x] := by
      rcases List.eq_nil_or_concat front with rfl | ⟨init, x, rfl⟩
      · simp only [List.length_nil] at hstart hne
        omega
      · exact ⟨init, x, by simp⟩
    have hx : (init ++ [x] ++ run ++ [last])[init.length]? = some x := by simp
    have hlength : (init ++ [x]).length = init.length + 1 := by simp
    rw [List.length_append] at hstop
    obtain ⟨hat, hbefore, -, hwhole, -⟩ := hn.inside (i := init.length) (by omega) (by omega) (by
      rintro ⟨c, hc, hcdigit⟩
      rw [hx, Option.some.injEq] at hc
      rw [← hc, hdigit init x rfl] at hcdigit
      cases hcdigit)
    rw [PointAt, hx, Option.some.injEq] at hat
    -- and then the digit before the point
    obtain ⟨c, hc, hcdigit⟩ := hwhole (init.length - 1) (by omega) (by omega)
    obtain ⟨init', y, rfl⟩ : ∃ init' y, init = init' ++ [y] := by
      rcases List.eq_nil_or_concat init with rfl | ⟨init', y, rfl⟩
      · simp only [List.length_nil] at hbefore
        omega
      · exact ⟨init', y, by simp⟩
    have hcy : c = y := by simpa using hc.symm
    rw [hcy, hpoint init' y (by simp [hat])] at hcdigit
    cases hcdigit

/-- A number of what is left that is none of the text is the whole part of one that is split. -/
lemma splits_of_maximalAt (hlast : num.isDigit last = false)
    (h : num.MaximalAt (before ++ [last]) start stop)
    (hnot : ¬ num.MaximalAt (before ++ last :: after) start stop) :
    num.Splits before last after (((before ++ [last]).take stop).drop start) := by
  obtain ⟨hstop, hnumber⟩ := (numberAt_cut after hlast).mp h.number
  have hlt := h.number.ends.1
  obtain ⟨start', stop', hn, hstart', hstop', hne⟩ : ∃ start' stop',
      num.NumberAt (before ++ last :: after) start' stop' ∧ start' ≤ start ∧ stop ≤ stop' ∧
        ¬(start' = start ∧ stop' = stop) := by
    by_contra hall
    refine hnot ⟨hnumber, fun start' stop' hn hs ht => ?_⟩
    by_contra hne
    exact hall ⟨start', stop', hn, hs, ht, hne⟩
  have hbeyond : before.length < stop' := by
    by_contra hle
    exact hne (h.maximal _ _ ((numberAt_cut after hlast).mpr ⟨by omega, hn⟩) hstart' hstop')
  have hget : (before ++ last :: after)[before.length]? = some last := by simp
  obtain ⟨hpoint, hbefore, hafter, hwhole, hfraction⟩ := hn.inside (i := before.length) (by omega)
    hbeyond (by
      rintro ⟨c, hc, hcdigit⟩
      rw [hget, Option.some.injEq] at hc
      rw [← hc, hlast] at hcdigit
      cases hcdigit)
  rw [PointAt, hget, Option.some.injEq] at hpoint
  -- the digits up to the cut are a number of what is left, so there are no others
  have hdigits : ∀ i, start' ≤ i → i < before.length → num.DigitAt (before ++ [last]) i :=
    fun i hi hi' => (digitAt_cut after hlast).mpr ⟨hi', hwhole i hi hi'⟩
  obtain ⟨rfl, rfl⟩ := h.maximal _ _ (numberAt_of_digits hbefore hdigits) hstart' hstop
  have hrun : ((before ++ [last]).take before.length).drop start' = before.drop start' := by simp
  rw [hrun]
  have hparts := (List.take_append_drop start' before).symm
  refine ⟨hpoint, ?_, fun c hc => ?_, ⟨before.take start', hparts, fun init c hinit => ?_,
    fun init c hinit => ?_⟩, ?_⟩
  · exact List.ne_nil_of_length_pos (by rw [List.length_drop]; omega)
  · obtain ⟨i, hi, rfl⟩ := List.getElem_of_mem hc
    rw [List.length_drop] at hi
    obtain ⟨c, hc, hdigit⟩ := hwhole (start' + i) (by omega) (by omega)
    rw [List.getElem?_append_left (by omega), List.getElem?_eq_getElem (by omega),
      Option.some.injEq] at hc
    rwa [List.getElem_drop, hc]
  · -- a digit before the run would make it longer
    rw [hinit] at hparts
    have hlength : start' = init.length + 1 := by
      have := congrArg List.length hinit
      simp only [List.length_take, List.length_append, List.length_singleton] at this
      omega
    refine Bool.eq_false_iff.mpr fun hc => ?_
    have hlonger : num.NumberAt (before ++ [last]) init.length before.length := by
      refine numberAt_of_digits (by omega) fun i hi hi' => ?_
      rcases Nat.eq_or_lt_of_le hi with rfl | hi
      · exact ⟨c, by rw [hparts]; simp, hc⟩
      · exact hdigits i (by omega) hi'
    have := (h.maximal _ _ hlonger (by omega) le_rfl).1
    omega
  · -- a digit and a point before the run would make it a fraction
    rw [hinit] at hparts
    have hlength : start' = init.length + 2 := by
      have := congrArg List.length hinit
      simp only [List.length_take, List.length_append, List.length_cons, List.length_nil] at this
      omega
    refine Bool.eq_false_iff.mpr fun hc => ?_
    have hlonger : num.NumberAt (before ++ [last]) init.length before.length := by
      refine ⟨init.length + 1, by omega, fun i hi hi' => ?_, .inr ⟨?_, by omega, ?_⟩⟩
      · exact ⟨c, by rw [hparts, show i = init.length by omega]; simp, hc⟩
      · rw [PointAt, hparts, List.append_assoc, List.append_assoc,
          List.getElem?_append_right (by omega)]
        simp
      · exact fun i hi hi' => hdigits i (by omega) hi'
    have := (h.maximal _ _ hlonger (by omega) le_rfl).1
    omega
  · obtain ⟨c, hc, hdigit⟩ := hfraction (before.length + 1) (by omega) hafter
    rw [List.getElem?_append_right (by omega), Nat.add_sub_cancel_left,
      List.getElem?_cons_succ] at hc
    cases after with
    | nil => cases hc
    | cons d rest =>
      rw [List.getElem?_cons_zero, Option.some.injEq] at hc
      exact ⟨d, rest, rfl, hc ▸ hdigit⟩

/-- **When a piece from the front has only numbers of the text.** The piece ends with a character
that is no digit. -/
theorem numbers_cut_subset_iff (hlast : num.isDigit last = false) :
    num.numbers (before ++ [last]) ⊆ num.numbers (before ++ last :: after) ↔
      ∀ run, num.Splits before last after run → run ∈ num.numbers (before ++ last :: after) := by
  constructor
  · exact fun h run hrun => h hrun.mem_numbers
  · rintro h number ⟨start, stop, hmaximal, rfl⟩
    by_cases hsame : num.MaximalAt (before ++ last :: after) start stop
    · refine ⟨start, stop, hsame, ?_⟩
      have hstop := ((numberAt_cut after hlast).mp hmaximal.number).1
      rw [List.take_append_of_le_length hstop, List.take_append_of_le_length hstop]
    · exact h _ (splits_of_maximalAt hlast hmaximal hsame)

end Cut

end Numerals
