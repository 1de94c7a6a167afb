import NocReport.Foundation.Numerals
import NocReport.Triage.Compaction

set_option relaxedAutoImplicit false
set_option autoImplicit false

/-!
# Numbers in shorter narratives

`_compact_narrative` takes every point for the end of a sentence, the point of a decimal number
too. A narrative that is cut there says `3` where it said `3.5`.

## Main definitions

* `Triage.Digits` — digits that are neither sentence endings nor white space.
* `Triage.KeepsNumbers` — the cut does not fall on the point of a number.

## Main results

* `Triage.compactNarrative_numbers_iff` — when a shorter narrative has only numbers it had.
* `Triage.compactNarrative_changes_number` — a narrative that gets another number.
-/

namespace Triage

/-- Digits: neither sentence endings nor white space. -/
structure Digits where
  isDigit : ℕ → Bool
  not_ending : ∀ c, isSentenceEnding c = true → isDigit c = false
  not_space : ∀ c, PyStr.isSpace c = true → isDigit c = false

/-- Decimal numbers, with a point before the fraction. -/
def Digits.numerals (d : Digits) : Numerals ℕ where
  isDigit := d.isDigit
  point := 46
  point_not_digit := d.not_ending 46 (by decide)

/-- The ASCII digits. -/
def Digits.ascii : Digits where
  isDigit := isAsciiDigit
  not_ending := fun c h => by
    have hall : ∀ d ∈ py ".!?。！？", isAsciiDigit d = false := by decide
    exact hall c (by simpa [isSentenceEnding, among] using h)
  not_space := fun c h => by
    simp only [PyStr.isSpace, isAsciiDigit, Bool.or_eq_true, Bool.and_eq_true, decide_eq_true_eq,
      beq_iff_eq, Bool.and_eq_false_iff, decide_eq_false_iff_not] at h ⊢
    omega

variable {d : Digits} {value out : PyStr} {maxChars maxSentences : ℤ}

/-- The narrative is not cut, or the cut does not fall on the point of a number, unless the whole
part of that number is a number of the narrative anyway. -/
def KeepsNumbers (d : Digits) (value : PyStr) (maxChars maxSentences : ℤ) : Prop :=
  Fits value.strip maxChars maxSentences ∨ ∀ before last after run,
    value.strip = before ++ last :: after → Cuts value.strip maxChars maxSentences before last →
      d.numerals.Splits before last after run → run ∈ d.numerals.numbers value

/-- Stripping leaves the numbers of a text. -/
lemma numbers_strip (d : Digits) (value : PyStr) :
    d.numerals.numbers value.strip = d.numerals.numbers value := by
  obtain ⟨front, back, hvalue, hfront, hback⟩ := PyStr.exists_eq_strip value
  have hpad : d.numerals.numbers (front ++ value.strip ++ back) = d.numerals.numbers value.strip :=
    Numerals.numbers_pad (fun c hc => d.not_space c (hfront c hc))
      fun c hc => d.not_space c (hback c hc)
  rw [← hpad, ← hvalue]

/-- A narrative is cut to one piece only. -/
lemma Cuts.unique {before before' : PyStr} {last last' : ℕ}
    (hfits : ¬ Fits value.strip maxChars maxSentences)
    (h : Cuts value.strip maxChars maxSentences before last)
    (h' : Cuts value.strip maxChars maxSentences before' last') :
    before' = before ∧ last' = last := by
  have hout := compactNarrative_eq_ok.mpr (.inr ⟨hfits, before, last, h, rfl⟩)
  rw [compactNarrative_eq_ok.mpr (.inr ⟨hfits, before', last', h', rfl⟩), Except.ok.injEq] at hout
  simpa using List.append_inj' hout rfl

/-- **When a shorter narrative has only numbers it had.** -/
theorem compactNarrative_numbers_iff (h : compactNarrative value maxChars maxSentences = .ok out) :
    d.numerals.numbers out ⊆ d.numerals.numbers value ↔
      KeepsNumbers d value maxChars maxSentences := by
  rcases compactNarrative_eq_ok.mp h with ⟨hfits, rfl⟩ | ⟨hfits, before, last, hcut, rfl⟩
  · exact ⟨fun _ => .inl hfits, fun _ => (numbers_strip d value).subset⟩
  · obtain ⟨after, hafter⟩ := hcut.starts
    rw [List.append_assoc, List.singleton_append] at hafter
    have hlast : d.numerals.isDigit last = false := d.not_ending last hcut.ending
    rw [← numbers_strip d value, ← hafter, Numerals.numbers_cut_subset_iff hlast, hafter]
    constructor
    · intro hall
      refine .inr fun before' last' after' run htext hcut' hsplits => ?_
      obtain ⟨rfl, rfl⟩ := hcut.unique hfits hcut'
      rw [← hafter] at htext
      obtain rfl : after = after' := by simpa using htext
      exact numbers_strip d value ▸ hall run hsplits
    · rintro (hfits' | hall) run hsplits
      · exact absurd hfits' hfits
      · exact numbers_strip d value ▸ hall before last after run hafter.symm hcut hsplits

/-- A narrative with a decimal number. -/
def latencyText : PyStr := py "Latency is 3.5 s."

/-- It is cut after the point of the number when one sentence is asked for. -/
lemma compactNarrative_latencyText :
    compactNarrative latencyText 320 1 = .ok (py "Latency is 3.") := by
  rfl

/-- What is left has numbers of its own exactly if the cut falls on the point of a number. -/
theorem latencyText_numbers_iff :
    Digits.ascii.numerals.numbers (py "Latency is 3.") ⊆ Digits.ascii.numerals.numbers latencyText ↔
      KeepsNumbers Digits.ascii latencyText 320 1 :=
  compactNarrative_numbers_iff compactNarrative_latencyText

/-- The cut falls on the point of the number. -/
lemma splits_latencyText :
    Digits.ascii.numerals.Splits (py "Latency is 3") 46 (py "5 s.") (py "3") where
  isPoint := rfl
  nonempty := by decide
  digits := by decide
  front := by
    refine ⟨py "Latency is ", rfl, fun init c h => ?_, fun init c h => ?_⟩
    · have hc : c = 32 := by simpa [py] using (congrArg List.getLast? h).symm
      rw [hc]
      rfl
    · have hpoint : (46 : ℕ) = 32 := by
        simpa [py, Digits.numerals] using (congrArg List.getLast? h).symm
      cases hpoint
  fraction := ⟨53, py " s.", rfl, rfl⟩

/-- The whole part of the number is no number of the narrative. -/
lemma three_notMem_latencyText : py "3" ∉ Digits.ascii.numerals.numbers latencyText := by
  rintro ⟨start, stop, h, hnumber⟩
  obtain ⟨hlt, hfirst, c, hlast, -⟩ := h.number.ends
  have hstop : stop - 1 < 17 := (List.getElem?_eq_some_iff.mp hlast).1
  -- the only place with this character
  have hat : latencyText[start]? = some 51 := by
    have hhead := congrArg List.head? hnumber
    rw [List.head?_drop, List.getElem?_take_of_lt hlt] at hhead
    exact hhead.symm
  have honly : ∀ i < 17, latencyText[i]? = some 51 → i = 11 := by decide
  obtain rfl := honly start (by omega) hat
  have hlength := congrArg List.length hnumber
  rw [List.length_drop, List.length_take] at hlength
  -- and there the number is longer
  have hlonger : Digits.ascii.numerals.NumberAt latencyText 11 14 := by
    refine ⟨12, by omega, fun i hi hi' => ?_, .inr ⟨rfl, by omega, fun i hi hi' => ?_⟩⟩
    · rw [show i = 11 by omega]
      exact ⟨51, rfl, rfl⟩
    · rw [show i = 13 by omega]
      exact ⟨53, rfl, rfl⟩
  have hlatency : latencyText.length = 17 := by decide
  have hone : (py "3").length = 1 := by decide
  have := (h.maximal 11 14 hlonger le_rfl (by omega)).2
  omega

/-- A narrative that is cut after the point of a number gets another number. -/
theorem compactNarrative_changes_number :
    ¬ ∀ (value out : PyStr) (maxChars maxSentences : ℤ),
      compactNarrative value maxChars maxSentences = .ok out →
        Digits.ascii.numerals.numbers out ⊆ Digits.ascii.numerals.numbers value := fun hall =>
  three_notMem_latencyText
    (hall latencyText _ 320 1 compactNarrative_latencyText splits_latencyText.mem_numbers)

end Triage
