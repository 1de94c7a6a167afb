import NocReport.Foundation.Slices
import NocReport.Triage.Statistics

set_option relaxedAutoImplicit false
set_option autoImplicit false

/-!
# The log a model gets to see

`build_hermes_input` (`sandbox/preprocessing.py`) sends the entries of a log, each on a line after
a marker with its id, and bounds the whole by leaving out its middle.

## Main definitions

* `Triage.annotatedLog` — `_annotated_log`.
* `Triage.compactLog` — `compact_log`.
* `Triage.CompactedWithin` — what a bounded log is meant to be.

## Main results

* `Triage.compactLog_within_iff` — when a log is bounded as meant.
* `Triage.compactLog_exceeds` — a log that gets longer.
-/

namespace Triage

/-! ## The entries with their markers -/

/-- The marker of the entry with this id. -/
def entryMarker (id : ℕ) : PyStr := py "[entry_id=" ++ .ofNat id ++ py "] "

/-- `_annotated_log`. -/
def annotatedLog (st : Statistics) (logText : PyStr) : PyStr :=
  if st.entryManifest.isEmpty then logText
  else joinText (py "\n") (st.entryManifest.map fun item => entryMarker item.id ++ item.text)

/-! ## The bound -/

/-- The marker of `compact_log`. -/
def omissionMarker (omitted : ℤ) : PyStr :=
  py "[deterministic preprocessing omitted " ++ .ofInt omitted ++
    py " bytes; see representative_entries]"

/-- The number of characters of the log besides the marker and two line breaks. -/
def available (logText : PyStr) (maxChars : ℤ) : ℤ :=
  maxChars - (omissionMarker (logText.length - maxChars)).length - 2

/-- The part of a log that is kept before the marker: `log_text[:head]`. -/
def keptHead (logText : PyStr) (maxChars : ℤ) : PyStr :=
  logText.sliceTo (available logText maxChars / 2)

/-- The part of a log that is kept after the marker: `log_text[-tail:]`. -/
def keptTail (logText : PyStr) (maxChars : ℤ) : PyStr :=
  logText.sliceFrom (-(available logText maxChars - available logText maxChars / 2))

/-- `compact_log`. -/
def compactLog (logText : PyStr) (maxChars : ℤ) : PyStr :=
  if logText.length ≤ maxChars then logText
  else
    let marker := omissionMarker (logText.length - maxChars)
    if maxChars ≤ marker.length then marker.sliceTo maxChars
    else joinText (py "\n") [keptHead logText maxChars, marker, keptTail logText maxChars]

/-- `log_excerpt` of the request: the annotated log within `MAX_DIRECT_LOG_CHARS`. -/
def logExcerpt (st : Statistics) (logText : PyStr) : PyStr :=
  compactLog (annotatedLog st logText) 2000000

/-- What a bounded log is meant to be: within the bound, and when the log does not fit and not only
the marker is left of it, with a head and a tail of the log that do not overlap. -/
structure CompactedWithin (logText : PyStr) (maxChars : ℕ) : Prop where
  length : (compactLog logText maxChars).length ≤ maxChars
  apart : maxChars < logText.length →
    (omissionMarker (logText.length - maxChars : ℕ)).length < maxChars →
      ∃ middle, logText = keptHead logText maxChars ++ middle ++ keptTail logText maxChars

/-- The log does not fit, and the bound leaves room for the marker and one or both line breaks, but
for nothing of the log. -/
def TightMarker (logText : PyStr) (maxChars : ℕ) : Prop :=
  maxChars < logText.length ∧
    (maxChars = 73 + (PyStr.ofNat (logText.length - maxChars)).length ∨
      maxChars = 74 + (PyStr.ofNat (logText.length - maxChars)).length)

section Bound

variable {logText : PyStr} {maxChars : ℕ}

lemma length_omissionMarker (omitted : ℕ) :
    (omissionMarker omitted).length = 72 + (PyStr.ofNat omitted).length := by
  have hfront : (py "[deterministic preprocessing omitted ").length = 37 := by decide
  have hback : (py " bytes; see representative_entries]").length = 35 := by decide
  have hnumber : PyStr.ofInt omitted = PyStr.ofNat omitted := by simp [PyStr.ofInt]
  rw [omissionMarker, hnumber, List.length_append, List.length_append, hfront, hback]
  omega

lemma length_joined (head marker tail : PyStr) :
    (joinText (py "\n") [head, marker, tail]).length =
      head.length + marker.length + tail.length + 2 := by
  simp [joinText, List.intercalate, List.intersperse, py]
  omega

/-- A bound with room for something of the log leaves exactly that much. -/
lemma compactLog_roomy (hlong : maxChars < logText.length)
    (hroom : (omissionMarker (logText.length - maxChars : ℕ)).length + 2 < maxChars) :
    (compactLog logText maxChars).length = maxChars ∧
      ∃ middle, logText = keptHead logText maxChars ++ middle ++ keptTail logText maxChars := by
  have homitted : ((logText.length : ℤ) - maxChars) = (logText.length - maxChars : ℕ) := by omega
  have hhead : (keptHead logText maxChars).length = (available logText maxChars / 2).toNat := by
    refine List.length_sliceTo ?_ ?_ <;> (rw [available, homitted]; omega)
  have htail : (keptTail logText maxChars).length =
      (available logText maxChars - available logText maxChars / 2).toNat := by
    rw [keptTail, List.length_sliceFrom, neg_neg] <;> (rw [available, homitted]; omega)
  constructor
  · rw [compactLog, if_neg (by omega)]
    dsimp only
    rw [homitted, if_neg (by omega), length_joined, hhead, htail, available, homitted]
    omega
  · refine List.eq_sliceTo_append_sliceFrom ?_ ?_ ?_ <;> (rw [available, homitted]; omega)

/-- A bound with room for the marker, but for nothing of the log, is exceeded: the slices take the
whole log in. -/
lemma compactLog_tight (hlong : maxChars < logText.length)
    (hfits : (omissionMarker (logText.length - maxChars : ℕ)).length < maxChars)
    (htight : maxChars ≤ (omissionMarker (logText.length - maxChars : ℕ)).length + 2) :
    maxChars < (compactLog logText maxChars).length := by
  have homitted : ((logText.length : ℤ) - maxChars) = (logText.length - maxChars : ℕ) := by omega
  have htail : keptTail logText maxChars = logText := by
    have hzero : -(available logText maxChars - available logText maxChars / 2) = 0 := by
      rw [available, homitted]
      omega
    rw [keptTail, hzero, List.sliceFrom_zero]
  rw [compactLog, if_neg (by omega)]
  dsimp only
  rw [homitted, if_neg (by omega), length_joined, htail]
  omega

/-- **When a log is bounded as meant.** It is, unless the bound leaves room for the marker and its
line breaks only. -/
theorem compactLog_within_iff (logText : PyStr) (maxChars : ℕ) :
    CompactedWithin logText maxChars ↔ ¬ TightMarker logText maxChars := by
  have hmarker := length_omissionMarker (logText.length - maxChars)
  constructor
  · rintro ⟨hlength, -⟩ ⟨hlong, htight⟩
    have := compactLog_tight hlong (by omega) (by omega)
    omega
  · intro h
    refine ⟨?_, fun hlong hfits => (compactLog_roomy hlong ?_).2⟩
    · by_cases hlong : maxChars < logText.length
      · by_cases hfits : (omissionMarker (logText.length - maxChars : ℕ)).length < maxChars
        · refine (compactLog_roomy hlong ?_).1.le
          by_contra hroom
          exact h ⟨hlong, by omega⟩
        · -- only the marker is left, cut to the bound
          have homitted : ((logText.length : ℤ) - maxChars) = (logText.length - maxChars : ℕ) := by
            omega
          rw [compactLog, if_neg (by omega)]
          dsimp only
          rw [homitted, if_pos (by omega), List.length_sliceTo] <;> omega
      · rw [compactLog, if_pos (by omega)]
        omega
    · by_contra hroom
      exact h ⟨hlong, by omega⟩

/-- A log that gets longer when it is bounded. -/
theorem compactLog_exceeds :
    ¬ ∀ (logText : PyStr) (maxChars : ℕ), CompactedWithin logText maxChars := fun h => by
  have hmarker : (omissionMarker ((List.replicate 76 97 : PyStr).length - 75 : ℕ)).length = 73 := by
    rw [List.length_replicate]
    decide
  have hexceeds := @compactLog_tight (List.replicate 76 97) 75 (by simp) (by omega) (by omega)
  have hlength := (h (List.replicate 76 97) 75).length
  omega

end Bound

end Triage
