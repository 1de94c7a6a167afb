import Mathlib.Data.List.DropRight
import NocReport.Foundation.Python

set_option relaxedAutoImplicit false
set_option autoImplicit false

/-!
# Stripping

What `str.strip` leaves of a text: everything between the white space at its two ends.

## Main results

* `PyStr.mem_of_mem_strip`, `PyStr.strip_ne_nil` — what stays.
* `PyStr.strip_prefix` — stripping a piece that starts a stripped text cuts only its end.
* `PyStr.strip_strip` — stripping twice is stripping once.
* `PyStr.strip_between` — white space around a stripped text is stripped.
* `PyStr.exists_eq_strip` — a text is what stripping leaves of it, between white space.
-/

namespace PyStr

variable {s : PyStr} {c : ℕ}

lemma strip_eq (s : PyStr) : s.strip = (s.dropWhile isSpace).rdropWhile isSpace := rfl

/-- Stripping adds nothing. -/
lemma mem_of_mem_strip (h : c ∈ s.strip) : c ∈ s := by
  have hfront : s.strip <+: s.dropWhile isSpace := List.rdropWhile_prefix _ _
  exact (List.dropWhile_sublist _).mem (hfront.mem h)

/-- A text that is stripped starts with a character that is no space. -/
lemma not_isSpace_of_strip {rest : PyStr} (h : s.strip = c :: rest) : isSpace c = false := by
  rw [strip_eq] at h
  obtain ⟨tail, htail⟩ := List.rdropWhile_prefix isSpace (s.dropWhile isSpace)
  rw [h, List.cons_append] at htail
  have hne : s.dropWhile isSpace ≠ [] := by simp [← htail]
  have hhead := List.head_dropWhile_not isSpace hne
  simpa [← htail] using hhead

/-- A text with a character that is no space is not stripped to nothing. -/
lemma strip_ne_nil (hc : c ∈ s) (h : isSpace c = false) : s.strip ≠ [] := by
  rw [strip_eq, Ne, List.rdropWhile_eq_nil_iff]
  intro hall
  have hmem : c ∈ s.dropWhile isSpace := by
    rw [← List.takeWhile_append_dropWhile (p := isSpace) (l := s), List.mem_append] at hc
    rcases hc with hc | hc
    · rw [List.mem_takeWhile_imp hc] at h
      cases h
    · exact hc
  rw [hall c hmem] at h
  cases h

/-- A text that starts and ends with characters that are no spaces is stripped already. -/
lemma strip_eq_self {last : ℕ} {rest : PyStr} (hc : isSpace c = false)
    (hlast : isSpace last = false) : strip (c :: rest ++ [last]) = c :: rest ++ [last] := by
  rw [strip_eq, List.cons_append, List.dropWhile_cons_of_neg (by simp [hc]), ← List.cons_append,
    List.rdropWhile_concat_neg _ _ _ (by simp [hlast])]

/-- A stripped text is empty, or it starts with a character that is no space. -/
lemma dropWhile_of_prefix_strip {t : PyStr} (h : t <+: s.strip) : t.dropWhile isSpace = t := by
  cases t with
  | nil => rfl
  | cons c t =>
    obtain ⟨rest, hrest⟩ := h
    have hc : isSpace c = false := not_isSpace_of_strip hrest.symm
    simp [hc]

/-- Stripping what starts a stripped text leaves something that starts it. -/
lemma strip_prefix {t : PyStr} (h : t <+: s.strip) : t.strip <+: t := by
  have hfront := dropWhile_of_prefix_strip h
  rw [strip_eq, hfront]
  exact List.rdropWhile_prefix _ _

/-- What starts a stripped text and ends with a character that is no space is stripped already. -/
lemma strip_of_prefix {t : PyStr} {last : ℕ} (h : t ++ [last] <+: s.strip)
    (hlast : isSpace last = false) : (t ++ [last]).strip = t ++ [last] := by
  rw [strip_eq, dropWhile_of_prefix_strip h, List.rdropWhile_concat_neg _ _ _ (by simp [hlast])]

/-- Stripping twice is stripping once. -/
lemma strip_strip (s : PyStr) : s.strip.strip = s.strip := by
  rw [strip_eq s.strip, dropWhile_of_prefix_strip (List.prefix_refl _), strip_eq,
    List.rdropWhile_idempotent]

/-- A text that is stripped already ends with a character that is no space. -/
lemma not_isSpace_last {before : PyStr} {last : ℕ}
    (h : strip (before ++ [last]) = before ++ [last]) : isSpace last = false := by
  have hprefix : before ++ [last] <+: strip (before ++ [last]) := by rw [h]
  have hfront := dropWhile_of_prefix_strip hprefix
  rw [strip_eq, hfront] at h
  have hne : List.rdropWhile isSpace (before ++ [last]) ≠ [] := by simp [h]
  have hlast := List.rdropWhile_last_not isSpace (before ++ [last]) hne
  simpa [h] using hlast

/-- Between white space, what is stripped already is what stripping leaves. -/
lemma strip_between {front core back : PyStr} (hfront : ∀ c ∈ front, isSpace c = true)
    (hback : ∀ c ∈ back, isSpace c = true) (hcore : core.strip = core) :
    strip (front ++ core ++ back) = core := by
  rw [strip_eq, List.append_assoc, List.dropWhile_append_of_pos hfront]
  cases core with
  | nil =>
    rw [List.nil_append, ← List.append_nil back, List.dropWhile_append_of_pos hback]
    rfl
  | cons c core =>
    have hc : isSpace c = false := not_isSpace_of_strip hcore
    have hends : List.rdropWhile isSpace (c :: core) = c :: core := by
      rw [strip_eq, List.dropWhile_cons_of_neg (by simp [hc])] at hcore
      exact hcore
    rw [List.cons_append, List.dropWhile_cons_of_neg (by simp [hc]), ← List.cons_append,
      List.rdropWhile, List.reverse_append,
      List.dropWhile_append_of_pos fun d hd => hback d (List.mem_reverse.mp hd)]
    exact hends

/-- A text is what stripping leaves of it, between white space. -/
lemma exists_eq_strip (s : PyStr) : ∃ front back : PyStr, s = front ++ s.strip ++ back ∧
    (∀ c ∈ front, isSpace c = true) ∧ ∀ c ∈ back, isSpace c = true := by
  refine ⟨s.takeWhile isSpace, (s.dropWhile isSpace).rtakeWhile isSpace, ?_, ?_, ?_⟩
  · rw [strip_eq, List.append_assoc, List.rdropWhile_append_rtakeWhile,
      List.takeWhile_append_dropWhile]
  · exact fun c hc => List.mem_takeWhile_imp hc
  · exact fun c hc => List.mem_rtakeWhile_imp hc

end PyStr
