import NocReport.Foundation.JsonDecoder
import NocReport.Foundation.TextFiles

set_option relaxedAutoImplicit false
set_option autoImplicit false

/-!
# JSON and line ends

Line ends are white space between the values of a JSON text and are refused inside its strings, so
the translation of the line ends changes nothing in what is read.

## Main definitions

* `PyJson.Blind` — a reader that does not see the translation of the line ends.

## Main results

* `PyJson.loads_universalNewlines` — `json.loads` does not see it.
-/

namespace PyJson

open TextFile

variable {α β : Type} {lib : Lib} {text : PyStr}

/-- What has been read, and the rest of the text with its line ends translated. -/
def translateRest (read : α × PyStr) : α × PyStr := (read.1, universalNewlines read.2)

/-- A reader that does not see the translation of the line ends: of the translated text it reads
the same, or raises the same, and what it leaves is translated. -/
def Blind (scan : PyStr → Except PyError (α × PyStr)) : Prop :=
  ∀ text, scan (universalNewlines text) = (scan text).map translateRest

/-- Reading on after a blind reader. -/
lemma map_translateRest_bind {x : Except PyError (α × PyStr)}
    {f : α × PyStr → Except PyError (β × PyStr)}
    (h : ∀ read, f (translateRest read) = (f read).map translateRest) :
    (x.map translateRest >>= f) = (x >>= f).map translateRest := by
  cases x with
  | error e => rfl
  | ok read => exact h read

lemma skipWhitespace_universalNewlines (text : PyStr) :
    skipWhitespace (universalNewlines text) = universalNewlines (skipWhitespace text) :=
  dropWhile_universalNewlines (by decide) (by decide) text

/-- There is nothing behind white space, or a character that is no white space. -/
lemma skipWhitespace_cases (text : PyStr) :
    (skipWhitespace text = [] ∧ skipWhitespace (universalNewlines text) = []) ∨
    ∃ c rest, c ≠ 13 ∧ skipWhitespace text = c :: rest ∧
      skipWhitespace (universalNewlines text) = c :: universalNewlines rest := by
  rw [skipWhitespace_universalNewlines]
  cases h : skipWhitespace text with
  | nil => exact .inl ⟨rfl, rfl⟩
  | cons c rest =>
    have hc : ¬ isWhitespace c = true := by
      have := List.head?_dropWhile_not isWhitespace text
      rw [skipWhitespace] at h
      simpa [h] using this
    have h13 : c ≠ 13 := by
      rintro rfl
      exact hc rfl
    exact .inr ⟨c, rest, h13, rfl, universalNewlines_cons h13⟩

/-! ## Strings -/

section Strings

lemma hexValue_lineEnd : hexValue 10 = none ∧ hexValue 13 = none := by decide

lemma unescape_lineEnd : unescape 10 = none ∧ unescape 13 = none := by decide

/-- The characters of a number are hexadecimal digits. -/
lemma hexUnit_eq_some {a b c d unit : ℕ} (h : hexUnit a b c d = some unit) :
    ∀ e ∈ [a, b, c, d], e ≠ 10 ∧ e ≠ 13 := by
  have hdigit : ∀ {e n : ℕ}, hexValue e = some n → e ≠ 10 ∧ e ≠ 13 := by
    rintro e n he
    constructor
    · rintro rfl
      simp [hexValue_lineEnd] at he
    · rintro rfl
      simp [hexValue_lineEnd] at he
  obtain ⟨n1, h1, h⟩ := Option.bind_eq_some_iff.mp h
  obtain ⟨n2, h2, h⟩ := Option.bind_eq_some_iff.mp h
  obtain ⟨n3, h3, h⟩ := Option.bind_eq_some_iff.mp h
  obtain ⟨n4, h4, -⟩ := Option.bind_eq_some_iff.mp h
  simp only [List.forall_mem_cons, List.not_mem_nil, false_imp_iff, implies_true, and_true]
  exact ⟨hdigit h1, hdigit h2, hdigit h3, hdigit h4⟩

/-- Four hexadecimal digits of the translated text are those of the text. -/
lemma escape_universalNewlines
    (h : ∀ a b c d rest, text = a :: b :: c :: d :: rest → hexUnit a b c d = none) :
    ∀ a b c d rest, universalNewlines text = a :: b :: c :: d :: rest →
      hexUnit a b c d = none := by
  intro a b c d rest htext
  by_contra hunit
  obtain ⟨unit, hunit⟩ := Option.ne_none_iff_exists'.mp hunit
  have hdigits := hexUnit_eq_some hunit
  simp only [List.forall_mem_cons, List.not_mem_nil, false_imp_iff, implies_true,
    and_true] at hdigits
  obtain ⟨ha, hb, hc, hd⟩ := hdigits
  obtain ⟨rest1, rfl, h1⟩ := of_universalNewlines_eq_cons htext ha.1
  obtain ⟨rest2, rfl, h2⟩ := of_universalNewlines_eq_cons h1.symm hb.1
  obtain ⟨rest3, rfl, h3⟩ := of_universalNewlines_eq_cons h2.symm hc.1
  obtain ⟨rest4, rfl, -⟩ := of_universalNewlines_eq_cons h3.symm hd.1
  rw [h a b c d rest4 rfl] at hunit
  cases hunit

lemma scanUnits_blind : Blind scanUnits := by
  intro text
  fun_induction scanUnits text with
  | case1 => rfl
  | case2 text =>
    rw [universalNewlines_cons (by decide), scanUnits_quote]
    rfl
  | case3 => rfl
  | case4 a b c d text unit hunit _ ih =>
    have hdigits := hexUnit_eq_some hunit
    simp only [List.forall_mem_cons, List.not_mem_nil, false_imp_iff, implies_true,
      and_true] at hdigits
    obtain ⟨ha, hb, hc, hd⟩ := hdigits
    rw [universalNewlines_cons (by decide), universalNewlines_cons (by decide),
      universalNewlines_cons ha.2, universalNewlines_cons hb.2, universalNewlines_cons hc.2,
      universalNewlines_cons hd.2, scanUnits_hex hunit, ih]
    exact map_translateRest_bind fun read => rfl
  | case5 a b c d text hunit =>
    have hnone : ∀ a' b' c' d' rest, a :: b :: c :: d :: text = a' :: b' :: c' :: d' :: rest →
        hexUnit a' b' c' d' = none := by
      intro a' b' c' d' rest heq
      cases heq
      exact hunit
    rw [universalNewlines_cons (by decide), universalNewlines_cons (by decide),
      scanUnits_hex_none (escape_universalNewlines hnone)]
    rfl
  | case6 text hshort =>
    have hnone : ∀ a b c d rest, text = a :: b :: c :: d :: rest → hexUnit a b c d = none :=
      fun a b c d rest heq => (hshort a b c d rest heq).elim
    rw [universalNewlines_cons (by decide), universalNewlines_cons (by decide),
      scanUnits_hex_none (escape_universalNewlines hnone)]
    rfl
  | case7 letter text hletter c hc _ ih =>
    have hne : letter ≠ 13 := by
      rintro rfl
      simp [unescape_lineEnd] at hc
    rw [universalNewlines_cons (by decide), universalNewlines_cons hne,
      scanUnits_letter hletter hc, ih]
    exact map_translateRest_bind fun read => rfl
  | case8 letter text hletter hnone =>
    rw [universalNewlines_cons (by decide)]
    by_cases h13 : letter = 13
    · subst h13
      rw [universalNewlines_return, scanUnits_letter_none (by decide) unescape_lineEnd.1]
      rfl
    · rw [universalNewlines_cons h13, scanUnits_letter_none hletter hnone]
      rfl
  | case9 c text h34 h92 hc =>
    by_cases h13 : c = 13
    · subst h13
      rw [universalNewlines_return, scanUnits_control (by decide)]
      rfl
    · rw [universalNewlines_cons h13, scanUnits_control hc]
      rfl
  | case10 c text h34 h92 hc ih =>
    rw [universalNewlines_cons (by omega), scanUnits_char h34 h92 (by omega), ih]
    exact map_translateRest_bind fun read => rfl

lemma scanString_blind : Blind scanString := by
  intro text
  unfold scanString
  rw [scanUnits_blind]
  exact map_translateRest_bind fun read => rfl

end Strings

/-! ## Words and numbers -/

section Scalars

lemma after_universalNewlines {word : PyStr} (hword : ∀ c ∈ word, c ≠ 10 ∧ c ≠ 13) :
    after word (universalNewlines text) = (after word text).map universalNewlines := by
  induction word generalizing text with
  | nil => rfl
  | cons c word ih =>
    obtain ⟨hc, hword⟩ := List.forall_mem_cons.mp hword
    obtain ⟨rfl, -⟩ | ⟨d, rest, -, rfl, h⟩ | ⟨rest, rest', rfl, h⟩ := universalNewlines_cases text
    · rfl
    · rw [h, after, after]
      split
      · exact ih hword
      · rfl
    · rw [h, after, after, if_neg hc.1, if_neg hc.2]
      rfl

lemma span_isDecimal (text : PyStr) :
    (universalNewlines text).takeWhile isDecimal = text.takeWhile isDecimal ∧
      (universalNewlines text).dropWhile isDecimal =
        universalNewlines (text.dropWhile isDecimal) :=
  span_universalNewlines (by decide) (by decide) text

lemma scanSign_universalNewlines (text : PyStr) :
    scanSign (universalNewlines text) = translateRest (scanSign text) := by
  obtain ⟨rfl, -⟩ | ⟨c, rest, -, rfl, h⟩ | ⟨rest, rest', rfl, h⟩ := universalNewlines_cases text
  · rfl
  · rw [h]
    unfold scanSign
    dsimp only
    split_ifs
    · rfl
    · rw [← h]
      rfl
  · simp [h, scanSign, translateRest]

lemma scanExponentSign_universalNewlines (text : PyStr) :
    scanExponentSign (universalNewlines text) = translateRest (scanExponentSign text) := by
  obtain ⟨rfl, -⟩ | ⟨c, rest, -, rfl, h⟩ | ⟨rest, rest', rfl, h⟩ := universalNewlines_cases text
  · rfl
  · rw [h]
    unfold scanExponentSign
    dsimp only
    split_ifs
    · rfl
    · rw [← h]
      rfl
  · simp [h, scanExponentSign, translateRest]

lemma scanDigits_universalNewlines (text : PyStr) :
    scanDigits (universalNewlines text) = (scanDigits text).map translateRest := by
  have hspan := span_isDecimal text
  obtain ⟨rfl, -⟩ | ⟨c, rest, -, rfl, h⟩ | ⟨rest, rest', rfl, h⟩ := universalNewlines_cases text
  · rfl
  · rw [h] at hspan ⊢
    unfold scanDigits
    dsimp only
    rw [hspan.1, hspan.2]
    split_ifs <;> rfl
  · rw [h]
    rfl

lemma scanFraction_universalNewlines (text : PyStr) :
    scanFraction (universalNewlines text) = translateRest (scanFraction text) := by
  obtain ⟨rfl, -⟩ | ⟨c, rest, -, rfl, h⟩ | ⟨rest, rest', rfl, h⟩ := universalNewlines_cases text
  · rfl
  · have hspan := span_isDecimal rest
    rw [h]
    unfold scanFraction
    dsimp only
    rw [hspan.1, hspan.2]
    split_ifs
    · rfl
    · rw [← h]
      rfl
  · simp [h, scanFraction, translateRest]

lemma scanExponent_universalNewlines (text : PyStr) :
    scanExponent (universalNewlines text) = translateRest (scanExponent text) := by
  obtain ⟨rfl, -⟩ | ⟨c, rest, -, rfl, h⟩ | ⟨rest, rest', rfl, h⟩ := universalNewlines_cases text
  · rfl
  · have hspan := span_isDecimal (scanExponentSign rest).2
    rw [h]
    unfold scanExponent
    dsimp only
    rw [scanExponentSign_universalNewlines, translateRest]
    dsimp only
    rw [hspan.1, hspan.2]
    split_ifs
    · rfl
    · rw [← h]
      rfl
  · simp [h, scanExponent, translateRest]

lemma scanNumber_universalNewlines (text : PyStr) :
    scanNumber (universalNewlines text) = (scanNumber text).map translateRest := by
  unfold scanNumber
  dsimp only
  rw [scanSign_universalNewlines, translateRest]
  dsimp only
  rw [scanDigits_universalNewlines, Option.map_map, Option.map_map]
  refine congrArg (fun f => (scanDigits (scanSign text).2).map f) (funext fun whole => ?_)
  simp only [Function.comp_apply, translateRest, scanFraction_universalNewlines,
    scanExponent_universalNewlines]

variable (lib) in
lemma scanScalar_blind : Blind (scanScalar lib) := by
  intro text
  have hwords : ∀ words : List (PyStr × Json), (∀ p ∈ words, ∀ c ∈ p.1, c ≠ 10 ∧ c ≠ 13) →
      (words.findSome? fun p => (after p.1 (universalNewlines text)).map fun rest => (p.2, rest)) =
        (words.findSome? fun p => (after p.1 text).map fun rest => (p.2, rest)).map
          translateRest := by
    intro words hwords
    induction words with
    | nil => rfl
    | cons p words ih =>
      obtain ⟨hp, hwords⟩ := List.forall_mem_cons.mp hwords
      rw [List.findSome?_cons, List.findSome?_cons, after_universalNewlines hp]
      cases hafter : after p.1 text with
      | none => exact ih hwords
      | some rest => rfl
  unfold scanScalar
  rw [hwords literals (by decide), scanNumber_universalNewlines]
  cases hfound : literals.findSome? fun p => (after p.1 text).map fun rest => (p.2, rest) with
  | some found => rfl
  | none =>
    cases scanNumber text with
    | none => rfl
    | some read =>
      obtain ⟨n, rest⟩ := read
      dsimp only [Option.map_some, Option.map_none, translateRest]
      cases n.value lib with
      | error e => rfl
      | ok v => rfl

end Scalars

/-! ## Containers -/

section Containers

variable {value : PyStr → Except PyError (Json × PyStr)} (hvalue : Blind value)

include hvalue

lemma scanItems_blind (turns : ℕ) : Blind (scanItems value turns) := by
  induction turns with
  | zero => exact fun text => rfl
  | succ turns ih =>
    intro text
    rw [scanItems, scanItems, hvalue]
    refine map_translateRest_bind fun read => ?_
    obtain ⟨v, rest⟩ := read
    dsimp only [translateRest]
    obtain ⟨h, h'⟩ | ⟨c, left, -, h, h'⟩ := skipWhitespace_cases rest
    · rw [h, h']
      rfl
    · rw [h, h']
      dsimp only
      split_ifs
      · rfl
      · rw [skipWhitespace_universalNewlines, ih]
        exact map_translateRest_bind fun read => rfl
      · rfl

lemma scanField_blind : Blind (scanField value) := by
  intro text
  obtain ⟨rfl, -⟩ | ⟨c, rest, -, rfl, h⟩ | ⟨rest, rest', rfl, h⟩ := universalNewlines_cases text
  · rfl
  · rw [h]
    unfold scanField
    dsimp only
    split_ifs
    · rw [scanString_blind]
      refine map_translateRest_bind fun read => ?_
      obtain ⟨key, rest⟩ := read
      dsimp only [translateRest]
      obtain ⟨h, h'⟩ | ⟨c, left, -, h, h'⟩ := skipWhitespace_cases rest
      · rw [h, h']
        rfl
      · rw [h, h']
        dsimp only
        split_ifs
        · rw [skipWhitespace_universalNewlines, hvalue]
          exact map_translateRest_bind fun read => rfl
        · rfl
    · rfl
  · rw [h]
    rfl

lemma scanFields_blind (turns : ℕ) : Blind (scanFields value turns) := by
  induction turns with
  | zero => exact fun text => rfl
  | succ turns ih =>
    intro text
    rw [scanFields, scanFields, scanField_blind hvalue]
    refine map_translateRest_bind fun read => ?_
    obtain ⟨field, rest⟩ := read
    dsimp only [translateRest]
    obtain ⟨h, h'⟩ | ⟨c, left, -, h, h'⟩ := skipWhitespace_cases rest
    · rw [h, h']
      rfl
    · rw [h, h']
      dsimp only
      split_ifs
      · rfl
      · rw [skipWhitespace_universalNewlines, ih]
        exact map_translateRest_bind fun read => rfl
      · rfl

variable (hshort : Shortens value)

include hshort

lemma scanArray_blind : Blind (scanArray value) := by
  intro text
  have hle := skipWhitespace_length_le text
  have hle' := skipWhitespace_length_le (universalNewlines text)
  unfold scanArray
  obtain ⟨h, h'⟩ | ⟨c, left, hc, h, h'⟩ := skipWhitespace_cases text
  · rw [h, h']
    rfl
  · rw [h] at hle
    rw [h'] at hle'
    rw [h, h']
    dsimp only
    split_ifs
    · rfl
    · -- the translated text is shorter, and so is the number of turns
      have hlt := Nat.lt_succ_of_le ((length_universalNewlines_le (c :: left)).trans hle)
      rw [universalNewlines_cons hc] at hlt
      rw [scanItems_fuel hshort (Nat.lt_succ_of_le hle') hlt, ← universalNewlines_cons hc,
        scanItems_blind hvalue]
      exact map_translateRest_bind fun read => rfl

lemma scanObject_blind : Blind (scanObject value) := by
  intro text
  have hle := skipWhitespace_length_le text
  have hle' := skipWhitespace_length_le (universalNewlines text)
  unfold scanObject
  obtain ⟨h, h'⟩ | ⟨c, left, hc, h, h'⟩ := skipWhitespace_cases text
  · rw [h, h']
    rfl
  · rw [h] at hle
    rw [h'] at hle'
    rw [h, h']
    dsimp only
    split_ifs
    · rfl
    · -- the translated text is shorter, and so is the number of turns
      have hlt := Nat.lt_succ_of_le ((length_universalNewlines_le (c :: left)).trans hle)
      rw [universalNewlines_cons hc] at hlt
      rw [scanFields_fuel hshort (Nat.lt_succ_of_le hle') hlt, ← universalNewlines_cons hc,
        scanFields_blind hvalue]
      exact map_translateRest_bind fun read => rfl

lemma scanOnce_blind {enter : Except PyError Unit} : Blind (scanOnce lib value enter) := by
  intro text
  obtain ⟨rfl, -⟩ | ⟨c, rest, -, rfl, h⟩ | ⟨rest, rest', rfl, h⟩ := universalNewlines_cases text
  · rfl
  · have hscalar := scanScalar_blind lib (c :: rest)
    rw [h] at hscalar ⊢
    unfold scanOnce
    dsimp only
    split_ifs
    · rw [scanString_blind]
      exact map_translateRest_bind fun read => rfl
    · cases enter with
      | error e => rfl
      | ok _ => exact scanObject_blind hvalue hshort rest
    · cases enter with
      | error e => rfl
      | ok _ => exact scanArray_blind hvalue hshort rest
    · exact hscalar
  · have hscalar := scanScalar_blind lib (13 :: rest)
    rw [h] at hscalar ⊢
    exact hscalar

end Containers

lemma scanValue_blind (depth : ℕ) : Blind (scanValue lib depth) := by
  induction depth with
  | zero =>
    refine scanOnce_blind (fun text => rfl) fun text v rest h => ?_
    cases h
  | succ depth ih => exact scanOnce_blind ih (scanValue_shorter depth)

/-- `json.loads` does not see the translation of the line ends. -/
theorem loads_universalNewlines (text : PyStr) :
    loads lib (universalNewlines text) = loads lib text := by
  have hhead : (universalNewlines text).head? = some 0xFEFF ↔ text.head? = some 0xFEFF := by
    obtain ⟨rfl, -⟩ | ⟨c, rest, -, rfl, h⟩ | ⟨rest, rest', rfl, h⟩ := universalNewlines_cases text
    · simp
    · simp [h]
    · simp [h]
  unfold loads
  simp only [hhead]
  split_ifs
  · rfl
  · rw [skipWhitespace_universalNewlines, scanValue_blind]
    cases scanValue lib lib.maxDepth (skipWhitespace text) with
    | error e => rfl
    | ok read =>
      obtain ⟨v, rest⟩ := read
      change (if skipWhitespace (universalNewlines rest) = [] then _ else _) = _
      obtain ⟨h, h'⟩ | ⟨c, left, -, h, h'⟩ := skipWhitespace_cases rest
      · rw [h']
        exact (if_pos rfl).trans (if_pos h).symm
      · rw [h']
        exact (if_neg (List.cons_ne_nil _ _)).trans
          (if_neg (h ▸ List.cons_ne_nil _ _)).symm

end PyJson
